/-!
# Classes of elements

The sets of element names that the rules of markup speak about.  The name of a foreign element has
its language before it (`Space.qualified`).
-/

namespace MailTemplate.Markup

/-- The blanks of markup. -/
def isGap (c : Char) : Bool :=
  c == ' ' || c == '\t' || c == '\n' || c == '\x0c'

/-- The elements that have no content and no closing tag. -/
def voidElements : List String :=
  ["area", "base", "basefont", "bgsound", "br", "col", "embed", "frame", "hr", "img", "input",
   "keygen", "link", "meta", "param", "source", "track", "wbr"]

/-- The elements whose text is written as it is. -/
def verbatimElements : List String :=
  ["style", "script", "xmp", "iframe", "noembed", "noframes", "plaintext"]

/-- The headings. -/
def headings : List String := ["h1", "h2", "h3", "h4", "h5", "h6"]

/-- The elements of which a stray closing tag does not look past one. -/
def specialElements : List String :=
  ["address", "applet", "area", "article", "aside", "base", "basefont", "bgsound", "blockquote",
   "body", "br", "button", "caption", "center", "col", "colgroup", "dd", "details", "dir", "div",
   "dl", "dt", "embed", "fieldset", "figcaption", "figure", "footer", "form", "frame", "frameset",
   "h1", "h2", "h3", "h4", "h5", "h6", "head", "header", "hgroup", "hr", "html", "iframe", "img",
   "input", "isindex", "li", "link", "listing", "main", "marquee", "menu", "meta", "nav",
   "noembed", "noframes", "noscript", "object", "ol", "p", "param", "plaintext", "pre", "script",
   "section", "select", "source", "style", "summary", "table", "tbody", "td", "template",
   "textarea", "tfoot", "th", "thead", "title", "tr", "track", "ul", "wbr", "xmp"]

/-- The special elements that end the search for an open list item. -/
def listBarriers : List String :=
  specialElements.filter fun name => !(["address", "div", "p"].contains name)

/-- The elements of formulas that hold text. -/
def formulaTexts : List String := ["math mi", "math mn", "math mo", "math ms", "math mtext"]

/-- The elements of drawings that hold plain markup. -/
def drawingFrames : List String := ["svg desc", "svg foreignObject", "svg title"]

/-- The foreign elements that hold plain markup or text. -/
def foreignFrames : List String := formulaTexts ++ drawingFrames

/-- The elements that bound every scope. -/
def scopeBarriers : List String :=
  ["applet", "caption", "html", "table", "td", "th", "marquee", "object", "template"] ++
    foreignFrames

/-- The elements that bound the scope of a list item. -/
def itemBarriers : List String := ["ol", "ul"] ++ scopeBarriers

/-- The elements that bound the scope of a paragraph. -/
def paragraphBarriers : List String := "button" :: scopeBarriers

/-- The elements that bound the scope of the parts of a table. -/
def tableBarriers : List String := ["html", "table", "template"]

/-- The elements that end without a closing tag. -/
def impliedEnds : List String :=
  ["dd", "dt", "li", "option", "optgroup", "p", "rb", "rp", "rt", "rtc"]

/-- The elements that end without a closing tag where a template ends. -/
def templateImpliedEnds : List String :=
  impliedEnds ++ ["caption", "colgroup", "tbody", "td", "tfoot", "th", "thead", "tr"]

/-- The elements that take no text or content of their own inside a table. -/
def tableFrames : List String := ["table", "tbody", "tfoot", "thead", "tr"]

/-- The groups of table rows. -/
def rowGroups : List String := ["tbody", "tfoot", "thead"]

/-- The cells of a table. -/
def cells : List String := ["td", "th"]

/-- The elements that format the text in them and go on across misplaced closing tags. -/
def formattingElements : List String :=
  ["b", "big", "code", "em", "font", "i", "s", "small", "strike", "strong", "tt", "u"]

/-- The elements that end an open paragraph. -/
def flowElements : List String :=
  ["address", "article", "aside", "blockquote", "center", "details", "dialog", "dir", "div", "dl",
   "fieldset", "figcaption", "figure", "footer", "header", "hgroup", "main", "menu", "nav", "ol",
   "p", "search", "section", "summary", "ul"]

/-- The elements that a closing tag of their name closes with all in them. -/
def closableElements : List String :=
  (flowElements.filter (· != "p")) ++ ["button", "listing", "pre"]

/-- The elements that belong to the head of a page and may stand anywhere. -/
def headElements : List String :=
  ["base", "basefont", "bgsound", "link", "meta", "noframes", "script", "style", "template",
   "title"]

/-- The elements that stand only in their place, and whose tags are ignored elsewhere. -/
def placedElements : List String :=
  ["caption", "col", "colgroup", "frame", "head", "tbody", "td", "tfoot", "th", "thead", "tr"]

/-- The elements of plain markup whose opening tags end the drawing or formula that is open. -/
def foreignEnds : List String :=
  ["b", "big", "blockquote", "body", "br", "center", "code", "dd", "div", "dl", "dt", "em",
   "embed", "h1", "h2", "h3", "h4", "h5", "h6", "head", "hr", "i", "img", "li", "listing", "menu",
   "meta", "nobr", "ol", "p", "pre", "ruby", "s", "small", "span", "strong", "strike", "sub",
   "sup", "table", "tt", "u", "ul", "var"]

end MailTemplate.Markup
