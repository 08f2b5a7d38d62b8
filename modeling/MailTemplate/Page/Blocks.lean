import MailTemplate.Attribute.Numbers
import MailTemplate.Cascade.Resolve
import MailTemplate.Page.Style

/-!
# Blocks on a page

Each kind of block has its own markup, inside a frame that carries the block's id and padding.
Layout is done with tables, which all mail programs understand.
-/

namespace MailTemplate.Page

/-- The attributes of a table that only lays out. -/
def layoutTable : Named :=
  [("role", "presentation"), ("cellpadding", "0"), ("cellspacing", "0"), ("border", "0")]

/-- The text under a key, or a default. -/
def textOr (bag : Attributes) (key fallback : String) : String := (bag.text? key).getD fallback

/-- The value under a key as written in a declaration, or a default. -/
def cssOr (bag : Attributes) (key fallback : String) : String := (bag.css? key).getD fallback

/-- The number under a key, or a default. -/
def numberOr (bag : Attributes) (key : String) (fallback : Nat) : Binary64 :=
  ((bag.get? key).bind AttributeValue.number?).getD (Binary64.ofNat fallback)

/-- The truth value under a key, or a default. -/
def flagOr (bag : Attributes) (key : String) (fallback : Bool) : Bool :=
  ((bag.get? key).bind AttributeValue.bool?).getD fallback

/-- The items of the list under a key. -/
def itemsOf (bag : Attributes) (key : String) : List Json :=
  match (bag.get? key).bind AttributeValue.json? with
  | some (.array items) => items
  | _ => []

/-- The first text under one of the given keys of an object. -/
def firstText? (item : Json) (keys : List String) : Option String :=
  keys.findSome? fun key =>
    match item.get? key with
    | some (.text s) => some s
    | _ => none

/-- The text that shows an item. -/
def itemText : Json → String
  | .text s => s
  | .null => ""
  | item => item.compact

/-- The content of a block, which may be markup. -/
def richContent (block : ResolvedBlock) : List Piece := block.content.toList.map .rich

/-! ### Text -/

/-- A text block. -/
def textParts (block : ResolvedBlock) : List Part :=
  [.line [.element "div" (styled (innerDeclarations block.attributes)) (richContent block)]]

/-- The heading element that a block asks for. -/
def headingElement (bag : Attributes) : String :=
  match bag.text? "level" with
  | some level => if ["h1", "h2", "h3", "h4", "h5"].contains level then level else "h2"
  | none => "h2"

/-- A heading. -/
def headingParts (block : ResolvedBlock) : List Part :=
  [.line [.element (headingElement block.attributes)
    (styled ("margin:0;" ++ innerDeclarations block.attributes)) (richContent block)]]

/-! ### Images and links -/

/-- An image or an icon, as a link if it has a target; nothing without a source. -/
def imageParts (bag : Attributes) : List Part :=
  match bag.text? "src" with
  | none => []
  | some src =>
    let width : Named :=
      match bag.css? "width" with
      | some w => [("width", String.ofList (Text.dropTails ['p', 'x'] w.toList))]
      | none => []
    let image : Piece := .selfClosed "img"
      ([("src", src), ("alt", textOr bag "alt" "")] ++ width ++
        styled ("display:inline-block;border:0;outline:none;" ++ innerDeclarations bag))
    match bag.text? "href" with
    | some href => [.line [.element "a" (("href", href) :: targeted bag) [image]]]
    | none => [.line [image]]

/-- A button: a link in a coloured cell. -/
def buttonParts (block : ResolvedBlock) : List Part :=
  let bag := block.attributes
  let background := textOr bag "backgroundColor" "transparent"
  let cell : Named :=
    [("align", "center"), ("bgcolor", background),
     ("style", "border-radius:" ++ cssOr bag "borderRadius" "0" ++ ";background-color:" ++
        background ++ ";")]
  let link : Piece := .element "a"
    ([("href", textOr bag "href" "#")] ++ targeted bag ++
      styled ("display:inline-block;text-decoration:none;" ++ declarations bag))
    (richContent block)
  [.element "table" (layoutTable ++ [("align", textOr bag "align" "center")])
    [.element "tr" [] [.element "td" cell [.line [link]]]]]

/-- A link; without content it shows its address. -/
def linkParts (block : ResolvedBlock) : List Part :=
  let bag := block.attributes
  let href := textOr bag "href" "#"
  let label : Piece :=
    match block.content with
    | some content => .rich content
    | none => .text href
  [.line [.element "a"
    ([("href", href)] ++ targeted bag ++ styled (innerDeclarations bag)) [label]]]

/-! ### Rules and gaps -/

/-- A blank that lines are not broken at. -/
def hardBlank : Piece := .named "nbsp"

/-- A horizontal rule. -/
def dividerParts (bag : Attributes) : List Part :=
  let rule := cssOr bag "borderWidth" "1px" ++ " " ++ textOr bag "borderStyle" "solid" ++ " " ++
    textOr bag "borderColor" "#E4E4E7"
  [.line [.element "div"
    [("style", "border-top:" ++ rule ++ ";font-size:1px;line-height:1px;")] [hardBlank]]]

/-- A vertical gap. -/
def spacerParts (bag : Attributes) : List Part :=
  let height := cssOr bag "height" "24px"
  [.line [.element "div"
    [("style", "height:" ++ height ++ ";line-height:" ++ height ++ ";font-size:1px;")] [hardBlank]]]

/-! ### Lists of links -/

/-- A row of cells in a table of its own. -/
def linkTable (bag : Attributes) (links : List Part) : Part :=
  .element "table" (layoutTable ++ [("align", textOr bag "align" "center")])
    [.element "tr" [] links]

/-- Links to social networks, as icons where there are any; nothing without links. -/
def socialParts (bag : Attributes) : List Part :=
  let links := itemsOf bag "socialLinks"
  let size := Layout.plain.write (numberOr bag "iconSize" 24)
  let gap := Layout.plain.write ((numberOr bag "spacing" 8).div (Binary64.ofNat 2))
  let cell (link : Json) : Part :=
    let name := (firstText? link ["platform", "name", "label"]).getD "link"
    let href := (firstText? link ["url", "href"]).getD "#"
    let body : Piece :=
      match firstText? link ["icon", "src", "image"] with
      | some icon => .selfClosed "img"
          [("src", icon), ("alt", name), ("width", size), ("height", size),
           ("style", "display:block;border:0;")]
      | none => .text name
    .line [.element "td" [("style", "padding:0 " ++ gap ++ "px;")]
      [.element "a" [("href", href), ("target", "_blank")] [body]]]
  if links.isEmpty then [] else [linkTable bag (links.map cell)]

/-- A question and its answers as links. -/
def surveyParts (bag : Attributes) : List Part :=
  let question : List Part :=
    match bag.text? "question" with
    | some question =>
      [.line [.element "p" (styled ("margin:0 0 12px 0;" ++ innerDeclarations bag))
        [.text question]]]
    | none => []
  let links := itemsOf bag "links"
  let color := textOr bag "buttonColor" "#8E6FF7"
  let cell (link : Json) : Part :=
    let label := (firstText? link ["label", "text", "value"]).getD (itemText link)
    let href := (firstText? link ["url", "href"]).getD "#"
    .line [.element "td" [("style", "padding:0 4px;")]
      [.element "a"
        [("href", href), ("target", "_blank"),
         ("style", "display:inline-block;padding:8px 14px;border-radius:6px;background-color:" ++
            color ++ ";color:#FFFFFF;text-decoration:none;")]
        [.text label]]]
  question ++ if links.isEmpty then [] else [linkTable bag (links.map cell)]

/-! ### Tables and lists -/

/-- A table, the first row as a header and the rows striped if it asks for that; nothing without
rows. -/
def tableParts (bag : Attributes) : List Part :=
  let rows := itemsOf bag "rows"
  let hasHeader := flagOr bag "headerRow" true
  let border := cssOr bag "borderWidth" "1px" ++ " solid " ++ textOr bag "borderColor" "#E4E4E7"
  let background (isHeader : Bool) (index : Nat) : String :=
    let color :=
      if isHeader then bag.text? "headerBackgroundColor"
      else if index % 2 = 0 then bag.text? "stripeColor"
      else none
    match color with
    | some color => "background-color:" ++ color ++ ";"
    | none => ""
  let rowPart (row : Json) (index : Nat) : Part :=
    let isHeader := hasHeader && index == 0
    let style := "padding:" ++ cssOr bag "cellPadding" "8px" ++ ";border:" ++ border ++
      ";text-align:left;" ++ background isHeader index
    let cells :=
      match row with
      | .array cells => cells
      | cell => [cell]
    .element "tr" [] (cells.map fun cell =>
      .line [.element (if isHeader then "th" else "td") [("style", style)]
        [.text (itemText cell)]])
  if rows.isEmpty then []
  else
    [.element "table" (layoutTable ++ [("width", "100%")] ++
        styled ("border-collapse:collapse;" ++ innerDeclarations bag))
      (rows.zipIdx.map fun (row, index) => rowPart row index)]

/-- A list with bullets or numbers; nothing without items. -/
def listParts (bag : Attributes) : List Part :=
  let items := itemsOf bag "items"
  let ordered := flagOr bag "ordered" false
  let spacing := cssOr bag "itemSpacing" "4px"
  let bulletColor := textOr bag "bulletColor" "#000000"
  let itemPart (item : Json) (index : Nat) : Part :=
    let marker : Piece := if ordered then .text (toString (index + 1) ++ ".") else .named "bull"
    .element "tr" []
      [.line [.element "td"
        [("valign", "top"),
         ("style", "padding:0 8px " ++ spacing ++ " 0;color:" ++ bulletColor ++ ";")] [marker]],
       .line [.element "td" [("style", "padding:0 0 " ++ spacing ++ " 0;")]
        [.rich (itemText item)]]]
  if items.isEmpty then []
  else
    [.element "table" (layoutTable ++ styled (innerDeclarations bag))
      (items.zipIdx.map fun (item, index) => itemPart item index)]

/-! ### All kinds -/

/-- What a block shows. -/
def blockParts (block : ResolvedBlock) : List Part :=
  match block.kind with
  | .text => textParts block
  | .heading => headingParts block
  | .image => imageParts block.attributes
  | .icon => imageParts block.attributes
  | .button => buttonParts block
  | .link => linkParts block
  | .divider => dividerParts block.attributes
  | .socials => socialParts block.attributes
  | .survey => surveyParts block.attributes
  | .table => tableParts block.attributes
  | .list => listParts block.attributes
  | .spacer => spacerParts block.attributes

/-- A block in its frame. -/
def blockPart (block : ResolvedBlock) : Part :=
  let bag := block.attributes
  let align :=
    match bag.text? "align" with
    | some align => "text-align:" ++ align ++ ";"
    | none => ""
  .element "div" ([("id", block.id)] ++ styled (declarationsWhere isPadding bag ++ align))
    (blockParts block)

end MailTemplate.Page
