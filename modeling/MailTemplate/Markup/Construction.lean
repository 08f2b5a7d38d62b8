import MailTemplate.Markup.Assembly

/-!
# The meaning of tokens

What each token does to the open elements, by mode.  No token is refused: a misplaced tag is moved,
completed or left out.  Most tokens have their effect in the mode of the moment; some only change
the mode, and are then read again (`Outcome.again`).
-/

namespace MailTemplate.Markup

/-- What a token has led to. -/
inductive Outcome where
  | done (a : Assembly)
  /-- The token is read again in another mode. -/
  | again (mode : Mode) (a : Assembly)

namespace Assembly

/-- The mode that fits the open elements. -/
def fittingMode (a : Assembly) : Mode :=
  go a.opened
where
  /-- The mode that fits elements, the innermost first. -/
  go : List Nat → Mode
    | [] => .flow
    | node :: outer =>
      match a.name node with
      | "select" =>
        match outer.find? fun n => ["template", "table"].contains (a.name n) with
        | some n => if a.name n == "table" then .selectionInTable else .selection
        | none => .selection
      | "td" => .cell
      | "th" => .cell
      | "tr" => .row
      | "tbody" => .tableBody
      | "thead" => .tableBody
      | "tfoot" => .tableBody
      | "caption" => .caption
      | "colgroup" => .columnGroup
      | "table" => .table
      | "template" => a.templates.head?.getD .flow
      | _ => go outer

/-- The state in the mode that fits the open elements. -/
def refit (a : Assembly) : Assembly := { a with mode := a.fittingMode }

/-- The state in another mode. -/
def inMode (a : Assembly) (mode : Mode) : Assembly := { a with mode }

/-! ### Tags of the head of a page -/

/-- An opening tag of the head. -/
def openHead (a : Assembly) (tag : Tag) : Assembly :=
  match tag.name with
  | "title" => a.insertRaw tag (.referenced tag.name)
  | "noframes" => a.insertRaw tag (.verbatim tag.name)
  | "style" => a.insertRaw tag (.verbatim tag.name)
  | "script" => a.insertRaw tag .script
  | "template" =>
    let a := (a.insertOpen tag).mark
    { a with mode := .template, templates := .template :: a.templates }
  | _ => a.insertClosed tag

/-- The closing tag of a template. -/
def closeTemplate (a : Assembly) : Assembly :=
  if a.isOpen "template" then
    let a := ((a.closeImplied templateImpliedEnds).popThrough ["template"]).clearToMark
    { a with templates := a.templates.tail }.refit
  else a

/-- The state with the template that is open ended, where the text ends; none if none is open. -/
def endTemplate? (a : Assembly) : Option Assembly :=
  if a.templates.isEmpty || !a.isOpen "template" then none
  else
    let a := (a.popThrough ["template"]).clearToMark
    some { a with templates := a.templates.tail }.refit

/-! ### Flowing content -/

/-- Closes what an opening tag of a list item ends. -/
def closeItem (a : Assembly) (items : List String) : Assembly :=
  match a.opened.find? fun node =>
      items.contains (a.name node) || listBarriers.contains (a.name node) with
  | some node => if items.contains (a.name node) then a.closeNamed (a.name node) else a
  | none => a

/-- Ends a link that is open when another one starts. -/
def closeLink (a : Assembly) : Assembly :=
  match a.recentFormatting.find? fun f => a.name f.1 == "a" with
  | none => a
  | some (node, _) => ((a.closeFormatting "a").dropFormatting node).closeOnly node

/-- A line feed at the front of the next text is left out. -/
def skipLineFeed (a : Assembly) : Assembly := { a with skipsLineFeed := true }

/-- An opening tag where content flows. -/
def openFlow (a : Assembly) (tag : Tag) : Assembly :=
  let tag := if tag.name == "image" then { tag with name := "img" } else tag
  let name := tag.name
  if headElements.contains name then a.openHead tag
  else if ["html", "body", "frameset"].contains name || placedElements.contains name then a
  else if flowElements.contains name then a.closeParagraph.insertOpen tag
  else if headings.contains name then
    let a := a.closeParagraph
    (if a.currentIn headings then a.pop else a).insertOpen tag
  else if formattingElements.contains name then a.restoreFormatting.insertFormatting tag
  else
    match name with
    | "pre" => (a.closeParagraph.insertOpen tag).skipLineFeed
    | "listing" => (a.closeParagraph.insertOpen tag).skipLineFeed
    | "form" =>
      if a.form.isSome && !a.isOpen "template" then a
      else
        let a := a.closeParagraph.insertOpen tag
        if a.isOpen "template" then a else { a with form := some a.current }
    | "li" => (a.closeItem ["li"]).closeParagraph.insertOpen tag
    | "dd" => (a.closeItem ["dd", "dt"]).closeParagraph.insertOpen tag
    | "dt" => (a.closeItem ["dd", "dt"]).closeParagraph.insertOpen tag
    | "plaintext" => { a.closeParagraph.insertOpen tag with content := .plain }
    | "button" =>
      let a := if a.hasInScope scopeBarriers "button"
        then (a.closeImplied impliedEnds).popThrough ["button"] else a
      a.restoreFormatting.insertOpen tag
    | "a" => a.closeLink.restoreFormatting.insertFormatting tag
    | "nobr" =>
      let a := a.restoreFormatting
      let a := if a.hasInScope scopeBarriers "nobr"
        then (a.closeFormatting "nobr").restoreFormatting else a
      a.insertFormatting tag
    | "applet" => (a.restoreFormatting.insertOpen tag).mark
    | "marquee" => (a.restoreFormatting.insertOpen tag).mark
    | "object" => (a.restoreFormatting.insertOpen tag).mark
    | "table" => (a.closeParagraph.insertOpen tag).inMode .table
    | "area" => a.restoreFormatting.insertClosed tag
    | "br" => a.restoreFormatting.insertClosed tag
    | "embed" => a.restoreFormatting.insertClosed tag
    | "img" => a.restoreFormatting.insertClosed tag
    | "keygen" => a.restoreFormatting.insertClosed tag
    | "wbr" => a.restoreFormatting.insertClosed tag
    | "input" => a.restoreFormatting.insertClosed tag
    | "param" => a.insertClosed tag
    | "source" => a.insertClosed tag
    | "track" => a.insertClosed tag
    | "hr" => a.closeParagraph.insertClosed tag
    | "textarea" => (a.insertRaw tag (.referenced name)).skipLineFeed
    | "xmp" => a.closeParagraph.restoreFormatting.insertRaw tag (.verbatim name)
    | "iframe" => a.insertRaw tag (.verbatim name)
    | "noembed" => a.insertRaw tag (.verbatim name)
    | "noscript" => a.insertRaw tag (.verbatim name)
    | "select" =>
      let inTable := [Mode.table, .caption, .tableBody, .row, .cell].contains a.mode
      (a.restoreFormatting.insertOpen tag).inMode
        (if inTable then .selectionInTable else .selection)
    | "optgroup" =>
      (if a.currentIn ["option"] then a.pop else a).restoreFormatting.insertOpen tag
    | "option" =>
      (if a.currentIn ["option"] then a.pop else a).restoreFormatting.insertOpen tag
    | "rb" =>
      (if a.hasInScope scopeBarriers "ruby" then a.closeImplied impliedEnds else a).insertOpen tag
    | "rtc" =>
      (if a.hasInScope scopeBarriers "ruby" then a.closeImplied impliedEnds else a).insertOpen tag
    | "rp" =>
      (if a.hasInScope scopeBarriers "ruby" then a.closeImplied impliedEnds ["rtc"]
        else a).insertOpen tag
    | "rt" =>
      (if a.hasInScope scopeBarriers "ruby" then a.closeImplied impliedEnds ["rtc"]
        else a).insertOpen tag
    | "math" => a.restoreFormatting.insertForeign .math tag
    | "svg" => a.restoreFormatting.insertForeign .svg tag
    | _ => a.restoreFormatting.insertOpen tag

/-- The closing tag of a form. -/
def closeForm (a : Assembly) : Assembly :=
  if a.isOpen "template" then
    if a.hasInScope scopeBarriers "form" then
      (a.closeImplied impliedEnds).popThrough ["form"]
    else a
  else
    match a.form with
    | none => a
    | some node =>
      let a := { a with form := none }
      if a.inScope scopeBarriers (· == node) then (a.closeImplied impliedEnds).closeOnly node
      else a

/-- A closing tag where content flows. -/
def closeFlow (a : Assembly) (name : String) : Assembly :=
  if ["body", "html"].contains name then a
  else if closableElements.contains name then
    if a.hasInScope scopeBarriers name then a.closeNamed name else a
  else if formattingElements.contains name then a.closeFormatting name
  else if headings.contains name then
    if a.inScope scopeBarriers fun node => headings.contains (a.name node) then
      (a.closeImplied impliedEnds).popThrough headings
    else a
  else
    match name with
    | "template" => a.closeTemplate
    | "form" => a.closeForm
    | "p" =>
      let inScope := a.hasInScope paragraphBarriers "p"
      (if inScope then a else a.insertOpen { name := "p" }).closeNamed "p"
    | "li" => if a.hasInScope itemBarriers "li" then a.closeNamed "li" else a
    | "dd" => if a.hasInScope scopeBarriers "dd" then a.closeNamed "dd" else a
    | "dt" => if a.hasInScope scopeBarriers "dt" then a.closeNamed "dt" else a
    | "a" => a.closeFormatting "a"
    | "nobr" => a.closeFormatting "nobr"
    | "applet" =>
      if a.hasInScope scopeBarriers "applet" then (a.closeNamed "applet").clearToMark else a
    | "marquee" =>
      if a.hasInScope scopeBarriers "marquee" then (a.closeNamed "marquee").clearToMark else a
    | "object" =>
      if a.hasInScope scopeBarriers "object" then (a.closeNamed "object").clearToMark else a
    | "br" => a.restoreFormatting.insertClosed { name := "br" }
    | _ => a.closeAny name

/-- A token where content flows. -/
def flow (a : Assembly) : Token → Assembly
  | .text characters => a.restoreFormatting.insertText characters
  | .null => a
  | .comment characters => a.insert (.comment characters)
  | .openTag tag => a.openFlow tag
  | .closeTag name => a.closeFlow name
  | .finish => a

/-- A token that may not stand in a table, before the table. -/
def fosterFlow (a : Assembly) (token : Token) : Assembly :=
  { { a with fostering := true }.flow token with fostering := false }

/-- The end of the text. -/
def atEnd (a : Assembly) : Outcome :=
  match a.endTemplate? with
  | some a => .again a.mode a
  | none => .done a

/-! ### Tables -/

/-- An opening tag in a table, between its parts. -/
def openInTable (a : Assembly) (tag : Tag) : Outcome :=
  match tag.name with
  | "caption" => .done (((a.popTo tableBarriers).mark.insertOpen tag).inMode .caption)
  | "colgroup" => .done (((a.popTo tableBarriers).insertOpen tag).inMode .columnGroup)
  | "col" => .again .columnGroup ((a.popTo tableBarriers).insertOpen { name := "colgroup" })
  | "tbody" => .done (((a.popTo tableBarriers).insertOpen tag).inMode .tableBody)
  | "tfoot" => .done (((a.popTo tableBarriers).insertOpen tag).inMode .tableBody)
  | "thead" => .done (((a.popTo tableBarriers).insertOpen tag).inMode .tableBody)
  | "td" => .again .tableBody ((a.popTo tableBarriers).insertOpen { name := "tbody" })
  | "th" => .again .tableBody ((a.popTo tableBarriers).insertOpen { name := "tbody" })
  | "tr" => .again .tableBody ((a.popTo tableBarriers).insertOpen { name := "tbody" })
  | "table" =>
    if a.hasInScope tableBarriers "table" then
      let a := (a.popThrough ["table"]).refit
      .again a.mode a
    else .done a
  | "style" => .done (a.openHead tag)
  | "script" => .done (a.openHead tag)
  | "template" => .done (a.openHead tag)
  | "input" =>
    let hidden := tag.attributes.any fun named =>
      named.1 == "type" && Text.lowerAscii named.2.toList == "hidden".toList
    .done (if hidden then a.insertClosed tag else a.fosterFlow (.openTag tag))
  | "form" =>
    if a.isOpen "template" || a.form.isSome then .done a
    else .done { a.insertClosed tag with form := some a.forest.size }
  | _ => .done (a.fosterFlow (.openTag tag))

/-- A closing tag in a table, between its parts. -/
def closeInTable (a : Assembly) (name : String) : Assembly :=
  if name == "table" then
    if a.hasInScope tableBarriers "table" then (a.popThrough ["table"]).refit else a
  else if ["body", "caption", "col", "colgroup", "html", "tbody", "td", "tfoot", "th", "thead",
      "tr"].contains name then a
  else if name == "template" then a.closeTemplate
  else a.fosterFlow (.closeTag name)

/-- A token in a table, between its parts. -/
def inTable (a : Assembly) (token : Token) : Outcome :=
  let held : Outcome :=
    if a.currentIn tableFrames then .again .tableText { a with resumed := a.mode }
    else .done (a.fosterFlow token)
  match token with
  | .text _ => held
  | .null => held
  | .comment _ => .done (a.flow token)
  | .openTag tag => a.openInTable tag
  | .closeTag name => .done (a.closeInTable name)
  | .finish => a.atEnd

/-- Puts the text that was held back in a table: blank text in it, other text before it. -/
def release (a : Assembly) : Assembly :=
  let texts := a.held.reverse
  let a := { a with held := [] }
  if texts.all fun t => t.all isGap then texts.foldl insertText a
  else texts.foldl (fun a t => a.fosterFlow (.text t)) a

/-- A token after text in a table. -/
def inTableText (a : Assembly) : Token → Outcome
  | .text characters => .done { a with held := characters :: a.held }
  | .null => .done a
  | _ => .again a.resumed a.release

/-- A token in the caption of a table. -/
def inCaption (a : Assembly) (token : Token) : Outcome :=
  let leave (next : Assembly → Outcome) : Outcome :=
    if a.hasInScope tableBarriers "caption" then next (a.closeNamed "caption").clearToMark
    else .done a
  match token with
  | .openTag tag =>
    if ["caption", "col", "colgroup", "tbody", "td", "tfoot", "th", "thead", "tr"].contains tag.name
    then leave (.again .table)
    else .done (a.flow token)
  | .closeTag name =>
    if name == "caption" then leave fun a => .done (a.inMode .table)
    else if name == "table" then leave (.again .table)
    else if ["body", "col", "colgroup", "html", "tbody", "td", "tfoot", "th", "thead",
        "tr"].contains name then .done a
    else .done (a.flow token)
  | .finish => a.atEnd
  | _ => .done (a.flow token)

/-- A token in a group of columns. -/
def inColumnGroup (a : Assembly) (token : Token) : Outcome :=
  let leave : Outcome :=
    if a.currentIn ["colgroup"] then .again .table a.pop else .done a
  match token with
  | .text characters => if characters.all isGap then .done (a.insertText characters) else leave
  | .comment _ => .done (a.flow token)
  | .openTag tag =>
    if tag.name == "html" then .done a
    else if tag.name == "col" then .done (a.insertClosed tag)
    else if tag.name == "template" then .done (a.openHead tag)
    else leave
  | .closeTag name =>
    if name == "colgroup" then
      .done (if a.currentIn ["colgroup"] then a.pop.inMode .table else a)
    else if name == "col" then .done a
    else if name == "template" then .done a.closeTemplate
    else leave
  | .finish => a.atEnd
  | .null => leave

/-- The elements between which the rows of a group stand. -/
def groupContext : List String := ["tbody", "tfoot", "thead", "template", "html"]

/-- The elements between which the cells of a row stand. -/
def rowContext : List String := ["tr", "template", "html"]

/-- A token in a group of rows. -/
def inTableBody (a : Assembly) (token : Token) : Outcome :=
  let leave : Outcome :=
    if a.inScope tableBarriers fun node => ["table", "tbody", "tfoot"].contains (a.name node) then
      .again .table (a.popTo groupContext).pop
    else .done a
  match token with
  | .openTag tag =>
    if tag.name == "tr" then .done (((a.popTo groupContext).insertOpen tag).inMode .row)
    else if cells.contains tag.name then
      .again .row ((a.popTo groupContext).insertOpen { name := "tr" })
    else if ["caption", "col", "colgroup", "tbody", "tfoot", "thead"].contains tag.name then leave
    else a.inTable token
  | .closeTag name =>
    if rowGroups.contains name then
      .done
        (if a.hasInScope tableBarriers name then (a.popTo groupContext).pop.inMode .table else a)
    else if name == "table" then leave
    else if ["body", "caption", "col", "colgroup", "html", "td", "th", "tr"].contains name then
      .done a
    else a.inTable token
  | _ => a.inTable token

/-- A token in a row of a table. -/
def inRow (a : Assembly) (token : Token) : Outcome :=
  let closed (next : Assembly → Outcome) : Outcome :=
    if a.hasInScope tableBarriers "tr" then next (a.popTo rowContext).pop else .done a
  match token with
  | .openTag tag =>
    if cells.contains tag.name then
      .done (((a.popTo rowContext).insertOpen tag).inMode .cell).mark
    else if ["caption", "col", "colgroup", "tbody", "tfoot", "thead", "tr"].contains tag.name then
      closed (.again .tableBody)
    else a.inTable token
  | .closeTag name =>
    if name == "tr" then closed fun a => .done (a.inMode .tableBody)
    else if name == "table" then closed (.again .tableBody)
    else if rowGroups.contains name then
      if a.hasInScope tableBarriers name then closed (.again .tableBody) else .done a
    else if ["body", "caption", "col", "colgroup", "html", "td", "th"].contains name then .done a
    else a.inTable token
  | _ => a.inTable token

/-- Closes the cell that is open. -/
def closeCell (a : Assembly) : Assembly :=
  ((a.closeImplied impliedEnds).popThrough cells).clearToMark

/-- A token in a cell of a table. -/
def inCell (a : Assembly) (token : Token) : Outcome :=
  match token with
  | .openTag tag =>
    if ["caption", "col", "colgroup", "tbody", "td", "tfoot", "th", "thead", "tr"].contains tag.name
    then
      if a.inScope tableBarriers fun node => cells.contains (a.name node) then
        .again .row a.closeCell
      else .done a
    else .done (a.flow token)
  | .closeTag name =>
    if cells.contains name then
      .done (if a.hasInScope tableBarriers name then ((a.closeNamed name).clearToMark).inMode .row
        else a)
    else if ["body", "caption", "col", "colgroup", "html"].contains name then .done a
    else if tableFrames.contains name then
      if a.hasInScope tableBarriers name then .again .row a.closeCell else .done a
    else .done (a.flow token)
  | .finish => a.atEnd
  | _ => .done (a.flow token)

/-! ### Selections -/

/-- A selection list is in scope: only its parts are open in it. -/
def selectionInScope (a : Assembly) : Bool :=
  match a.opened.dropWhile fun node => ["option", "optgroup"].contains (a.name node) with
  | node :: _ => a.name node == "select"
  | [] => false

/-- A token in a selection list. -/
def inSelection (a : Assembly) (token : Token) : Outcome :=
  let popIf (a : Assembly) (name : String) : Assembly := if a.currentIn [name] then a.pop else a
  let leave : Assembly := if a.selectionInScope then (a.popThrough ["select"]).refit else a
  match token with
  | .text characters => .done (a.insertText characters)
  | .comment _ => .done (a.flow token)
  | .null => .done a
  | .openTag tag =>
    match tag.name with
    | "option" => .done ((popIf a "option").insertOpen tag)
    | "optgroup" => .done ((popIf (popIf a "option") "optgroup").insertOpen tag)
    | "hr" => .done ((popIf (popIf a "option") "optgroup").insertClosed tag)
    | "select" => .done leave
    | "script" => .done (a.openHead tag)
    | "template" => .done (a.openHead tag)
    | name =>
      if ["input", "keygen", "textarea"].contains name && a.selectionInScope then
        .again leave.mode leave
      else .done a
  | .closeTag name =>
    match name with
    | "option" => .done (popIf a "option")
    | "optgroup" =>
      let outer := a.opened.tail.head?.getD root
      .done (popIf (if a.name outer == "optgroup" then popIf a "option" else a) "optgroup")
    | "select" => .done leave
    | "template" => .done a.closeTemplate
    | _ => .done a
  | .finish => a.atEnd

/-- A token in a selection list in a table. -/
def inSelectionInTable (a : Assembly) (token : Token) : Outcome :=
  let leave : Outcome :=
    let a := (a.popThrough ["select"]).refit
    .again a.mode a
  let isPart (name : String) : Bool :=
    ["caption", "table", "tbody", "tfoot", "thead", "tr", "td", "th"].contains name
  match token with
  | .openTag tag => if isPart tag.name then leave else a.inSelection token
  | .closeTag name =>
    if isPart name then if a.hasInScope tableBarriers name then leave else .done a
    else a.inSelection token
  | _ => a.inSelection token

/-! ### All modes -/

/-- A token at the front of a template, whose first tag decides how the rest is read. -/
def inTemplate (a : Assembly) (token : Token) : Outcome :=
  let turn (mode : Mode) : Outcome :=
    .again mode { a with templates := mode :: a.templates.tail }
  match token with
  | .openTag tag =>
    let name := tag.name
    if headElements.contains name then .done (a.openHead tag)
    else if ["caption", "colgroup", "tbody", "tfoot", "thead"].contains name then turn .table
    else if name == "col" then turn .columnGroup
    else if name == "tr" then turn .tableBody
    else if cells.contains name then turn .row
    else turn .flow
  | .closeTag name => .done (if name == "template" then a.closeTemplate else a)
  | .finish => a.atEnd
  | .null => .done a
  | _ => .done (a.flow token)

/-- A token in an element of plain text. -/
def inRawText (a : Assembly) (token : Token) : Outcome :=
  match token with
  | .text characters => .done (a.insertText characters)
  | .closeTag _ => .done { a.pop with mode := a.resumed, content := .markup }
  | .finish => .again a.resumed a.pop
  | _ => .done a

/-- A token in the mode of the moment. -/
def step (a : Assembly) (token : Token) : Outcome :=
  match a.mode with
  | .flow => if token = .finish then a.atEnd else .done (a.flow token)
  | .rawText => a.inRawText token
  | .table => a.inTable token
  | .tableText => a.inTableText token
  | .caption => a.inCaption token
  | .columnGroup => a.inColumnGroup token
  | .tableBody => a.inTableBody token
  | .row => a.inRow token
  | .cell => a.inCell token
  | .selection => a.inSelection token
  | .selectionInTable => a.inSelectionInTable token
  | .template => a.inTemplate token

/-! ### Foreign elements -/

/-- The token is read by the rules of the foreign element that is open. -/
def isForeign (a : Assembly) (token : Token) : Bool :=
  let holds (isTag : String → Bool) : Bool :=
    match token with
    | .text _ => true
    | .null => true
    | .openTag tag => isTag tag.name
    | _ => false
  if !a.inForeign || token = .finish then false
  else if a.currentIn formulaTexts then !holds fun name => !(["malignmark", "mglyph"].contains name)
  else if a.currentIn drawingFrames then !holds fun _ => true
  else if a.currentIn ["math annotation-xml"] then
    match token with
    | .openTag tag => tag.name != "svg"
    | _ => true
  else true

/-- The opening tag ends the drawing or formula that is open. -/
def endsForeign (tag : Tag) : Bool :=
  foreignEnds.contains tag.name ||
    (tag.name == "font" && tag.attributes.any fun a => ["color", "face", "size"].contains a.1)

/-- Closes elements until one is innermost that holds plain markup. -/
def leaveForeign (a : Assembly) : Assembly :=
  { a with
    opened := a.opened.dropWhile fun node =>
      a.forest.space node != .html && !foreignFrames.contains (a.name node) }

/-- A closing tag in a foreign element.  It closes the innermost element of its name, whatever the
case of that; past the foreign elements it means what it means in the mode of the moment. -/
def closeForeign (a : Assembly) (name : String) : Outcome :=
  let closes (node : Nat) : Bool :=
    Text.lowerAscii (a.forest.localName node).toList == name.toList
  match a.opened.dropWhile fun node => a.forest.space node != .html && !closes node with
  | node :: outer =>
    if outer.isEmpty then .done a
    else if a.forest.space node = .html then a.step (.closeTag name)
    else .done { a with opened := outer }
  | [] => .done a

/-- A token in a foreign element. -/
def stepForeign (a : Assembly) (token : Token) : Outcome :=
  match token with
  | .text characters => .done (a.insertText characters)
  | .null => .done (a.insertText [replacement])
  | .comment characters => .done (a.insert (.comment characters))
  | .openTag tag =>
    if endsForeign tag then a.leaveForeign.step token
    else .done (a.insertForeign (a.forest.space a.current) tag)
  | .closeTag name =>
    if ["br", "p"].contains name then a.leaveForeign.step token else a.closeForeign name
  | .finish => .done a

/-- A token, in as many modes as it takes.  `fuel` bounds their number: each mode that is left has
an open element of its own, and a few more are entered. -/
def settle (token : Token) : (fuel : Nat) → Assembly → Assembly
  | 0, a => a
  | fuel + 1, a =>
    match if a.isForeign token then a.stepForeign token else a.step token with
    | .done a => a
    | .again mode a => settle token fuel (a.inMode mode)

/-- A token after all before it. -/
def feed (a : Assembly) (token : Token) : Assembly :=
  let skips := a.skipsLineFeed
  let a := { a with skipsLineFeed := false }
  let fuel := 2 * a.opened.length + 16
  match token with
  | .text ('\n' :: rest) =>
    if skips then
      match rest with
      | [] => a
      | rest => settle (.text rest) fuel a
    else settle token fuel a
  | token => settle token fuel a

/-- The next tokens of a text, and what follows them.  Character data is read in foreign elements
only. -/
def next (a : Assembly) (c : Char) (rest : List Char) : List Token × List Char :=
  match if a.inForeign then readCharacterData? (c :: rest) else none with
  | some (tokens, after) => (tokens, after)
  | none =>
    let (token, after) := readToken a.content c rest
    (token.toList, after)

/-- The state after a text and its end.  Each round takes a character, so the length of the text
bounds `fuel`. -/
def readAll : (fuel : Nat) → Assembly → List Char → Assembly
  | 0, a, _ => a.feed .finish
  | _ + 1, a, [] => a.feed .finish
  | fuel + 1, a, c :: rest =>
    let (tokens, after) := a.next c rest
    readAll fuel (tokens.foldl feed a) after

end Assembly

/-- The nodes that a text means as the content of a page. -/
def readNodes (cs : List Char) : List Node :=
  let cs := withLineFeeds cs
  (Assembly.readAll cs.length .start cs).forest.nodesUnder Assembly.root

end MailTemplate.Markup
