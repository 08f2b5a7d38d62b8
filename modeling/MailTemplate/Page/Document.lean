import MailTemplate.Page.Blocks
import MailTemplate.RichText

/-!
# Pages of resolved documents

A resolved document as a page: nested tables, the columns of a row side by side, or one below the
other in the mobile view.
-/

namespace MailTemplate.Page

/-- The distance of a column from the one before it, as a declaration; none for the first. -/
def gapBefore (side : String) (spacing : Binary64) (index : Nat) : String :=
  if 0 < index && (Binary64.ofNat 0).lt spacing then
    "padding-" ++ side ++ ":" ++ Layout.plain.write spacing ++ "px;"
  else ""

/-- A column as a cell of its row. -/
def columnPart (width valign gap : String) (column : ResolvedColumn) : Part :=
  let bag := column.attributes
  .element "td"
    ([("id", column.id), ("width", width), ("align", textOr bag "align" "left"),
      ("valign", textOr bag "verticalAlign" valign)] ++ styled (gap ++ declarations bag))
    (if column.blocks.isEmpty then [.line [hardBlank]] else column.blocks.map blockPart)

/-- The columns of a row: in one table row, or in one each in the mobile view. -/
def columnParts (mobile : Bool) (row : ResolvedRow) : List Part :=
  let valign := textOr row.attributes "verticalAlign" "top"
  let spacing := numberOr row.attributes "columnSpacing" 0
  if mobile then
    row.columns.zipIdx.map fun (column, index) =>
      .element "tr" [] [columnPart "100%" valign (gapBefore "top" spacing index) column]
  else
    [.element "tr" [] (row.columns.zipIdx.map fun (column, index) =>
      columnPart column.width valign (gapBefore "left" spacing index) column)]

/-- A row in its container. -/
def rowPart (mobile : Bool) (row : ResolvedRow) : Part :=
  .element "tr" []
    [.element "td"
      ([("align", textOr row.container "align" "center")] ++ styled (declarations row.container))
      [.element "table"
        (layoutTable ++ [("id", row.id), ("width", "100%")] ++ styled (declarations row.attributes))
        (columnParts mobile row)]]

/-- The head of a page. -/
def headPart (d : ResolvedDocument) : Part :=
  .element "head" []
    [.line [.empty "meta" [("charset", "UTF-8")]],
     .line [.empty "meta"
      [("name", "viewport"), ("content", "width=device-width, initial-scale=1.0")]],
     .line [.element "title" [] [.text d.name]],
     .line [.element "style" []
      [.text ("a \x7b color: " ++ d.linkColor ++ "; \x7d p \x7b margin: 0; \x7d")]]]

/-- The text that mail programs show beside the subject, hidden on the page; none if it is empty. -/
def previewParts (d : ResolvedDocument) : List Part :=
  if d.previewText.isEmpty then []
  else
    [.line [.element "div"
      [("style", "display:none;max-height:0;overflow:hidden;mso-hide:all;")]
      [.text d.previewText]]]

/-- The table that holds the rows. -/
def bodyTable (d : ResolvedDocument) : Part :=
  let width := toString d.width
  .element "table"
    (layoutTable ++ [("width", width),
      ("style", "width:" ++ width ++ "px;max-width:" ++ width ++ "px;font-family:" ++
        d.fontFamily ++ ";color:" ++ d.color ++ ";")])
    (d.rows.map (rowPart d.mobile))

/-- The body of a page. -/
def bodyPart (d : ResolvedDocument) : Part :=
  let background := "background-color:" ++ d.backgroundColor ++ ";"
  .element "body" [("style", "margin:0;padding:0;" ++ background)]
    (previewParts d ++
      [.element "table" (layoutTable ++ [("width", "100%"), ("style", background)])
        [.element "tr" [] [.element "td" [("align", "center")] [bodyTable d]]]])

/-- A whole page, after its declaration of type. -/
def pagePart (d : ResolvedDocument) : Part :=
  .element "html" [("lang", "en")] [headPart d, bodyPart d]

/-- The page of a resolved document, rich text in the normal form that `normalize` gives. -/
def write (normalize : String → String) (settings : RenderSettings) (d : ResolvedDocument) :
    String :=
  String.ofList (joinLines settings.prettyPrint settings.indent.toList
    ((0, "<!DOCTYPE html>".toList) :: (pagePart d).lines normalize 0))

/-- The page of a document in a view. -/
def ofDocument (view : View) (d : Document) : String :=
  write RichText.normalize view.settings (Cascade.resolve view d)

end MailTemplate.Page
