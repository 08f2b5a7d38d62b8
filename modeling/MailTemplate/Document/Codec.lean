import MailTemplate.Document.Basic
import MailTemplate.Json.Decode
import MailTemplate.Json.Reader

/-!
# The JSON form of documents

Documents are stored as JSON objects.  Absent optional fields are left out when writing; when
reading, they may be missing or null, and unknown fields are passed over.
-/

namespace MailTemplate

-- powers are those of the core library, whatever else is imported
attribute [local instance (high)] instPowNat

/-- The greatest width in units that the JSON form holds. -/
def maxUnits : Nat := 255

/-- The greatest width in pixels that the JSON form holds. -/
def maxWidth : Nat := 2 ^ (32 : Nat) - 1

/-! ### Writing -/

/-- A field of an object, or none for an absent value. -/
def optionalField {α : Type} (key : String) (write : α → Json) : Option α → List (String × Json)
  | some a => [(key, write a)]
  | none => []

/-- The JSON form of a block. -/
def Block.toJson (b : Block) : Json :=
  .object ([("id", .text b.id), ("type", .text b.kind.name)] ++
    optionalField "content" .text b.content ++ [("attributes", b.attributes.toJson)])

/-- The JSON form of a column. -/
def Column.toJson (c : Column) : Json :=
  .object [("id", .text c.id), ("units", .int c.units), ("attributes", c.attributes.toJson),
    ("blocks", .array (c.blocks.map Block.toJson))]

/-- The JSON form of a row. -/
def Row.toJson (r : Row) : Json :=
  .object ([("id", .text r.id)] ++ optionalField "type" (fun x => .text x.name) r.role ++
    [("attributes", r.attributes.toJson), ("container", r.container.toJson),
     ("columns", .array (r.columns.map Column.toJson))])

/-- The JSON form of a document. -/
def Document.toJson (d : Document) : Json :=
  .object ([("id", .text d.id), ("name", .text d.name), ("previewText", .text d.previewText),
    ("fontFamily", .text d.fontFamily), ("width", .int d.width), ("color", .text d.color),
    ("backgroundColor", .text d.backgroundColor),
    ("rowBackgroundColor", .text d.rowBackgroundColor), ("linkColor", .text d.linkColor)] ++
    optionalField "styleVariant" (fun v => .text v.name) d.variant ++
    optionalField "theme" .text d.theme ++ [("rows", .array (d.rows.map Row.toJson))])

/-! ### Reading -/

/-- The bag of a JSON object. -/
def Attributes.ofJson? : Json → Option Attributes
  | .object fields => some (ofList (fields.map fun f => (f.1, AttributeValue.ofJson f.2)))
  | _ => none

/-- The kind that a JSON value names. -/
def BlockKind.ofJson? (j : Json) : Option BlockKind := j.name?.bind ofName?

/-- The variant that a JSON value names. -/
def StyleVariant.ofJson? (j : Json) : Option StyleVariant := j.name?.bind ofName?

/-- The role that a JSON text names. -/
def RowRole.ofJson? (j : Json) : Option RowRole := j.text?.map ofName

/-- The fields of a block, in order. -/
def blockFieldNames : List String :=
  ["id", "type", "content", "attributes"]

/-- The block of a JSON form. -/
def Block.ofJson? (j : Json) : Option Block := do
  let j ← j.record? blockFieldNames
  let id ← j.field? "id" Json.text?
  let kind ← j.field? "type" BlockKind.ofJson?
  let content ← j.optional? "content" Json.text?
  let attributes ← j.fieldOr? "attributes" Attributes.ofJson? {}
  return { id, kind, content, attributes }

/-- The fields of a column, in order. -/
def columnFieldNames : List String :=
  ["id", "units", "attributes", "blocks"]

/-- The column of a JSON form. -/
def Column.ofJson? (j : Json) : Option Column := do
  let j ← j.record? columnFieldNames
  let id ← j.field? "id" Json.text?
  let units ← j.field? "units" (Json.natUpTo? maxUnits)
  let attributes ← j.fieldOr? "attributes" Attributes.ofJson? {}
  let blocks ← j.field? "blocks" (Json.list? Block.ofJson?)
  return { id, units, attributes, blocks }

/-- The fields of a row, in order. -/
def rowFieldNames : List String :=
  ["id", "type", "attributes", "container", "columns"]

/-- The row of a JSON form. -/
def Row.ofJson? (j : Json) : Option Row := do
  let j ← j.record? rowFieldNames
  let id ← j.field? "id" Json.text?
  let role ← j.optional? "type" RowRole.ofJson?
  let attributes ← j.fieldOr? "attributes" Attributes.ofJson? {}
  let container ← j.fieldOr? "container" Attributes.ofJson? {}
  let columns ← j.field? "columns" (Json.list? Column.ofJson?)
  return { id, role, attributes, container, columns }

/-- The fields of a document, in order. -/
def documentFieldNames : List String :=
  ["id", "name", "previewText", "fontFamily", "width", "color", "backgroundColor",
   "rowBackgroundColor", "linkColor", "styleVariant", "theme", "rows"]

/-- The document of a JSON form. -/
def Document.ofJson? (j : Json) : Option Document := do
  let j ← j.record? documentFieldNames
  let id ← j.field? "id" Json.text?
  let name ← j.field? "name" Json.text?
  let previewText ← j.field? "previewText" Json.text?
  let fontFamily ← j.field? "fontFamily" Json.text?
  let width ← j.field? "width" (Json.natUpTo? maxWidth)
  let color ← j.field? "color" Json.text?
  let backgroundColor ← j.field? "backgroundColor" Json.text?
  let rowBackgroundColor ← j.field? "rowBackgroundColor" Json.text?
  let linkColor ← j.field? "linkColor" Json.text?
  let variant ← j.optional? "styleVariant" StyleVariant.ofJson?
  let theme ← j.optional? "theme" Json.text?
  let rows ← j.field? "rows" (Json.list? Row.ofJson?)
  return { id, name, previewText, fontFamily, width, color, backgroundColor, rowBackgroundColor,
           linkColor, variant, theme, rows }

/-- The document that a JSON text holds. -/
def Document.ofText? (text : String) : Option Document :=
  match Json.parse text with
  | .ok j => ofJson? j
  | .error _ => none

end MailTemplate
