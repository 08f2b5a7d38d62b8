import MailTemplate.Document.Codec
import MailTemplate.Edit.Basic

/-!
# The JSON form of edits

An edit is an object whose field `op` names the operation; the other fields are its arguments.
Absent optional arguments are written as null.
-/

namespace MailTemplate

-- powers are those of the core library, whatever else is imported
attribute [local instance (high)] instPowNat

/-- The greatest position in the JSON form. -/
def maxPosition : Nat := 2 ^ (64 : Nat) - 1

/-- A number, integer or not. -/
def Binary64.ofJson? : Json → Option Binary64
  | .int n => some (ofInt n)
  | .float x => some x
  | _ => none

/-- A value, or null for an absent one. -/
def orNull {α : Type} (write : α → Json) : Option α → Json
  | some a => write a
  | none => .null

/-- The JSON form of a side. -/
def Side.toJson : Side → Json
  | above => .text "above"
  | below => .text "below"

/-- The side of a JSON form. -/
def Side.ofJson? (j : Json) : Option Side :=
  match j.name? with
  | some "above" => some above
  | some "below" => some below
  | _ => none

/-- The JSON form of a block on the move. -/
def BlockSource.toJson : BlockSource → Json
  | existing id => .object [("existing", .text id)]
  | new kind => .object [("new", .text kind.name)]

/-- The block on the move of a JSON form. -/
def BlockSource.ofJson? : Json → Option BlockSource
  | .object [("existing", .text id)] => some (existing id)
  | .object [("new", j)] => (BlockKind.ofJson? j).map new
  | _ => none

/-- The JSON form of a target. -/
def DropTarget.toJson : DropTarget → Json
  | block id => .object [("block", .text id)]
  | column id => .object [("column", .text id)]

/-- The target of a JSON form. -/
def DropTarget.ofJson? : Json → Option DropTarget
  | .object [("block", .text id)] => some (block id)
  | .object [("column", .text id)] => some (column id)
  | _ => none

namespace Edit

/-- The arguments of an edit. -/
def fields : Edit → List (String × Json)
  | moveRow dragId hoverId => [("drag_id", .text dragId), ("hover_id", .text hoverId)]
  | moveBlock source target side =>
    [("source", source.toJson), ("target", target.toJson), ("position", side.toJson)]
  | duplicateRow rowId => [("row_id", .text rowId)]
  | duplicateBlock blockId => [("block_id", .text blockId)]
  | deleteRow rowId => [("row_id", .text rowId)]
  | deleteBlock blockId => [("block_id", .text blockId)]
  | resizeColumns rowId leftColumnId leftPercent =>
    [("row_id", .text rowId), ("left_column_id", .text leftColumnId),
     ("left_percent", .float leftPercent)]
  | addColumn rowId => [("row_id", .text rowId)]
  | deleteColumn columnId => [("column_id", .text columnId)]
  | addRow widths position =>
    [("widths", .array (widths.map Json.float)), ("position", orNull (fun n => .int n) position)]
  | insertRow row position =>
    [("row", row.toJson), ("position", orNull (fun n => .int n) position)]
  | setBlockAttribute blockId key value =>
    [("block_id", .text blockId), ("key", .text key), ("value", value.toJson)]
  | removeBlockAttribute blockId key => [("block_id", .text blockId), ("key", .text key)]
  | setBlockContent blockId content =>
    [("block_id", .text blockId), ("content", orNull .text content)]
  | setRowAttribute rowId key value =>
    [("row_id", .text rowId), ("key", .text key), ("value", value.toJson)]
  | setRowRole rowId role =>
    [("row_id", .text rowId), ("row_type", orNull (fun r => .text r.name) role)]
  | setVariant variant => [("variant", orNull (fun v => .text v.name) variant)]
  | setTheme seed => [("seed", orNull .text seed)]

/-- The JSON form of an edit. -/
def toJson (edit : Edit) : Json := .object (("op", .text edit.name) :: edit.fields)

/-- The edit of an operation's name, with its arguments from the fields of an object. -/
def ofName? (name : String) (j : Json) : Option Edit :=
  let text (key : String) := j.field? key Json.text?
  let position := j.optional? "position" (Json.natUpTo? maxPosition)
  match name with
  | "move_row" => return moveRow (← text "drag_id") (← text "hover_id")
  | "move_block" =>
    return moveBlock (← j.field? "source" BlockSource.ofJson?)
      (← j.field? "target" DropTarget.ofJson?) (← j.field? "position" Side.ofJson?)
  | "duplicate_row" => return duplicateRow (← text "row_id")
  | "duplicate_block" => return duplicateBlock (← text "block_id")
  | "delete_row" => return deleteRow (← text "row_id")
  | "delete_block" => return deleteBlock (← text "block_id")
  | "resize_columns" =>
    return resizeColumns (← text "row_id") (← text "left_column_id")
      (← j.field? "left_percent" Binary64.ofJson?)
  | "add_column" => return addColumn (← text "row_id")
  | "delete_column" => return deleteColumn (← text "column_id")
  | "add_row" => return addRow (← j.field? "widths" (Json.list? Binary64.ofJson?)) (← position)
  | "insert_row" => return insertRow (← j.field? "row" Row.ofJson?) (← position)
  | "set_block_attribute" =>
    return setBlockAttribute (← text "block_id") (← text "key")
      (← j.field? "value" fun v => some (AttributeValue.ofJson v))
  | "remove_block_attribute" => return removeBlockAttribute (← text "block_id") (← text "key")
  | "set_block_content" =>
    return setBlockContent (← text "block_id") (← j.optional? "content" Json.text?)
  | "set_row_attribute" =>
    return setRowAttribute (← text "row_id") (← text "key")
      (← j.field? "value" fun v => some (AttributeValue.ofJson v))
  | "set_row_type" =>
    return setRowRole (← text "row_id") (← j.optional? "row_type" RowRole.ofJson?)
  | "set_style_variant" => return setVariant (← j.optional? "variant" StyleVariant.ofJson?)
  | "set_theme" => return setTheme (← j.optional? "seed" Json.text?)
  | _ => none

/-- The edit of a JSON form. -/
def ofJson? (j : Json) : Option Edit := do
  let name ← j.field? "op" Json.text?
  ofName? name j

end Edit

end MailTemplate
