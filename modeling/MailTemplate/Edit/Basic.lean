import MailTemplate.Grid

/-!
# Edits

An edit is one operation on a document, as data: moving, copying, adding and removing rows, columns
and blocks, and setting their attributes.  An edit that cannot be carried out names its reason.
-/

namespace MailTemplate

/-- The side of its target on which a block lands. -/
inductive Side where
  | above
  | below
  deriving DecidableEq, Repr

/-- A block on the move: one of the document's, or a new one of a kind. -/
inductive BlockSource where
  | existing (id : String)
  | new (kind : BlockKind)
  deriving DecidableEq, Repr

/-- Where a block lands: beside another block, or at the top or the bottom of a column. -/
inductive DropTarget where
  | block (id : String)
  | column (id : String)
  deriving DecidableEq, Repr

/-- An operation on a document. -/
inductive Edit where
  /-- Puts a row directly before another one. -/
  | moveRow (dragId hoverId : String)
  | moveBlock (source : BlockSource) (target : DropTarget) (side : Side)
  | duplicateRow (rowId : String)
  | duplicateBlock (blockId : String)
  | deleteRow (rowId : String)
  | deleteBlock (blockId : String)
  /-- Moves the divider at the right of a column. -/
  | resizeColumns (rowId leftColumnId : String) (leftPercent : Binary64)
  | addColumn (rowId : String)
  | deleteColumn (columnId : String)
  /-- A new row with one empty column for each width in percent. -/
  | addRow (widths : List Binary64) (position : Option Nat)
  /-- A row from elsewhere, every node of which gets a fresh id. -/
  | insertRow (row : Row) (position : Option Nat)
  | setBlockAttribute (blockId key : String) (value : AttributeValue)
  | removeBlockAttribute (blockId key : String)
  | setBlockContent (blockId : String) (content : Option String)
  | setRowAttribute (rowId key : String) (value : AttributeValue)
  | setRowRole (rowId : String) (role : Option RowRole)
  | setVariant (variant : Option StyleVariant)
  | setTheme (seed : Option String)

/-- Why an edit is refused. -/
inductive EditError where
  | rowNotFound (id : String)
  | columnNotFound (id : String)
  | blockNotFound (id : String)
  | noAdjacentColumn (id : String)
  /-- A node cannot be moved relative to itself. -/
  | sameNode (id : String)
  /-- A row with more columns than the grid has units. -/
  | tooManyColumns (count : Nat)
  | grid (error : GridError)
  deriving DecidableEq

namespace EditError

/-- A percentage in a message. -/
def percentMessage (x : Binary64) : String :=
  "Invalid column widths: " ++ Layout.plain.write x ++ "%"

/-- A reason in words. -/
def message : EditError → String
  | rowNotFound id => "Row not found: " ++ id
  | columnNotFound id => "Column not found: " ++ id
  | blockNotFound id => "Block not found: " ++ id
  | noAdjacentColumn id => "No column to the right of " ++ id
  | sameNode id => "Node cannot be moved relative to itself: " ++ id
  | tooManyColumns count =>
    "Invalid column widths: " ++ toString count ++ " columns do not fit 12 grid units"
  | grid (.percentage x) => percentMessage x
  | grid (.columnCount count) => "Invalid column widths: " ++ toString count ++ " columns"
  | grid (.noSuchColumn index) => "Invalid column widths: no column at index " ++ toString index
  | grid (.columnLimit max) => "Row already has the maximum of " ++ toString max ++ " columns"
  | grid .noDonorColumn => "No column is wide enough to donate width"
  | grid .lastColumn => "Cannot delete the only column of a row"
  | grid (.belowMinimum units min) =>
    "Columns spanning " ++ toString units ++ " units cannot both keep " ++ toString min ++ " units"

end EditError

namespace Edit

/-- The name of an operation. -/
def name : Edit → String
  | moveRow _ _ => "move_row"
  | moveBlock _ _ _ => "move_block"
  | duplicateRow _ => "duplicate_row"
  | duplicateBlock _ => "duplicate_block"
  | deleteRow _ => "delete_row"
  | deleteBlock _ => "delete_block"
  | resizeColumns _ _ _ => "resize_columns"
  | addColumn _ => "add_column"
  | deleteColumn _ => "delete_column"
  | addRow _ _ => "add_row"
  | insertRow _ _ => "insert_row"
  | setBlockAttribute _ _ _ => "set_block_attribute"
  | removeBlockAttribute _ _ => "remove_block_attribute"
  | setBlockContent _ _ => "set_block_content"
  | setRowAttribute _ _ _ => "set_row_attribute"
  | setRowRole _ _ => "set_row_type"
  | setVariant _ => "set_style_variant"
  | setTheme _ => "set_theme"

end Edit

end MailTemplate
