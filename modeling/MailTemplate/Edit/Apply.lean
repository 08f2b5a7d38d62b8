import MailTemplate.Document.IdSource
import MailTemplate.Edit.Basic

/-!
# Carrying out edits

An edit finds the nodes that it names, each by the first place of its id, and changes the document
there and nowhere else.  New and copied nodes get fresh ids.
-/

namespace MailTemplate

/-! ### Changes at a place -/

namespace Document

/-- The document with one row changed. -/
def modifyRow (d : Document) (row : Nat) (f : Row → Row) : Document :=
  { d with rows := d.rows.modify row f }

/-- The document with one column changed. -/
def modifyColumn (d : Document) (place : ColumnPlace) (f : Column → Column) : Document :=
  d.modifyRow place.row fun r => { r with columns := r.columns.modify place.column f }

/-- The document with the blocks of one column changed. -/
def modifyBlocks (d : Document) (place : ColumnPlace) (f : List Block → List Block) : Document :=
  d.modifyColumn place fun c => { c with blocks := f c.blocks }

/-- The document with one block changed. -/
def modifyBlock (d : Document) (place : BlockPlace) (f : Block → Block) : Document :=
  d.modifyBlocks ⟨place.row, place.column⟩ fun blocks => blocks.modify place.block f

end Document

/-- A list with an item inserted at a position, or at its end without one or beyond it. -/
def insertAt {α : Type} (items : List α) (position : Option Nat) (item : α) : List α :=
  items.insertIdx ((position.map fun p => min p items.length).getD items.length) item

/-- The row with new widths for its columns. -/
def Row.withUnits (row : Row) (units : List Nat) : Row :=
  { row with columns := List.zipWith (fun c u => { c with units := u }) row.columns units }

/-! ### Copies -/

/-- The block under a fresh id. -/
def Block.copy (block : Block) (ids : IdSource) : Block × IdSource :=
  let (id, ids) := ids.next "block"
  ({ block with id }, ids)

/-- The column and its blocks under fresh ids. -/
def Column.copy (column : Column) (ids : IdSource) : Column × IdSource :=
  let (id, ids) := ids.next "column"
  let (blocks, ids) := IdSource.makeAll Block.copy column.blocks ids
  ({ column with id, blocks }, ids)

/-- The row and all nodes in it under fresh ids. -/
def Row.copy (row : Row) (ids : IdSource) : Row × IdSource :=
  let (id, ids) := ids.next "row"
  let (columns, ids) := IdSource.makeAll Column.copy row.columns ids
  ({ row with id, columns }, ids)

/-- The row brought onto the grid: it gets a column if it has none, and its widths are scaled if
they do not add up. -/
def Row.fit (row : Row) (ids : IdSource) : Row :=
  let row :=
    if row.columns.isEmpty then
      { row with columns := [{ id := (ids.next "column").1, units := gridUnits }] }
    else row
  if row.total = gridUnits then row
  else row.withUnits (Grid.scale (row.columns.map fun c => max 1 c.units))

namespace Edit

/-! ### Finding nodes -/

/-- The place of a row. -/
def findRow (d : Document) (id : String) : Except EditError Nat :=
  match d.rowIndex? id with
  | some i => .ok i
  | none => .error (.rowNotFound id)

/-- The place of a column. -/
def findColumn (d : Document) (id : String) : Except EditError ColumnPlace :=
  match d.columnPlace? id with
  | some p => .ok p
  | none => .error (.columnNotFound id)

/-- The place of a block. -/
def findBlock (d : Document) (id : String) : Except EditError BlockPlace :=
  match d.blockPlace? id with
  | some p => .ok p
  | none => .error (.blockNotFound id)

/-- The document with one block, found by its id, changed. -/
def onBlock (d : Document) (id : String) (f : Block → Block) : Except EditError Document := do
  let place ← findBlock d id
  return d.modifyBlock place f

/-- The document with one row, found by its id, changed. -/
def onRow (d : Document) (id : String) (f : Row → Row) : Except EditError Document := do
  let row ← findRow d id
  return d.modifyRow row f

/-- The widths of a row's columns changed by an operation of the grid. -/
def liftGrid {α : Type} (result : Except GridError α) : Except EditError α :=
  result.mapError EditError.grid

/-! ### Rows and blocks -/

/-- Puts a row directly before another one. -/
def applyMoveRow (d : Document) (dragId hoverId : String) : Except EditError Document := do
  if dragId = hoverId then throw (.sameNode dragId)
  let dragged ← findRow d dragId
  let hovered ← findRow d hoverId
  match d.rows[dragged]? with
  | none => throw (.rowNotFound dragId)
  | some row =>
    let target := if dragged < hovered then hovered - 1 else hovered
    return { d with rows := (d.rows.eraseIdx dragged).insertIdx target row }

/-- Refuses a target that does not exist or that is the moved block itself. -/
def checkTarget (d : Document) (source : BlockSource) (target : DropTarget) :
    Except EditError Unit :=
  match target with
  | .block targetId => do
    let _ ← findBlock d targetId
    match source with
    | .existing id => if id = targetId then .error (.sameNode id) else .ok ()
    | .new _ => .ok ()
  | .column id => do
    let _ ← findColumn d id
    return ()

/-- The block on the move, and the document without it. -/
def detach (d : Document) (source : BlockSource) : Except EditError (Block × Document) :=
  match source with
  | .existing id => do
    let place ← findBlock d id
    match d.blockAt? place with
    | none => .error (.blockNotFound id)
    | some (_, block) =>
      return (block, d.modifyBlocks ⟨place.row, place.column⟩ fun bs => bs.eraseIdx place.block)
  | .new kind => .ok ({ id := ((IdSource.ofDocument d).next "block").1, kind }, d)

/-- Puts a block where it lands. -/
def attach (d : Document) (block : Block) (target : DropTarget) (side : Side) :
    Except EditError Document :=
  match target with
  | .block id => do
    let place ← findBlock d id
    let index := match side with
      | .above => place.block
      | .below => place.block + 1
    return d.modifyBlocks ⟨place.row, place.column⟩ fun bs => bs.insertIdx index block
  | .column id => do
    let place ← findColumn d id
    return d.modifyBlocks place fun bs =>
      match side with
      | .above => block :: bs
      | .below => bs ++ [block]

/-- Puts a copy of a row right after it. -/
def applyDuplicateRow (d : Document) (rowId : String) : Except EditError Document := do
  let index ← findRow d rowId
  match d.rows[index]? with
  | none => throw (.rowNotFound rowId)
  | some row =>
    let copy := (row.copy (IdSource.ofDocument d)).1
    return { d with rows := d.rows.insertIdx (index + 1) copy }

/-- Puts a copy of a block right after it. -/
def applyDuplicateBlock (d : Document) (blockId : String) : Except EditError Document := do
  let place ← findBlock d blockId
  match d.blockAt? place with
  | none => throw (.blockNotFound blockId)
  | some (_, block) =>
    let copy := (block.copy (IdSource.ofDocument d)).1
    return d.modifyBlocks ⟨place.row, place.column⟩ fun bs => bs.insertIdx (place.block + 1) copy

/-! ### Columns -/

/-- Moves the divider at the right of a column. -/
def applyResize (settings : GridSettings) (d : Document) (rowId leftColumnId : String)
    (leftPercent : Binary64) : Except EditError Document := do
  let index ← findRow d rowId
  match d.rows[index]? with
  | none => throw (.rowNotFound rowId)
  | some row =>
    match row.columnIndex? leftColumnId with
    | none => throw (.columnNotFound leftColumnId)
    | some left =>
      match row.columns[left]?, row.columns[left + 1]? with
      | some leftColumn, some rightColumn => do
        let (l, r) ← liftGrid
          (Grid.resizePair settings leftColumn.units rightColumn.units leftPercent)
        return d.modifyRow index fun row => { row with
          columns := (row.columns.modify left fun c => { c with units := l }).modify (left + 1)
            fun c => { c with units := r } }
      | _, _ => throw (.noAdjacentColumn leftColumnId)

/-- Adds an empty column at the end of a row. -/
def applyAddColumn (settings : GridSettings) (d : Document) (rowId : String) :
    Except EditError Document := do
  let index ← findRow d rowId
  match d.rows[index]? with
  | none => throw (.rowNotFound rowId)
  | some row =>
    let units ← liftGrid (Grid.addColumn settings (row.columns.map Column.units))
    let column : Column :=
      { id := ((IdSource.ofDocument d).next "column").1, units := settings.newColumnUnits }
    return d.modifyRow index fun row =>
      { row with columns := (row.withUnits units).columns ++ [column] }

/-- Removes a column with its blocks. -/
def applyDeleteColumn (d : Document) (columnId : String) : Except EditError Document := do
  let place ← findColumn d columnId
  match d.rows[place.row]? with
  | none => throw (.columnNotFound columnId)
  | some row =>
    let units ← liftGrid (Grid.deleteColumn (row.columns.map Column.units) place.column)
    return d.modifyRow place.row fun row =>
      { row with columns := row.columns.eraseIdx place.column }.withUnits units

/-! ### New rows -/

/-- An empty column under a fresh id. -/
def emptyColumn (units : Nat) (ids : IdSource) : Column × IdSource :=
  let (id, ids) := ids.next "column"
  ({ id, units }, ids)

/-- Adds a row with empty columns. -/
def applyAddRow (d : Document) (widths : List Binary64) (position : Option Nat) :
    Except EditError Document := do
  let units ← liftGrid (Grid.ofPercentages widths)
  let (columns, ids) := IdSource.makeAll emptyColumn units (IdSource.ofDocument d)
  let row : Row := { id := (ids.next "row").1, columns }
  return { d with rows := insertAt d.rows position row }

/-- Inserts a row from elsewhere. -/
def applyInsertRow (d : Document) (row : Row) (position : Option Nat) :
    Except EditError Document :=
  if gridUnits < row.columns.length then .error (.tooManyColumns row.columns.length)
  else
    let (copy, ids) := row.copy (IdSource.ofDocument d)
    .ok { d with rows := insertAt d.rows position (copy.fit ids) }

/-! ### All edits -/

/-- The document after an edit. -/
def apply (settings : GridSettings) (d : Document) : Edit → Except EditError Document
  | moveRow dragId hoverId => applyMoveRow d dragId hoverId
  | moveBlock source target side => do
    checkTarget d source target
    let (block, rest) ← detach d source
    attach rest block target side
  | duplicateRow rowId => applyDuplicateRow d rowId
  | duplicateBlock blockId => applyDuplicateBlock d blockId
  | deleteRow rowId => do
    let index ← findRow d rowId
    return { d with rows := d.rows.eraseIdx index }
  | deleteBlock blockId => do
    let place ← findBlock d blockId
    return d.modifyBlocks ⟨place.row, place.column⟩ fun bs => bs.eraseIdx place.block
  | resizeColumns rowId leftColumnId leftPercent =>
    applyResize settings d rowId leftColumnId leftPercent
  | addColumn rowId => applyAddColumn settings d rowId
  | deleteColumn columnId => applyDeleteColumn d columnId
  | addRow widths position => applyAddRow d widths position
  | insertRow row position => applyInsertRow d row position
  | setBlockAttribute blockId key value =>
    onBlock d blockId fun b => { b with attributes := b.attributes.set key value }
  | removeBlockAttribute blockId key =>
    onBlock d blockId fun b => { b with attributes := b.attributes.erase key }
  | setBlockContent blockId content => onBlock d blockId fun b => { b with content }
  | setRowAttribute rowId key value =>
    onRow d rowId fun r => { r with attributes := r.attributes.set key value }
  | setRowRole rowId role => onRow d rowId fun r => { r with role }
  | setVariant variant => .ok { d with variant }
  | setTheme seed => .ok { d with theme := seed }

/-- The document after an edit, or as it was when the edit is refused. -/
def applyOrKeep (settings : GridSettings) (d : Document) (edit : Edit) : Document :=
  match edit.apply settings d with
  | .ok next => next
  | .error _ => d

end Edit

end MailTemplate
