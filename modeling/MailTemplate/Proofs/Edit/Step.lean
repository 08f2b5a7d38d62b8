import Mathlib.Tactic
import MailTemplate.Edit.Apply
import MailTemplate.Proofs.Success

/-!
# What an edit does when it succeeds

`Edit.Step` relates an edit to the documents before and after it: one rule for each kind of edit,
with the nodes that the edit found and the document that came out.  A successful edit is such a step
(`step_of_apply`), so that what holds of every step holds of every successful edit; and where there
is a step the edit succeeds with it (`apply_eq_ok_iff`).  The two halves of moving a block have
rules of their own (`Detaches`, `Attaches`).
-/

namespace MailTemplate.Edit

/-! ### Finding nodes -/

/-- A row is found at its first place. -/
@[simp] lemma findRow_eq_ok {d : Document} {id : String} {index : ℕ} :
    findRow d id = .ok index ↔ d.rowIndex? id = some index := by
  unfold findRow
  cases d.rowIndex? id with
  | none => exact ⟨nofun, nofun⟩
  | some found => rw [Except.ok.injEq, Option.some.injEq]

/-- A column is found at its first place. -/
@[simp] lemma findColumn_eq_ok {d : Document} {id : String} {place : ColumnPlace} :
    findColumn d id = .ok place ↔ d.columnPlace? id = some place := by
  unfold findColumn
  cases d.columnPlace? id with
  | none => exact ⟨nofun, nofun⟩
  | some found => rw [Except.ok.injEq, Option.some.injEq]

/-- A block is found at its first place. -/
@[simp] lemma findBlock_eq_ok {d : Document} {id : String} {place : BlockPlace} :
    findBlock d id = .ok place ↔ d.blockPlace? id = some place := by
  unfold findBlock
  cases d.blockPlace? id with
  | none => exact ⟨nofun, nofun⟩
  | some found => rw [Except.ok.injEq, Option.some.injEq]

/-! ### The halves of a move -/

/-- The block that a source stands for, and the document without it. -/
inductive Detaches (d : Document) : BlockSource → Block → Document → Prop
  /-- A block of the document is taken out of its column. -/
  | existing {id : String} {place : BlockPlace} {row : Row} {block : Block}
      (hplace : d.blockPlace? id = some place) (hblock : d.blockAt? place = some (row, block)) :
      Detaches d (.existing id) block
        (d.modifyBlocks ⟨place.row, place.column⟩ fun bs => bs.eraseIdx place.block)
  /-- A new block is empty and has a fresh id. -/
  | new {kind : BlockKind} :
      Detaches d (.new kind) { id := ((IdSource.ofDocument d).next "block").1, kind } d

/-- The document after a block lands at a target. -/
inductive Attaches (d : Document) (block : Block) : DropTarget → Side → Document → Prop
  | aboveBlock {id : String} {place : BlockPlace} (hplace : d.blockPlace? id = some place) :
      Attaches d block (.block id) .above
        (d.modifyBlocks ⟨place.row, place.column⟩ fun bs => bs.insertIdx place.block block)
  | belowBlock {id : String} {place : BlockPlace} (hplace : d.blockPlace? id = some place) :
      Attaches d block (.block id) .below
        (d.modifyBlocks ⟨place.row, place.column⟩ fun bs => bs.insertIdx (place.block + 1) block)
  | columnTop {id : String} {place : ColumnPlace} (hplace : d.columnPlace? id = some place) :
      Attaches d block (.column id) .above (d.modifyBlocks place fun bs => block :: bs)
  | columnBottom {id : String} {place : ColumnPlace} (hplace : d.columnPlace? id = some place) :
      Attaches d block (.column id) .below (d.modifyBlocks place fun bs => bs ++ [block])

/-- A block is taken from where its source says. -/
lemma detaches_of_detach {d rest : Document} {source : BlockSource} {block : Block}
    (h : detach d source = .ok (block, rest)) : Detaches d source block rest := by
  cases source with
  | existing id =>
    simp only [detach, bind_eq_ok, findBlock_eq_ok] at h
    obtain ⟨place, hplace, h⟩ := h
    split at h
    · cases h
    · next row found hblock =>
      simp only [pure_eq_ok, Prod.mk.injEq] at h
      obtain ⟨rfl, rfl⟩ := h
      exact .existing hplace hblock
  | new kind =>
    simp only [detach, Except.ok.injEq, Prod.mk.injEq] at h
    obtain ⟨rfl, rfl⟩ := h
    exact .new

/-- A block lands where its target says. -/
lemma attaches_of_attach {d d' : Document} {block : Block} {target : DropTarget} {side : Side}
    (h : attach d block target side = .ok d') : Attaches d block target side d' := by
  cases target with
  | block id =>
    simp only [attach, bind_eq_ok, findBlock_eq_ok, pure_eq_ok] at h
    obtain ⟨place, hplace, rfl⟩ := h
    cases side with
    | above => exact .aboveBlock hplace
    | below => exact .belowBlock hplace
  | column id =>
    simp only [attach, bind_eq_ok, findColumn_eq_ok, pure_eq_ok] at h
    obtain ⟨place, hplace, rfl⟩ := h
    cases side with
    | above => exact .columnTop hplace
    | below => exact .columnBottom hplace

/-- A block is taken from where its source says exactly by these rules. -/
lemma detach_eq_ok_iff {d rest : Document} {source : BlockSource} {block : Block} :
    detach d source = .ok (block, rest) ↔ Detaches d source block rest := by
  refine ⟨detaches_of_detach, fun h => ?_⟩
  cases h with
  | existing hplace hblock =>
    rw [← findBlock_eq_ok] at hplace
    simp only [detach, hplace, ok_bind, hblock]
    rfl
  | new => rfl

/-- A block lands where its target says exactly by these rules. -/
lemma attach_eq_ok_iff {d d' : Document} {block : Block} {target : DropTarget} {side : Side} :
    attach d block target side = .ok d' ↔ Attaches d block target side d' := by
  refine ⟨attaches_of_attach, fun h => ?_⟩
  cases h with
  | aboveBlock hplace =>
    rw [← findBlock_eq_ok] at hplace
    simp only [attach, hplace, ok_bind]
    rfl
  | belowBlock hplace =>
    rw [← findBlock_eq_ok] at hplace
    simp only [attach, hplace, ok_bind]
    rfl
  | columnTop hplace =>
    rw [← findColumn_eq_ok] at hplace
    simp only [attach, hplace, ok_bind]
    rfl
  | columnBottom hplace =>
    rw [← findColumn_eq_ok] at hplace
    simp only [attach, hplace, ok_bind]
    rfl

/-! ### Steps -/

/-- The row with the widths of two neighbouring columns changed. -/
def resized (left leftUnits rightUnits : ℕ) (row : Row) : Row :=
  { row with
    columns := (row.columns.modify left fun c => { c with units := leftUnits }).modify (left + 1)
      fun c => { c with units := rightUnits } }

/-- The row with new widths and one more column at its end. -/
def widened (units : List ℕ) (column : Column) (row : Row) : Row :=
  { row with columns := (row.withUnits units).columns ++ [column] }

/-- The row without one of its columns, and with new widths for the others. -/
def narrowed (index : ℕ) (units : List ℕ) (row : Row) : Row :=
  { row with columns := row.columns.eraseIdx index }.withUnits units

/-- An empty row of columns with given widths under fresh ids. -/
def emptyRow (d : Document) (units : List ℕ) : Row :=
  { id := ((IdSource.makeAll emptyColumn units (IdSource.ofDocument d)).2.next "row").1
    columns := (IdSource.makeAll emptyColumn units (IdSource.ofDocument d)).1 }

/-- A copy of a row from elsewhere, brought onto the grid, under fresh ids. -/
def fittedCopy (d : Document) (row : Row) : Row :=
  (row.copy (IdSource.ofDocument d)).1.fit (row.copy (IdSource.ofDocument d)).2

/-- What an edit makes of a document when it is carried out. -/
inductive Step (settings : GridSettings) (d : Document) : Edit → Document → Prop
  | moveRow {dragId hoverId : String} {dragged hovered : ℕ} {row : Row} (hne : dragId ≠ hoverId)
      (hdragged : d.rowIndex? dragId = some dragged) (hhovered : d.rowIndex? hoverId = some hovered)
      (hrow : d.rows[dragged]? = some row) :
      Step settings d (.moveRow dragId hoverId)
        { d with
          rows := (d.rows.eraseIdx dragged).insertIdx
            (if dragged < hovered then hovered - 1 else hovered) row }
  | moveBlock {source : BlockSource} {target : DropTarget} {side : Side} {block : Block}
      {rest d' : Document} (hcheck : checkTarget d source target = .ok ())
      (hdetach : Detaches d source block rest) (hattach : Attaches rest block target side d') :
      Step settings d (.moveBlock source target side) d'
  | duplicateRow {rowId : String} {index : ℕ} {row : Row} (hindex : d.rowIndex? rowId = some index)
      (hrow : d.rows[index]? = some row) :
      Step settings d (.duplicateRow rowId)
        { d with rows := d.rows.insertIdx (index + 1) (row.copy (IdSource.ofDocument d)).1 }
  | duplicateBlock {blockId : String} {place : BlockPlace} {row : Row} {block : Block}
      (hplace : d.blockPlace? blockId = some place)
      (hblock : d.blockAt? place = some (row, block)) :
      Step settings d (.duplicateBlock blockId)
        (d.modifyBlocks ⟨place.row, place.column⟩ fun bs =>
          bs.insertIdx (place.block + 1) (block.copy (IdSource.ofDocument d)).1)
  | deleteRow {rowId : String} {index : ℕ} (hindex : d.rowIndex? rowId = some index) :
      Step settings d (.deleteRow rowId) { d with rows := d.rows.eraseIdx index }
  | deleteBlock {blockId : String} {place : BlockPlace}
      (hplace : d.blockPlace? blockId = some place) :
      Step settings d (.deleteBlock blockId)
        (d.modifyBlocks ⟨place.row, place.column⟩ fun bs => bs.eraseIdx place.block)
  | resizeColumns {rowId leftColumnId : String} {leftPercent : Binary64} {index left : ℕ}
      {row : Row} {leftColumn rightColumn : Column} {leftUnits rightUnits : ℕ}
      (hindex : d.rowIndex? rowId = some index) (hrow : d.rows[index]? = some row)
      (hleft : row.columnIndex? leftColumnId = some left)
      (hleftColumn : row.columns[left]? = some leftColumn)
      (hrightColumn : row.columns[left + 1]? = some rightColumn)
      (hunits : Grid.resizePair settings leftColumn.units rightColumn.units leftPercent =
        .ok (leftUnits, rightUnits)) :
      Step settings d (.resizeColumns rowId leftColumnId leftPercent)
        (d.modifyRow index (resized left leftUnits rightUnits))
  | addColumn {rowId : String} {index : ℕ} {row : Row} {units : List ℕ}
      (hindex : d.rowIndex? rowId = some index) (hrow : d.rows[index]? = some row)
      (hunits : Grid.addColumn settings (row.columns.map Column.units) = .ok units) :
      Step settings d (.addColumn rowId)
        (d.modifyRow index (widened units
          { id := ((IdSource.ofDocument d).next "column").1, units := settings.newColumnUnits }))
  | deleteColumn {columnId : String} {place : ColumnPlace} {row : Row} {units : List ℕ}
      (hplace : d.columnPlace? columnId = some place) (hrow : d.rows[place.row]? = some row)
      (hunits : Grid.deleteColumn (row.columns.map Column.units) place.column = .ok units) :
      Step settings d (.deleteColumn columnId)
        (d.modifyRow place.row (narrowed place.column units))
  | addRow {widths : List Binary64} {position : Option ℕ} {units : List ℕ}
      (hunits : Grid.ofPercentages widths = .ok units) :
      Step settings d (.addRow widths position)
        { d with rows := insertAt d.rows position (emptyRow d units) }
  | insertRow {row : Row} {position : Option ℕ} (hcount : row.columns.length ≤ gridUnits) :
      Step settings d (.insertRow row position)
        { d with rows := insertAt d.rows position (fittedCopy d row) }
  | setBlockAttribute {blockId key : String} {value : AttributeValue} {place : BlockPlace}
      (hplace : d.blockPlace? blockId = some place) :
      Step settings d (.setBlockAttribute blockId key value)
        (d.modifyBlock place fun b => { b with attributes := b.attributes.set key value })
  | removeBlockAttribute {blockId key : String} {place : BlockPlace}
      (hplace : d.blockPlace? blockId = some place) :
      Step settings d (.removeBlockAttribute blockId key)
        (d.modifyBlock place fun b => { b with attributes := b.attributes.erase key })
  | setBlockContent {blockId : String} {content : Option String} {place : BlockPlace}
      (hplace : d.blockPlace? blockId = some place) :
      Step settings d (.setBlockContent blockId content)
        (d.modifyBlock place fun b => { b with content })
  | setRowAttribute {rowId key : String} {value : AttributeValue} {index : ℕ}
      (hindex : d.rowIndex? rowId = some index) :
      Step settings d (.setRowAttribute rowId key value)
        (d.modifyRow index fun r => { r with attributes := r.attributes.set key value })
  | setRowRole {rowId : String} {role : Option RowRole} {index : ℕ}
      (hindex : d.rowIndex? rowId = some index) :
      Step settings d (.setRowRole rowId role) (d.modifyRow index fun r => { r with role })
  | setVariant {variant : Option StyleVariant} :
      Step settings d (.setVariant variant) { d with variant }
  | setTheme {seed : Option String} : Step settings d (.setTheme seed) { d with theme := seed }

section Inversion

variable {settings : GridSettings} {d d' : Document}

/-- A row that is moved stands directly before the other one. -/
lemma step_of_applyMoveRow {dragId hoverId : String} (h : applyMoveRow d dragId hoverId = .ok d') :
    Step settings d (.moveRow dragId hoverId) d' := by
  unfold applyMoveRow at h
  split at h
  · simp at h
  · next hne =>
    simp only [bind_eq_ok, findRow_eq_ok] at h
    obtain ⟨dragged, hdragged, hovered, hhovered, h⟩ := h
    split at h
    · simp at h
    · next row hrow =>
      rw [pure_eq_ok] at h
      subst h
      exact .moveRow hne hdragged hhovered hrow

/-- A row is copied to the place after it. -/
lemma step_of_applyDuplicateRow {rowId : String} (h : applyDuplicateRow d rowId = .ok d') :
    Step settings d (.duplicateRow rowId) d' := by
  simp only [applyDuplicateRow, bind_eq_ok, findRow_eq_ok] at h
  obtain ⟨index, hindex, h⟩ := h
  split at h
  · simp at h
  · next row hrow =>
    rw [pure_eq_ok] at h
    subst h
    exact .duplicateRow hindex hrow

/-- A block is copied to the place after it. -/
lemma step_of_applyDuplicateBlock {blockId : String} (h : applyDuplicateBlock d blockId = .ok d') :
    Step settings d (.duplicateBlock blockId) d' := by
  simp only [applyDuplicateBlock, bind_eq_ok, findBlock_eq_ok] at h
  obtain ⟨place, hplace, h⟩ := h
  split at h
  · simp at h
  · next row block hblock =>
    rw [pure_eq_ok] at h
    subst h
    exact .duplicateBlock hplace hblock

/-- A divider moves between two neighbouring columns of the named row. -/
lemma step_of_applyResize {rowId leftColumnId : String} {leftPercent : Binary64}
    (h : applyResize settings d rowId leftColumnId leftPercent = .ok d') :
    Step settings d (.resizeColumns rowId leftColumnId leftPercent) d' := by
  simp only [applyResize, bind_eq_ok, findRow_eq_ok] at h
  obtain ⟨index, hindex, h⟩ := h
  split at h
  · simp at h
  · next row hrow =>
    split at h
    · simp at h
    · next left hleft =>
      split at h
      · next leftColumn rightColumn hleftColumn hrightColumn =>
        simp only [bind_eq_ok, liftGrid, mapError_eq_ok, pure_eq_ok, Prod.exists] at h
        obtain ⟨leftUnits, rightUnits, hunits, rfl⟩ := h
        exact .resizeColumns hindex hrow hleft hleftColumn hrightColumn hunits
      · simp at h

/-- A column is added to the named row. -/
lemma step_of_applyAddColumn {rowId : String} (h : applyAddColumn settings d rowId = .ok d') :
    Step settings d (.addColumn rowId) d' := by
  simp only [applyAddColumn, bind_eq_ok, findRow_eq_ok] at h
  obtain ⟨index, hindex, h⟩ := h
  split at h
  · simp at h
  · next row hrow =>
    simp only [bind_eq_ok, liftGrid, mapError_eq_ok, pure_eq_ok] at h
    obtain ⟨units, hunits, rfl⟩ := h
    exact .addColumn hindex hrow hunits

/-- The named column is removed from its row. -/
lemma step_of_applyDeleteColumn {columnId : String} (h : applyDeleteColumn d columnId = .ok d') :
    Step settings d (.deleteColumn columnId) d' := by
  simp only [applyDeleteColumn, bind_eq_ok, findColumn_eq_ok] at h
  obtain ⟨place, hplace, h⟩ := h
  split at h
  · simp at h
  · next row hrow =>
    simp only [bind_eq_ok, liftGrid, mapError_eq_ok, pure_eq_ok] at h
    obtain ⟨units, hunits, rfl⟩ := h
    exact .deleteColumn hplace hrow hunits

/-- An empty row is added. -/
lemma step_of_applyAddRow {widths : List Binary64} {position : Option ℕ}
    (h : applyAddRow d widths position = .ok d') :
    Step settings d (.addRow widths position) d' := by
  simp only [applyAddRow, bind_eq_ok, liftGrid, mapError_eq_ok, pure_eq_ok] at h
  obtain ⟨units, hunits, rfl⟩ := h
  exact .addRow hunits

/-- A copy of a row from elsewhere is inserted. -/
lemma step_of_applyInsertRow {row : Row} {position : Option ℕ}
    (h : applyInsertRow d row position = .ok d') :
    Step settings d (.insertRow row position) d' := by
  unfold applyInsertRow at h
  split at h
  · cases h
  · next hcount =>
    cases h
    exact .insertRow (not_lt.mp hcount)

/-- An edit that succeeds is a step. -/
theorem step_of_apply {e : Edit} (h : e.apply settings d = .ok d') : Step settings d e d' := by
  cases e with
  | moveRow dragId hoverId => exact step_of_applyMoveRow h
  | moveBlock source target side =>
    simp only [apply, bind_eq_ok, Prod.exists] at h
    obtain ⟨⟨⟩, hcheck, block, rest, hdetach, hattach⟩ := h
    exact .moveBlock hcheck (detaches_of_detach hdetach) (attaches_of_attach hattach)
  | duplicateRow rowId => exact step_of_applyDuplicateRow h
  | duplicateBlock blockId => exact step_of_applyDuplicateBlock h
  | deleteRow rowId =>
    simp only [apply, bind_eq_ok, findRow_eq_ok, pure_eq_ok] at h
    obtain ⟨index, hindex, rfl⟩ := h
    exact .deleteRow hindex
  | deleteBlock blockId =>
    simp only [apply, bind_eq_ok, findBlock_eq_ok, pure_eq_ok] at h
    obtain ⟨place, hplace, rfl⟩ := h
    exact .deleteBlock hplace
  | resizeColumns rowId leftColumnId leftPercent => exact step_of_applyResize h
  | addColumn rowId => exact step_of_applyAddColumn h
  | deleteColumn columnId => exact step_of_applyDeleteColumn h
  | addRow widths position => exact step_of_applyAddRow h
  | insertRow row position => exact step_of_applyInsertRow h
  | setBlockAttribute blockId key value =>
    simp only [apply, onBlock, bind_eq_ok, findBlock_eq_ok, pure_eq_ok] at h
    obtain ⟨place, hplace, rfl⟩ := h
    exact .setBlockAttribute hplace
  | removeBlockAttribute blockId key =>
    simp only [apply, onBlock, bind_eq_ok, findBlock_eq_ok, pure_eq_ok] at h
    obtain ⟨place, hplace, rfl⟩ := h
    exact .removeBlockAttribute hplace
  | setBlockContent blockId content =>
    simp only [apply, onBlock, bind_eq_ok, findBlock_eq_ok, pure_eq_ok] at h
    obtain ⟨place, hplace, rfl⟩ := h
    exact .setBlockContent hplace
  | setRowAttribute rowId key value =>
    simp only [apply, onRow, bind_eq_ok, findRow_eq_ok, pure_eq_ok] at h
    obtain ⟨index, hindex, rfl⟩ := h
    exact .setRowAttribute hindex
  | setRowRole rowId role =>
    simp only [apply, onRow, bind_eq_ok, findRow_eq_ok, pure_eq_ok] at h
    obtain ⟨index, hindex, rfl⟩ := h
    exact .setRowRole hindex
  | setVariant variant =>
    cases h
    exact .setVariant
  | setTheme seed =>
    cases h
    exact .setTheme

/-- An edit carries out every step that there is. -/
lemma Step.apply_eq_ok {e : Edit} (h : Step settings d e d') : e.apply settings d = .ok d' := by
  cases h with
  | moveRow hne hdragged hhovered hrow =>
    rw [← findRow_eq_ok] at hdragged hhovered
    simp only [apply, applyMoveRow, if_neg hne, hdragged, hhovered, ok_bind, hrow]
    rfl
  | moveBlock hcheck hdetach hattach =>
    rw [← detach_eq_ok_iff] at hdetach
    rw [← attach_eq_ok_iff] at hattach
    simp only [apply, hcheck, hdetach, ok_bind, hattach]
  | duplicateRow hindex hrow =>
    rw [← findRow_eq_ok] at hindex
    simp only [apply, applyDuplicateRow, hindex, ok_bind, hrow]
    rfl
  | duplicateBlock hplace hblock =>
    rw [← findBlock_eq_ok] at hplace
    simp only [apply, applyDuplicateBlock, hplace, ok_bind, hblock]
    rfl
  | deleteRow hindex =>
    rw [← findRow_eq_ok] at hindex
    simp only [apply, hindex, ok_bind]
    rfl
  | deleteBlock hplace =>
    rw [← findBlock_eq_ok] at hplace
    simp only [apply, hplace, ok_bind]
    rfl
  | resizeColumns hindex hrow hleft hleftColumn hrightColumn hunits =>
    rw [← findRow_eq_ok] at hindex
    simp only [apply, applyResize, hindex, ok_bind, hrow, hleft, hleftColumn, hrightColumn, hunits]
    rfl
  | addColumn hindex hrow hunits =>
    rw [← findRow_eq_ok] at hindex
    simp only [apply, applyAddColumn, hindex, ok_bind, hrow, hunits]
    rfl
  | deleteColumn hplace hrow hunits =>
    rw [← findColumn_eq_ok] at hplace
    simp only [apply, applyDeleteColumn, hplace, ok_bind, hrow, hunits]
    rfl
  | addRow hunits =>
    simp only [apply, applyAddRow, hunits]
    rfl
  | insertRow hcount => exact if_neg (not_lt.mpr hcount)
  | setBlockAttribute hplace =>
    rw [← findBlock_eq_ok] at hplace
    simp only [apply, onBlock, hplace, ok_bind]
    rfl
  | removeBlockAttribute hplace =>
    rw [← findBlock_eq_ok] at hplace
    simp only [apply, onBlock, hplace, ok_bind]
    rfl
  | setBlockContent hplace =>
    rw [← findBlock_eq_ok] at hplace
    simp only [apply, onBlock, hplace, ok_bind]
    rfl
  | setRowAttribute hindex =>
    rw [← findRow_eq_ok] at hindex
    simp only [apply, onRow, hindex, ok_bind]
    rfl
  | setRowRole hindex =>
    rw [← findRow_eq_ok] at hindex
    simp only [apply, onRow, hindex, ok_bind]
    rfl
  | setVariant => rfl
  | setTheme => rfl

/-- An edit succeeds exactly with a step. -/
theorem apply_eq_ok_iff {e : Edit} : e.apply settings d = .ok d' ↔ Step settings d e d' :=
  ⟨step_of_apply, Step.apply_eq_ok⟩

end Inversion

end MailTemplate.Edit
