import MailTemplate.Proofs.Edit.Moves
import MailTemplate.Proofs.Edit.RowUnits

/-!
# Which edits are refused

On a document whose rows are on the grid, with the default settings, an edit is refused exactly in
the cases that `Edit.Refused` lists, one line for each kind of edit; setting the variant or the
theme is never refused, and no row ever lacks a column that can make room for a new one
(`apply_refused_iff`).

That there is always room is a matter of counting: of at most three columns that take twelve units
together, one takes at least four.
-/

namespace MailTemplate

/-- The divider at the right of a column does not move: the column is not one of the row, it is the
last one, it and its neighbour are too narrow for the least width of each, or the percentage is not
finite. -/
def Row.RefusesDivider (row : Row) (leftColumnId : String) (leftPercent : Binary64) : Prop :=
  leftColumnId ∉ row.columns.map Column.id ∨ leftPercent.isFinite = false ∨
    ∃ before left after, row.columns = before ++ left :: after ∧ left.id = leftColumnId ∧
      leftColumnId ∉ before.map Column.id ∧
        (after = [] ∨ ∃ right more, after = right :: more ∧ left.units + right.units < 4)

/-- A divider moves between a column of the row, the first with its id, and its neighbour. -/
lemma Row.not_refusesDivider_iff {row : Row} {leftColumnId : String} {leftPercent : Binary64} :
    ¬row.RefusesDivider leftColumnId leftPercent ↔ ∃ before left right more,
      row.columns = before ++ left :: right :: more ∧ left.id = leftColumnId ∧
        leftColumnId ∉ before.map Column.id ∧ leftPercent.isFinite = true ∧
          4 ≤ left.units + right.units := by
  constructor
  · intro hnot
    unfold RefusesDivider at hnot
    push Not at hnot
    obtain ⟨hmem, hfinite, hall⟩ := hnot
    obtain ⟨index, hindex⟩ := Row.exists_columnIndex?_iff.mpr hmem
    obtain ⟨before, left, after, hcolumns, -, hid, hfirst⟩ := columnIndex?_eq_some_iff.mp hindex
    obtain ⟨hne, hwide⟩ := hall before left after hcolumns hid hfirst
    obtain ⟨right, more, rfl⟩ := List.exists_cons_of_ne_nil hne
    exact ⟨before, left, right, more, hcolumns, hid, hfirst, by simpa using hfinite,
      hwide right more rfl⟩
  · rintro ⟨before, left, right, more, hcolumns, rfl, hfirst, hfinite, hwide⟩
    have hindex := columnIndex?_eq_some_iff.mpr ⟨before, left, _, hcolumns, rfl, rfl, hfirst⟩
    rintro (hnot | hinfinite | ⟨before', left', after, hcolumns', hid, hfirst', hrefused⟩)
    · exact hnot (by simp [hcolumns])
    · rw [hfinite] at hinfinite
      cases hinfinite
    · -- the first column with an id stands at one place only
      have hindex' := columnIndex?_eq_some_iff.mpr ⟨before', left', _, hcolumns', rfl, hid, hfirst'⟩
      have hlength : before.length = before'.length := Option.some.inj (hindex.symm.trans hindex')
      obtain ⟨-, hrest⟩ := List.append_inj (hcolumns.symm.trans hcolumns') hlength
      obtain ⟨rfl, rfl⟩ := List.cons.inj hrest
      rcases hrefused with hnil | ⟨right', more', hcons, hnarrow⟩
      · cases hnil
      · obtain ⟨rfl, rfl⟩ := List.cons.inj hcons
        omega

namespace Edit

/-- When an edit is refused on a document whose rows are on the grid, with the default settings. -/
def Refused (d : Document) : Edit → Prop
  | moveRow dragId hoverId =>
    dragId = hoverId ∨ dragId ∉ d.rows.map Row.id ∨ hoverId ∉ d.rows.map Row.id
  | moveBlock source target _ =>
    ¬target.Present d ∨ ¬source.Present d ∨ ∃ id, source = .existing id ∧ target = .block id
  | resizeColumns rowId leftColumnId leftPercent => rowId ∉ d.rows.map Row.id ∨
    ∃ row, d.row? rowId = some row ∧ row.RefusesDivider leftColumnId leftPercent
  | addColumn rowId => rowId ∉ d.rows.map Row.id ∨
    ∃ row, d.row? rowId = some row ∧ 4 ≤ row.columns.length
  | deleteColumn columnId => columnId ∉ d.columns.map Column.id ∨
    ∃ row, d.rows.find? (fun r => columnId ∈ r.columns.map Column.id) = some row ∧
      row.columns.length = 1
  | addRow widths _ => widths = [] ∨ 12 < widths.length ∨
    ∃ w ∈ widths, ¬(w.isFinite = true ∧ Binary64.lt 0 w = true ∧ w.le hundred = true)
  | insertRow row _ => 12 < row.columns.length
  | duplicateRow rowId | deleteRow rowId | setRowAttribute rowId _ _ | setRowRole rowId _ =>
    rowId ∉ d.rows.map Row.id
  | duplicateBlock blockId | deleteBlock blockId | setBlockAttribute blockId _ _
  | removeBlockAttribute blockId _ | setBlockContent blockId _ => blockId ∉ d.blocks.map Block.id
  | setVariant _ | setTheme _ => False

section Steps

variable {settings : GridSettings} {d : Document}

/-- A row is moved exactly if both rows are there and are not one. -/
lemma exists_step_moveRow_iff {dragId hoverId : String} :
    (∃ d', Step settings d (.moveRow dragId hoverId) d') ↔
      dragId ≠ hoverId ∧ dragId ∈ d.rows.map Row.id ∧ hoverId ∈ d.rows.map Row.id := by
  rw [← Document.exists_rowIndex?_iff, ← Document.exists_rowIndex?_iff]
  constructor
  · rintro ⟨d', hstep⟩
    cases hstep with
    | moveRow hne hdragged hhovered _ => exact ⟨hne, ⟨_, hdragged⟩, _, hhovered⟩
  · rintro ⟨hne, ⟨dragged, hdragged⟩, hovered, hhovered⟩
    obtain ⟨row, hrow, -⟩ := Document.rowIndex?_spec hdragged
    exact ⟨_, .moveRow hne hdragged hhovered hrow⟩

/-- A divider moves exactly if its row is there and does not refuse it. -/
lemma exists_step_resizeColumns_iff {rowId leftColumnId : String} {leftPercent : Binary64} :
    (∃ d', Step {} d (.resizeColumns rowId leftColumnId leftPercent) d') ↔
      ∃ row, d.row? rowId = some row ∧ ¬row.RefusesDivider leftColumnId leftPercent := by
  simp only [Document.row?_eq_some_iff, Row.not_refusesDivider_iff]
  constructor
  · rintro ⟨d', hstep⟩
    cases hstep with
    | @resizeColumns _ _ _ index left row leftColumn rightColumn _ _ hindex hrow hleft hleftColumn
        hrightColumn hunits =>
      refine ⟨row, ⟨index, hindex, hrow⟩, ?_⟩
      obtain ⟨before, c, after, hcolumns, rfl, hid, hfirst⟩ := Row.columnIndex?_eq_some_iff.mp hleft
      obtain ⟨hfinite, hwide⟩ := Grid.exists_resizePair_iff.mp ⟨_, hunits⟩
      obtain rfl : c = leftColumn := by simpa [hcolumns] using hleftColumn
      cases after with
      | nil => simp [hcolumns] at hrightColumn
      | cons right more =>
        obtain rfl : right = rightColumn := by simpa [hcolumns] using hrightColumn
        exact ⟨before, c, right, more, hcolumns, hid, hfirst, hfinite, hwide⟩
  · rintro ⟨row, ⟨index, hindex, hrow⟩, before, left, right, more, hcolumns, hid, hfirst, hfinite,
      hwide⟩
    have hpossible : ∃ units, Grid.resizePair {} left.units right.units leftPercent = .ok units :=
      Grid.exists_resizePair_iff.mpr ⟨hfinite, hwide⟩
    obtain ⟨⟨leftUnits, rightUnits⟩, hunits⟩ := hpossible
    exact ⟨_, .resizeColumns hindex hrow
      (Row.columnIndex?_eq_some_iff.mpr ⟨before, left, _, hcolumns, rfl, hid, hfirst⟩)
      (by simp [hcolumns]) (by simp [hcolumns]) hunits⟩

/-- A column is added exactly if its row is there and its widths leave room for one. -/
lemma exists_step_addColumn_iff {rowId : String} :
    (∃ d', Step settings d (.addColumn rowId) d') ↔ ∃ row, d.row? rowId = some row ∧
      ∃ units, Grid.addColumn settings row.units = .ok units := by
  simp only [Document.row?_eq_some_iff]
  constructor
  · rintro ⟨d', hstep⟩
    cases hstep with
    | addColumn hindex hrow hunits => exact ⟨_, ⟨_, hindex, hrow⟩, _, hunits⟩
  · rintro ⟨row, ⟨index, hindex, hrow⟩, units, hunits⟩
    exact ⟨_, .addColumn hindex hrow hunits⟩

/-- A column is removed exactly if it is there and not the only one of its row. -/
lemma exists_step_deleteColumn_iff {columnId : String} :
    (∃ d', Step settings d (.deleteColumn columnId) d') ↔ ∃ row,
      d.rows.find? (fun r => columnId ∈ r.columns.map Column.id) = some row ∧
        1 < row.columns.length := by
  constructor
  · rintro ⟨d', hstep⟩
    cases hstep with
    | deleteColumn hplace hrow hunits =>
      obtain ⟨-, hmany⟩ := Grid.exists_deleteColumn_iff.mp ⟨_, hunits⟩
      rw [List.length_map] at hmany
      exact ⟨_, (Document.find?_of_columnPlace? hplace).trans hrow, hmany⟩
  · rintro ⟨row, hfind, hmany⟩
    have hmem := Document.exists_find?_column_iff.mp ⟨row, hfind⟩
    obtain ⟨place, hplace⟩ := Document.exists_columnPlace?_iff.mpr hmem
    have hrow : d.rows[place.row]? = some row :=
      (Document.find?_of_columnPlace? hplace).symm.trans hfind
    obtain ⟨row', column, hrow', hcolumn, -⟩ := Document.columnPlace?_spec hplace
    obtain rfl := Option.some.inj (hrow.symm.trans hrow')
    have hlt := (List.getElem?_eq_some_iff.mp hcolumn).1
    have hpossible : ∃ units, Grid.deleteColumn row.units place.column = .ok units :=
      Grid.exists_deleteColumn_iff.mpr (by simpa using ⟨hlt, hmany⟩)
    obtain ⟨units, hunits⟩ := hpossible
    exact ⟨_, .deleteColumn hplace hrow hunits⟩

/-- A row of new columns is added exactly if the percentages make one. -/
lemma exists_step_addRow_iff {widths : List Binary64} {position : Option ℕ} :
    (∃ d', Step settings d (.addRow widths position) d') ↔
      ∃ units, Grid.ofPercentages widths = .ok units := by
  constructor
  · rintro ⟨d', hstep⟩
    cases hstep with
    | addRow hunits => exact ⟨_, hunits⟩
  · rintro ⟨units, hunits⟩
    exact ⟨_, .addRow hunits⟩

/-- A row from elsewhere is inserted exactly if it has no more columns than the grid has units. -/
lemma exists_step_insertRow_iff {row : Row} {position : Option ℕ} :
    (∃ d', Step settings d (.insertRow row position) d') ↔ row.columns.length ≤ gridUnits := by
  constructor
  · rintro ⟨d', hstep⟩
    cases hstep with
    | insertRow hcount => exact hcount
  · intro hcount
    exact ⟨_, .insertRow hcount⟩

/-- A row is there and does not refuse exactly if it is neither missing nor one that refuses. -/
lemma not_refused_row_iff {rowId : String} {p : Row → Prop} :
    ¬(rowId ∉ d.rows.map Row.id ∨ ∃ row, d.row? rowId = some row ∧ p row) ↔
      ∃ row, d.row? rowId = some row ∧ ¬p row := by
  rw [← Document.exists_row?_iff]
  cases d.row? rowId with
  | none => simp
  | some row => simp

/-- An edit that needs a row, and nothing else, is carried out exactly if the row is there. -/
lemma exists_step_iff_of_row {e : Edit} {rowId : String}
    (hfound : ∀ d', Step settings d e d' → ∃ index, d.rowIndex? rowId = some index)
    (hstep : ∀ index row, d.rowIndex? rowId = some index → d.rows[index]? = some row →
      ∃ d', Step settings d e d') :
    (∃ d', Step settings d e d') ↔ rowId ∈ d.rows.map Row.id := by
  rw [← Document.exists_rowIndex?_iff]
  constructor
  · rintro ⟨d', h⟩
    exact hfound d' h
  · rintro ⟨index, hindex⟩
    obtain ⟨row, hrow, -⟩ := Document.rowIndex?_spec hindex
    exact hstep index row hindex hrow

/-- An edit that needs a block, and nothing else, is carried out exactly if the block is there. -/
lemma exists_step_iff_of_block {e : Edit} {blockId : String}
    (hfound : ∀ d', Step settings d e d' → ∃ place, d.blockPlace? blockId = some place)
    (hstep : ∀ place at_, d.blockPlace? blockId = some place → d.blockAt? place = some at_ →
      ∃ d', Step settings d e d') :
    (∃ d', Step settings d e d') ↔ blockId ∈ d.blocks.map Block.id := by
  rw [← Document.exists_blockPlace?_iff]
  constructor
  · rintro ⟨d', h⟩
    exact hfound d' h
  · rintro ⟨place, hplace⟩
    obtain ⟨row, column, block, hrow, hcolumn, hblock, -⟩ := Document.blockPlace?_spec hplace
    refine hstep place (row, block) hplace ?_
    rw [Document.blockAt?_eq hrow hcolumn, hblock]
    rfl

/-- Of fewer than four columns that fill a row, one is wide enough to donate. -/
lemma exists_addColumn_iff_of_filled {units : List ℕ} (hsum : units.sum = gridUnits) :
    (∃ next, Grid.addColumn {} units = .ok next) ↔ units.length < 4 := by
  rw [Grid.exists_addColumn_iff]
  refine and_iff_left_of_imp ?_
  intro hfew
  have hlt : units.length * 3 < units.sum := by
    have hmax : units.length < 4 := hfew
    rw [hsum, gridUnits]
    omega
  obtain ⟨i, hi, hwide⟩ := Grid.exists_lt_of_length_mul_lt_sum hlt
  exact ⟨units[i], List.getElem_mem hi, hwide.le, (show 2 < 3 by decide).trans hwide⟩

/-- An edit is carried out exactly if it is not in the list of refusals. -/
lemma exists_step_iff_not_refused (hd : ∀ row ∈ d.rows, row.total = 12) (e : Edit) :
    (∃ d', Step {} d e d') ↔ ¬Refused d e := by
  cases e with
  | moveRow dragId hoverId =>
    rw [exists_step_moveRow_iff]
    simp only [Refused, not_or, not_not]
  | moveBlock source target side =>
    rw [exists_step_moveBlock_iff]
    simp only [Refused, not_or, not_not, not_exists, not_and, ne_eq]
  | duplicateRow rowId =>
    refine (exists_step_iff_of_row ?_ ?_).trans not_not.symm
    · intro d' h
      cases h with
      | duplicateRow hindex _ => exact ⟨_, hindex⟩
    · intro index row hindex hrow
      exact ⟨_, .duplicateRow hindex hrow⟩
  | duplicateBlock blockId =>
    refine (exists_step_iff_of_block ?_ ?_).trans not_not.symm
    · intro d' h
      cases h with
      | duplicateBlock hplace _ => exact ⟨_, hplace⟩
    · intro place at_ hplace hblock
      exact ⟨_, .duplicateBlock hplace hblock⟩
  | deleteRow rowId =>
    refine (exists_step_iff_of_row ?_ ?_).trans not_not.symm
    · intro d' h
      cases h with
      | deleteRow hindex => exact ⟨_, hindex⟩
    · intro index row hindex _
      exact ⟨_, .deleteRow hindex⟩
  | deleteBlock blockId =>
    refine (exists_step_iff_of_block ?_ ?_).trans not_not.symm
    · intro d' h
      cases h with
      | deleteBlock hplace => exact ⟨_, hplace⟩
    · intro place at_ hplace _
      exact ⟨_, .deleteBlock hplace⟩
  | resizeColumns rowId leftColumnId leftPercent =>
    rw [exists_step_resizeColumns_iff, ← not_refused_row_iff]
    rfl
  | addColumn rowId =>
    refine exists_step_addColumn_iff.trans (Iff.trans ?_ not_refused_row_iff.symm)
    refine exists_congr fun row => and_congr_right fun hfound => ?_
    have htotal : row.units.sum = gridUnits := hd row (List.mem_of_find?_eq_some hfound)
    rw [exists_addColumn_iff_of_filled htotal, Row.length_units, not_le]
  | deleteColumn columnId =>
    refine exists_step_deleteColumn_iff.trans ?_
    simp only [Refused, ← Document.exists_find?_column_iff]
    cases hfind : d.rows.find? fun r => columnId ∈ r.columns.map Column.id with
    | none => simp
    | some row =>
      have hmem := List.find?_some hfind
      rw [decide_eq_true_iff] at hmem
      have hpos := List.length_pos_of_mem hmem
      rw [List.length_map] at hpos
      simp only [Option.some.injEq, exists_eq_left', exists_eq', not_true_eq_false, false_or]
      omega
  | addRow widths position =>
    rw [exists_step_addRow_iff, Grid.exists_ofPercentages_iff]
    simp only [Refused]
    push Not
    rfl
  | insertRow row position =>
    rw [exists_step_insertRow_iff]
    exact not_lt.symm
  | setBlockAttribute blockId key value =>
    refine (exists_step_iff_of_block ?_ ?_).trans not_not.symm
    · intro d' h
      cases h with
      | setBlockAttribute hplace => exact ⟨_, hplace⟩
    · intro place at_ hplace _
      exact ⟨_, .setBlockAttribute hplace⟩
  | removeBlockAttribute blockId key =>
    refine (exists_step_iff_of_block ?_ ?_).trans not_not.symm
    · intro d' h
      cases h with
      | removeBlockAttribute hplace => exact ⟨_, hplace⟩
    · intro place at_ hplace _
      exact ⟨_, .removeBlockAttribute hplace⟩
  | setBlockContent blockId content =>
    refine (exists_step_iff_of_block ?_ ?_).trans not_not.symm
    · intro d' h
      cases h with
      | setBlockContent hplace => exact ⟨_, hplace⟩
    · intro place at_ hplace _
      exact ⟨_, .setBlockContent hplace⟩
  | setRowAttribute rowId key value =>
    refine (exists_step_iff_of_row ?_ ?_).trans not_not.symm
    · intro d' h
      cases h with
      | setRowAttribute hindex => exact ⟨_, hindex⟩
    · intro index row hindex _
      exact ⟨_, .setRowAttribute hindex⟩
  | setRowRole rowId role =>
    refine (exists_step_iff_of_row ?_ ?_).trans not_not.symm
    · intro d' h
      cases h with
      | setRowRole hindex => exact ⟨_, hindex⟩
    · intro index row hindex _
      exact ⟨_, .setRowRole hindex⟩
  | setVariant variant => exact iff_of_true ⟨_, .setVariant⟩ not_false
  | setTheme seed => exact iff_of_true ⟨_, .setTheme⟩ not_false

end Steps

/-! ### Refusals for want of room -/

section Room

variable {d : Document}

/-- A row that is not found is no matter of widths. -/
lemma findRow_ne_grid {id : String} {error : GridError} : findRow d id ≠ .error (.grid error) := by
  unfold findRow
  split <;> simp

/-- A column that is not found is no matter of widths. -/
lemma findColumn_ne_grid {id : String} {error : GridError} :
    findColumn d id ≠ .error (.grid error) := by
  unfold findColumn
  split <;> simp

/-- A block that is not found is no matter of widths. -/
lemma findBlock_ne_grid {id : String} {error : GridError} :
    findBlock d id ≠ .error (.grid error) := by
  unfold findBlock
  split <;> simp

/-- A change of one block is refused only if the block is not found. -/
lemma onBlock_ne_grid {id : String} {f : Block → Block} {error : GridError} :
    onBlock d id f ≠ .error (.grid error) := by
  intro h
  simp only [onBlock, bind_eq_error, findBlock_ne_grid, false_or] at h
  obtain ⟨place, -, h⟩ := h
  cases h

/-- A change of one row is refused only if the row is not found. -/
lemma onRow_ne_grid {id : String} {f : Row → Row} {error : GridError} :
    onRow d id f ≠ .error (.grid error) := by
  intro h
  simp only [onRow, bind_eq_error, findRow_ne_grid, false_or] at h
  obtain ⟨index, -, h⟩ := h
  cases h

/-- The check of a target is no matter of widths. -/
lemma checkTarget_ne_grid {source : BlockSource} {target : DropTarget} {error : GridError} :
    checkTarget d source target ≠ .error (.grid error) := by
  intro h
  cases target with
  | block targetId =>
    simp only [checkTarget, bind_eq_error, findBlock_ne_grid, false_or] at h
    obtain ⟨place, -, h⟩ := h
    split at h
    · split at h <;> cases h
    · cases h
  | column targetId =>
    simp only [checkTarget, bind_eq_error, findColumn_ne_grid, false_or] at h
    obtain ⟨place, -, h⟩ := h
    cases h

/-- Taking out a block is no matter of widths. -/
lemma detach_ne_grid {source : BlockSource} {error : GridError} :
    detach d source ≠ .error (.grid error) := by
  intro h
  cases source with
  | existing id =>
    simp only [detach, bind_eq_error, findBlock_ne_grid, false_or] at h
    obtain ⟨place, -, h⟩ := h
    split at h <;> cases h
  | new kind => cases h

/-- Putting down a block is no matter of widths. -/
lemma attach_ne_grid {block : Block} {target : DropTarget} {side : Side} {error : GridError} :
    attach d block target side ≠ .error (.grid error) := by
  intro h
  cases target with
  | block id =>
    simp only [attach, bind_eq_error, findBlock_ne_grid, false_or] at h
    obtain ⟨place, -, h⟩ := h
    cases h
  | column id =>
    simp only [attach, bind_eq_error, findColumn_ne_grid, false_or] at h
    obtain ⟨place, -, h⟩ := h
    cases h

/-- A matter of widths is one of the grid. -/
lemma liftGrid_eq_error {α : Type} {result : Except GridError α} {error : GridError} :
    liftGrid result = .error (.grid error) ↔ result = .error error := by
  cases result with
  | ok a => exact ⟨nofun, nofun⟩
  | error e => simp [liftGrid, Except.mapError]

/-- A row that is filled has room for another column, or too many columns already. -/
lemma addColumn_ne_noDonorColumn {units : List ℕ} (hsum : units.sum = gridUnits) :
    Grid.addColumn {} units ≠ .error .noDonorColumn := by
  intro h
  by_cases hfew : units.length < 4
  · obtain ⟨next, hnext⟩ := (exists_addColumn_iff_of_filled hsum).mpr hfew
    rw [hnext] at h
    cases h
  · unfold Grid.addColumn at h
    rw [if_pos (not_lt.mp hfew)] at h
    cases h

/-- No edit but a new column is refused for want of room. -/
lemma exists_addColumn_of_noDonorColumn {settings : GridSettings} {e : Edit}
    (h : e.apply settings d = .error (.grid .noDonorColumn)) :
    ∃ row ∈ d.rows, Grid.addColumn settings row.units = .error .noDonorColumn := by
  cases e with
  | moveRow dragId hoverId =>
    change applyMoveRow d dragId hoverId = _ at h
    unfold applyMoveRow at h
    split at h
    · cases h
    · simp only [bind_eq_error, findRow_ne_grid, false_or] at h
      obtain ⟨dragged, -, hovered, -, h⟩ := h
      split at h <;> cases h
  | moveBlock source target side =>
    simp only [apply, bind_eq_error, checkTarget_ne_grid, detach_ne_grid, attach_ne_grid, false_or,
      and_false, exists_false] at h
  | duplicateRow rowId =>
    simp only [apply, applyDuplicateRow, bind_eq_error, findRow_ne_grid, false_or] at h
    obtain ⟨index, -, h⟩ := h
    split at h <;> cases h
  | duplicateBlock blockId =>
    simp only [apply, applyDuplicateBlock, bind_eq_error, findBlock_ne_grid, false_or] at h
    obtain ⟨place, -, h⟩ := h
    split at h <;> cases h
  | deleteRow rowId =>
    simp only [apply, bind_eq_error, findRow_ne_grid, false_or] at h
    obtain ⟨index, -, h⟩ := h
    cases h
  | deleteBlock blockId =>
    simp only [apply, bind_eq_error, findBlock_ne_grid, false_or] at h
    obtain ⟨place, -, h⟩ := h
    cases h
  | resizeColumns rowId leftColumnId leftPercent =>
    simp only [apply, applyResize, bind_eq_error, findRow_ne_grid, false_or] at h
    obtain ⟨index, -, h⟩ := h
    split at h
    · cases h
    split at h
    · cases h
    split at h
    · rcases bind_eq_error.mp h with h | ⟨units, -, h⟩
      · exact absurd (liftGrid_eq_error.mp h) Grid.resizePair_ne_noDonorColumn
      · cases h
    · cases h
  | addColumn rowId =>
    simp only [apply, applyAddColumn, bind_eq_error, findRow_ne_grid, false_or] at h
    obtain ⟨index, -, h⟩ := h
    split at h
    · cases h
    · next row hrow =>
      refine ⟨row, List.mem_of_getElem? hrow, ?_⟩
      rcases bind_eq_error.mp h with h | ⟨units, -, h⟩
      · exact liftGrid_eq_error.mp h
      · cases h
  | deleteColumn columnId =>
    simp only [apply, applyDeleteColumn, bind_eq_error, findColumn_ne_grid, false_or] at h
    obtain ⟨place, -, h⟩ := h
    split at h
    · cases h
    · rcases bind_eq_error.mp h with h | ⟨units, -, h⟩
      · exact absurd (liftGrid_eq_error.mp h) Grid.deleteColumn_ne_noDonorColumn
      · cases h
  | addRow widths position =>
    simp only [apply, applyAddRow, bind_eq_error, liftGrid_eq_error] at h
    rcases h with h | ⟨units, -, h⟩
    · exact absurd h Grid.ofPercentages_ne_noDonorColumn
    · cases h
  | insertRow row position =>
    change applyInsertRow d row position = _ at h
    unfold applyInsertRow at h
    split at h <;> cases h
  | setBlockAttribute blockId key value => exact absurd h onBlock_ne_grid
  | removeBlockAttribute blockId key => exact absurd h onBlock_ne_grid
  | setBlockContent blockId content => exact absurd h onBlock_ne_grid
  | setRowAttribute rowId key value => exact absurd h onRow_ne_grid
  | setRowRole rowId role => exact absurd h onRow_ne_grid
  | setVariant variant => cases h
  | setTheme seed => cases h

end Room

/-- Refusals: on a document whose rows have one to twelve columns that add up to twelve units, and
with the default settings, an edit is refused exactly in the listed cases, and never because no
column of a row can make room for a new one. -/
theorem apply_refused_iff {d : Document}
    (hd : ∀ row ∈ d.rows, 1 ≤ row.columns.length ∧ row.columns.length ≤ 12 ∧ row.total = 12)
    (e : Edit) :
    ((∃ error, e.apply {} d = .error error) ↔ Refused d e) ∧
      e.apply {} d ≠ .error (.grid .noDonorColumn) := by
  have htotal : ∀ row ∈ d.rows, row.total = 12 := fun row hrow => (hd row hrow).2.2
  constructor
  · rw [exists_eq_error_iff, ← not_iff_not, not_not]
    simp only [apply_eq_ok_iff]
    exact exists_step_iff_not_refused htotal e
  · intro h
    obtain ⟨row, hrow, hnone⟩ := exists_addColumn_of_noDonorColumn h
    exact addColumn_ne_noDonorColumn (htotal row hrow) hnone

/-- A document with one row of three equal columns. -/
def threeColumns : Document where
  id := "email"
  rows := [{ id := "row-1"
             columns := [{ id := "column-1", units := 4 }, { id := "column-2", units := 4 },
               { id := "column-3", units := 4 }] }]

/-- A fourth column finds room beside three others. -/
theorem apply_refused_iff_threeColumns :
    (∀ row ∈ threeColumns.rows,
      1 ≤ row.columns.length ∧ row.columns.length ≤ 12 ∧ row.total = 12) ∧
      ((∃ error, (Edit.addColumn "row-1").apply {} threeColumns = .error error) ↔
        Refused threeColumns (.addColumn "row-1")) ∧
          (Edit.addColumn "row-1").apply {} threeColumns ≠ .error (.grid .noDonorColumn) := by
  have hgrid : ∀ row ∈ threeColumns.rows,
      1 ≤ row.columns.length ∧ row.columns.length ≤ 12 ∧ row.total = 12 := by
    simp [threeColumns, Row.total]
  exact ⟨hgrid, apply_refused_iff hgrid (.addColumn "row-1")⟩

end Edit

end MailTemplate
