import MailTemplate.Proofs.FreshIds
import MailTemplate.Proofs.GridEdits

/-!
# The widths of edited rows

What each change of a row makes of the widths of its columns, what a row from elsewhere gets for its
own ones (`Row.units_fit`), and that every step of an edit leaves every row of the document filled
(`Step.filled`).  New columns and moved dividers must leave at
least one unit to a column; that is all that is asked of the settings.
-/

namespace MailTemplate

/-- The widths of a row's columns. -/
def Row.units (row : Row) : List ℕ := row.columns.map Column.units

/-- Every row of the document is filled. -/
def Document.Filled (d : Document) : Prop := ∀ row ∈ d.rows, Grid.Filled row.units

/-! ### Widths of rows from elsewhere -/

namespace Grid

/-- The widths that a row from elsewhere has after it is fitted to the grid. -/
def fitted (units : List ℕ) : List ℕ :=
  if units = [] then [gridUnits]
  else if units.sum = gridUnits then units
  else scale (units.map (max 1))

/-- A row without columns gets one as wide as the grid. -/
@[simp] lemma fitted_nil : fitted [] = [gridUnits] := rfl

/-- Widths that add up are kept. -/
lemma fitted_of_sum_eq {units : List ℕ} (h : units.sum = gridUnits) : fitted units = units := by
  have hne : units ≠ [] := by
    rintro rfl
    exact absurd h (by decide)
  unfold fitted
  rw [if_neg hne, if_pos h]

/-- Widths that do not add up are scaled. -/
lemma fitted_of_sum_ne {units : List ℕ} (hne : units ≠ []) (h : units.sum ≠ gridUnits) :
    fitted units = scale (units.map (max 1)) := by
  unfold fitted
  rw [if_neg hne, if_neg h]

/-- Columns get as many widths as they bring, and share the row if their widths do not add up. -/
lemma fitted_spec {units : List ℕ} (hne : units ≠ []) (hlen : units.length ≤ gridUnits) :
    (fitted units).length = units.length ∧ (units.sum ≠ gridUnits → Shares (fitted units)) := by
  by_cases hsum : units.sum = gridUnits
  · rw [fitted_of_sum_eq hsum]
    exact ⟨rfl, fun h => absurd hsum h⟩
  · obtain ⟨hlength, hshares⟩ :=
      scale_shares (units.map (max 1)) (by simpa using hne) (by simpa using hlen)
    rw [fitted_of_sum_ne hne hsum]
    exact ⟨hlength.trans (List.length_map _), fun _ => hshares⟩

/-- Widths that do not add up share the row once they are fitted. -/
lemma shares_fitted {units : List ℕ} (hlen : units.length ≤ gridUnits)
    (hsum : units.sum ≠ gridUnits) : Shares (fitted units) := by
  by_cases hnil : units = []
  · rw [hnil, fitted_nil]
    exact ⟨by decide, rfl⟩
  · exact (fitted_spec hnil hlen).2 hsum

/-- Fitted widths fill the row. -/
lemma sum_fitted {units : List ℕ} (hlen : units.length ≤ gridUnits) :
    (fitted units).sum = gridUnits := by
  by_cases hsum : units.sum = gridUnits
  · rw [fitted_of_sum_eq hsum, hsum]
  · exact (shares_fitted hlen hsum).sum_eq

/-- There are at most twelve fitted widths. -/
lemma length_fitted_le {units : List ℕ} (hlen : units.length ≤ gridUnits) :
    (fitted units).length ≤ gridUnits := by
  by_cases hnil : units = []
  · rw [hnil, fitted_nil]
    decide
  · rwa [(fitted_spec hnil hlen).1]

end Grid

/-! ### Widths of changed rows -/

namespace Row

/-- A row has as many widths as columns. -/
@[simp] lemma length_units (row : Row) : row.units.length = row.columns.length :=
  List.length_map _

/-- New widths go to the columns in order; what is left over is dropped. -/
lemma units_withUnits (row : Row) (units : List ℕ) (h : row.columns.length ≤ units.length) :
    (row.withUnits units).units = units.take row.columns.length := by
  unfold withUnits Row.units
  simp only
  generalize row.columns = columns at h ⊢
  induction columns generalizing units with
  | nil => simp
  | cons c columns ih =>
    cases units with
    | nil => simp at h
    | cons u units =>
      have hrest : columns.length ≤ units.length := by simpa using h
      simp [ih _ hrest]

/-- As many new widths as columns become the widths of the row. -/
lemma units_withUnits_eq {row : Row} {units : List ℕ} (h : units.length = row.columns.length) :
    (row.withUnits units).units = units := by
  rw [units_withUnits _ _ h.ge, ← h, List.take_length]

/-- A row of columns has widths. -/
lemma units_ne_nil {row : Row} (hne : row.columns ≠ []) : row.units ≠ [] := by
  simpa [units] using hne

/-- A row that is given its own widths is the same row. -/
lemma withUnits_units (row : Row) : row.withUnits row.units = row := by
  unfold withUnits units
  rw [List.zipWith_map_right, List.zipWith_self]
  simp

/-- A row without columns gets one as wide as the grid when it is fitted. -/
lemma fit_of_nil {row : Row} (ids : IdSource) (h : row.columns = []) :
    row.fit ids =
      { row with columns := [{ id := (ids.next "column").1, units := gridUnits }] } := by
  unfold Row.fit
  rw [h]
  rfl

/-- A row of columns is fitted by setting its widths. -/
lemma fit_of_ne_nil {row : Row} (ids : IdSource) (hne : row.columns ≠ []) :
    row.fit ids = row.withUnits (Grid.fitted row.units) := by
  have hnil : row.columns.isEmpty = false := by simpa using hne
  unfold fit
  simp only [hnil, Bool.false_eq_true, if_false]
  split
  · next htotal =>
    have hsum : row.units.sum = gridUnits := htotal
    rw [Grid.fitted_of_sum_eq hsum, withUnits_units]
  · next htotal =>
    rw [Grid.fitted_of_sum_ne (units_ne_nil hne) htotal, units, List.map_map]
    rfl

/-- The widths of a row that is fitted. -/
lemma units_fit {row : Row} (ids : IdSource) (hcount : row.columns.length ≤ gridUnits) :
    (row.fit ids).units = Grid.fitted row.units := by
  by_cases hnil : row.columns = []
  · rw [fit_of_nil ids hnil, units, units, hnil]
    rfl
  · obtain ⟨hlength, -⟩ := Grid.fitted_spec (units_ne_nil hnil) (by simpa using hcount)
    rw [fit_of_ne_nil ids hnil]
    exact units_withUnits_eq (hlength.trans row.length_units)

end Row

/-- A copy of a row has the widths of the row. -/
@[simp] lemma Row.units_copy (row : Row) (ids : IdSource) : (row.copy ids).1.units = row.units :=
  IdSource.map_makeAll Column.copy _ _ (fun _ _ => rfl) row.columns _

namespace Edit

/-- What does not look at the widths of columns is not changed by a moved divider. -/
lemma map_columns_resized {β : Type} {g : Column → β}
    (hg : ∀ (c : Column) (units : ℕ), g { c with units } = g c) (left leftUnits rightUnits : ℕ)
    (row : Row) : (resized left leftUnits rightUnits row).columns.map g = row.columns.map g := by
  have hwidth : ∀ (units i : ℕ) (columns : List Column),
      (columns.modify i fun c => { c with units }).map g = columns.map g :=
    fun units i columns => map_modify_of_eq (fun c => hg c units) columns i
  unfold resized
  rw [hwidth, hwidth]

/-- A moved divider changes two widths. -/
lemma units_resized (left leftUnits rightUnits : ℕ) (row : Row) :
    (resized left leftUnits rightUnits row).units =
      (row.units.modify left fun _ => leftUnits).modify (left + 1) fun _ => rightUnits := by
  unfold resized Row.units
  rw [map_modify (k := fun _ => rightUnits) fun _ => rfl,
    map_modify (k := fun _ => leftUnits) fun _ => rfl]

/-- A row gets all the widths that an added column leads to. -/
lemma units_widened {settings : GridSettings} {row : Row} {units : List ℕ} {id : String}
    (h : Grid.addColumn settings row.units = .ok units) :
    (widened units { id, units := settings.newColumnUnits } row).units = units := by
  obtain ⟨i, hi, -, rfl⟩ := Grid.addColumn_eq_ok h
  have htake := Row.units_withUnits row
    (row.units.modify i (· - settings.newColumnUnits) ++ [settings.newColumnUnits])
    (by simp)
  have hlen : (row.units.modify i (· - settings.newColumnUnits)).length = row.columns.length := by
    simp
  rw [← hlen, List.take_left] at htake
  unfold widened Row.units at *
  rw [List.map_append, htake]
  rfl

/-- A row gets all the widths that a removed column leads to. -/
lemma units_narrowed {row : Row} {index : ℕ} {units : List ℕ}
    (h : Grid.deleteColumn row.units index = .ok units) :
    (narrowed index units row).units = units := by
  obtain ⟨hi, -, rfl⟩ := Grid.deleteColumn_eq_ok h
  refine Row.units_withUnits_eq ?_
  rw [List.length_modify, List.length_map, List.length_eraseIdx_of_lt hi]
  simp only [Row.length_units] at hi ⊢
  exact (List.length_eraseIdx_of_lt hi).symm

/-- An empty row has the widths that it is made for. -/
lemma units_emptyRow (d : Document) (units : List ℕ) : (emptyRow d units).units = units := by
  have h := IdSource.map_makeAll emptyColumn Column.units id
    (fun _ _ => rfl) units (IdSource.ofDocument d)
  rwa [List.map_id] at h

/-- A row of at most twelve columns is filled once it is brought onto the grid. -/
lemma filled_fit {row : Row} (ids : IdSource) (hcount : row.columns.length ≤ gridUnits) :
    Grid.Filled (row.fit ids).units := by
  have hlen : row.units.length ≤ gridUnits := by simpa using hcount
  rw [Row.units_fit ids hcount]
  exact Grid.filled_of_length_le (Grid.length_fitted_le hlen) (Grid.sum_fitted hlen)

/-- A row from elsewhere is filled once it is inserted. -/
lemma filled_fittedCopy (d : Document) {row : Row} (hcount : row.columns.length ≤ gridUnits) :
    Grid.Filled (fittedCopy d row).units := by
  refine filled_fit _ ?_
  have hunits := congrArg List.length (Row.units_copy row (IdSource.ofDocument d))
  rw [Row.length_units, Row.length_units] at hunits
  omega

/-! ### Rows of changed documents -/

/-- A document stays filled when one of its rows changes into a filled row. -/
lemma filled_modifyRow {d : Document} (hd : d.Filled) {index : ℕ} {f : Row → Row}
    (hf : ∀ row, d.rows[index]? = some row → Grid.Filled row.units →
      Grid.Filled (f row).units) : (d.modifyRow index f).Filled :=
  forall_mem_modify hd fun row hrow => hf row hrow (hd row (List.mem_of_getElem? hrow))

/-- Changes inside columns leave all widths as they are. -/
lemma filled_modifyBlocks {d : Document} (hd : d.Filled) (place : ColumnPlace)
    (f : List Block → List Block) : (d.modifyBlocks place f).Filled := by
  refine filled_modifyRow hd fun row _ hrow => ?_
  have hsame : ((row.columns.modify place.column fun c =>
      { c with blocks := f c.blocks }).map Column.units) = row.units :=
    map_modify_of_eq (f := fun c : Column => { c with blocks := f c.blocks }) (fun _ => rfl) _ _
  unfold Row.units
  rwa [hsame]

/-- A document stays filled when it gets a filled row. -/
lemma filled_insertAt {d : Document} (hd : d.Filled) (position : Option ℕ) {row : Row}
    (hrow : Grid.Filled row.units) : { d with rows := insertAt d.rows position row }.Filled :=
  forall_mem_insertIdx hd hrow

/-! ### Steps -/

/-- A taken block leaves every row filled. -/
lemma Detaches.filled {d rest : Document} {source : BlockSource} {block : Block}
    (h : Detaches d source block rest) (hd : d.Filled) : rest.Filled := by
  cases h with
  | existing hplace hblock => exact filled_modifyBlocks hd _ _
  | new => exact hd

/-- A block that lands leaves every row filled. -/
lemma Attaches.filled {d d' : Document} {block : Block} {target : DropTarget} {side : Side}
    (h : Attaches d block target side d') (hd : d.Filled) : d'.Filled := by
  cases h with
  | aboveBlock hplace => exact filled_modifyBlocks hd _ _
  | belowBlock hplace => exact filled_modifyBlocks hd _ _
  | columnTop hplace => exact filled_modifyBlocks hd _ _
  | columnBottom hplace => exact filled_modifyBlocks hd _ _

/-- A step leaves every row filled if it leaves a unit to moved and new columns. -/
theorem Step.filled {settings : GridSettings} {d d' : Document} {e : Edit}
    (h : Step settings d e d') (hmin : 1 ≤ settings.minColumnUnits)
    (hnew : 1 ≤ settings.newColumnUnits) (hd : d.Filled) : d'.Filled := by
  cases h with
  | moveRow _ _ _ hrow =>
    exact forall_mem_insertIdx (forall_mem_eraseIdx _ hd) (hd _ (List.mem_of_getElem? hrow))
  | moveBlock _ hdetach hattach => exact hattach.filled (hdetach.filled hd)
  | duplicateRow _ hrow =>
    refine forall_mem_insertIdx hd ?_
    rw [Row.units_copy]
    exact hd _ (List.mem_of_getElem? hrow)
  | duplicateBlock _ _ => exact filled_modifyBlocks hd _ _
  | deleteRow _ => exact forall_mem_eraseIdx _ hd
  | deleteBlock _ => exact filled_modifyBlocks hd _ _
  | @resizeColumns _ _ _ index left row leftColumn rightColumn leftUnits rightUnits _ hrow _ hleft
      hright hunits =>
    refine filled_modifyRow hd fun row' hrow' hfilled => ?_
    obtain rfl : row = row' := by simpa [hrow] using hrow'
    have hlen : left + 1 < row.units.length := by
      rw [Row.length_units]
      exact (List.getElem?_eq_some_iff.mp hright).1
    have hleft' : row.units[left] = leftColumn.units := by
      simp [Row.units, (List.getElem?_eq_some_iff.mp hleft).2]
    have hright' : row.units[left + 1] = rightColumn.units := by
      simp [Row.units, (List.getElem?_eq_some_iff.mp hright).2]
    have hle := hfilled.le (List.getElem_mem (l := row.units) (n := left) (by omega))
    have hle' := hfilled.le (List.getElem_mem hlen)
    rw [hleft'] at hle
    rw [hright'] at hle'
    unfold gridUnits at hle hle'
    obtain ⟨hsum, hone, hone'⟩ := Grid.resizePair_spec (by omega) hunits
    rw [units_resized]
    exact Grid.filled_resize hfilled hlen (by rw [hleft', hright']; exact hsum) (by omega)
      (by omega)
  | @addColumn _ index row units _ hrow hunits =>
    refine filled_modifyRow hd fun row' hrow' hfilled => ?_
    obtain rfl : row = row' := by simpa [hrow] using hrow'
    rw [units_widened hunits]
    exact Grid.filled_addColumn hfilled hnew hunits
  | @deleteColumn _ place row units _ hrow hunits =>
    refine filled_modifyRow hd fun row' hrow' hfilled => ?_
    obtain rfl : row = row' := by simpa [hrow] using hrow'
    rw [units_narrowed hunits]
    exact Grid.filled_deleteColumn hfilled hunits
  | addRow hunits =>
    refine filled_insertAt hd _ ?_
    rw [units_emptyRow]
    exact (Grid.ofPercentages_shares hunits).2.2.2.filled
  | insertRow hcount => exact filled_insertAt hd _ (filled_fittedCopy d hcount)
  | setBlockAttribute _ => exact filled_modifyBlocks hd _ _
  | removeBlockAttribute _ => exact filled_modifyBlocks hd _ _
  | setBlockContent _ => exact filled_modifyBlocks hd _ _
  | setRowAttribute _ => exact filled_modifyRow hd fun _ _ hfilled => hfilled
  | setRowRole _ => exact filled_modifyRow hd fun _ _ hfilled => hfilled
  | setVariant => exact hd
  | setTheme => exact hd

end Edit

end MailTemplate
