import MailTemplate.Proofs.Edit.Copies
import MailTemplate.Proofs.Edit.GridConservation

/-!
# Inserted rows

A row from elsewhere brings widths of its own, which may be any bytes.  When it is inserted it is
fitted to the grid: it gets a column if it has none, and its widths are scaled if they do not add
up.

Scaling gives every column a unit.  Widths that add up are kept, though, and then a column of no
unit is kept as well.  So the columns of the inserted row all have a unit exactly if the row does
not both add up and bring a column without one (`Grid.shares_fitted_iff`).

Main result: `apply_insertRow`.
-/

namespace MailTemplate

/-! ### Fitted widths -/

/-- Every column gets a unit, unless the widths add up and one of them is zero. -/
lemma Grid.shares_fitted_iff {units : List ℕ} (hlen : units.length ≤ gridUnits) :
    Grid.Shares (Grid.fitted units) ↔ ¬(units.sum = gridUnits ∧ 0 ∈ units) := by
  by_cases hsum : units.sum = gridUnits
  · rw [Grid.fitted_of_sum_eq hsum]
    constructor
    · rintro hshares ⟨-, hzero⟩
      exact absurd (hshares.pos 0 hzero) (by decide)
    · intro hnot
      refine ⟨?_, hsum⟩
      intro u hu
      rw [Nat.one_le_iff_ne_zero]
      rintro rfl
      exact hnot ⟨hsum, hu⟩
  · exact iff_of_true (Grid.shares_fitted hlen hsum) fun h => hsum h.1

/-! ### Fitted rows -/

/-- What a row from elsewhere looks like after it is inserted. -/
structure Row.Fitted (row inserted : Row) : Prop where
  /-- Apart from ids and widths, it is the same row. -/
  content : row.columns ≠ [] → inserted.withoutIds.withoutUnits = row.withoutIds.withoutUnits
  /-- A row without columns gets an empty one, and stays the same otherwise. -/
  content_of_nil : row.columns = [] →
    inserted.withoutIds = { row.withoutIds with columns := [{ id := "", units := 12 }] }
  /-- It has one to twelve columns. -/
  length_pos : 1 ≤ inserted.columns.length
  length_le : inserted.columns.length ≤ 12
  /-- Its columns fill the grid. -/
  total_eq : inserted.total = 12
  /-- Every column has a unit, unless the row adds up although one of its columns has none. -/
  units_iff : (∀ u ∈ inserted.units, 1 ≤ u ∧ u ≤ 12) ↔ ¬(row.total = 12 ∧ 0 ∈ row.units)
  /-- Widths that add up are kept. -/
  units_eq : row.total = 12 → inserted.units = row.units

namespace Row

/-- Ids are not widths. -/
@[simp] lemma units_withoutIds (row : Row) : row.withoutIds.units = row.units := by
  unfold withoutIds units
  rw [List.map_map]
  rfl

/-- A row of columns stays the same when it is fitted, widths apart. -/
lemma withoutUnits_fit {row : Row} (ids : IdSource) (hne : row.columns ≠ [])
    (hcount : row.columns.length ≤ gridUnits) :
    (row.fit ids).withoutUnits = row.withoutUnits := by
  obtain ⟨hlength, -⟩ := Grid.fitted_spec (units_ne_nil hne) (by simpa using hcount)
  rw [fit_of_ne_nil ids hne]
  exact withoutUnits_withUnits (by simpa using hlength.ge)

/-- It does not matter whether ids or widths are ignored first. -/
lemma withoutUnits_withoutIds (row : Row) :
    row.withoutIds.withoutUnits = row.withoutUnits.withoutIds := by
  unfold withoutUnits withoutIds
  simp only [List.map_map]
  rfl

/-- A row of at most twelve columns is fitted to the grid. -/
lemma fitted_fit {row : Row} (ids : IdSource) (hcount : row.columns.length ≤ gridUnits) :
    row.Fitted (row.fit ids) := by
  have hlen : row.units.length ≤ gridUnits := by simpa using hcount
  have hunits := units_fit ids hcount
  have htotal : (row.fit ids).total = gridUnits :=
    (congrArg List.sum hunits).trans (Grid.sum_fitted hlen)
  constructor
  case content =>
    intro hne
    rw [withoutUnits_withoutIds, withoutUnits_fit ids hne hcount, withoutUnits_withoutIds]
  case content_of_nil =>
    intro hnil
    rw [fit_of_nil ids hnil]
    rfl
  case length_pos =>
    rw [Nat.one_le_iff_ne_zero, Ne, List.length_eq_zero_iff]
    intro hnil
    rw [total, hnil] at htotal
    exact absurd htotal (by decide)
  case length_le =>
    rw [← length_units, hunits]
    exact Grid.length_fitted_le hlen
  case total_eq => exact htotal
  case units_iff =>
    rw [hunits]
    refine Iff.trans ?_ (Grid.shares_fitted_iff hlen)
    constructor
    · intro hpos
      exact ⟨fun u hu => (hpos u hu).1, Grid.sum_fitted hlen⟩
    · intro hshares u hu
      exact ⟨hshares.pos u hu, hshares.le hu⟩
  case units_eq =>
    intro hsum
    rw [hunits]
    exact Grid.fitted_of_sum_eq hsum

/-- Ids of the row do not matter for what it looks like when it is fitted. -/
lemma Fitted.of_withoutIds {row row' inserted : Row} (h : row.Fitted inserted)
    (hids : row.withoutIds = row'.withoutIds) : row'.Fitted inserted := by
  have hunits : row.units = row'.units := by
    rw [← units_withoutIds, hids, units_withoutIds]
  have htotal : row.total = row'.total := congrArg List.sum hunits
  have hcolumns : row.columns = [] ↔ row'.columns = [] := by
    rw [← List.length_eq_zero_iff, ← List.length_eq_zero_iff, ← length_units, ← length_units,
      hunits]
  obtain ⟨hcontent, hnil, hpos, hle, hsum, hiff, hkept⟩ := h
  rw [hunits, htotal] at hiff
  rw [hunits, htotal] at hkept
  rw [hids] at hcontent hnil
  exact ⟨fun hne => hcontent (mt hcolumns.mp hne), fun h => hnil (hcolumns.mpr h), hpos, hle, hsum,
    hiff, hkept⟩

/-- The row that is inserted for a row from elsewhere. -/
lemma fitted_fittedCopy (d : Document) {row : Row} (hcount : row.columns.length ≤ gridUnits) :
    row.Fitted (Edit.fittedCopy d row) := by
  have hlength := Edit.length_columns_copy row (IdSource.ofDocument d)
  have hfitted := fitted_fit (row.copy (IdSource.ofDocument d)).2 (hlength.trans_le hcount)
  exact hfitted.of_withoutIds (withoutIds_copy row _)

end Row

namespace Edit

/-- An item inserted at a position stands there; without a position, or with one beyond the end, it
stands at the end. -/
lemma exists_insertAt_eq {α : Type} (items : List α) (position : Option ℕ) :
    ∃ before after, items = before ++ after ∧
      before.length = position.elim items.length (min · items.length) ∧
        ∀ item, insertAt items position item = before ++ item :: after := by
  cases position with
  | none => exact exists_insertIdx_eq le_rfl
  | some p => exact exists_insertIdx_eq (min_le_right p _)

/-- Inserted rows: a row of at most twelve columns, whatever their widths, is inserted at the
position, or at the end, and fitted to the grid on the way; no arithmetic on bytes faults.  A row of
more columns is refused. -/
theorem apply_insertRow (settings : GridSettings) (d : Document) (row : Row)
    (position : Option ℕ) :
    (row.columns.length ≤ 12 → ∃ inserted before after, d.rows = before ++ after ∧
      before.length = position.elim d.rows.length (min · d.rows.length) ∧
        (Edit.insertRow row position).apply settings d =
          .ok { d with rows := before ++ inserted :: after } ∧ row.Fitted inserted) ∧
      (12 < row.columns.length → (Edit.insertRow row position).apply settings d =
        .error (.tooManyColumns row.columns.length)) ∧
        applyBytes? settings d (.insertRow row position) =
          some ((Edit.insertRow row position).apply settings d) := by
  refine ⟨?_, fun hmany => if_pos hmany, applyInsertRow?_eq row position⟩
  intro hcount
  obtain ⟨before, after, hrows, hlength, hinsert⟩ := exists_insertAt_eq d.rows position
  have hstep : Step settings d (.insertRow row position) _ := .insertRow hcount
  rw [hinsert] at hstep
  exact ⟨fittedCopy d row, before, after, hrows, hlength, hstep.apply_eq_ok,
    Row.fitted_fittedCopy d hcount⟩

/-- A row of three columns whose widths do not add up, one of them zero. -/
def unevenRow : Row where
  id := "row-1"
  columns := [{ id := "a", units := 0 }, { id := "b", units := 9 }, { id := "c", units := 250 }]

/-- A row that takes far more than twelve units comes in front of the others, and every column of it
gets at least one unit. -/
theorem apply_insertRow_unevenRow :
    unevenRow.columns.length ≤ 12 ∧ ∃ inserted before after,
      twoColumns.rows = before ++ after ∧ before.length = 0 ∧
        (Edit.insertRow unevenRow (some 0)).apply {} twoColumns =
          .ok { twoColumns with rows := before ++ inserted :: after } ∧
            inserted.total = 12 ∧ ∀ u ∈ inserted.units, 1 ≤ u ∧ u ≤ 12 := by
  have hcount : unevenRow.columns.length ≤ 12 := by decide
  obtain ⟨hinsert, -, -⟩ := apply_insertRow {} twoColumns unevenRow (some 0)
  obtain ⟨inserted, before, after, hrows, hlength, happly, hfitted⟩ := hinsert hcount
  exact ⟨hcount, inserted, before, after, hrows, hlength, happly, hfitted.total_eq,
    hfitted.units_iff.mpr (by decide)⟩

/-- A row whose widths add up although its first column has none. -/
def hiddenColumn : Row where
  id := "row-1"
  columns := [{ id := "column-1", units := 0 }, { id := "column-2", units := 12 }]

/-- A column without a unit is inserted as it is if the widths of its row add up. -/
theorem exists_inserted_zero_units :
    hiddenColumn.columns.length ≤ 12 ∧ ∃ d' inserted,
      (Edit.insertRow hiddenColumn none).apply {} twoColumns = .ok d' ∧
        d'.rows = twoColumns.rows ++ [inserted] ∧ 0 ∈ inserted.units := by
  refine ⟨by decide, _, _, rfl, rfl, ?_⟩
  decide

end Edit

end MailTemplate
