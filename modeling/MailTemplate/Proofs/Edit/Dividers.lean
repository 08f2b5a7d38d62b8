import MailTemplate.Proofs.Edit.Frames
import MailTemplate.Proofs.Edit.GridConservation

/-!
# Moved dividers

The divider at the right of a column moves, or it is refused for one of four reasons
(`Row.MovesDivider`): there is no such column, or none behind it, the percentage is not finite, or
the two columns together are too narrow for the least width of each.

Nothing is asked of the settings or of the percentage.  What keeps the arithmetic on bytes safe is
that no column of a row that adds up is wider than the grid: two columns take less than a byte
holds, so that twice the least width, as a byte, lies above what they take whenever it is too much.

Main result: however often the dividers of a row are moved, the row adds up, and the next move is
carried out or refused as it should be (`run_dividerMoves`).
-/

namespace MailTemplate

/-! ### Two neighbours -/

/-- A divider between two columns moves, or the percentage is not finite, or the columns are too
narrow for the least width of each. -/
lemma Grid.resizePair_cases (settings : GridSettings) {left right : ℕ} (leftPercent : Binary64)
    (hsmall : left + right < 255) :
    (∃ leftUnits rightUnits,
      resizePair settings left right leftPercent = .ok (leftUnits, rightUnits) ∧
        leftUnits + rightUnits = left + right ∧ settings.minColumnUnits ≤ leftUnits ∧
          settings.minColumnUnits ≤ rightUnits) ∨
      resizePair settings left right leftPercent = .error (.percentage leftPercent) ∧
        leftPercent.isFinite = false ∨
        resizePair settings left right leftPercent =
            .error (.belowMinimum (left + right) settings.minColumnUnits) ∧
          left + right < 2 * settings.minColumnUnits := by
  cases hpair : resizePair settings left right leftPercent with
  | ok units =>
    exact .inl ⟨units.1, units.2, rfl, resizePair_spec hsmall hpair⟩
  | error e =>
    unfold resizePair at hpair
    simp only at hpair
    split at hpair
    · next hfinite =>
      cases hpair
      exact .inr (.inl ⟨rfl, by simpa using hfinite⟩)
    · split at hpair
      · next hnarrow =>
        cases hpair
        exact .inr (.inr ⟨rfl, hnarrow.trans_le (min_le_right _ _)⟩)
      · cases hpair

/-! ### The dividers of a row -/

namespace Row

/-- A column and the one behind it, among the columns of a row; the column is the first one with its
id. -/
structure Neighbours (row : Row) (id : String) (before : List Column) (left right : Column)
    (after : List Column) : Prop where
  columns_eq : row.columns = before ++ left :: right :: after
  id_eq : left.id = id
  first : id ∉ before.map Column.id

/-- What becomes of a row when the divider at the right of one of its columns is moved. -/
inductive MovesDivider (settings : GridSettings) (row : Row) (columnId : String)
    (leftPercent : Binary64) : Except EditError Row → Prop
  /-- The two columns keep their width together, and each has the least width. -/
  | moved {before after : List Column} {left right : Column} {leftUnits rightUnits : ℕ}
      (hcolumns : row.Neighbours columnId before left right after)
      (hsum : leftUnits + rightUnits = left.units + right.units)
      (hleft : settings.minColumnUnits ≤ leftUnits)
      (hright : settings.minColumnUnits ≤ rightUnits) :
      MovesDivider settings row columnId leftPercent (.ok { row with
        columns := before ++ { left with units := leftUnits } ::
          { right with units := rightUnits } :: after })
  | missing (hid : columnId ∉ row.columns.map Column.id) :
      MovesDivider settings row columnId leftPercent (.error (.columnNotFound columnId))
  | last {before : List Column} {column : Column} (hcolumns : row.columns = before ++ [column])
      (hid : column.id = columnId) (hfirst : columnId ∉ before.map Column.id) :
      MovesDivider settings row columnId leftPercent (.error (.noAdjacentColumn columnId))
  | notFinite {before after : List Column} {left right : Column}
      (hcolumns : row.Neighbours columnId before left right after)
      (hpercent : leftPercent.isFinite = false) :
      MovesDivider settings row columnId leftPercent (.error (.grid (.percentage leftPercent)))
  | narrow {before after : List Column} {left right : Column}
      (hcolumns : row.Neighbours columnId before left right after)
      (hnarrow : left.units + right.units < 2 * settings.minColumnUnits) :
      MovesDivider settings row columnId leftPercent
        (.error (.grid (.belowMinimum (left.units + right.units) settings.minColumnUnits)))

/-- The row after the divider at the right of a column is moved, or why it is not. -/
def moveDivider (settings : GridSettings) (row : Row) (columnId : String)
    (leftPercent : Binary64) : Except EditError Row :=
  match row.columnIndex? columnId with
  | none => .error (.columnNotFound columnId)
  | some index =>
    match row.columns[index]?, row.columns[index + 1]? with
    | some left, some right =>
      (Edit.liftGrid (Grid.resizePair settings left.units right.units leftPercent)).map
        fun units => Edit.resized index units.1 units.2 row
    | _, _ => .error (.noAdjacentColumn columnId)

/-- What a row keeps when its dividers are moved. -/
structure Redivided (settings : GridSettings) (row next : Row) : Prop where
  id_eq : next.id = row.id
  /-- Nothing but widths changes. -/
  withoutUnits_eq : next.withoutUnits = row.withoutUnits
  total_eq : next.total = row.total
  /-- Columns that have the least width keep it. -/
  minColumnUnits_le : (∀ c ∈ row.columns, settings.minColumnUnits ≤ c.units) →
    ∀ c ∈ next.columns, settings.minColumnUnits ≤ c.units

section Redivided

variable {settings : GridSettings} {row row' next : Row}

/-- A row keeps all of this when no divider is moved. -/
lemma Redivided.refl (settings : GridSettings) (row : Row) : row.Redivided settings row :=
  ⟨rfl, rfl, rfl, fun hmin => hmin⟩

/-- What is kept by one move and by those that follow is kept by all of them. -/
lemma Redivided.trans (h : row.Redivided settings row') (h' : row'.Redivided settings next) :
    row.Redivided settings next :=
  ⟨h'.id_eq.trans h.id_eq, h'.withoutUnits_eq.trans h.withoutUnits_eq, h'.total_eq.trans h.total_eq,
    fun hmin => h'.minColumnUnits_le (h.minColumnUnits_le hmin)⟩

/-- What a row keeps when one of its dividers moves. -/
lemma MovesDivider.redivided {columnId : String} {leftPercent : Binary64}
    (h : row.MovesDivider settings columnId leftPercent (.ok next)) :
    row.Redivided settings next := by
  cases h with
  | moved hcolumns hsum hleft hright =>
    refine ⟨rfl, ?_, ?_, ?_⟩
    · unfold withoutUnits
      rw [hcolumns.columns_eq, List.map_append, List.map_append]
      rfl
    · unfold total
      rw [hcolumns.columns_eq]
      simp only [List.map_append, List.map_cons, List.sum_append, List.sum_cons]
      omega
    · intro hmin
      rw [hcolumns.columns_eq] at hmin
      simp only [List.forall_mem_append, List.forall_mem_cons] at hmin ⊢
      exact ⟨hmin.1, hleft, hright, hmin.2.2.2⟩

end Redivided

/-- No column of a row that adds up is wider than the grid. -/
lemma units_le_of_total {row : Row} (htotal : row.total = 12) :
    ∀ c ∈ row.columns, c.units ≤ gridUnits := by
  intro c hc
  have hle := List.le_sum_of_mem (List.mem_map_of_mem (f := Column.units) hc)
  exact hle.trans htotal.le

/-- The widths of two neighbours, set one after the other. -/
lemma Neighbours.resized_eq {row : Row} {id : String} {before after : List Column}
    {left right : Column} (h : row.Neighbours id before left right after)
    (leftUnits rightUnits : ℕ) :
    Edit.resized before.length leftUnits rightUnits row = { row with
      columns := before ++ { left with units := leftUnits } ::
        { right with units := rightUnits } :: after } := by
  have hlength : before.length + 1 = (before ++ [{ left with units := leftUnits }]).length := by
    simp
  unfold Edit.resized
  rw [h.columns_eq, modify_length_append, hlength, List.append_cons, modify_length_append,
    List.append_assoc]
  rfl

/-- A divider of a row that adds up moves or is refused. -/
lemma movesDivider_moveDivider (settings : GridSettings) {row : Row} (htotal : row.total = 12)
    (columnId : String) (leftPercent : Binary64) :
    row.MovesDivider settings columnId leftPercent
      (row.moveDivider settings columnId leftPercent) := by
  unfold moveDivider
  cases hindex : row.columnIndex? columnId with
  | none =>
    refine .missing ?_
    rw [← exists_columnIndex?_iff, hindex]
    simp
  | some index =>
    obtain ⟨before, left, rest, hcolumns, rfl, hid, hfirst⟩ := columnIndex?_eq_some_iff.mp hindex
    have hleft : row.columns[before.length]? = some left := by simp [hcolumns]
    cases rest with
    | nil =>
      have hright : row.columns[before.length + 1]? = none := by simp [hcolumns]
      simp only [hleft, hright]
      exact .last hcolumns hid hfirst
    | cons right after =>
      have hright : row.columns[before.length + 1]? = some right := by simp [hcolumns]
      have hneighbours : row.Neighbours columnId before left right after :=
        ⟨hcolumns, hid, hfirst⟩
      have hle := units_le_of_total htotal left (List.mem_of_getElem? hleft)
      have hle' := units_le_of_total htotal right (List.mem_of_getElem? hright)
      unfold gridUnits at hle hle'
      simp only [hleft, hright]
      rcases Grid.resizePair_cases settings leftPercent
        (show left.units + right.units < 255 by omega) with
        ⟨leftUnits, rightUnits, hpair, hsum, hmin, hmin'⟩ | ⟨hpair, hpercent⟩ | ⟨hpair, hnarrow⟩
      · have hmoved : row.MovesDivider settings columnId leftPercent _ :=
          .moved hneighbours hsum hmin hmin'
        rw [← hneighbours.resized_eq] at hmoved
        rwa [hpair]
      · rw [hpair]
        exact .notFinite hneighbours hpercent
      · rw [hpair]
        exact .narrow hneighbours hnarrow

end Row

namespace Edit

/-! ### One move -/

section OneMove

variable (settings : GridSettings) {d : Document} {before after : List Row} {row : Row}

/-- A move of a divider changes its row, in its place. -/
lemma apply_resizeColumns_eq (hrows : d.rows = before ++ row :: after)
    (hfirst : row.id ∉ before.map Row.id) (columnId : String) (leftPercent : Binary64) :
    (Edit.resizeColumns row.id columnId leftPercent).apply settings d =
      (row.moveDivider settings columnId leftPercent).map fun next =>
        { d with rows := before ++ next :: after } := by
  have hindex : findRow d row.id = .ok before.length := by
    rw [findRow_eq_ok]
    exact Document.rowIndex?_eq_some_iff.mpr ⟨before, row, after, hrows, rfl, rfl, hfirst⟩
  have hrow : d.rows[before.length]? = some row := by simp [hrows]
  have hmodify : ∀ f, d.modifyRow before.length f =
      { d with rows := before ++ f row :: after } := by
    intro f
    unfold Document.modifyRow
    rw [hrows, modify_length_append]
  simp only [apply, applyResize, hindex, ok_bind, hrow, hmodify]
  unfold Row.moveDivider
  cases row.columnIndex? columnId with
  | none => rfl
  | some index =>
    simp only
    cases row.columns[index]? with
    | none => rfl
    | some left =>
      cases row.columns[index + 1]? with
      | none => rfl
      | some right =>
        simp only
        cases Grid.resizePair settings left.units right.units leftPercent with
        | error e => rfl
        | ok units => rfl

/-- One move: it makes no fault, and is carried out or refused as listed. -/
lemma exists_movesDivider (hrows : d.rows = before ++ row :: after)
    (hfirst : row.id ∉ before.map Row.id) (htotal : row.total = 12) (columnId : String)
    (leftPercent : Binary64) :
    ∃ result, row.MovesDivider settings columnId leftPercent result ∧
      (Edit.resizeColumns row.id columnId leftPercent).apply settings d =
        result.map (fun next => { d with rows := before ++ next :: after }) ∧
        applyBytes? settings d (.resizeColumns row.id columnId leftPercent) =
          some ((Edit.resizeColumns row.id columnId leftPercent).apply settings d) := by
  refine ⟨_, Row.movesDivider_moveDivider settings htotal columnId leftPercent,
    apply_resizeColumns_eq settings hrows hfirst columnId leftPercent,
    applyResize?_eq ?_ columnId leftPercent⟩
  have hrow : d.row? row.id = some row :=
    Document.row?_eq_some_iff_append.mpr ⟨before, after, hrows, rfl, hfirst⟩
  intro found hfound
  obtain rfl := Option.some.inj (hrow.symm.trans hfound)
  exact Row.units_le_of_total htotal

end OneMove

/-! ### Many moves -/

/-- Moves of dividers in a row, each of the divider at the right of a column, to a percentage. -/
def dividerMoves (settings : GridSettings) (rowId : String) (moves : List (String × Binary64)) :
    List (GridSettings × Edit) :=
  moves.map fun move => (settings, .resizeColumns rowId move.1 move.2)

section ManyMoves

variable (settings : GridSettings) {d : Document} {row : Row}

/-- Moves of the dividers of a row that adds up make no fault and leave the row in its place. -/
lemma exists_run_dividerMoves {before after : List Row} (hrows : d.rows = before ++ row :: after)
    (hfirst : row.id ∉ before.map Row.id) (htotal : row.total = 12)
    (moves : List (String × Binary64)) :
    ∃ next, row.Redivided settings next ∧
      run d (dividerMoves settings row.id moves) = { d with rows := before ++ next :: after } ∧
        run? d (dividerMoves settings row.id moves) =
          some (run d (dividerMoves settings row.id moves)) := by
  induction moves generalizing d row with
  | nil => exact ⟨row, .refl settings row, by rw [← hrows]; rfl, rfl⟩
  | cons move moves ih =>
    obtain ⟨result, hmoves, happly, hbytes⟩ :=
      exists_movesDivider settings hrows hfirst htotal move.1 move.2
    -- carried out or refused, the move leaves a row that adds up in the same place
    have hkept : ∃ row', row.Redivided settings row' ∧
        applyOrKeep settings d (.resizeColumns row.id move.1 move.2) =
          { d with rows := before ++ row' :: after } := by
      unfold applyOrKeep
      rw [happly]
      cases result with
      | ok row' => exact ⟨row', hmoves.redivided, rfl⟩
      | error e => exact ⟨row, .refl settings row, by rw [← hrows]; rfl⟩
    obtain ⟨row', hkept, hkeep⟩ := hkept
    obtain ⟨next, hkept', hrun, hrun?⟩ := ih
      (d := { d with rows := before ++ row' :: after }) rfl (by rwa [hkept.id_eq])
      (by rwa [hkept.total_eq])
    rw [hkept.id_eq, ← hkeep] at hrun hrun?
    refine ⟨next, hkept.trans hkept', hrun.trans ?_, (run?_cons hbytes _).trans hrun?⟩
    rw [hkeep]

/-- Moved dividers: whatever the settings are, moves of the dividers of a row that adds up make no
fault.  After them the row stands in its place and adds up, nothing but widths has changed, and the
columns have the least width if they had it before.  The next move, of any divider to any
percentage, makes no fault either, and is carried out or refused as listed. -/
theorem run_dividerMoves {rowId : String} (hrow : d.row? rowId = some row)
    (htotal : row.total = 12) (moves : List (String × Binary64)) :
    run? d (dividerMoves settings rowId moves) = some (run d (dividerMoves settings rowId moves)) ∧
      ∃ before after next, d.rows = before ++ row :: after ∧
        run d (dividerMoves settings rowId moves) = { d with rows := before ++ next :: after } ∧
          next.total = 12 ∧ row.Redivided settings next ∧
            ∀ columnId leftPercent, ∃ result,
              next.MovesDivider settings columnId leftPercent result ∧
                (Edit.resizeColumns rowId columnId leftPercent).apply settings
                    (run d (dividerMoves settings rowId moves)) =
                  result.map (fun moved => { d with rows := before ++ moved :: after }) ∧
                  applyBytes? settings (run d (dividerMoves settings rowId moves))
                      (.resizeColumns rowId columnId leftPercent) =
                    some ((Edit.resizeColumns rowId columnId leftPercent).apply settings
                      (run d (dividerMoves settings rowId moves))) := by
  obtain ⟨before, after, hrows, rfl, hfirst⟩ := Document.row?_eq_some_iff_append.mp hrow
  obtain ⟨next, hkept, hrun, hrun?⟩ :=
    exists_run_dividerMoves settings hrows hfirst htotal moves
  have htotal' : next.total = 12 := hkept.total_eq.trans htotal
  refine ⟨hrun?, before, after, next, hrows, hrun, htotal', hkept, ?_⟩
  intro columnId leftPercent
  rw [hrun, ← hkept.id_eq]
  exact exists_movesDivider settings rfl (by rwa [hkept.id_eq]) htotal' columnId leftPercent

end ManyMoves

/-- Moves to percentages that are no numbers, and far beyond the row on both sides. -/
def wildMoves : List (String × Binary64) :=
  [("column-1", .nan), ("column-1", .infinite true), ("column-1", Binary64.ofNat 100000),
    ("column-1", -Binary64.ofNat 100000), ("column-2", Binary64.ofNat 50)]

/-- Two columns of six units each keep five units under all of these moves. -/
theorem run_dividerMoves_twoColumns :
    ∃ row, twoColumns.row? "row-1" = some row ∧ row.total = 12 ∧
      run? twoColumns (dividerMoves { minColumnUnits := 5 } "row-1" wildMoves) =
        some (run twoColumns (dividerMoves { minColumnUnits := 5 } "row-1" wildMoves)) ∧
        ∃ next ∈ (run twoColumns (dividerMoves { minColumnUnits := 5 } "row-1" wildMoves)).rows,
          next.total = 12 ∧ ∀ c ∈ next.columns, 5 ≤ c.units := by
  have hrow : twoColumns.row? "row-1" = some _ := rfl
  obtain ⟨hbytes, before, after, next, -, hrun, htotal, hkept, -⟩ :=
    run_dividerMoves { minColumnUnits := 5 } hrow (by decide) wildMoves
  refine ⟨_, hrow, by decide, hbytes, next, ?_, htotal, hkept.minColumnUnits_le (by decide)⟩
  rw [hrun]
  exact List.mem_append_right before List.mem_cons_self

end Edit

end MailTemplate
