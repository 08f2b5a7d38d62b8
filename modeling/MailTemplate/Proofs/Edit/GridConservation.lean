import MailTemplate.Proofs.Edit.RowUnits
import MailTemplate.Proofs.Edit.Run
import MailTemplate.Proofs.GridBytes
import MailTemplate.Proofs.Places

/-!
# The grid over whole runs

Edits whose widths are bytes carry out their arithmetic on bytes (`applyBytes?`, `run?`); a fault
leaves them without a result.  On a document whose rows are filled no edit faults
(`applyBytes?_eq`).

Main result: from a document with one to twelve columns in every row, together twelve units wide, a
run of any edits leaves every row with a column and with twelve units after every step, and none of
its steps faults (`run_conserves_grid`).
-/

namespace MailTemplate

/-- The row brought onto the grid, with arithmetic on bytes. -/
def Row.fit? (row : Row) (ids : IdSource) : Option Row :=
  let row :=
    if row.columns.isEmpty then
      { row with columns := [{ id := (ids.next "column").1, units := gridUnits }] }
    else row
  if row.total = gridUnits then some row
  else (Grid.scale? (row.columns.map fun c => max 1 c.units)).map row.withUnits

/-- Bringing a row of at most twelve columns onto the grid makes no fault. -/
lemma Row.fit?_eq {row : Row} (ids : IdSource) (hcount : row.columns.length ≤ gridUnits) :
    row.fit? ids = some (row.fit ids) := by
  unfold Row.fit? Row.fit
  generalize hbase : (if row.columns.isEmpty then
    { row with columns := [{ id := (ids.next "column").1, units := gridUnits }] } else row) = base
  have hcolumns : base.columns ≠ [] ∧ base.columns.length ≤ gridUnits := by
    rw [← hbase]
    split
    · exact ⟨List.cons_ne_nil _ _, show 1 ≤ gridUnits by decide⟩
    · next hne => exact ⟨by simpa using hne, hcount⟩
  simp only
  split
  · rfl
  · rw [Grid.scale?_eq (by simpa using hcolumns.1) (by simpa using hcolumns.2)]
    rfl

namespace Edit

/-! ### Edits on bytes -/

/-- What follows a part of an edit that may be refused but makes no fault. -/
def andThen {α β : Type} (x : Except EditError α) (f : α → Option (Except EditError β)) :
    Option (Except EditError β) :=
  match x with
  | .error e => some (.error e)
  | .ok a => f a

/-- Moves the divider at the right of a column. -/
def applyResize? (settings : GridSettings) (d : Document) (rowId leftColumnId : String)
    (leftPercent : Binary64) : Option (Except EditError Document) :=
  andThen (findRow d rowId) fun index =>
    match d.rows[index]? with
    | none => some (.error (.rowNotFound rowId))
    | some row =>
      match row.columnIndex? leftColumnId with
      | none => some (.error (.columnNotFound leftColumnId))
      | some left =>
        match row.columns[left]?, row.columns[left + 1]? with
        | some leftColumn, some rightColumn => do
          let result ← Grid.resizePair? settings leftColumn.units rightColumn.units leftPercent
          return (liftGrid result).map fun (l, r) => d.modifyRow index (resized left l r)
        | _, _ => some (.error (.noAdjacentColumn leftColumnId))

/-- Adds an empty column at the end of a row. -/
def applyAddColumn? (settings : GridSettings) (d : Document) (rowId : String) :
    Option (Except EditError Document) :=
  andThen (findRow d rowId) fun index =>
    match d.rows[index]? with
    | none => some (.error (.rowNotFound rowId))
    | some row => do
      let result ← Grid.addColumn? settings row.units
      return (liftGrid result).map fun units => d.modifyRow index (widened units
        { id := ((IdSource.ofDocument d).next "column").1, units := settings.newColumnUnits })

/-- Removes a column with its blocks. -/
def applyDeleteColumn? (d : Document) (columnId : String) : Option (Except EditError Document) :=
  andThen (findColumn d columnId) fun place =>
    match d.rows[place.row]? with
    | none => some (.error (.columnNotFound columnId))
    | some row => do
      let result ← Grid.deleteColumn? row.units place.column
      return (liftGrid result).map fun units => d.modifyRow place.row (narrowed place.column units)

/-- Adds a row with empty columns. -/
def applyAddRow? (d : Document) (widths : List Binary64) (position : Option ℕ) :
    Option (Except EditError Document) := do
  let result ← Grid.ofPercentages? widths
  return (liftGrid result).map fun units =>
    { d with rows := insertAt d.rows position (emptyRow d units) }

/-- Inserts a row from elsewhere. -/
def applyInsertRow? (d : Document) (row : Row) (position : Option ℕ) :
    Option (Except EditError Document) :=
  if gridUnits < row.columns.length then some (.error (.tooManyColumns row.columns.length))
  else do
    let copy := row.copy (IdSource.ofDocument d)
    let fitted ← copy.1.fit? copy.2
    return .ok { d with rows := insertAt d.rows position fitted }

/-- The document after an edit that computes widths on bytes; nothing if the edit faults. -/
def applyBytes? (settings : GridSettings) (d : Document) : Edit → Option (Except EditError Document)
  | resizeColumns rowId leftColumnId leftPercent =>
    applyResize? settings d rowId leftColumnId leftPercent
  | addColumn rowId => applyAddColumn? settings d rowId
  | deleteColumn columnId => applyDeleteColumn? d columnId
  | addRow widths position => applyAddRow? d widths position
  | insertRow row position => applyInsertRow? d row position
  | edit => some (edit.apply settings d)

/-- The document after a run of edits that compute widths on bytes; nothing if one of them
faults. -/
def run? (d : Document) (steps : List (GridSettings × Edit)) : Option Document :=
  steps.foldlM
    (fun d step => (applyBytes? step.1 d step.2).map fun result => result.toOption.getD d) d

/-! ### No faults -/

/-- An edit in parts makes no fault if what follows its first part makes none. -/
lemma andThen_eq {α β : Type} {x : Except EditError α} {f : α → Option (Except EditError β)}
    {g : α → Except EditError β} (h : ∀ a, x = .ok a → f a = some (g a)) :
    andThen x f = some (x >>= g) := by
  cases hx : x with
  | error e => rfl
  | ok a => exact h a hx

section NoFaults

variable {settings : GridSettings} {d : Document}

/-- Moving a divider makes no fault in a row whose columns are no wider than the grid. -/
lemma applyResize?_eq {rowId : String}
    (hd : ∀ row, d.row? rowId = some row → ∀ c ∈ row.columns, c.units ≤ gridUnits)
    (leftColumnId : String) (leftPercent : Binary64) :
    applyResize? settings d rowId leftColumnId leftPercent =
      some (applyResize settings d rowId leftColumnId leftPercent) := by
  refine andThen_eq fun index hindex => ?_
  cases hrow : d.rows[index]? with
  | none => rfl
  | some row =>
    simp only
    cases hleft : row.columnIndex? leftColumnId with
    | none => rfl
    | some left =>
      simp only
      cases hl : row.columns[left]? with
      | none => rfl
      | some leftColumn =>
        cases hr : row.columns[left + 1]? with
        | none => rfl
        | some rightColumn =>
          have hfound := Document.row?_eq_some_iff.mpr ⟨index, findRow_eq_ok.mp hindex, hrow⟩
          have hle : leftColumn.units ≤ gridUnits := hd row hfound _ (List.mem_of_getElem? hl)
          have hle' : rightColumn.units ≤ gridUnits := hd row hfound _ (List.mem_of_getElem? hr)
          unfold gridUnits at hle hle'
          have hpair := Grid.resizePair?_eq settings leftColumn.units rightColumn.units leftPercent
            (by omega)
          simp only [hpair, Option.bind_eq_bind, Option.bind_some]
          cases Grid.resizePair settings leftColumn.units rightColumn.units leftPercent with
          | error e => rfl
          | ok pair => rfl

/-- Adding a column makes no fault. -/
lemma applyAddColumn?_eq (rowId : String) :
    applyAddColumn? settings d rowId = some (applyAddColumn settings d rowId) := by
  refine andThen_eq fun index _ => ?_
  cases hrow : d.rows[index]? with
  | none => rfl
  | some row =>
    have hadd := Grid.addColumn?_eq settings (row.columns.map Column.units)
    simp only [Row.units, hadd, Option.bind_eq_bind, Option.bind_some]
    cases Grid.addColumn settings (row.columns.map Column.units) with
    | error e => rfl
    | ok units => rfl

/-- Removing a column of a filled row makes no fault. -/
lemma applyDeleteColumn?_eq (hd : d.Filled) (columnId : String) :
    applyDeleteColumn? d columnId = some (applyDeleteColumn d columnId) := by
  refine andThen_eq fun place _ => ?_
  cases hrow : d.rows[place.row]? with
  | none => rfl
  | some row =>
    have hdelete := Grid.deleteColumn?_eq (hd row (List.mem_of_getElem? hrow)) place.column
    unfold Row.units at hdelete
    simp only [Row.units, hdelete, Option.bind_eq_bind, Option.bind_some]
    cases Grid.deleteColumn (row.columns.map Column.units) place.column with
    | error e => rfl
    | ok units => rfl

/-- Adding a row makes no fault. -/
lemma applyAddRow?_eq (widths : List Binary64) (position : Option ℕ) :
    applyAddRow? d widths position = some (applyAddRow d widths position) := by
  unfold applyAddRow? applyAddRow
  rw [Grid.ofPercentages?_eq]
  cases Grid.ofPercentages widths with
  | error e => rfl
  | ok units => rfl

/-- Inserting a row makes no fault. -/
lemma applyInsertRow?_eq (row : Row) (position : Option ℕ) :
    applyInsertRow? d row position = some (applyInsertRow d row position) := by
  unfold applyInsertRow? applyInsertRow
  split
  · rfl
  · next hcount =>
    have hlen := congrArg List.length (Row.units_copy row (IdSource.ofDocument d))
    rw [Row.length_units, Row.length_units] at hlen
    simp only
    rw [Row.fit?_eq _ (by omega)]
    rfl

/-- No edit faults on a document whose rows are filled. -/
theorem applyBytes?_eq (hd : d.Filled) (e : Edit) :
    applyBytes? settings d e = some (e.apply settings d) := by
  cases e with
  | resizeColumns rowId leftColumnId leftPercent =>
    refine applyResize?_eq ?_ _ _
    intro row hfound c hc
    exact (hd row (List.mem_of_find?_eq_some hfound)).le (List.mem_map_of_mem hc)
  | addColumn rowId => exact applyAddColumn?_eq _
  | deleteColumn columnId => exact applyDeleteColumn?_eq hd _
  | addRow widths position => exact applyAddRow?_eq _ _
  | insertRow row position => exact applyInsertRow?_eq _ _
  | _ => rfl

end NoFaults

/-! ### Runs -/

/-- The settings leave a unit to every column that an edit moves a divider of or adds. -/
def LeavesUnits (settings : GridSettings) : Prop :=
  1 ≤ settings.minColumnUnits ∧ 1 ≤ settings.newColumnUnits

/-- A run leaves every row filled. -/
lemma run_filled {d : Document} {steps : List (GridSettings × Edit)} (hd : d.Filled)
    (hsteps : ∀ step ∈ steps, LeavesUnits step.1) : (run d steps).Filled :=
  run_induction hd fun step hstep _ _ hfilled h =>
    h.filled (hsteps step hstep).1 (hsteps step hstep).2 hfilled

/-- A run begins with its first edit if that makes no fault. -/
lemma run?_cons {d : Document} {step : GridSettings × Edit}
    (h : applyBytes? step.1 d step.2 = some (step.2.apply step.1 d))
    (steps : List (GridSettings × Edit)) :
    run? d (step :: steps) = run? (applyOrKeep step.1 d step.2) steps := by
  have hstep : (applyBytes? step.1 d step.2).map (fun result => result.toOption.getD d) =
      some (applyOrKeep step.1 d step.2) := by
    rw [h, applyOrKeep]
    cases step.2.apply step.1 d with
    | error e => rfl
    | ok next => rfl
  unfold run?
  rw [List.foldlM_cons, hstep]
  rfl

/-- No step of a run faults. -/
lemma run?_eq {d : Document} {steps : List (GridSettings × Edit)} (hd : d.Filled)
    (hsteps : ∀ step ∈ steps, LeavesUnits step.1) : run? d steps = some (run d steps) := by
  induction steps generalizing d with
  | nil => rfl
  | cons step steps ih =>
    have hnext : (applyOrKeep step.1 d step.2).Filled :=
      run_filled hd fun s (hs : s ∈ [step]) => hsteps s (by simp_all)
    rw [run?_cons (applyBytes?_eq hd step.2)]
    exact ih hnext fun s hs => hsteps s (List.mem_cons_of_mem step hs)

/-- Grid conservation: from a document whose rows have one to twelve columns that add up to twelve
units, every step of a run of edits leaves every row with a column and with twelve units, and no
step faults. -/
theorem run_conserves_grid {d : Document} {steps : List (GridSettings × Edit)}
    (hd : ∀ row ∈ d.rows, 1 ≤ row.columns.length ∧ row.columns.length ≤ 12 ∧ row.total = 12)
    (hsteps : ∀ step ∈ steps, 1 ≤ step.1.minColumnUnits ∧ 1 ≤ step.1.newColumnUnits) (n : ℕ) :
    (∀ row ∈ (run d (steps.take n)).rows, 1 ≤ row.columns.length ∧ row.total = 12) ∧
      run? d (steps.take n) = some (run d (steps.take n)) := by
  have hfilled : d.Filled := fun row hrow =>
    Grid.filled_of_length_le (by rw [Row.length_units]; exact (hd row hrow).2.1) (hd row hrow).2.2
  have htake : ∀ step ∈ steps.take n, LeavesUnits step.1 := fun step hstep =>
    hsteps step (List.mem_of_mem_take hstep)
  refine ⟨fun row hrow => ?_, run?_eq hfilled htake⟩
  have hkept := run_filled hfilled htake row hrow
  refine ⟨?_, hkept.sum_eq⟩
  rw [← Row.length_units]
  exact List.length_pos_iff.mpr hkept.ne_nil

/-- A document with one row of two columns. -/
def twoColumns : Document :=
  { id := "email"
    rows := [{ id := "row-1"
               columns := [{ id := "column-1", units := 6 }, { id := "column-2", units := 6 }] }] }

/-- A row of widths that do not add up, one of them zero, comes in; a divider moves in the first
row; a column goes. -/
def unevenRun : List (GridSettings × Edit) :=
  [({}, .insertRow
      { id := "row-1"
        columns :=
          [{ id := "a", units := 0 }, { id := "b", units := 9 }, { id := "c", units := 250 }] }
      none),
    ({ minColumnUnits := 1 }, .resizeColumns "row-1" "column-1" (Binary64.ofNat 30)),
    ({}, .deleteColumn "column-1")]

/-- The grid over a run that scales, resizes and deletes. -/
theorem run_conserves_grid_unevenRun :
    (∀ row ∈ (run twoColumns (unevenRun.take 3)).rows, 1 ≤ row.columns.length ∧ row.total = 12) ∧
      run? twoColumns (unevenRun.take 3) = some (run twoColumns (unevenRun.take 3)) :=
  @run_conserves_grid twoColumns unevenRun
    (by simp [twoColumns, Row.total]) (by simp [unevenRun]) 3

end Edit

end MailTemplate
