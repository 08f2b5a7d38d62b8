import MailTemplate.Proofs.Edit.Dividers

/-!
# Dividers with no column in common

A divider moves in a changed row as in the row itself, if the change leaves the columns on its both
sides as they are (`moveDivider_of_keeps`).  So two dividers of a row that have no column in common
may move in either order (`divideOrKeep_comm`).
-/

namespace MailTemplate

/-- The columns on both sides of the divider at the right of a column, if there is one. -/
def Row.dividerIds (row : Row) (columnId : String) : List String :=
  match row.columnIndex? columnId with
  | none => []
  | some index =>
    match row.columns[index]?, row.columns[index + 1]? with
    | some left, some right => [left.id, right.id]
    | _, _ => []

namespace Edit

variable {settings : GridSettings}

/-- The row after a divider moves, or as it was when the divider does not move. -/
def divideOrKeep (settings : GridSettings) (row : Row) (leftColumnId : String)
    (leftPercent : Binary64) : Row :=
  match row.moveDivider settings leftColumnId leftPercent with
  | .ok next => next
  | .error _ => row

/-- A divider moves in a changed row as in the row itself, if the change leaves the ids of the
columns and both widths at the divider, and if it does not matter which of the two comes first. -/
lemma moveDivider_of_keeps {row : Row} {g : Row → Row} {columnId : String} {leftPercent : Binary64}
    (hids : (g row).columns.map Column.id = row.columns.map Column.id)
    (hkeeps : ∀ i left right, row.columnIndex? columnId = some i → row.columns[i]? = some left →
      row.columns[i + 1]? = some right →
        (g row).units[i]? = some left.units ∧ (g row).units[i + 1]? = some right.units ∧
          ∀ l r, resized i l r (g row) = g (resized i l r row)) :
    (g row).moveDivider settings columnId leftPercent =
      (row.moveDivider settings columnId leftPercent).map g := by
  have hindex : (g row).columnIndex? columnId = row.columnIndex? columnId := by
    have hfind : ∀ r : Row,
        r.columnIndex? columnId = (r.columns.map Column.id).findIdx? (· == columnId) := by
      intro r
      rw [List.findIdx?_map]
      rfl
    rw [hfind, hfind, hids]
  have hlength : (g row).columns.length = row.columns.length := by
    simpa using congrArg List.length hids
  have hnone : ∀ {i : ℕ}, row.columns[i]? = none → (g row).columns[i]? = none := by
    intro i hi
    rw [List.getElem?_eq_none_iff] at hi ⊢
    rwa [hlength]
  have hunits : ∀ {i u : ℕ}, (g row).units[i]? = some u →
      ∃ c, (g row).columns[i]? = some c ∧ c.units = u := by
    intro i u hu
    unfold Row.units at hu
    rwa [List.getElem?_map, Option.map_eq_some_iff] at hu
  -- a move reads the place of the column and two widths, and both rows agree on these
  unfold Row.moveDivider
  rw [hindex]
  cases hi : row.columnIndex? columnId with
  | none => rfl
  | some i =>
    cases hleft : row.columns[i]? with
    | none =>
      simp only [hnone hleft, hleft]
      rfl
    | some left =>
      cases hright : row.columns[i + 1]? with
      | none =>
        simp only [hnone hright, hleft, hright]
        cases (g row).columns[i]? with
        | none => rfl
        | some left' => rfl
      | some right =>
        obtain ⟨hleftUnits, hrightUnits, hcomm⟩ := hkeeps i left right hi hleft hright
        obtain ⟨left', hleft', hl⟩ := hunits hleftUnits
        obtain ⟨right', hright', hr⟩ := hunits hrightUnits
        simp only [hleft', hright', hl, hr, hleft, hright]
        cases Grid.resizePair settings left.units right.units leftPercent with
        | error error => rfl
        | ok units => exact congrArg Except.ok (hcomm units.1 units.2)

/-- A divider that moves stands between two columns, and changes their widths. -/
lemma exists_resized {row next : Row} {columnId : String} {leftPercent : Binary64}
    (h : row.moveDivider settings columnId leftPercent = .ok next) :
    ∃ i left right l r, row.columnIndex? columnId = some i ∧ row.columns[i]? = some left ∧
      row.columns[i + 1]? = some right ∧ next = resized i l r row := by
  unfold Row.moveDivider at h
  cases hi : row.columnIndex? columnId with
  | none => simp [hi] at h
  | some i =>
    cases hleft : row.columns[i]? with
    | none => simp [hi, hleft] at h
    | some left =>
      cases hright : row.columns[i + 1]? with
      | none => simp [hi, hleft, hright] at h
      | some right =>
        simp only [hi, hleft, hright] at h
        cases hpair : Grid.resizePair settings left.units right.units leftPercent with
        | error error =>
          rw [hpair] at h
          cases h
        | ok units =>
          rw [hpair] at h
          exact ⟨i, left, right, units.1, units.2, rfl, hleft, hright, (Except.ok.inj h).symm⟩

/-- A divider that moves or not leaves the row all but its widths. -/
lemma divideOrKeep_cases (settings : GridSettings) (row : Row) (columnId : String)
    (leftPercent : Binary64) :
    divideOrKeep settings row columnId leftPercent = row ∨
      ∃ i l r, divideOrKeep settings row columnId leftPercent = resized i l r row := by
  unfold divideOrKeep
  split
  · next hmove =>
    obtain ⟨i, _, _, l, r, _, _, _, rfl⟩ := exists_resized hmove
    exact .inr ⟨i, l, r, rfl⟩
  · exact .inl rfl

/-- A row keeps its id when a divider moves or not. -/
lemma id_divideOrKeep (settings : GridSettings) (row : Row) (columnId : String)
    (leftPercent : Binary64) : (divideOrKeep settings row columnId leftPercent).id = row.id := by
  rcases divideOrKeep_cases settings row columnId leftPercent with hkept | ⟨i, l, r, hmoved⟩
  · rw [hkept]
  · rw [hmoved]
    rfl

/-- The widths at two dividers that have no column in common. -/
lemma resized_comm {i j : ℕ} (h : i ≠ j) (hleft : i ≠ j + 1) (hright : i + 1 ≠ j) (l r l' r' : ℕ)
    (row : Row) : resized i l r (resized j l' r' row) = resized j l' r' (resized i l r row) := by
  have hnext : i + 1 ≠ j + 1 := by omega
  have hswap : ∀ (u v i j : ℕ) (columns : List Column), i ≠ j →
      (columns.modify i fun c => { c with units := u }).modify j (fun c => { c with units := v }) =
        (columns.modify j fun c => { c with units := v }).modify i fun c => { c with units := u } :=
    fun u v i j columns hij => List.modify_modify_ne _ _ columns hij
  unfold resized
  simp only [Row.mk.injEq, true_and]
  -- the widths of the one divider pass those of the other, one by one
  rw [hswap r' l (j + 1) i _ hleft.symm, hswap l' l j i _ h.symm,
    hswap r' r (j + 1) (i + 1) _ hnext.symm,
    hswap l' r j (i + 1) _ hright.symm]

/-- Two dividers that have no column in common stand at different places. -/
lemma ne_of_dividerIds {row : Row} {columnId columnId' : String}
    (h : (row.dividerIds columnId).Disjoint (row.dividerIds columnId')) {i j : ℕ}
    {left right left' right' : Column} (hi : row.columnIndex? columnId = some i)
    (hleft : row.columns[i]? = some left) (hright : row.columns[i + 1]? = some right)
    (hj : row.columnIndex? columnId' = some j) (hleft' : row.columns[j]? = some left')
    (hright' : row.columns[j + 1]? = some right') : i ≠ j ∧ i ≠ j + 1 ∧ i + 1 ≠ j := by
  have hids : row.dividerIds columnId = [left.id, right.id] := by
    unfold Row.dividerIds
    simp only [hi, hleft, hright]
  have hids' : row.dividerIds columnId' = [left'.id, right'.id] := by
    unfold Row.dividerIds
    simp only [hj, hleft', hright']
  rw [hids, hids'] at h
  refine ⟨?_, ?_, ?_⟩
  · rintro rfl
    obtain rfl := Option.some.inj (hleft.symm.trans hleft')
    exact h List.mem_cons_self List.mem_cons_self
  · rintro rfl
    obtain rfl := Option.some.inj (hleft.symm.trans hright')
    exact h List.mem_cons_self (List.mem_cons_of_mem _ List.mem_cons_self)
  · rintro rfl
    obtain rfl := Option.some.inj (hright.symm.trans hleft')
    exact h (List.mem_cons_of_mem _ List.mem_cons_self) List.mem_cons_self

/-- A divider moves as before after another one has moved that has no column in common with it. -/
lemma moveDivider_resized (settings : GridSettings) {row : Row} {columnId columnId' : String}
    (leftPercent : Binary64)
    (h : (row.dividerIds columnId).Disjoint (row.dividerIds columnId')) {j : ℕ}
    {left' right' : Column} (hj : row.columnIndex? columnId' = some j)
    (hleft' : row.columns[j]? = some left') (hright' : row.columns[j + 1]? = some right')
    (l' r' : ℕ) :
    (resized j l' r' row).moveDivider settings columnId leftPercent =
      (row.moveDivider settings columnId leftPercent).map (resized j l' r') := by
  have hids : (resized j l' r' row).columns.map Column.id = row.columns.map Column.id :=
    map_columns_resized (fun _ _ => rfl) j l' r' row
  refine moveDivider_of_keeps hids ?_
  intro i left right hi hleft hright
  obtain ⟨hne, hneLeft, hneRight⟩ := ne_of_dividerIds h hi hleft hright hj hleft' hright'
  have hunits := units_resized j l' r' row
  refine ⟨?_, ?_, fun l r => resized_comm hne hneLeft hneRight l r l' r' row⟩
  · rw [hunits, List.getElem?_modify_ne _ _ hneLeft.symm, List.getElem?_modify_ne _ _ hne.symm,
      Row.units, List.getElem?_map, hleft, Option.map_some]
  · rw [hunits, List.getElem?_modify_ne _ _ (by omega), List.getElem?_modify_ne _ _ hneRight.symm,
      Row.units, List.getElem?_map, hright, Option.map_some]

/-- Two dividers of a row that have no column in common. -/
lemma divideOrKeep_comm {row : Row} {columnId columnId' : String}
    (h : (row.dividerIds columnId).Disjoint (row.dividerIds columnId'))
    (leftPercent leftPercent' : Binary64) :
    divideOrKeep settings (divideOrKeep settings row columnId leftPercent) columnId' leftPercent' =
      divideOrKeep settings (divideOrKeep settings row columnId' leftPercent') columnId
        leftPercent := by
  cases hmove : row.moveDivider settings columnId leftPercent with
  | error error =>
    cases hmove' : row.moveDivider settings columnId' leftPercent' with
    | error error' => simp [divideOrKeep, hmove, hmove']
    | ok next' =>
      obtain ⟨j, left', right', l', r', hj, hleft', hright', rfl⟩ := exists_resized hmove'
      have hagain := moveDivider_resized settings leftPercent h hj
        hleft' hright' l' r'
      simp [divideOrKeep, hmove, hmove', hagain, Except.map]
  | ok next =>
    obtain ⟨i, left, right, l, r, hi, hleft, hright, rfl⟩ := exists_resized hmove
    have hagain := moveDivider_resized settings leftPercent' h.symm hi
      hleft hright l r
    cases hmove' : row.moveDivider settings columnId' leftPercent' with
    | error error' => simp [divideOrKeep, hmove, hmove', hagain, Except.map]
    | ok next' =>
      obtain ⟨j, left', right', l', r', hj, hleft', hright', rfl⟩ := exists_resized hmove'
      have hagain' := moveDivider_resized settings leftPercent h hj
        hleft' hright' l' r'
      obtain ⟨hne, hneLeft, hneRight⟩ := ne_of_dividerIds h hi hleft hright hj hleft' hright'
      simp [divideOrKeep, hmove, hmove', hagain, hagain', Except.map,
        resized_comm hne hneLeft hneRight]

end Edit

end MailTemplate
