import MailTemplate.Grid
import MailTemplate.Proofs.Binary64.Rank
import MailTemplate.Proofs.Lists

/-!
# Widths that share a row

Every way of sharing out a row gives widths of at least one unit that add up to twelve: an even
split (`sum_equalSplit`), scaling by largest remainders (`scale_shares`), the assignment of declared
widths (`assign_shares`) and the reading of percentages (`ofPercentages_shares`).

Scaling raises and lowers single widths until the sum is twelve.  The argument does not look at the
remainders: each round finds a width to change, because a list of at most twelve widths whose sum
lies above twelve holds one above one unit.
-/

namespace MailTemplate.Grid

/-- The widths share a row: each takes at least one unit, and together they take twelve. -/
structure Shares (units : List ℕ) : Prop where
  /-- Every width takes at least one unit. -/
  pos : ∀ u ∈ units, 1 ≤ u
  /-- Together the widths fill the row. -/
  sum_eq : units.sum = gridUnits

/-! ### Changing one width -/

/-- Changing one width changes the sum by the change of that width. -/
lemma sum_modify (f : ℕ → ℕ) {units : List ℕ} {i : ℕ} (h : i < units.length) :
    (units.modify i f).sum + units[i] = units.sum + f units[i] := by
  induction units generalizing i with
  | nil => simp at h
  | cons u units ih =>
    cases i with
    | zero =>
      simp only [List.modify_zero_cons, List.sum_cons, List.getElem_cons_zero]
      omega
    | succ i =>
      have hi : i < units.length := by simpa using h
      have hrest := ih hi
      simp only [List.modify_succ_cons, List.sum_cons, List.getElem_cons_succ]
      omega

/-- A list of widths that add up to more than a share for each holds one above the share. -/
lemma exists_lt_of_length_mul_lt_sum {share : ℕ} {units : List ℕ}
    (h : units.length * share < units.sum) : ∃ i, ∃ hi : i < units.length, share < units[i] := by
  induction units with
  | nil => simp at h
  | cons u units ih =>
    by_cases hu : share < u
    · exact ⟨0, Nat.succ_pos _, hu⟩
    · have hrest : units.length * share < units.sum := by
        rw [List.length_cons, Nat.succ_mul, List.sum_cons] at h
        omega
      obtain ⟨i, hi, hlt⟩ := ih hrest
      exact ⟨i + 1, Nat.succ_lt_succ hi, hlt⟩

/-- A width that shares a row takes at most twelve units. -/
lemma Shares.le {units : List ℕ} (h : Shares units) {u : ℕ} (hu : u ∈ units) : u ≤ gridUnits := by
  rw [← h.sum_eq]
  exact List.le_sum_of_mem hu

/-! ### Even splits -/

/-- An even split has as many widths as asked for. -/
@[simp] lemma length_equalSplit (total n : ℕ) : (equalSplit total n).length = n := by
  simp [equalSplit]

/-- The first `r` of `n` shares get one unit more. -/
lemma sum_map_range_ite (c n r : ℕ) :
    ((List.range n).map fun i => c + if i < r then 1 else 0).sum = n * c + min n r := by
  induction n with
  | zero => simp
  | succ n ih =>
    rw [List.range_succ, List.map_append, List.sum_append, ih, Nat.succ_mul]
    simp only [List.map_cons, List.map_nil, List.sum_cons, List.sum_nil]
    split <;> omega

/-- An even split shares out everything. -/
lemma sum_equalSplit {total n : ℕ} (h : 0 < n) : (equalSplit total n).sum = total := by
  have hmod : total % n < n := Nat.mod_lt total h
  have hdiv : n * (total / n) + total % n = total := Nat.div_add_mod total n
  unfold equalSplit
  rw [sum_map_range_ite]
  omega

/-- An even split gives every share a unit when there are enough of them. -/
lemma one_le_of_mem_equalSplit {total n u : ℕ} (h : 0 < n) (hn : n ≤ total)
    (hu : u ∈ equalSplit total n) : 1 ≤ u := by
  have hbase : 1 ≤ total / n := (Nat.one_le_div_iff h).mpr hn
  obtain ⟨i, -, rfl⟩ := List.mem_map.mp hu
  exact hbase.trans (Nat.le_add_right _ _)

/-- A row split evenly is shared. -/
lemma equalSplit_shares {n : ℕ} (h : 0 < n) (hn : n ≤ gridUnits) :
    Shares (equalSplit gridUnits n) :=
  ⟨fun _ hu => one_le_of_mem_equalSplit h hn hu, sum_equalSplit h⟩

/-! ### Rounds of scaling -/

/-- The best of the rest and the best so far is one of them. -/
lemma firstBest_go_mem (greater : Binary64 → Binary64 → Bool) (i : ℕ) (x : Binary64)
    (rest : List (ℕ × Binary64)) :
    ∃ y, (firstBest.go greater i x rest, y) ∈ (i, x) :: rest := by
  induction rest generalizing i x with
  | nil => exact ⟨x, List.mem_cons_self⟩
  | cons p rest ih =>
    obtain ⟨j, y⟩ := p
    simp only [firstBest.go]
    split
    · obtain ⟨z, hz⟩ := ih j y
      exact ⟨z, List.mem_cons_of_mem _ hz⟩
    · obtain ⟨z, hz⟩ := ih i x
      refine ⟨z, ?_⟩
      rcases List.mem_cons.mp hz with h | h
      · exact h ▸ List.mem_cons_self
      · exact List.mem_cons_of_mem _ (List.mem_cons_of_mem _ h)

/-- A list that is not empty has a best entry. -/
lemma exists_firstBest_eq_some (greater : Binary64 → Binary64 → Bool)
    {entries : List (ℕ × Binary64)} (h : entries ≠ []) :
    ∃ i y, firstBest greater entries = some i ∧ (i, y) ∈ entries := by
  cases entries with
  | nil => exact absurd rfl h
  | cons p rest =>
    obtain ⟨y, hy⟩ := firstBest_go_mem greater p.1 p.2 rest
    exact ⟨_, y, rfl, hy⟩

/-- The deficits belong to the widths, one each. -/
lemma exists_mem_deficits_iff {exact : List Binary64} {units : List ℕ}
    (h : exact.length = units.length) {i : ℕ} :
    (∃ y, (i, y) ∈ deficits exact units) ↔ i < units.length := by
  unfold deficits
  have hlen : (List.zipWith (fun e u => e - Binary64.ofNat u) exact units).length =
      units.length := by
    rw [List.length_zipWith, h, min_self]
  generalize List.zipWith (fun e u => e - Binary64.ofNat u) exact units = ds at hlen
  rw [← hlen]
  constructor
  · rintro ⟨y, hy⟩
    obtain ⟨p, hp, heq⟩ := List.mem_map.mp hy
    have hi : p.2 = i := congrArg Prod.fst heq
    exact hi ▸ (List.mem_zipIdx' hp).1
  · intro hi
    refine ⟨ds[i], List.mem_map.mpr ⟨(ds[i], i), ?_, rfl⟩⟩
    exact List.mem_zipIdx_iff_getElem?.mpr (List.getElem?_eq_getElem hi)

/-- Raising adds one unit in each round, and takes none away. -/
lemma raise_spec {exact : List Binary64} (missing : ℕ) {units : List ℕ}
    (h : exact.length = units.length) (hne : units ≠ []) (hpos : ∀ u ∈ units, 1 ≤ u) :
    (raise exact missing units).sum = units.sum + missing ∧
      (raise exact missing units).length = units.length ∧
        ∀ u ∈ raise exact missing units, 1 ≤ u := by
  induction missing generalizing units with
  | zero => exact ⟨rfl, rfl, hpos⟩
  | succ missing ih =>
    have hzero : 0 < units.length := List.length_pos_iff.mpr hne
    obtain ⟨y, hy⟩ := (exists_mem_deficits_iff h).mpr hzero
    obtain ⟨i, z, hi, hmem⟩ :=
      exists_firstBest_eq_some (fun a b => b.lt a) (List.ne_nil_of_mem hy)
    have hlt : i < units.length := (exists_mem_deficits_iff h).mp ⟨z, hmem⟩
    have hsum := sum_modify (· + 1) hlt
    have hpos' : ∀ u ∈ units.modify i (· + 1), 1 ≤ u :=
      forall_mem_modify hpos fun u _ => Nat.succ_pos u
    have hne' : units.modify i (· + 1) ≠ [] := by simpa using hne
    obtain ⟨hs, hl, hp⟩ := ih (by simpa using h) hne' hpos'
    rw [raise, hi]
    refine ⟨?_, ?_, hp⟩
    · rw [hs]
      omega
    · rw [hl, List.length_modify]

/-- A round of lowering takes one unit from the first best of the wide widths. -/
lemma lower_succ {exact : List Binary64} {surplus i : ℕ} {units : List ℕ}
    (h : firstBest (fun a b => a.lt b)
      ((deficits exact units).filter fun p => 1 < units.getD p.1 0) = some i) :
    lower exact (surplus + 1) units = lower exact surplus (units.modify i (· - 1)) := by
  rw [lower]
  split
  · next j hj =>
    obtain rfl : j = i := Option.some.inj (hj.symm.trans h)
    rfl
  · next hnone =>
    have hsome : none = some i := hnone.symm.trans h
    cases hsome

/-- Lowering takes one unit away in each round as long as the widths stay positive. -/
lemma lower_spec {exact : List Binary64} (surplus : ℕ) {units : List ℕ}
    (h : exact.length = units.length) (hpos : ∀ u ∈ units, 1 ≤ u)
    (hroom : units.length + surplus ≤ units.sum) :
    (lower exact surplus units).sum + surplus = units.sum ∧
      (lower exact surplus units).length = units.length ∧
        ∀ u ∈ lower exact surplus units, 1 ≤ u := by
  induction surplus generalizing units with
  | zero => exact ⟨rfl, rfl, hpos⟩
  | succ surplus ih =>
    -- some width lies above one unit, so the round finds one to lower
    have hlt : units.length * 1 < units.sum := by omega
    obtain ⟨j, hj, hwide⟩ := exists_lt_of_length_mul_lt_sum hlt
    obtain ⟨y, hy⟩ := (exists_mem_deficits_iff h).mpr hj
    have hkept : (j, y) ∈ (deficits exact units).filter fun p => 1 < units.getD p.1 0 := by
      refine List.mem_filter.mpr ⟨hy, ?_⟩
      simpa [List.getD_eq_getElem?_getD, hj] using hwide
    obtain ⟨i, z, hi, hmem⟩ :=
      exists_firstBest_eq_some (fun a b => a.lt b) (List.ne_nil_of_mem hkept)
    obtain ⟨hmem, hgt⟩ := List.mem_filter.mp hmem
    have hlt : i < units.length := (exists_mem_deficits_iff h).mp ⟨z, hmem⟩
    have hgt' : 1 < units[i] := by
      simpa [List.getD_eq_getElem?_getD, hlt] using hgt
    have hsum := sum_modify (· - 1) hlt
    have hpos' : ∀ u ∈ units.modify i (· - 1), 1 ≤ u := by
      refine forall_mem_modify hpos fun u hu => ?_
      rw [List.getElem?_eq_getElem hlt, Option.mem_some] at hu
      omega
    obtain ⟨hs, hl, hp⟩ := ih (by simpa using h) hpos' (by rw [List.length_modify]; omega)
    rw [lower_succ hi]
    refine ⟨by omega, ?_, hp⟩
    rw [hl, List.length_modify]

/-! ### Scaling and assignment -/

/-- One to twelve widths, scaled, are as many widths that share the row. -/
theorem scale_shares (widths : List ℕ) (hne : widths ≠ []) (hlen : widths.length ≤ gridUnits) :
    (scale widths).length = widths.length ∧ Shares (scale widths) := by
  have hcount : 0 < widths.length := List.length_pos_iff.mpr hne
  unfold scale
  simp only
  split
  · exact ⟨length_equalSplit _ _, equalSplit_shares hcount hlen⟩
  · generalize hexact : (widths.map fun w =>
      Binary64.ofNat w * Binary64.ofNat gridUnits / Binary64.ofNat widths.sum) = exact
    generalize hunits :
      (exact.map fun e => max 1 (e.floor.truncateTo 0 (2 ^ 32 - 1)).toNat) = units
    have hlexact : exact.length = widths.length := by rw [← hexact, List.length_map]
    have hlunits : exact.length = units.length := by rw [← hunits, List.length_map]
    have hpos : ∀ u ∈ units, 1 ≤ u := by
      intro u hu
      rw [← hunits] at hu
      obtain ⟨e, -, rfl⟩ := List.mem_map.mp hu
      exact le_max_left _ _
    have hunits_ne : units ≠ [] := by
      rw [← List.length_pos_iff]
      omega
    obtain ⟨hsum, hlen', hpos'⟩ := raise_spec (gridUnits - units.sum) hlunits hunits_ne hpos
    generalize raise exact (gridUnits - units.sum) units = raised at hsum hlen' hpos'
    obtain ⟨hsum', hlen'', hpos''⟩ :=
      lower_spec (raised.sum - gridUnits) (hlunits.trans hlen'.symm) hpos' (by omega)
    exact ⟨by omega, hpos'', by omega⟩

/-- Filling uses up the shares when there is one for each undeclared width. -/
lemma fill_spec {declared : List (Option ℕ)} (shares : List ℕ)
    (hlen : shares.length + (declared.filterMap id).length = declared.length)
    (hshares : ∀ u ∈ shares, 1 ≤ u) (hdeclared : ∀ u ∈ declared.filterMap id, 1 ≤ u) :
    (fill declared shares).length = declared.length ∧
      (fill declared shares).sum = (declared.filterMap id).sum + shares.sum ∧
        ∀ u ∈ fill declared shares, 1 ≤ u := by
  induction declared generalizing shares with
  | nil =>
    have hnil : shares = [] := by simpa using hlen
    simp [fill, hnil]
  | cons width declared ih =>
    cases width with
    | some w =>
      have hcons : (some w :: declared).filterMap id = w :: declared.filterMap id := rfl
      rw [hcons] at hlen hdeclared ⊢
      simp only [List.length_cons] at hlen
      obtain ⟨hl, hs, hp⟩ := ih _ (by omega) hshares fun u hu =>
        hdeclared u (List.mem_cons_of_mem _ hu)
      simp only [fill, List.length_cons, List.sum_cons]
      refine ⟨by omega, by omega, fun u hu => ?_⟩
      rcases List.mem_cons.mp hu with rfl | hu
      · exact hdeclared u List.mem_cons_self
      · exact hp u hu
    | none =>
      have hcons : (none :: declared).filterMap id = declared.filterMap id := rfl
      rw [hcons] at hlen hdeclared ⊢
      cases shares with
      | nil =>
        -- there are never more declared widths than widths
        have hle : (declared.filterMap id).length ≤ declared.length := List.length_filterMap_le _ _
        simp only [List.length_nil, List.length_cons] at hlen
        omega
      | cons share shares =>
        simp only [List.length_cons] at hlen
        have hrest : shares.length + (declared.filterMap id).length = declared.length := by omega
        obtain ⟨hl, hs, hp⟩ := ih _ hrest
          (fun u hu => hshares u (List.mem_cons_of_mem _ hu)) hdeclared
        simp only [fill, List.length_cons, List.sum_cons]
        refine ⟨by omega, by omega, fun u hu => ?_⟩
        rcases List.mem_cons.mp hu with rfl | hu
        · exact hshares u List.mem_cons_self
        · exact hp u hu

/-- One to twelve columns with declared positive widths, or none, get widths that share the row,
whatever is declared. -/
theorem assign_shares (declared : List (Option ℕ)) (hne : declared ≠ [])
    (hlen : declared.length ≤ gridUnits) (hpos : ∀ u, some u ∈ declared → 1 ≤ u) :
    (assign declared).length = declared.length ∧ Shares (assign declared) := by
  have hcount : 0 < declared.length := List.length_pos_iff.mpr hne
  have hle : (declared.filterMap id).length ≤ declared.length := List.length_filterMap_le _ _
  have hgiven : ∀ u ∈ declared.filterMap id, 1 ≤ u := by
    intro u hu
    obtain ⟨w, hw, rfl⟩ := List.mem_filterMap.mp hu
    exact hpos u hw
  unfold assign
  simp only
  split
  · next hall =>
    split
    · next hsum => exact ⟨by omega, hgiven, hsum⟩
    · have hgiven_ne : declared.filterMap id ≠ [] := by
        rw [← List.length_pos_iff]
        omega
      obtain ⟨hl, hs⟩ := scale_shares _ hgiven_ne (hle.trans hlen)
      exact ⟨by omega, hs⟩
  · next hopen =>
    split
    · exact ⟨length_equalSplit _ _, equalSplit_shares hcount hlen⟩
    · next hroom =>
      have hundeclared : 0 < declared.length - (declared.filterMap id).length := by omega
      obtain ⟨hl, hs, hp⟩ := fill_spec
        (equalSplit (gridUnits - (declared.filterMap id).sum)
          (declared.length - (declared.filterMap id).length))
        (by rw [length_equalSplit]; omega)
        (fun u hu => one_le_of_mem_equalSplit hundeclared (not_lt.mp hroom) hu) hgiven
      rw [sum_equalSplit hundeclared] at hs
      exact ⟨hl, hp, by omega⟩

/-- The widths that percentages stand for share the row. -/
theorem ofPercentages_shares {percentages : List Binary64} {units : List ℕ}
    (h : ofPercentages percentages = .ok units) :
    units.length = percentages.length ∧ units ≠ [] ∧ units.length ≤ gridUnits ∧ Shares units := by
  unfold ofPercentages at h
  split at h
  · cases h
  · next hcount =>
    simp only [Bool.or_eq_true, List.isEmpty_iff, decide_eq_true_eq, not_or, not_lt] at hcount
    obtain ⟨hne, hlen⟩ := hcount
    have hpos : 0 < percentages.length := List.length_pos_iff.mpr hne
    split at h
    · cases h
    · next hfind =>
      have hunits : ∀ u ∈ percentages.map percentToUnits, 1 ≤ u := by
        intro u hu
        obtain ⟨p, hp, rfl⟩ := List.mem_map.mp hu
        have hfinite : p.isFinite = true := by
          have hp' := List.find?_eq_none.mp hfind p hp
          simp only [Bool.or_eq_true, not_or, Bool.not_eq_true] at hp'
          simpa using hp'.1.1
        exact (percentToUnits_mem hfinite).1
      have hmap_ne : percentages.map percentToUnits ≠ [] := by simpa using hne
      have hmap_len : (percentages.map percentToUnits).length = percentages.length :=
        List.length_map _
      simp only [Except.ok.injEq] at h
      split at h
      · next hsum =>
        subst h
        exact ⟨hmap_len, hmap_ne, hmap_len ▸ hlen, hunits, hsum⟩
      · obtain ⟨hl, hs⟩ := scale_shares _ hmap_ne (hmap_len ▸ hlen)
        rw [h] at hl hs
        refine ⟨hl.trans hmap_len, ?_, by omega, hs⟩
        rw [← List.length_pos_iff]
        omega

end MailTemplate.Grid
