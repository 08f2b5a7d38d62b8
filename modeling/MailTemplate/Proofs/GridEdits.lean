import MailTemplate.Proofs.GridWidths

/-!
# Widths under edits

The widths of a row that has been edited need not all be positive: a row from elsewhere may bring
columns that take no unit at all.  What every edit keeps is that the widths add up to twelve while
fewer than twelve of them are zero (`Filled`).  Such a row has a column, and fewer than twenty-four.

Main statements: moving a divider (`filled_resize`), making room for a column (`filled_addColumn`)
and giving away the room of one (`filled_deleteColumn`) keep a row filled.  Each of these has a
condition under which it is possible (`exists_resizePair_iff`, `exists_addColumn_iff`,
`exists_deleteColumn_iff`).
-/

namespace MailTemplate.Grid

/-- The widths fill a row: together they take twelve units, and fewer than twelve of them take
none. -/
structure Filled (units : List ℕ) : Prop where
  /-- Together the widths fill the row. -/
  sum_eq : units.sum = gridUnits
  /-- Only some widths are zero. -/
  count_zero_lt : units.count 0 < gridUnits

/-! ### Filled rows -/

/-- A list has at most as many members as its sum and its zeros together. -/
lemma length_le_sum_add_count_zero (units : List ℕ) :
    units.length ≤ units.sum + units.count 0 := by
  induction units with
  | nil => simp
  | cons u units ih =>
    rw [List.length_cons, List.sum_cons, List.count_cons]
    split
    · omega
    · next hu =>
      have hne : u ≠ 0 := by simpa using hu
      omega

/-- A filled row has a column. -/
lemma Filled.ne_nil {units : List ℕ} (h : Filled units) : units ≠ [] := by
  rintro rfl
  have hsum := h.sum_eq
  simp [gridUnits] at hsum

/-- A filled row has fewer than twenty-four columns. -/
lemma Filled.length_lt {units : List ℕ} (h : Filled units) : units.length < 24 := by
  have hle := length_le_sum_add_count_zero units
  have hsum := h.sum_eq
  have hzero := h.count_zero_lt
  unfold gridUnits at hsum hzero
  omega

/-- No width of a filled row takes more than twelve units. -/
lemma Filled.le {units : List ℕ} (h : Filled units) {u : ℕ} (hu : u ∈ units) : u ≤ gridUnits := by
  rw [← h.sum_eq]
  exact List.le_sum_of_mem hu

/-- Widths that share a row fill it. -/
lemma Shares.filled {units : List ℕ} (h : Shares units) : Filled units := by
  have hzero : units.count 0 = 0 := by
    rw [List.count_eq_zero]
    intro hmem
    exact absurd (h.pos 0 hmem) (by omega)
  exact ⟨h.sum_eq, by rw [hzero]; decide⟩

/-- At most twelve widths that add up to twelve fill a row. -/
lemma filled_of_length_le {units : List ℕ} (hlen : units.length ≤ gridUnits)
    (hsum : units.sum = gridUnits) : Filled units := by
  refine ⟨hsum, lt_of_le_of_ne (List.count_le_length.trans hlen) ?_⟩
  intro hcount
  -- twelve zeros would leave nothing to add up
  have hall : ∀ u ∈ units, 0 = u := by
    rw [← List.count_eq_length]
    have hle : units.count 0 ≤ units.length := List.count_le_length
    omega
  have hzero : units.sum = 0 := List.sum_eq_zero fun u hu => (hall u hu).symm
  rw [hzero] at hsum
  exact absurd hsum (by decide)

/-! ### Changing widths -/

/-- Changing a width adds no zero unless it makes one. -/
lemma count_zero_modify_le {f : ℕ → ℕ} (units : List ℕ) (i : ℕ)
    (hf : ∀ u ∈ units[i]?, f u = 0 → u = 0) : (units.modify i f).count 0 ≤ units.count 0 := by
  induction units generalizing i with
  | nil => simp
  | cons u units ih =>
    cases i with
    | zero =>
      have hzero : f u = 0 → u = 0 := hf u (by simp)
      rw [List.modify_zero_cons, List.count_cons, List.count_cons]
      split
      · next h =>
        have hu : u = 0 := hzero (by simpa using h)
        simp [hu]
      · omega
    | succ i =>
      have hrest := ih (i := i) fun v hv => hf v (by simpa using hv)
      rw [List.modify_succ_cons, List.count_cons, List.count_cons]
      omega

/-- Raising every width by the same share raises the sum by the share of each. -/
lemma sum_map_add (share : ℕ) (units : List ℕ) :
    (units.map (· + share)).sum = units.sum + units.length * share := by
  induction units with
  | nil => simp
  | cons u units ih =>
    rw [List.map_cons, List.sum_cons, List.sum_cons, ih, List.length_cons, Nat.succ_mul]
    omega

/-- Raising every width adds no zero. -/
lemma count_zero_map_add_le (share : ℕ) (units : List ℕ) :
    (units.map (· + share)).count 0 ≤ units.count 0 := by
  rw [List.count_eq_countP, List.count_eq_countP, List.countP_map]
  refine List.countP_mono_left fun u _ h => ?_
  have hsum : u + share = 0 := by simpa using h
  rw [beq_iff_eq]
  omega

/-- A list adds up to one of its members and the others. -/
lemma sum_eraseIdx {units : List ℕ} {i : ℕ} (h : i < units.length) :
    (units.eraseIdx i).sum + units[i] = units.sum := by
  have hperm : (units[i] :: units.eraseIdx i).sum = units.sum :=
    (List.getElem_cons_eraseIdx_perm h).sum_eq
  rw [List.sum_cons] at hperm
  omega

/-! ### The divider between two columns -/

/-- A moved divider keeps the width of both columns together, and leaves each the least width. -/
lemma resizePair_spec {settings : GridSettings} {left right leftUnits rightUnits : ℕ}
    {leftPercent : Binary64} (hsmall : left + right < 255)
    (h : resizePair settings left right leftPercent = .ok (leftUnits, rightUnits)) :
    leftUnits + rightUnits = left + right ∧ settings.minColumnUnits ≤ leftUnits ∧
      settings.minColumnUnits ≤ rightUnits := by
  unfold resizePair at h
  simp only at h
  split at h
  · cases h
  · next hfinite =>
    split at h
    · cases h
    · next hroom =>
      rw [not_lt] at hroom
      have hmin : 2 * settings.minColumnUnits ≤ left + right := by
        rcases min_le_iff.mp hroom with hle | hle
        · omega
        · exact hle
      have hnan : nearestUnits leftPercent ≠ .nan :=
        nearestUnits_ne_nan (by simpa using hfinite)
      have hmem := Binary64.toByte_clamp_mem hnan
        (a := settings.minColumnUnits) (b := left + right - settings.minColumnUnits)
        (by omega) (by omega)
      simp only [Except.ok.injEq, Prod.mk.injEq] at h
      obtain ⟨rfl, rfl⟩ := h
      omega

/-- A row stays filled when the divider between two of its columns moves and leaves each of them a
unit. -/
lemma filled_resize {units : List ℕ} (hfilled : Filled units) {i leftUnits rightUnits : ℕ}
    (hi : i + 1 < units.length) (hsum : leftUnits + rightUnits = units[i] + units[i + 1])
    (hleft : 0 < leftUnits) (hright : 0 < rightUnits) :
    Filled ((units.modify i fun _ => leftUnits).modify (i + 1) fun _ => rightUnits) := by
  have hmoved : i + 1 < (units.modify i fun _ => leftUnits).length := by simpa using hi
  have hfirst := sum_modify (fun _ => leftUnits) (show i < units.length by omega)
  have hsecond := sum_modify (fun _ => rightUnits) hmoved
  have hkept : (units.modify i fun _ => leftUnits)[i + 1] = units[i + 1] := by
    rw [List.getElem_modify, if_neg (by omega)]
  rw [hkept] at hsecond
  refine ⟨?_, ?_⟩
  · have hall := hfilled.sum_eq
    omega
  · have hzero := hfilled.count_zero_lt
    have hone := count_zero_modify_le (f := fun _ => leftUnits) units i
      fun _ _ h => absurd h hleft.ne'
    have htwo := count_zero_modify_le (f := fun _ => rightUnits)
      (units.modify i fun _ => leftUnits) (i + 1) fun _ _ h => absurd h hright.ne'
    omega

/-! ### New and removed columns -/

/-- A donor is wider than the new column and at least as wide as a donor must be. -/
lemma donor?_spec {settings : GridSettings} {units : List ℕ} {i : ℕ}
    (h : donor? settings units = some i) :
    ∃ hi : i < units.length, settings.donorMinUnits ≤ units[i] ∧
      settings.newColumnUnits < units[i] := by
  unfold donor? at h
  rw [Option.map_eq_some_iff] at h
  obtain ⟨p, hp, rfl⟩ := h
  have hmem := List.mem_of_getLast? hp
  rw [List.mem_filter] at hmem
  obtain ⟨hzip, hwide⟩ := hmem
  have hp' := List.mem_zipIdx' hzip
  simp only [Bool.and_eq_true, decide_eq_true_eq] at hwide
  rw [hp'.2] at hwide
  exact ⟨hp'.1, hwide⟩

/-- A new column takes its width from one that is wider. -/
lemma addColumn_eq_ok {settings : GridSettings} {units next : List ℕ}
    (h : addColumn settings units = .ok next) :
    ∃ i, ∃ hi : i < units.length, settings.newColumnUnits < units[i] ∧
      next = units.modify i (· - settings.newColumnUnits) ++ [settings.newColumnUnits] := by
  unfold addColumn at h
  split at h
  · cases h
  · split at h
    · cases h
    · next i hdonor =>
      obtain ⟨hi, -, hwide⟩ := donor?_spec hdonor
      cases h
      exact ⟨i, hi, hwide, rfl⟩

/-- A row stays filled when it gets a column of at least one unit. -/
lemma filled_addColumn {settings : GridSettings} {units next : List ℕ} (hfilled : Filled units)
    (hnew : 0 < settings.newColumnUnits) (h : addColumn settings units = .ok next) :
    Filled next := by
  obtain ⟨i, hi, hwide, rfl⟩ := addColumn_eq_ok h
  have hsum := sum_modify (f := (· - settings.newColumnUnits)) hi
  have hzero : (units.modify i (· - settings.newColumnUnits)).count 0 ≤ units.count 0 := by
    refine count_zero_modify_le _ _ fun u hu h => ?_
    rw [List.getElem?_eq_getElem hi, Option.mem_some] at hu
    omega
  refine ⟨?_, ?_⟩
  · have hall := hfilled.sum_eq
    rw [List.sum_append, List.sum_singleton]
    omega
  · have hall := hfilled.count_zero_lt
    rw [List.count_append, List.count_singleton]
    have hne : (settings.newColumnUnits == 0) = false := by simpa using hnew.ne'
    simp only [hne, Bool.false_eq_true, if_false]
    omega

/-- The width of a removed column is spread over the others. -/
lemma deleteColumn_eq_ok {units next : List ℕ} {index : ℕ}
    (h : deleteColumn units index = .ok next) :
    ∃ hi : index < units.length, 1 < units.length ∧
      next = ((units.eraseIdx index).map (· + units[index] / (units.eraseIdx index).length)).modify
        0 (· + units[index] % (units.eraseIdx index).length) := by
  unfold deleteColumn at h
  split at h
  · cases h
  · next hmany =>
    split at h
    · cases h
    · next freed hfreed =>
      obtain ⟨hi, rfl⟩ := List.getElem?_eq_some_iff.mp hfreed
      cases h
      exact ⟨hi, by omega, rfl⟩

/-- A row stays filled when it loses a column. -/
lemma filled_deleteColumn {units next : List ℕ} {index : ℕ} (hfilled : Filled units)
    (h : deleteColumn units index = .ok next) : Filled next := by
  obtain ⟨hi, hmany, rfl⟩ := deleteColumn_eq_ok h
  have hlen : (units.eraseIdx index).length = units.length - 1 := List.length_eraseIdx_of_lt hi
  have herase := sum_eraseIdx hi
  have hsub : (units.eraseIdx index).count 0 ≤ units.count 0 :=
    (List.eraseIdx_sublist units index).count_le 0
  generalize units.eraseIdx index = others at hlen herase hsub ⊢
  generalize units[index] = freed at herase ⊢
  have hothers : 0 < others.length := by omega
  have hdivmod : others.length * (freed / others.length) + freed % others.length = freed :=
    Nat.div_add_mod freed others.length
  have hmap := sum_map_add (freed / others.length) others
  have hzero := count_zero_map_add_le (freed / others.length) others
  have hlen' : (others.map (· + freed / others.length)).length = others.length :=
    List.length_map _
  generalize others.map (· + freed / others.length) = spread at hmap hzero hlen' ⊢
  have hsum := sum_modify (· + freed % others.length) (show 0 < spread.length by omega)
  refine ⟨?_, ?_⟩
  · have hall := hfilled.sum_eq
    omega
  · have hall := hfilled.count_zero_lt
    have hmodify : (spread.modify 0 (· + freed % others.length)).count 0 ≤ spread.count 0 :=
      count_zero_modify_le _ _ fun u _ h => by omega
    omega

/-! ### Which operations succeed -/

/-- There is a donor exactly if some width is wide enough for one. -/
lemma exists_donor?_iff {settings : GridSettings} {units : List ℕ} :
    (∃ i, donor? settings units = some i) ↔
      ∃ u ∈ units, settings.donorMinUnits ≤ u ∧ settings.newColumnUnits < u := by
  constructor
  · rintro ⟨i, hdonor⟩
    obtain ⟨hi, hwide⟩ := donor?_spec hdonor
    exact ⟨units[i], List.getElem_mem hi, hwide⟩
  · rintro ⟨u, hu, hwide⟩
    obtain ⟨i, hi, rfl⟩ := List.mem_iff_getElem.mp hu
    have hmem : (units[i], i) ∈ units.zipIdx.filter fun p =>
        settings.donorMinUnits ≤ p.1 && settings.newColumnUnits < p.1 := by
      refine List.mem_filter.mpr ⟨List.mk_mem_zipIdx_iff_getElem?.mpr (by simp [hi]), ?_⟩
      simpa using hwide
    unfold donor?
    rw [List.getLast?_eq_some_getLast (List.ne_nil_of_mem hmem)]
    exact ⟨_, rfl⟩

/-- A row of fewer columns than are allowed gets one more exactly if some column is wide enough to
donate. -/
lemma exists_addColumn_iff {settings : GridSettings} {units : List ℕ} :
    (∃ next, addColumn settings units = .ok next) ↔ units.length < settings.maxColumns ∧
      ∃ u ∈ units, settings.donorMinUnits ≤ u ∧ settings.newColumnUnits < u := by
  rw [← exists_donor?_iff]
  unfold addColumn
  by_cases hmany : settings.maxColumns ≤ units.length
  · simp [hmany]
  · rw [if_neg hmany]
    cases donor? settings units with
    | none => simp
    | some i => simpa using hmany

/-- A row loses a column exactly if it has the column and another one. -/
lemma exists_deleteColumn_iff {units : List ℕ} {index : ℕ} :
    (∃ next, deleteColumn units index = .ok next) ↔ index < units.length ∧ 1 < units.length := by
  constructor
  · rintro ⟨next, hnext⟩
    obtain ⟨hi, hmany, -⟩ := deleteColumn_eq_ok hnext
    exact ⟨hi, hmany⟩
  · rintro ⟨hi, hmany⟩
    unfold deleteColumn
    rw [if_neg (by omega), List.getElem?_eq_getElem hi]
    exact ⟨_, rfl⟩

/-- A divider moves exactly to a finite percentage between columns that have the least width of
each together. -/
lemma exists_resizePair_iff {settings : GridSettings} {left right : ℕ} {leftPercent : Binary64} :
    (∃ units, resizePair settings left right leftPercent = .ok units) ↔
      leftPercent.isFinite = true ∧ min 255 (2 * settings.minColumnUnits) ≤ left + right := by
  unfold resizePair
  simp only
  split
  · next hfinite => simpa using fun h => absurd h (by simpa using hfinite)
  · next hfinite =>
    split
    · next hnarrow => simpa using fun _ => hnarrow
    · next hroom => exact iff_of_true ⟨_, rfl⟩ ⟨by simpa using hfinite, not_lt.mp hroom⟩

/-- Percentages make a row exactly if there are one to twelve of them, each a finite number above
zero and at most one hundred. -/
lemma exists_ofPercentages_iff {percentages : List Binary64} :
    (∃ units, ofPercentages percentages = .ok units) ↔
      percentages ≠ [] ∧ percentages.length ≤ gridUnits ∧ ∀ p ∈ percentages,
        p.isFinite = true ∧ Binary64.lt 0 p = true ∧ p.le hundred = true := by
  have husable : ∀ p : Binary64, ¬(!p.isFinite || p.le 0 || hundred.lt p) = true ↔
      p.isFinite = true ∧ Binary64.lt 0 p = true ∧ p.le hundred = true := by
    intro p
    cases hp : p.isFinite with
    | false => simp
    | true =>
      have hzero : Binary64.isFinite 0 = true := Binary64.isFinite_ofNat (by norm_num)
      have hhundred : hundred.isFinite = true := Binary64.isFinite_ofNat (by norm_num)
      rw [Binary64.lt_eq_not_le hzero hp, Binary64.lt_eq_not_le hhundred hp]
      simp
  unfold ofPercentages
  split
  · next hcount =>
    simp only [Bool.or_eq_true, List.isEmpty_iff, decide_eq_true_eq] at hcount
    refine iff_of_false (by simp) ?_
    rintro ⟨hne, hlen, -⟩
    exact hcount.elim hne (not_lt.mpr hlen)
  · next hcount =>
    simp only [Bool.or_eq_true, List.isEmpty_iff, decide_eq_true_eq, not_or, not_lt] at hcount
    split
    · next p hfind =>
      have hmem := List.mem_of_find?_eq_some hfind
      refine iff_of_false (by simp) ?_
      rintro ⟨-, -, hall⟩
      have hbad := List.find?_some hfind
      exact (husable p).mpr (hall p hmem) hbad
    · next hfind =>
      have hall : ∀ p ∈ percentages, p.isFinite = true ∧ Binary64.lt 0 p = true ∧
          p.le hundred = true := fun p hp => (husable p).mp (List.find?_eq_none.mp hfind p hp)
      exact iff_of_true ⟨_, rfl⟩ ⟨hcount.1, hcount.2, hall⟩

/-! ### What no other operation lacks -/

/-- A divider needs no donor. -/
lemma resizePair_ne_noDonorColumn {settings : GridSettings} {left right : ℕ}
    {leftPercent : Binary64} :
    resizePair settings left right leftPercent ≠ .error .noDonorColumn := by
  unfold resizePair
  simp only
  split
  · simp
  · split <;> simp

/-- A column that goes needs no donor. -/
lemma deleteColumn_ne_noDonorColumn {units : List ℕ} {index : ℕ} :
    deleteColumn units index ≠ .error .noDonorColumn := by
  unfold deleteColumn
  split
  · simp
  · split <;> simp

/-- A new row needs no donor. -/
lemma ofPercentages_ne_noDonorColumn {percentages : List Binary64} :
    ofPercentages percentages ≠ .error .noDonorColumn := by
  unfold ofPercentages
  split
  · simp
  · split <;> simp

end MailTemplate.Grid
