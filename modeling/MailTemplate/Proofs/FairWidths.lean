import MailTemplate.Proofs.Binary64.Separation
import MailTemplate.Proofs.GridEdits

/-!
# Scaled widths are fair

`GridWidths` shows that scaled widths share the row, without a look at the remainders.  Here the
remainders matter: scaling never turns the order of two declared widths around, and gives columns
that are declared alike the same width up to one unit (`Fair`).

The scaling starts with the whole units of the exact shares, which are fair, and then raises or
lowers one column in each round.  Fairness is kept because of which column is chosen: no other one
is further behind it (`Behind`), that is, declared no narrower and no wider at the moment
(`Fair.raise`, `Fair.lower`).

What is compared are deficits, the differences of floating-point shares and whole numbers, and
rounding may blur them.  It does not here: shares of different widths of a row of moderate size lie
more than three thousandths apart, and whole units far more, so that a column that is further behind
also has a greater deficit after rounding (`deficit_lt_deficit`).  The bounds are those of twelve
columns of a byte each: the widths add up to at most 3072, and no column ever has more than 144
units.

Main result: `scale_fair`.
-/

namespace MailTemplate.Grid

open Binary64 (one magnitude nearestRank signedRank)

/-! ### Fair widths -/

/-- Of two columns, each a declared width and its units, the first is further behind: it is declared
no narrower and has no more units, and one of the two differs. -/
def Behind (p q : ℕ × ℕ) : Prop := q.1 ≤ p.1 ∧ p.2 ≤ q.2 ∧ (q.1 < p.1 ∨ p.2 < q.2)

/-- A column that is declared wider than another does not have fewer units, and columns that are
declared alike differ by at most one unit. -/
def Fair (widths units : List ℕ) : Prop :=
  ∀ p ∈ widths.zip units, ∀ q ∈ widths.zip units,
    (p.1 < q.1 → p.2 ≤ q.2) ∧ (p.1 = q.1 → p.2 ≤ q.2 + 1)

section Rounds

variable {widths units : List ℕ} {i w u : ℕ}

/-- A column has its declared width and its units in the same place. -/
lemma mem_zip_iff {p : ℕ × ℕ} :
    p ∈ widths.zip units ↔ ∃ i : ℕ, widths[i]? = some p.1 ∧ units[i]? = some p.2 := by
  rw [List.mem_iff_getElem?]
  exact exists_congr fun i => List.getElem?_zip_eq_some

/-- When the units of one column change, every other column is as before. -/
lemma mem_zip_modify (hw : widths[i]? = some w) (hu : units[i]? = some u) {f : ℕ → ℕ} {p : ℕ × ℕ}
    (hp : p ∈ widths.zip (units.modify i f)) : p ∈ widths.zip units ∨ p = (w, f u) := by
  obtain ⟨j, hwidth, hunits⟩ := mem_zip_iff.mp hp
  by_cases hij : i = j
  · subst hij
    right
    rw [List.getElem?_modify_eq, hu] at hunits
    rw [hw] at hwidth
    exact Prod.ext (Option.some.inj hwidth).symm (Option.some.inj hunits).symm
  · left
    rw [List.getElem?_modify_ne _ _ hij] at hunits
    exact mem_zip_iff.mpr ⟨j, hwidth, hunits⟩

/-- Widths stay fair when the units of one column change, if they are fair between this column and
every other one. -/
lemma Fair.modify (h : Fair widths units) (hw : widths[i]? = some w) (hu : units[i]? = some u)
    {f : ℕ → ℕ}
    (hleft : ∀ p ∈ widths.zip units, (p.1 < w → p.2 ≤ f u) ∧ (p.1 = w → p.2 ≤ f u + 1))
    (hright : ∀ q ∈ widths.zip units, (w < q.1 → f u ≤ q.2) ∧ (w = q.1 → f u ≤ q.2 + 1)) :
    Fair widths (units.modify i f) := by
  intro p hp q hq
  rcases mem_zip_modify hw hu hp with hp | rfl
  · rcases mem_zip_modify hw hu hq with hq | rfl
    · exact h p hp q hq
    · exact hleft p hp
  · rcases mem_zip_modify hw hu hq with hq | rfl
    · exact hright q hq
    · exact ⟨fun hlt => absurd hlt (lt_irrefl _), fun _ => Nat.le_succ _⟩

/-- Raising a column keeps widths fair if no column is further behind than it. -/
lemma Fair.raise (h : Fair widths units) (hw : widths[i]? = some w) (hu : units[i]? = some u)
    (hbest : ∀ p ∈ widths.zip units, ¬Behind p (w, u)) : Fair widths (units.modify i (· + 1)) := by
  have hmem : (w, u) ∈ widths.zip units := mem_zip_iff.mpr ⟨i, hw, hu⟩
  refine h.modify hw hu (fun p hp => ?_) (fun q hq => ?_)
  · have hold := h p hp (w, u) hmem
    simp only at hold
    omega
  · have hnot := hbest q hq
    simp only [Behind] at hnot
    omega

/-- Lowering a column keeps widths fair if it is further behind than no column that is wider than
one unit. -/
lemma Fair.lower (h : Fair widths units) (hw : widths[i]? = some w) (hu : units[i]? = some u)
    (hwide : 1 < u) (hbest : ∀ p ∈ widths.zip units, 1 < p.2 → ¬Behind (w, u) p) :
    Fair widths (units.modify i (· - 1)) := by
  have hmem : (w, u) ∈ widths.zip units := mem_zip_iff.mpr ⟨i, hw, hu⟩
  refine h.modify hw hu (fun p hp => ?_) (fun q hq => ?_)
  · have hnot := hbest p hp
    simp only [Behind] at hnot
    omega
  · have hold := h (w, u) hmem q hq
    simp only at hold
    omega

end Rounds

/-! ### The choice of a round -/

/-- The best of the rest and the best so far has the greatest key. -/
lemma firstBest_go_best {greater : Binary64 → Binary64 → Bool} {key : Binary64 → ℤ} {i : ℕ}
    {x : Binary64} {rest : List (ℕ × Binary64)}
    (h : ∀ p ∈ (i, x) :: rest, ∀ q ∈ (i, x) :: rest,
      greater p.2 q.2 = true ↔ key q.2 < key p.2) :
    ∃ y, (firstBest.go greater i x rest, y) ∈ (i, x) :: rest ∧
      ∀ p ∈ (i, x) :: rest, key p.2 ≤ key y := by
  induction rest generalizing i x with
  | nil => exact ⟨x, List.mem_cons_self, by simp⟩
  | cons p rest ih =>
    obtain ⟨j, z⟩ := p
    have hfirst := h (j, z) (by simp) (i, x) (by simp)
    simp only at hfirst
    rw [firstBest.go]
    split
    · next hgreater =>
      obtain ⟨y, hy, hbest⟩ := ih (i := j) (x := z) fun p hp q hq =>
        h p (List.mem_cons_of_mem _ hp) q (List.mem_cons_of_mem _ hq)
      refine ⟨y, List.mem_cons_of_mem _ hy, fun p hp => ?_⟩
      rcases List.mem_cons.mp hp with rfl | hp
      · exact (hfirst.mp hgreater).le.trans (hbest (j, z) List.mem_cons_self)
      · exact hbest p hp
    · next hgreater =>
      have hsub : (i, x) :: rest ⊆ (i, x) :: (j, z) :: rest :=
        List.cons_subset_cons _ (List.subset_cons_self _ _)
      obtain ⟨y, hy, hbest⟩ := ih (i := i) (x := x) fun p hp q hq => h p (hsub hp) q (hsub hq)
      refine ⟨y, hsub hy, fun p hp => ?_⟩
      have hfar : key z ≤ key x := not_lt.mp fun hlt => hgreater (hfirst.mpr hlt)
      rcases List.mem_cons.mp hp with rfl | hp
      · exact hbest _ List.mem_cons_self
      rcases List.mem_cons.mp hp with rfl | hp
      · exact hfar.trans (hbest (i, x) List.mem_cons_self)
      · exact hbest p (List.mem_cons_of_mem _ hp)

/-- The entry that is chosen has the greatest key. -/
lemma firstBest_best (key : Binary64 → ℤ) {greater : Binary64 → Binary64 → Bool}
    {entries : List (ℕ × Binary64)} {i : ℕ}
    (h : ∀ p ∈ entries, ∀ q ∈ entries, greater p.2 q.2 = true ↔ key q.2 < key p.2)
    (hi : firstBest greater entries = some i) :
    ∃ y, (i, y) ∈ entries ∧ ∀ p ∈ entries, key p.2 ≤ key y := by
  cases entries with
  | nil => cases hi
  | cons p rest =>
    obtain rfl := Option.some.inj hi
    exact firstBest_go_best h

/-! ### Exact shares -/

/-- The exact share of a declared width, as a number. -/
def share (sum w : ℕ) : Binary64 :=
  Binary64.ofNat w * Binary64.ofNat gridUnits / Binary64.ofNat sum

/-- The exact share of a declared width, as a multiple of the least positive number. -/
def shareMagnitude (sum w : ℕ) : ℕ := magnitude (nearestRank (12 * w * one) sum)

/-- The step of the grid on which shares are told apart, as a multiple of the least positive
number. -/
def step : ℕ := 2 ^ 1064

/-- The step is a power of two. -/
lemma step_eq : step = 2 ^ 1064 := rfl

/-- One is a thousand and twenty-four steps. -/
lemma one_eq_steps : one = 1024 * step := by decide +kernel

section Shares

variable {sum w w' : ℕ}

/-- A rounded share does not lie above a multiple of a step that the share does not exceed. -/
lemma shareMagnitude_le {k : ℕ} (hk : k < 2 ^ 53) (hpos : 0 < sum)
    (h : 12 * w * 1024 ≤ k * sum) : shareMagnitude sum w ≤ k * step := by
  refine Binary64.magnitude_nearestRank_le hk (by norm_num) hpos ?_
  calc 12 * w * one = 12 * w * 1024 * step := by rw [one_eq_steps]; ring
    _ ≤ k * sum * step := Nat.mul_le_mul_right _ h
    _ = k * step * sum := by ring

/-- A rounded share does not lie below a multiple of a step that the share reaches. -/
lemma le_shareMagnitude {k : ℕ} (hk : k < 2 ^ 53) (hpos : 0 < sum)
    (h : k * sum ≤ 12 * w * 1024) : k * step ≤ shareMagnitude sum w := by
  refine Binary64.le_magnitude_nearestRank hk (by norm_num) hpos ?_
  calc k * step * sum = k * sum * step := by ring
    _ ≤ 12 * w * 1024 * step := Nat.mul_le_mul_right _ h
    _ = 12 * w * one := by rw [one_eq_steps]; ring

/-- A share is at most the row. -/
lemma shareMagnitude_le_row (hpos : 0 < sum) (hw : w ≤ sum) :
    shareMagnitude sum w ≤ 12 * one := by
  have hle := shareMagnitude_le (k := 12 * 1024) (w := w) (by norm_num) hpos (by omega)
  calc shareMagnitude sum w ≤ 12 * 1024 * step := hle
    _ = 12 * one := by rw [one_eq_steps, Nat.mul_assoc]

/-- A width of a row that is filled already is its own share. -/
lemma shareMagnitude_of_filled (hw : w ≤ gridUnits) : shareMagnitude gridUnits w = w * one := by
  unfold gridUnits at hw ⊢
  have hle : shareMagnitude 12 w ≤ w * 1024 * step :=
    shareMagnitude_le (by omega) (by norm_num) (by omega)
  have hge : w * 1024 * step ≤ shareMagnitude 12 w :=
    le_shareMagnitude (by omega) (by norm_num) (by omega)
  rw [one_eq_steps, ← Nat.mul_assoc]
  exact le_antisymm hle hge

/-- The shares of different widths lie two steps apart: at least three multiples of a step are
between them. -/
lemma shareMagnitude_gap (hpos : 0 < sum) (hsum : sum ≤ 3072) (hw : w' ≤ sum) (h : w < w') :
    shareMagnitude sum w + 2 * step ≤ shareMagnitude sum w' := by
  have hnext : w + 1 ≤ w' := h
  obtain ⟨k, hbelow, habove⟩ :
      ∃ k, k * sum ≤ 12 * w * 1024 ∧ 12 * w * 1024 < k * sum + sum :=
    ⟨12 * w * 1024 / sum, Nat.div_mul_le_self _ _, Nat.lt_div_mul_add hpos⟩
  have hk : k ≤ k * sum := Nat.le_mul_of_pos_right k hpos
  have hlow := shareMagnitude_le (w := w) (k := k + 1) (by omega) hpos (by linarith)
  have hhigh := le_shareMagnitude (w := w') (k := k + 3) (by omega) hpos (by linarith)
  linarith

/-- A share is a finite number of its magnitude. -/
lemma exists_share (hpos : 0 < sum) (hsum : sum ≤ 3072) (hw : w ≤ sum) :
    ∃ r : Fin rankLimit, share sum w = .finite false r ∧ magnitude r = shareMagnitude sum w := by
  have hproduct : Binary64.ofNat w * Binary64.ofNat gridUnits = Binary64.ofNat (12 * w) := by
    rw [Nat.mul_comm]
    exact Binary64.ofNat_mul_ofNat (by omega) (by decide) (by unfold gridUnits; omega)
  have hquotient : share sum w = Binary64.ofQuotient false (12 * w * one) sum := by
    unfold share
    rw [hproduct]
    exact Binary64.ofNat_div_ofNat (by omega) (by omega) hpos
  obtain ⟨row, hrow⟩ := Binary64.exists_magnitude_eq_mul_one (n := 12) (by norm_num)
  have hle := shareMagnitude_le_row hpos hw
  rw [← hrow, shareMagnitude, Binary64.magnitude_le_magnitude] at hle
  have hlt : nearestRank (12 * w * one) sum < rankLimit := hle.trans_lt row.isLt
  exact ⟨⟨_, hlt⟩, hquotient.trans (dif_pos hlt), rfl⟩

/-- The whole units of a share, as the scaling counts them. -/
lemma wholeUnits_share {high : ℤ} (hhigh : 12 ≤ high) (hpos : 0 < sum) (hsum : sum ≤ 3072)
    (hw : w ≤ sum) :
    ((share sum w).floor.truncateTo 0 high).toNat = shareMagnitude sum w / one := by
  obtain ⟨r, hshare, hmag⟩ := exists_share hpos hsum hw
  have hle : shareMagnitude sum w / one ≤ 12 :=
    Nat.div_le_of_le_mul ((shareMagnitude_le_row hpos hw).trans_eq (Nat.mul_comm _ _))
  rw [hshare, Binary64.floor_finite, hmag, Binary64.truncateTo_ofNat (by omega) (by omega)]
  exact Int.toNat_natCast _

/-- A column starts with the whole units of its share, and with one at least. -/
def wholeUnits (sum w : ℕ) : ℕ := max 1 (shareMagnitude sum w / one)

/-- A wider column does not start with fewer units. -/
lemma wholeUnits_mono (hpos : 0 < sum) (hsum : sum ≤ 3072) (hw : w' ≤ sum) (h : w ≤ w') :
    wholeUnits sum w ≤ wholeUnits sum w' := by
  rcases h.eq_or_lt with rfl | hlt
  · exact le_rfl
  · have hgap := shareMagnitude_gap hpos hsum hw hlt
    exact max_le_max_left 1 (Nat.div_le_div_right (by omega))

/-- No column starts with more units than the row has. -/
lemma wholeUnits_le_row (hpos : 0 < sum) (hw : w ≤ sum) : wholeUnits sum w ≤ 12 := by
  have hle := shareMagnitude_le_row hpos hw
  rw [Nat.mul_comm] at hle
  exact max_le (by norm_num) (Nat.div_le_of_le_mul hle)

/-- A column of a row that is filled already starts with its width. -/
lemma wholeUnits_of_filled (hw : w ≤ gridUnits) (hone : 1 ≤ w) : wholeUnits gridUnits w = w := by
  unfold wholeUnits
  rw [shareMagnitude_of_filled hw, Nat.mul_div_cancel _ Binary64.one_pos, max_eq_right hone]

end Shares

/-! ### Deficits -/

/-- How far a column stays behind its exact share: the signed rank of its deficit. -/
def deficit (sum : ℕ) (p : ℕ × ℕ) : ℤ := signedRank (share sum p.1 - Binary64.ofNat p.2)

/-- The deficit of a column of moderate width is the rounded difference of its share and its
units. -/
lemma deficit_spec {sum : ℕ} {p : ℕ × ℕ} (hpos : 0 < sum) (hsum : sum ≤ 3072) (hw : p.1 ≤ sum)
    (hu : p.2 ≤ 144) :
    (share sum p.1 - Binary64.ofNat p.2).isFinite = true ∧
      deficit sum p = Binary64.roundedRank ((shareMagnitude sum p.1 : ℤ) - (p.2 * one : ℕ)) ∧
      ((shareMagnitude sum p.1 : ℤ) - (p.2 * one : ℕ)).natAbs ≤ 2 ^ 50 * 2 ^ 1064 := by
  obtain ⟨r, hshare, hmag⟩ := exists_share hpos hsum hw
  have hrow := shareMagnitude_le_row hpos hw
  have hunits : p.2 * one ≤ 144 * one := Nat.mul_le_mul_right one hu
  have hone : one = 1024 * step := one_eq_steps
  have hsize : ((shareMagnitude sum p.1 : ℤ) - (p.2 * one : ℕ)).natAbs ≤ 2 ^ 50 * step := by
    omega
  have hdifference : share sum p.1 - Binary64.ofNat p.2 =
      Binary64.ofMultiple ((shareMagnitude sum p.1 : ℤ) - (p.2 * one : ℕ)) := by
    rw [hshare, Binary64.finite_sub_ofNat r (by omega), hmag]
  rw [step_eq] at hsize
  obtain ⟨hfinite, hrank⟩ := Binary64.ofMultiple_spec (by norm_num) (by norm_num) hsize
  unfold deficit
  rw [hdifference]
  exact ⟨hfinite, hrank, hsize⟩

/-- A column that is further behind has the greater deficit. -/
lemma deficit_lt_deficit {sum : ℕ} {p q : ℕ × ℕ} (hpos : 0 < sum) (hsum : sum ≤ 3072)
    (hp : p.1 ≤ sum) (hq : q.1 ≤ sum) (hpu : p.2 ≤ 144) (hqu : q.2 ≤ 144) (h : Behind p q) :
    deficit sum q < deficit sum p := by
  obtain ⟨-, hrankp, -⟩ := deficit_spec hpos hsum hp hpu
  obtain ⟨-, hrankq, hsize⟩ := deficit_spec hpos hsum hq hqu
  rw [hrankp, hrankq]
  refine Binary64.roundedRank_lt (by norm_num) hsize ?_
  obtain ⟨hwidth, hunits, hdiffer⟩ := h
  have hunits' : p.2 * one ≤ q.2 * one := Nat.mul_le_mul_right one hunits
  have hgap : shareMagnitude sum q.1 + 2 * step + p.2 * one ≤
      shareMagnitude sum p.1 + q.2 * one := by
    rcases Nat.lt_or_eq_of_le hwidth with hlt | heq
    · have hshares := shareMagnitude_gap hpos hsum hp hlt
      omega
    · have hless : p.2 + 1 ≤ q.2 := by omega
      have hstep : (p.2 + 1) * one ≤ q.2 * one := Nat.mul_le_mul_right one hless
      have hone : one = 1024 * step := one_eq_steps
      rw [Nat.succ_mul] at hstep
      rw [heq]
      omega
  have hcast : (2 : ℤ) ^ 1064 = step := by
    rw [step_eq, Nat.cast_pow]
    rfl
  rw [hcast]
  omega

/-! ### Fair rounds -/

/-- The entries of the deficits are the columns' own. -/
lemma mem_deficits_iff {widths units : List ℕ} {sum i : ℕ} {d : Binary64} :
    (i, d) ∈ deficits (widths.map (share sum)) units ↔
      ∃ p : ℕ × ℕ, (widths[i]? = some p.1 ∧ units[i]? = some p.2) ∧
        d = share sum p.1 - Binary64.ofNat p.2 := by
  have hentry : (i, d) ∈ deficits (widths.map (share sum)) units ↔
      (List.zipWith (fun e u => e - Binary64.ofNat u) (widths.map (share sum)) units)[i]? =
        some d := by
    rw [← List.mk_mem_zipIdx_iff_getElem?]
    unfold deficits
    simp
  rw [hentry, List.getElem?_zipWith_eq_some]
  constructor
  · rintro ⟨e, u, he, hu, rfl⟩
    rw [List.getElem?_map, Option.map_eq_some_iff] at he
    obtain ⟨w, hw, rfl⟩ := he
    exact ⟨(w, u), ⟨hw, hu⟩, rfl⟩
  · rintro ⟨p, ⟨hw, hu⟩, rfl⟩
    exact ⟨_, _, by rw [List.getElem?_map, hw]; rfl, hu, rfl⟩

/-- Declared widths of a row of moderate size, each of them a part of the row. -/
structure Moderate (sum : ℕ) (widths : List ℕ) : Prop where
  pos : 0 < sum
  le : sum ≤ 3072
  width_le : ∀ w ∈ widths, w ≤ sum

section Scaling

variable {widths units : List ℕ} {sum : ℕ}

/-- The deficits of moderate widths are ordered as their signed ranks are. -/
lemma Moderate.lt_iff (h : Moderate sum widths) (hunits : ∀ u ∈ units, u ≤ 144)
    {x y : ℕ × Binary64} (hx : x ∈ deficits (widths.map (share sum)) units)
    (hy : y ∈ deficits (widths.map (share sum)) units) :
    x.2.lt y.2 = true ↔ signedRank x.2 < signedRank y.2 := by
  have hfinite : ∀ z ∈ deficits (widths.map (share sum)) units, z.2.isFinite = true := by
    rintro ⟨i, d⟩ hz
    obtain ⟨p, ⟨hw, hu⟩, rfl⟩ := mem_deficits_iff.mp hz
    exact (deficit_spec h.pos h.le (h.width_le _ (List.mem_of_getElem? hw))
      (hunits _ (List.mem_of_getElem? hu))).1
  exact Binary64.lt_iff_signedRank_lt (hfinite x hx) (hfinite y hy)

/-- Of two columns of a row, the one that is further behind has the greater deficit. -/
lemma Moderate.not_behind (h : Moderate sum widths) (hunits : ∀ u ∈ units, u ≤ 144) {p q : ℕ × ℕ}
    (hp : p ∈ widths.zip units) (hq : q ∈ widths.zip units) (hle : deficit sum p ≤ deficit sum q) :
    ¬Behind p q := by
  intro hbehind
  refine absurd (deficit_lt_deficit h.pos h.le ?_ ?_ ?_ ?_ hbehind) (not_lt.mpr hle)
  · exact h.width_le _ (List.of_mem_zip hp).1
  · exact h.width_le _ (List.of_mem_zip hq).1
  · exact hunits _ (List.of_mem_zip hp).2
  · exact hunits _ (List.of_mem_zip hq).2

/-- Raising keeps moderate widths fair. -/
lemma Moderate.fair_raise (hmod : Moderate sum widths) (missing : ℕ)
    (hroom : units.sum + missing ≤ 144) (h : Fair widths units) :
    Fair widths (raise (widths.map (share sum)) missing units) := by
  induction missing generalizing units with
  | zero => exact h
  | succ missing ih =>
    have hunits : ∀ u ∈ units, u ≤ 144 := fun u hu => by
      have hle : u ≤ units.sum := List.le_sum_of_mem hu
      omega
    rw [raise]
    split
    · next i hi =>
      obtain ⟨d, hmem, hbest⟩ := firstBest_best signedRank
        (fun x hx y hy => hmod.lt_iff hunits hy hx) hi
      obtain ⟨p, ⟨hw, hu⟩, rfl⟩ := mem_deficits_iff.mp hmem
      obtain ⟨hlt, hget⟩ := List.getElem?_eq_some_iff.mp hu
      refine ih ?_ (h.raise hw hu fun q hq => ?_)
      · have hmodify := sum_modify (· + 1) hlt
        omega
      · obtain ⟨j, hplace⟩ := mem_zip_iff.mp hq
        have hle := hbest _ (mem_deficits_iff.mpr ⟨q, hplace, rfl⟩)
        exact hmod.not_behind hunits hq (mem_zip_iff.mpr ⟨i, hw, hu⟩) hle
    · exact h

/-- Lowering keeps moderate widths fair. -/
lemma Moderate.fair_lower (hmod : Moderate sum widths) (surplus : ℕ) (hroom : units.sum ≤ 144)
    (h : Fair widths units) : Fair widths (lower (widths.map (share sum)) surplus units) := by
  induction surplus generalizing units with
  | zero => exact h
  | succ surplus ih =>
    have hunits : ∀ u ∈ units, u ≤ 144 := fun u hu => (List.le_sum_of_mem hu).trans hroom
    rw [lower]
    split
    · next i hi =>
      -- the least deficit among the wide columns is the greatest one with its sign turned
      obtain ⟨d, hmem, hbest⟩ := firstBest_best (fun x => -signedRank x)
        (fun x hx y hy => by
          rw [neg_lt_neg_iff]
          exact hmod.lt_iff hunits (List.mem_filter.mp hx).1 (List.mem_filter.mp hy).1) hi
      obtain ⟨hmem, hwide⟩ := List.mem_filter.mp hmem
      obtain ⟨p, ⟨hw, hu⟩, rfl⟩ := mem_deficits_iff.mp hmem
      obtain ⟨hlt, hget⟩ := List.getElem?_eq_some_iff.mp hu
      have hwide' : 1 < p.2 := by simpa [List.getD_eq_getElem?_getD, hu] using hwide
      refine ih ?_ (h.lower hw hu hwide' fun q hq hone => ?_)
      · have hmodify := sum_modify (· - 1) hlt
        omega
      · obtain ⟨j, hwidth, hunit⟩ := mem_zip_iff.mp hq
        have hkept : (j, share sum q.1 - Binary64.ofNat q.2) ∈
            (deficits (widths.map (share sum)) units).filter fun e => 1 < units.getD e.1 0 := by
          refine List.mem_filter.mpr ⟨mem_deficits_iff.mpr ⟨q, ⟨hwidth, hunit⟩, rfl⟩, ?_⟩
          simpa [List.getD_eq_getElem?_getD, hunit] using hone
        have hle := neg_le_neg_iff.mp (hbest _ hkept)
        exact hmod.not_behind hunits (mem_zip_iff.mpr ⟨i, hw, hu⟩) hq hle
    · exact h

/-- The whole units of the shares are fair. -/
lemma Moderate.fair_wholeUnits (h : Moderate sum widths) :
    Fair widths (widths.map (wholeUnits sum)) := by
  have hzip : ∀ p ∈ widths.zip (widths.map (wholeUnits sum)),
      p.1 ∈ widths ∧ p.2 = wholeUnits sum p.1 := by
    intro p hp
    obtain ⟨i, hw, hu⟩ := mem_zip_iff.mp hp
    rw [List.getElem?_map, hw] at hu
    exact ⟨List.mem_of_getElem? hw, (Option.some.inj hu).symm⟩
  intro p hp q hq
  obtain ⟨-, hpu⟩ := hzip p hp
  obtain ⟨hq, hqu⟩ := hzip q hq
  rw [hpu, hqu]
  refine ⟨fun hlt => wholeUnits_mono h.pos h.le (h.width_le _ hq) hlt.le, fun heq => ?_⟩
  rw [heq]
  exact Nat.le_succ _

/-- One to twelve columns have few units at the start of scaling. -/
lemma Moderate.sum_wholeUnits_le (h : Moderate sum widths) (hlen : widths.length ≤ 12) :
    (widths.map (wholeUnits sum)).sum ≤ 144 := by
  have hle : (widths.map (wholeUnits sum)).sum ≤ (widths.map (wholeUnits sum)).length • 12 := by
    refine List.sum_le_card_nsmul _ _ fun u hu => ?_
    obtain ⟨w, hw, rfl⟩ := List.mem_map.mp hu
    exact wholeUnits_le_row h.pos (h.width_le w hw)
  rw [List.length_map, smul_eq_mul] at hle
  omega

/-- Every column starts with the whole units of its share: the integer part is far below any limit
on it. -/
lemma Moderate.map_wholeUnits (h : Moderate sum widths) (high : ℤ) (hhigh : 12 ≤ high) :
    (widths.map (share sum)).map (fun e => max 1 (e.floor.truncateTo 0 high).toNat) =
      widths.map (wholeUnits sum) := by
  rw [List.map_map]
  refine List.map_congr_left fun w hw => ?_
  rw [Function.comp_apply, wholeUnits_share hhigh h.pos h.le (h.width_le w hw), wholeUnits]

/-- Scaling starts with the whole units of the shares and takes up what is missing or left. -/
lemma Moderate.scale_eq (h : Moderate widths.sum widths) {raised : List ℕ}
    (hraised : raise (widths.map (share widths.sum))
      (gridUnits - (widths.map (wholeUnits widths.sum)).sum)
      (widths.map (wholeUnits widths.sum)) = raised) :
    scale widths = lower (widths.map (share widths.sum)) (raised.sum - gridUnits) raised := by
  have hunits := h.map_wholeUnits (2 ^ 32 - 1) (by norm_num)
  have hshare : (fun w => Binary64.ofNat w * Binary64.ofNat gridUnits / Binary64.ofNat widths.sum) =
      share widths.sum := rfl
  unfold scale
  simp only
  rw [if_neg h.pos.ne', hshare, hunits, hraised]

/-- Scaled widths are fair. -/
lemma Moderate.fair_scale (h : Moderate widths.sum widths) (hlen : widths.length ≤ 12) :
    Fair widths (scale widths) := by
  have hfew := h.sum_wholeUnits_le hlen
  have hfair := h.fair_wholeUnits
  have hne : widths ≠ [] := by
    rintro rfl
    exact absurd h.pos (by decide)
  have hone : ∀ u ∈ widths.map (wholeUnits widths.sum), 1 ≤ u := by
    intro u hu
    obtain ⟨w, -, rfl⟩ := List.mem_map.mp hu
    exact le_max_left _ _
  rw [h.scale_eq rfl]
  generalize hunits : widths.map (wholeUnits widths.sum) = units at hfew hfair hone ⊢
  have hlength : units.length = widths.length := by rw [← hunits, List.length_map]
  have hraise := h.fair_raise (gridUnits - units.sum) (by unfold gridUnits; omega) hfair
  have hne' : units ≠ [] := by rwa [← List.length_pos_iff, hlength, List.length_pos_iff]
  have hshares : (widths.map (share widths.sum)).length = units.length := by
    rw [List.length_map, hlength]
  obtain ⟨htotal, -, -⟩ := raise_spec (gridUnits - units.sum) hshares hne' hone
  refine h.fair_lower _ ?_ hraise
  rw [htotal]
  unfold gridUnits
  omega

/-- Widths that fill the row already are not changed. -/
lemma scale_of_filled (hone : ∀ w ∈ widths, 1 ≤ w) (hfilled : widths.sum = gridUnits) :
    scale widths = widths := by
  have hmod : Moderate widths.sum widths := by
    refine ⟨?_, ?_, fun w hw => List.le_sum_of_mem hw⟩
    · rw [hfilled]
      decide
    · rw [hfilled]
      decide
  have hunits : widths.map (wholeUnits widths.sum) = widths := by
    rw [hfilled, List.map_congr_left (g := id), List.map_id]
    intro w hw
    exact wholeUnits_of_filled (hfilled ▸ List.le_sum_of_mem hw) (hone w hw)
  rw [hmod.scale_eq rfl, hunits, hfilled, Nat.sub_self, raise, hfilled, Nat.sub_self, lower]

/-- Widths of a byte each, twelve of them at most, are moderate. -/
lemma moderate_of_bytes (hne : widths ≠ []) (hlen : widths.length ≤ 12)
    (hbytes : ∀ w ∈ widths, 1 ≤ w ∧ w ≤ 255) : Moderate widths.sum widths := by
  have hsum : widths.sum ≤ widths.length • 255 :=
    List.sum_le_card_nsmul _ _ fun w hw => (hbytes w hw).2
  rw [smul_eq_mul] at hsum
  obtain ⟨w, hw⟩ := List.exists_mem_of_ne_nil widths hne
  have hle : w ≤ widths.sum := List.le_sum_of_mem hw
  have hone := (hbytes w hw).1
  exact ⟨by omega, by omega, fun w hw => List.le_sum_of_mem hw⟩

end Scaling

/-- Scaling is total and fair: one to twelve widths of a byte each, none of them zero, become as
many widths of at least one unit that add up to twelve; a column that is declared wider than another
does not end narrower, columns that are declared alike differ by at most one unit, and widths that
add up to twelve already are kept.  So one to twelve finite percentages above zero and at most a
hundred make as many columns of at least one unit that fill the row. -/
theorem scale_fair :
    (∀ widths : List ℕ, 1 ≤ widths.length ∧ widths.length ≤ 12 →
      (∀ w ∈ widths, 1 ≤ w ∧ w ≤ 255) →
        (scale widths).length = widths.length ∧ (∀ u ∈ scale widths, 1 ≤ u) ∧
          (scale widths).sum = 12 ∧ Fair widths (scale widths) ∧
            (widths.sum = 12 → scale widths = widths)) ∧
      ∀ percentages : List Binary64, 1 ≤ percentages.length ∧ percentages.length ≤ 12 →
        (∀ p ∈ percentages,
          p.isFinite = true ∧ Binary64.lt 0 p = true ∧ p.le hundred = true) →
          ∃ units, ofPercentages percentages = .ok units ∧ units.length = percentages.length ∧
            (∀ u ∈ units, 1 ≤ u) ∧ units.sum = 12 := by
  constructor
  · intro widths hcount hbytes
    have hne : widths ≠ [] := List.length_pos_iff.mp hcount.1
    obtain ⟨hlength, hshares⟩ := scale_shares widths hne hcount.2
    have hmod := moderate_of_bytes hne hcount.2 hbytes
    exact ⟨hlength, hshares.pos, hshares.sum_eq, hmod.fair_scale hcount.2,
      scale_of_filled fun w hw => (hbytes w hw).1⟩
  · intro percentages hcount husable
    obtain ⟨units, hunits⟩ :=
      exists_ofPercentages_iff.mpr ⟨List.length_pos_iff.mp hcount.1, hcount.2, husable⟩
    obtain ⟨hlength, -, -, hshares⟩ := ofPercentages_shares hunits
    exact ⟨units, hunits, hlength, hshares.pos, hshares.sum_eq⟩

/-- Widths of which two are far wider than the others. -/
def unequal : List ℕ := [255, 1, 3, 200, 1, 90, 2, 1]

/-- Two narrow columns and a wide one, in percent. -/
def narrow : List Binary64 := [5, 5, 90]

/-- Six columns would get less than two units; the two wide ones make room for them. -/
theorem scale_fair_unequal :
    ((1 ≤ unequal.length ∧ unequal.length ≤ 12) ∧ (∀ w ∈ unequal, 1 ≤ w ∧ w ≤ 255) ∧
      scale unequal = [4, 1, 1, 2, 1, 1, 1, 1] ∧ Fair unequal (scale unequal)) ∧
      (1 ≤ narrow.length ∧ narrow.length ≤ 12) ∧
        (∀ p ∈ narrow, p.isFinite = true ∧ Binary64.lt 0 p = true ∧ p.le hundred = true) ∧
          ofPercentages narrow = .ok [1, 1, 10] ∧
            ∃ units, ofPercentages narrow = .ok units ∧ units.sum = 12 := by
  have hcount : 1 ≤ unequal.length ∧ unequal.length ≤ 12 := by decide
  have hbytes : ∀ w ∈ unequal, 1 ≤ w ∧ w ≤ 255 := by decide
  have hfew : 1 ≤ narrow.length ∧ narrow.length ≤ 12 := by decide
  have husable : ∀ p ∈ narrow,
      p.isFinite = true ∧ Binary64.lt 0 p = true ∧ p.le hundred = true := by decide +kernel
  obtain ⟨-, -, -, hfair, -⟩ := scale_fair.1 unequal hcount hbytes
  obtain ⟨units, hunits, -, -, hsum⟩ := scale_fair.2 narrow hfew husable
  exact ⟨⟨hcount, hbytes, by decide +kernel, hfair⟩, hfew, husable, by decide +kernel, units,
    hunits, hsum⟩

end MailTemplate.Grid
