import MailTemplate.Proofs.Binary64.Order

/-!
# Rounding keeps apart what lies apart

Rounding is monotone, so that a rounded value never crosses a number that is held exactly.  Between
two values that lie far enough apart there are two such numbers, which stay apart; so do the rounded
values.  What is far enough is measured by a grid: the multiples of a power of two that are not too
large are all held exactly.

Main results: a rounded quotient does not cross an exact number (`magnitude_nearestRank_le`,
`le_magnitude_nearestRank`), and integer multiples of the least positive number that lie two steps
of a grid apart are rounded to different numbers in the same order (`roundedRank_lt`).  A difference
from a natural number is such a rounded multiple (`finite_sub_ofNat`), and natural numbers are
multiplied exactly and divided with one rounding (`ofNat_mul_ofNat`, `ofNat_div_ofNat`).
-/

namespace MailTemplate.Binary64

section Quotients

variable {num den k s : ℕ}

/-- A quotient that is not above an exact number is not rounded to one above it. -/
lemma magnitude_nearestRank_le (hk : k < 2 ^ 53) (hs : 52 ≤ s) (hden : 0 < den)
    (h : num ≤ k * 2 ^ s * den) : magnitude (nearestRank num den) ≤ k * 2 ^ s := by
  obtain ⟨rank, -, hrank⟩ := exists_magnitude_eq_mul_two_pow hk hs
  have hround : nearestRank num den ≤ nearestRank (magnitude rank * 1) 1 :=
    nearestRank_mono hden Nat.one_pos (by rwa [hrank, Nat.mul_one, Nat.mul_one])
  rw [nearestRank_magnitude_mul rank Nat.one_pos] at hround
  rwa [← hrank, magnitude_le_magnitude]

/-- A quotient that is not below an exact number is not rounded to one below it. -/
lemma le_magnitude_nearestRank (hk : k < 2 ^ 53) (hs : 52 ≤ s) (hden : 0 < den)
    (h : k * 2 ^ s * den ≤ num) : k * 2 ^ s ≤ magnitude (nearestRank num den) := by
  obtain ⟨rank, -, hrank⟩ := exists_magnitude_eq_mul_two_pow hk hs
  have hround : nearestRank (magnitude rank * 1) 1 ≤ nearestRank num den :=
    nearestRank_mono Nat.one_pos hden (by rwa [hrank, Nat.mul_one, Nat.mul_one])
  rw [nearestRank_magnitude_mul rank Nat.one_pos] at hround
  rwa [← hrank, magnitude_le_magnitude]

end Quotients

/-! ### Signed ranks -/

/-- The signed rank of a finite number. -/
def signedRank : Binary64 → ℤ
  | finite s r => compare?.signed s r
  | _ => 0

/-- Finite numbers are ordered as their signed ranks are. -/
lemma lt_iff_signedRank_lt {x y : Binary64} (hx : x.isFinite = true) (hy : y.isFinite = true) :
    x.lt y = true ↔ signedRank x < signedRank y := by
  cases x with
  | nan => cases hx
  | infinite negative => cases hx
  | finite s a =>
    cases y with
    | nan => cases hy
    | infinite negative => cases hy
    | finite t b => exact finite_lt_finite s t a b

/-- The signed rank that an integer multiple of the least positive number is rounded to, as if ranks
had no limit. -/
def roundedRank (n : ℤ) : ℤ :=
  if n < 0 then -(nearestRank n.natAbs 1 : ℤ) else nearestRank n.natAbs 1

/-- Rounding keeps the order of integer multiples. -/
lemma roundedRank_mono : Monotone roundedRank := by
  intro n m h
  have hmono : ∀ a b : ℕ, a ≤ b → nearestRank a 1 ≤ nearestRank b 1 := fun a b hab =>
    nearestRank_mono Nat.one_pos Nat.one_pos (Nat.mul_le_mul_right 1 hab)
  unfold roundedRank
  split
  · split
    · have hranks := hmono m.natAbs n.natAbs (by omega)
      omega
    · omega
  · have hranks := hmono n.natAbs m.natAbs (by omega)
    rw [if_neg (by omega)]
    omega

/-- Exact multiples with the same signed rank are equal. -/
lemma eq_of_roundedRank_eq {n m : ℤ} {a b : ℕ} (hn : n.natAbs = magnitude a)
    (hm : m.natAbs = magnitude b) (h : roundedRank n = roundedRank m) : n = m := by
  have hexact : ∀ rank, nearestRank (magnitude rank) 1 = rank := fun rank => by
    simpa using nearestRank_magnitude_mul rank Nat.one_pos
  unfold roundedRank at h
  rw [hn, hm, hexact, hexact] at h
  have hzero : ∀ rank, rank = 0 → magnitude rank = 0 := fun rank => magnitude_eq_zero.mpr
  have hab : a = b := by
    split_ifs at h <;> omega
  subst hab
  have hpos := hzero a
  split_ifs at h <;> omega

/-- Integer multiples that lie two steps of a grid of exact numbers apart are not rounded to the
same number. -/
theorem roundedRank_lt {n m : ℤ} {s : ℕ} (hs : 52 ≤ s) (hn : n.natAbs ≤ 2 ^ 50 * 2 ^ s)
    (hgap : n + 2 * 2 ^ s ≤ m) : roundedRank n < roundedRank m := by
  have hstep : (0 : ℤ) < 2 ^ s := by positivity
  have hsize : |n| ≤ 2 ^ 50 * 2 ^ s := by
    rw [Int.abs_eq_natAbs]
    exact_mod_cast hn
  obtain ⟨hnlow, hnhigh⟩ := abs_le.mp hsize
  -- two neighbours on the grid lie between the two multiples
  obtain ⟨j, hlow, hnear, hhigh⟩ : ∃ j : ℤ, n ≤ j * 2 ^ s ∧ j * 2 ^ s ≤ n + 2 ^ s ∧
      (j + 1) * 2 ^ s ≤ m := by
    have hbelow := Int.ediv_mul_le n hstep.ne'
    refine ⟨n / 2 ^ s + 1, (Int.lt_ediv_add_one_mul_self n hstep).le, ?_, ?_⟩ <;> linarith
  have hjlow : -(2 ^ 50) ≤ j := le_of_mul_le_mul_right (by linarith) hstep
  have hjhigh : j ≤ 2 ^ 50 + 1 := le_of_mul_le_mul_right (by linarith) hstep
  have hexact : ∀ i : ℤ, i.natAbs < 2 ^ 53 → ∃ rank, (i * 2 ^ s).natAbs = magnitude rank := by
    intro i hi
    obtain ⟨rank, -, hrank⟩ := exists_magnitude_eq_mul_two_pow hi hs
    refine ⟨rank, ?_⟩
    rw [hrank, Int.natAbs_mul, Int.natAbs_pow]
    rfl
  obtain ⟨a, ha⟩ := hexact j (by omega)
  obtain ⟨b, hb⟩ := hexact (j + 1) (by omega)
  have hne : roundedRank (j * 2 ^ s) ≠ roundedRank ((j + 1) * 2 ^ s) := by
    intro heq
    have hsame := eq_of_roundedRank_eq ha hb heq
    linarith
  have hmiddle : j * 2 ^ s ≤ (j + 1) * 2 ^ s := by linarith
  calc roundedRank n ≤ roundedRank (j * 2 ^ s) := roundedRank_mono hlow
    _ < roundedRank ((j + 1) * 2 ^ s) := lt_of_le_of_ne (roundedRank_mono hmiddle) hne
    _ ≤ roundedRank m := roundedRank_mono hhigh

/-! ### Arithmetic of natural numbers -/

/-- A common factor of both parts of a quotient does not change what it is rounded to. -/
lemma nearestRank_mul_mul (num : ℕ) {den c : ℕ} (hden : 0 < den) (hc : 0 < c) :
    nearestRank (num * c) (den * c) = nearestRank num den := by
  have hscaled : 0 < den * c := Nat.mul_pos hden hc
  refine le_antisymm (nearestRank_mono hscaled hden ?_) (nearestRank_mono hden hscaled ?_)
  · exact le_of_eq (by ring)
  · exact le_of_eq (by ring)

/-- The product of natural numbers is exact below `2 ^ 53`. -/
lemma ofNat_mul_ofNat {a b : ℕ} (ha : a < 2 ^ 53) (hb : b < 2 ^ 53) (hab : a * b < 2 ^ 53) :
    ofNat a * ofNat b = ofNat (a * b) := by
  obtain ⟨ra, hra, hmaga⟩ := exists_ofNat_eq_finite ha
  obtain ⟨rb, hrb, hmagb⟩ := exists_ofNat_eq_finite hb
  obtain ⟨r, hr, hmag⟩ := exists_ofNat_eq_finite hab
  have hprod : magnitude ra * magnitude rb = magnitude r * one := by
    rw [hmaga, hmagb, hmag]
    ring
  rw [hra, hrb, hr, mul_eq, mul, hprod]
  exact ofQuotient_magnitude_mul false r one_pos

/-- The quotient of natural numbers below `2 ^ 53` is the rounded quotient. -/
lemma ofNat_div_ofNat {a b : ℕ} (ha : a < 2 ^ 53) (hb : b < 2 ^ 53) (hpos : 0 < b) :
    ofNat a / ofNat b = ofQuotient false (a * one) b := by
  obtain ⟨ra, hra, hmaga⟩ := exists_ofNat_eq_finite ha
  obtain ⟨rb, hrb, hmagb⟩ := exists_ofNat_eq_finite hb
  have hzero : rb.val ≠ 0 := by
    intro hzero
    rw [hzero, magnitude_eq_zero.mpr rfl] at hmagb
    exact (Nat.mul_pos hpos one_pos).ne hmagb
  rw [hra, hrb, div_eq, div, if_neg hzero, hmaga, hmagb]
  unfold ofQuotient
  simp only [nearestRank_mul_mul (a * one) hpos one_pos]
  rfl

/-- A natural number in range is its own integer part. -/
lemma truncateTo_ofNat {n : ℕ} {high : ℤ} (hn : n < 2 ^ 53) (hhigh : n ≤ high) :
    (ofNat n).truncateTo 0 high = n := by
  obtain ⟨r, hr, hmag⟩ := exists_ofNat_eq_finite hn
  have hpart : magnitude r / one = n := by rw [hmag, Nat.mul_div_cancel _ one_pos]
  rw [hr]
  unfold truncateTo
  simp only [← Int.natCast_ediv, hpart, Bool.false_eq_true, if_false]
  omega

/-- Rounding down leaves the whole part of a number that is not negative. -/
lemma floor_finite (r : Fin rankLimit) : (finite false r).floor = ofNat (magnitude r / one) := by
  unfold floor ofNat
  simp only [Bool.false_eq_true, if_false]

/-! ### Differences -/

/-- A multiple of moderate size is rounded to a finite number of its signed rank. -/
lemma ofMultiple_spec {n : ℤ} {s : ℕ} (hs : 52 ≤ s) (hlimit : s ≤ 2045)
    (hn : n.natAbs ≤ 2 ^ 50 * 2 ^ s) :
    (ofMultiple n).isFinite = true ∧ signedRank (ofMultiple n) = roundedRank n := by
  obtain ⟨rank, hrank, hmag⟩ := exists_magnitude_eq_mul_two_pow (n := 2 ^ 50) (by norm_num) hs
  have hround : nearestRank n.natAbs 1 ≤ nearestRank (magnitude rank * 1) 1 :=
    nearestRank_mono Nat.one_pos Nat.one_pos (by rwa [hmag, Nat.mul_one, Nat.mul_one, Nat.mul_one])
  rw [nearestRank_magnitude_mul rank Nat.one_pos] at hround
  have hlt : nearestRank n.natAbs 1 < rankLimit := by
    unfold rankLimit
    omega
  have hfinite : ofMultiple n = finite (n < 0) ⟨nearestRank n.natAbs 1, hlt⟩ := dif_pos hlt
  rw [hfinite]
  refine ⟨rfl, ?_⟩
  unfold signedRank compare?.signed roundedRank
  simp only [decide_eq_true_eq]

/-- A finite number that is not negative less a natural number is the rounded difference. -/
lemma finite_sub_ofNat (r : Fin rankLimit) {u : ℕ} (hu : u < 2 ^ 53) :
    finite false r - ofNat u = ofMultiple ((magnitude r : ℤ) - (u * one : ℕ)) := by
  obtain ⟨ru, hru, hmag⟩ := exists_ofNat_eq_finite hu
  have hsub : finite false r - ofNat u = (finite false r).add (ofNat u).neg := rfl
  rw [hsub, hru, neg, add]
  simp only [Bool.false_eq_true, if_false, Bool.not_false, if_true, hmag, Bool.false_and]
  rw [← sub_eq_add_neg]
  split
  · next hzero =>
    rw [hzero]
    rfl
  · rfl

end MailTemplate.Binary64
