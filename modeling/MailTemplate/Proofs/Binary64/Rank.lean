import Mathlib.Tactic
import MailTemplate.Document.Width

/-!
# Ranks, magnitudes and rounding

A rank is a significand below `2 ^ 53` and a number of spacings; its magnitude is the significand
times a power of two.  This file proves that magnitudes ascend with ranks
(`magnitude_strictMono`), that rounding a magnitude gives back its rank
(`nearestRank_magnitude_mul`), and that natural numbers below `2 ^ 53` are held exactly
(`exists_ofNat_eq_finite`).

For edits of widths the main result is `toByte_clamp_mem`: a number with a value, moved into a
range of bytes, is a byte of that range.
-/

namespace MailTemplate

namespace Binary64

/-- The number one is a positive multiple of the least positive number. -/
lemma one_pos : 0 < one := by
  unfold one
  positivity

/-! ### Significands -/

/-- The magnitude of a rank that is put together from a significand and a number of spacings. -/
lemma magnitude_significand {f s : ℕ} (hf : f < 2 ^ 53) (h : 2 ^ 52 ≤ f ∨ s = 0) :
    magnitude (s * 2 ^ 52 + f) = f * 2 ^ s := by
  have hspacing : spacing (s * 2 ^ 52 + f) = s := by
    unfold spacing
    omega
  unfold magnitude
  rw [hspacing, Nat.add_sub_cancel_left]

/-- Every rank is put together from a significand and a number of spacings. -/
lemma exists_significand (rank : ℕ) :
    ∃ f s, rank = s * 2 ^ 52 + f ∧ f < 2 ^ 53 ∧ (2 ^ 52 ≤ f ∨ s = 0) := by
  refine ⟨rank - spacing rank * 2 ^ 52, spacing rank, ?_, ?_, ?_⟩ <;>
    unfold spacing <;> omega

/-- Magnitudes ascend with ranks. -/
lemma magnitude_strictMono : StrictMono magnitude := by
  refine strictMono_nat_of_lt_succ fun rank => ?_
  obtain ⟨f, s, rfl, hf, h⟩ := exists_significand rank
  rw [magnitude_significand hf h]
  by_cases hnext : f + 1 < 2 ^ 53
  · rw [Nat.add_assoc, magnitude_significand hnext (h.imp_left fun h => by omega)]
    exact Nat.mul_lt_mul_of_pos_right (Nat.lt_succ_self f) (Nat.two_pow_pos s)
  · -- the last significand of a spacing is followed by the first one of the next spacing
    have hstep : s * 2 ^ 52 + f + 1 = (s + 1) * 2 ^ 52 + 2 ^ 52 := by omega
    rw [hstep, magnitude_significand (by norm_num) (Or.inl le_rfl), pow_succ 2 s]
    have hpos : 0 < 2 ^ s := Nat.two_pow_pos s
    calc f * 2 ^ s < 2 ^ 53 * 2 ^ s := Nat.mul_lt_mul_of_pos_right hf hpos
      _ = 2 ^ 52 * (2 ^ s * 2) := by ring

/-- Magnitudes of ranks are ordered as the ranks are. -/
@[simp] lemma magnitude_le_magnitude {a b : ℕ} : magnitude a ≤ magnitude b ↔ a ≤ b :=
  magnitude_strictMono.le_iff_le

/-- Only rank zero has magnitude zero. -/
@[simp] lemma magnitude_eq_zero {rank : ℕ} : magnitude rank = 0 ↔ rank = 0 :=
  magnitude_strictMono.injective.eq_iff' (by decide)

/-! ### Rounding of exact values -/

/-- A quotient that is a whole number is rounded to that number. -/
lemma roundEven_mul_right (n : ℕ) {den : ℕ} (h : 0 < den) : roundEven (n * den) den = n := by
  unfold roundEven
  have hdiv : n * den / den = n := Nat.mul_div_cancel n h
  have hmod : n * den % den = 0 := Nat.mul_mod_left n den
  simp [hdiv, hmod, h]

/-- The magnitude of a rank is rounded to that rank, over any denominator. -/
lemma nearestRank_magnitude_mul (rank : ℕ) {den : ℕ} (h : 0 < den) :
    nearestRank (magnitude rank * den) den = rank := by
  obtain ⟨f, s, rfl, hf, hs⟩ := exists_significand rank
  rw [magnitude_significand hf hs]
  have hlog : Nat.log2 (f * 2 ^ s) - 52 = s := by
    rcases hs with hs | rfl
    · have hlog2 : Nat.log2 (f * 2 ^ s) = 52 + s := by
        refine (Nat.log2_eq_iff (by positivity)).mpr ⟨?_, ?_⟩
        · rw [pow_add]
          exact Nat.mul_le_mul_right _ hs
        · rw [show 52 + s + 1 = 53 + s by omega, pow_add]
          exact Nat.mul_lt_mul_of_pos_right hf (Nat.two_pow_pos s)
      omega
    · rcases Nat.eq_zero_or_pos f with rfl | hpos
      · decide
      · have hlt : Nat.log2 (f * 2 ^ 0) < 53 := (Nat.log2_lt (by omega)).mpr (by omega)
        omega
  have hround : roundEven (f * 2 ^ s * den) (den * 2 ^ s) = f := by
    rw [Nat.mul_assoc f, Nat.mul_comm (2 ^ s) den]
    exact roundEven_mul_right f (Nat.mul_pos h (Nat.two_pow_pos s))
  simp only [nearestRank, Nat.mul_div_cancel _ h, hlog, hround]

/-- The magnitude of a rank is rounded to the number of that rank. -/
lemma ofQuotient_magnitude_mul (negative : Bool) (rank : Fin rankLimit) {den : ℕ} (h : 0 < den) :
    ofQuotient negative (magnitude rank * den) den = finite negative rank := by
  unfold ofQuotient
  simp only [nearestRank_magnitude_mul rank.val h, rank.isLt, dite_true]

/-- The magnitude of a rank, as a whole number of least positive numbers, is rounded to the number
of that rank. -/
lemma ofQuotient_magnitude (negative : Bool) (rank : Fin rankLimit) :
    ofQuotient negative (magnitude rank) 1 = finite negative rank := by
  simpa using ofQuotient_magnitude_mul negative rank Nat.one_pos

/-! ### Natural numbers -/

/-- A natural number below `2 ^ 53` times a power of two is the magnitude of a rank. -/
lemma exists_magnitude_eq_mul_two_pow {n s : ℕ} (hn : n < 2 ^ 53) (hs : 52 ≤ s) :
    ∃ rank, rank < (s + 2) * 2 ^ 52 ∧ magnitude rank = n * 2 ^ s := by
  rcases Nat.eq_zero_or_pos n with rfl | hpos
  · exact ⟨0, by positivity, by simp⟩
  · have hlog : Nat.log2 n < 53 := (Nat.log2_lt (by omega)).mpr hn
    have hlow : 2 ^ Nat.log2 n ≤ n := Nat.log2_self_le (by omega)
    have hhigh : n < 2 ^ (Nat.log2 n + 1) := (Nat.log2_lt (by omega)).mp (Nat.lt_succ_self _)
    generalize Nat.log2 n = e at hlog hlow hhigh
    have hscale : 2 ^ 52 = 2 ^ e * 2 ^ (52 - e) := by
      rw [← pow_add]
      congr 1
      omega
    have hf52 : 2 ^ 52 ≤ n * 2 ^ (52 - e) := by
      rw [hscale]
      exact Nat.mul_le_mul_right _ hlow
    have hf53 : n * 2 ^ (52 - e) < 2 ^ 53 := by
      calc n * 2 ^ (52 - e) < 2 ^ (e + 1) * 2 ^ (52 - e) :=
            Nat.mul_lt_mul_of_pos_right hhigh (Nat.two_pow_pos _)
        _ = 2 ^ 53 := by
            rw [← pow_add]
            congr 1
            omega
    refine ⟨(s - 52 + e) * 2 ^ 52 + n * 2 ^ (52 - e), by omega, ?_⟩
    rw [magnitude_significand hf53 (Or.inl hf52), Nat.mul_assoc, ← pow_add]
    congr 2
    omega

/-- A natural number below `2 ^ 53` is the magnitude of a rank. -/
lemma exists_magnitude_eq_mul_one {n : ℕ} (h : n < 2 ^ 53) :
    ∃ rank : Fin rankLimit, magnitude rank = n * one := by
  obtain ⟨rank, hlt, hrank⟩ := exists_magnitude_eq_mul_two_pow h (s := 1074) (by omega)
  refine ⟨⟨rank, hlt.trans_le (Nat.le_of_ble_eq_true rfl)⟩, ?_⟩
  rw [one, hrank]

/-- A natural number below `2 ^ 53` is held exactly. -/
lemma exists_ofNat_eq_finite {n : ℕ} (h : n < 2 ^ 53) :
    ∃ rank : Fin rankLimit, ofNat n = finite false rank ∧ magnitude rank = n * one := by
  obtain ⟨rank, hrank⟩ := exists_magnitude_eq_mul_one h
  refine ⟨rank, ?_, hrank⟩
  unfold ofNat
  rw [← hrank]
  exact ofQuotient_magnitude false rank

/-- A positive natural number below `2 ^ 53` is not rank zero. -/
lemma exists_ofNat_eq_finite_pos {n : ℕ} (hpos : 0 < n) (h : n < 2 ^ 53) :
    ∃ rank : Fin rankLimit, ofNat n = finite false rank ∧ rank.val ≠ 0 := by
  obtain ⟨rank, hrank, hmag⟩ := exists_ofNat_eq_finite h
  refine ⟨rank, hrank, fun hzero => ?_⟩
  rw [hzero, magnitude_eq_zero.mpr rfl] at hmag
  exact (Nat.mul_pos hpos one_pos).ne hmag

/-- A natural number below `2 ^ 53` is finite. -/
lemma isFinite_ofNat {n : ℕ} (h : n < 2 ^ 53) : (ofNat n).isFinite = true := by
  obtain ⟨rank, hrank, -⟩ := exists_ofNat_eq_finite h
  rw [hrank]
  rfl

/-! ### Order -/

/-- A number that is not negative has its rank as its signed rank. -/
@[simp] lemma signed_false (r : Fin rankLimit) : compare?.signed false r = r.val := rfl

/-- A negative number has the negation of its rank as its signed rank. -/
@[simp] lemma signed_true (r : Fin rankLimit) : compare?.signed true r = -r.val := rfl

/-- Finite numbers are ordered as their signed ranks are. -/
lemma finite_lt_finite (s t : Bool) (a b : Fin rankLimit) :
    (finite s a).lt (finite t b) = true ↔ compare?.signed s a < compare?.signed t b := by
  simp [lt, compare?, compare_lt_iff_lt]

/-- Finite numbers are ordered as their signed ranks are. -/
lemma finite_le_finite (s t : Bool) (a b : Fin rankLimit) :
    (finite s a).le (finite t b) = true ↔ compare?.signed s a ≤ compare?.signed t b := by
  simp [le, compare?, compare_lt_iff_lt, le_iff_lt_or_eq]

/-- Of two finite numbers, the first is smaller exactly if the second is not smaller or equal. -/
lemma lt_eq_not_le {x y : Binary64} (hx : x.isFinite = true) (hy : y.isFinite = true) :
    x.lt y = !y.le x := by
  cases x with
  | nan => cases hx
  | infinite negative => cases hx
  | finite s a =>
    cases y with
    | nan => cases hy
    | infinite negative => cases hy
    | finite t b =>
      rw [Bool.eq_iff_iff, finite_lt_finite, Bool.not_eq_true', ← Bool.not_eq_true,
        finite_le_finite, not_le]

/-- Exact natural numbers compare as natural numbers do. -/
lemma ofNat_le_ofNat {a b : ℕ} (h : a ≤ b) (hb : b < 2 ^ 53) : (ofNat a).le (ofNat b) = true := by
  obtain ⟨low, hlow, hmlow⟩ := exists_ofNat_eq_finite (h.trans_lt hb)
  obtain ⟨high, hhigh, hmhigh⟩ := exists_ofNat_eq_finite hb
  have hrank : low.val ≤ high.val := by
    rw [← magnitude_le_magnitude, hmlow, hmhigh]
    exact Nat.mul_le_mul_right _ h
  rw [hlow, hhigh, finite_le_finite, signed_false, signed_false]
  exact Int.ofNat_le.mpr hrank

/-- Moving a number into a range gives one of the ends, or the number itself when it lies between
them. -/
lemma clamp_finite_cases {x : Binary64} (hx : x ≠ nan) {low high : Fin rankLimit}
    (h : low.val ≤ high.val) :
    x.clamp (finite false low) (finite false high) = finite false low ∨
      x.clamp (finite false low) (finite false high) = finite false high ∨
        ∃ s r, x = finite s r ∧ x.clamp (finite false low) (finite false high) = x ∧
          (low.val : ℤ) ≤ compare?.signed s r ∧ compare?.signed s r ≤ high.val := by
  have hends : (finite false high).lt (finite false low) = false := by
    rw [← Bool.not_eq_true, finite_lt_finite, not_lt, signed_false, signed_false]
    exact Int.ofNat_le.mpr h
  by_cases hbelow : x.lt (finite false low) = true
  · left
    simp [clamp, hbelow, hends]
  · by_cases habove : (finite false high).lt x = true
    · right; left
      simp [clamp, hbelow, habove]
    · right; right
      cases x with
      | nan => exact absurd rfl hx
      | infinite negative => cases negative <;> simp [lt, compare?] at hbelow habove
      | finite s r =>
        refine ⟨s, r, rfl, by simp [clamp, hbelow, habove], ?_, ?_⟩
        · rw [finite_lt_finite, not_lt] at hbelow
          exact hbelow
        · rw [finite_lt_finite, not_lt] at habove
          exact habove

/-! ### Bounds of bytes -/

/-- The byte of a finite number that is not negative is its integer part, up to 255. -/
lemma toByte_finite {s : Bool} {r : Fin rankLimit} (h : 0 ≤ compare?.signed s r) :
    (finite s r).toByte = min 255 (magnitude r / one) := by
  unfold toByte truncateTo
  simp only [← Int.natCast_ediv]
  cases s with
  | false =>
    simp only [Bool.false_eq_true, if_false]
    generalize magnitude r / one = n
    omega
  | true =>
    -- the negative zero
    rw [signed_true] at h
    have hzero : magnitude r = 0 := magnitude_eq_zero.mpr (by omega)
    simp only [hzero, Nat.zero_div, if_true]
    rfl

/-- A finite number that lies between two natural numbers below 256 is a byte between them. -/
lemma toByte_finite_mem {s : Bool} {r low high : Fin rankLimit} {a b : ℕ}
    (hlow : magnitude low = a * one) (hhigh : magnitude high = b * one) (hb : b ≤ 255)
    (h₁ : (low.val : ℤ) ≤ compare?.signed s r) (h₂ : compare?.signed s r ≤ high.val) :
    a ≤ (finite s r).toByte ∧ (finite s r).toByte ≤ b := by
  have hle : r.val ≤ high.val := by
    cases s <;> simp only [signed_false, signed_true] at h₁ h₂ <;> omega
  have hge : low.val ≤ r.val := by
    cases s <;> simp only [signed_false, signed_true] at h₁ h₂ <;> omega
  have hfloor : a ≤ magnitude r / one := by
    rw [Nat.le_div_iff_mul_le one_pos, ← hlow]
    exact magnitude_le_magnitude.mpr hge
  have hceil : magnitude r / one ≤ b := by
    refine Nat.div_le_of_le_mul ?_
    rw [Nat.mul_comm, ← hhigh]
    exact magnitude_le_magnitude.mpr hle
  have hnonneg : 0 ≤ compare?.signed s r := le_trans (Int.natCast_nonneg _) h₁
  rw [toByte_finite hnonneg]
  exact ⟨le_min (hfloor.trans (hceil.trans hb)) hfloor, (min_le_right _ _).trans hceil⟩

/-- A number with a value, moved into a range of bytes, is a byte of that range. -/
theorem toByte_clamp_mem {x : Binary64} (hx : x ≠ nan) {a b : ℕ} (hab : a ≤ b) (hb : b ≤ 255) :
    a ≤ (x.clamp (ofNat a) (ofNat b)).toByte ∧ (x.clamp (ofNat a) (ofNat b)).toByte ≤ b := by
  obtain ⟨low, hlow, hmlow⟩ := exists_ofNat_eq_finite (n := a) (by omega)
  obtain ⟨high, hhigh, hmhigh⟩ := exists_ofNat_eq_finite (n := b) (by omega)
  have hrank : low.val ≤ high.val := by
    rw [← magnitude_le_magnitude, hmlow, hmhigh]
    exact Nat.mul_le_mul_right _ hab
  rw [hlow, hhigh]
  obtain h | h | ⟨s, r, rfl, h, h₁, h₂⟩ := clamp_finite_cases hx hrank
  · rw [h]
    exact toByte_finite_mem hmlow hmhigh hb (by simp) (by simpa using hrank)
  · rw [h]
    exact toByte_finite_mem hmlow hmhigh hb (by simpa using hrank) (by simp)
  · rw [h]
    exact toByte_finite_mem hmlow hmhigh hb h₁ h₂

/-! ### Numbers with a value -/

/-- The product is the rounded product. -/
lemma mul_eq (x y : Binary64) : x * y = x.mul y := rfl

/-- The quotient is the rounded quotient. -/
lemma div_eq (x y : Binary64) : x / y = x.div y := rfl

/-- A rounded quotient has a value. -/
lemma ofQuotient_ne_nan (negative : Bool) (num den : ℕ) : ofQuotient negative num den ≠ nan := by
  unfold ofQuotient
  simp only
  split <;> simp

/-- A number with a value times a positive natural number has a value. -/
lemma mul_ofNat_ne_nan {x : Binary64} (hx : x ≠ nan) {n : ℕ} (hpos : 0 < n) (hn : n < 2 ^ 53) :
    x * ofNat n ≠ nan := by
  obtain ⟨rank, hrank, hzero⟩ := exists_ofNat_eq_finite_pos hpos hn
  rw [hrank]
  cases x with
  | nan => exact absurd rfl hx
  | infinite s =>
    rw [mul_eq, mul, if_neg hzero]
    simp
  | finite s r =>
    rw [mul_eq, mul]
    exact ofQuotient_ne_nan _ _ _

/-- A finite number over a positive natural number has a value. -/
lemma div_ofNat_ne_nan {x : Binary64} (hx : x.isFinite = true) {n : ℕ} (hpos : 0 < n)
    (hn : n < 2 ^ 53) : x / ofNat n ≠ nan := by
  obtain ⟨rank, hrank, hzero⟩ := exists_ofNat_eq_finite_pos hpos hn
  rw [hrank]
  cases x with
  | nan => simp [isFinite] at hx
  | infinite s => simp [isFinite] at hx
  | finite s r =>
    rw [div_eq, div, if_neg hzero]
    exact ofQuotient_ne_nan _ _ _

/-- Rounding keeps a value. -/
lemma round_ne_nan {x : Binary64} (hx : x ≠ nan) : x.round ≠ nan := by
  cases x with
  | nan => exact absurd rfl hx
  | infinite s => simp [round]
  | finite s r => exact ofQuotient_ne_nan _ _ _

end Binary64

/-! ### Units of percentages -/

/-- The units of a finite percentage have a value. -/
lemma nearestUnits_ne_nan {percent : Binary64} (h : percent.isFinite = true) :
    nearestUnits percent ≠ .nan := by
  unfold nearestUnits
  refine Binary64.round_ne_nan (Binary64.mul_ofNat_ne_nan ?_ (by decide) (by decide))
  exact Binary64.div_ofNat_ne_nan h (by decide) (by decide)

/-- A finite percentage stands for one to twelve units. -/
lemma percentToUnits_mem {percent : Binary64} (h : percent.isFinite = true) :
    1 ≤ percentToUnits percent ∧ percentToUnits percent ≤ gridUnits :=
  Binary64.toByte_clamp_mem (nearestUnits_ne_nan h) (by decide) (by decide)

end MailTemplate
