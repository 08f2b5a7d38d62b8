import MailTemplate.Proofs.Binary64.Rank

/-!
# Rounding keeps the order of quotients

A quotient that is not greater than another is not rounded to a greater number.  So a product or a
quotient has a finite value if one with greater factors, or a smaller divisor, has.

Main results: rounding is monotone (`roundEven_mono`, `nearestRank_mono`), and products and
quotients stay finite (`isFinite_mul_of_le`, `isFinite_div`).
-/

namespace MailTemplate.Binary64

section Quotients

variable {num den num' den' : ℕ}

/-- The whole part of a quotient is not greater than that of a greater one. -/
lemma div_le_div_of_cross (hden : 0 < den) (hden' : 0 < den') (h : num * den' ≤ num' * den) :
    num / den ≤ num' / den' := by
  rw [Nat.le_div_iff_mul_le hden']
  have hwhole : num / den * den ≤ num := Nat.div_mul_le_self num den
  have hscaled : num / den * den' * den ≤ num' * den := by
    calc num / den * den' * den = num / den * den * den' := by ring
      _ ≤ num * den' := Nat.mul_le_mul_right den' hwhole
      _ ≤ num' * den := h
  exact Nat.le_of_mul_le_mul_right hscaled hden

/-- Quotients with equal whole parts are compared by their remainders. -/
lemma mod_mul_le_of_cross (h : num * den' ≤ num' * den) (hwhole : num / den = num' / den') :
    num % den * den' ≤ num' % den' * den := by
  have hnum := Nat.div_add_mod num den
  have hnum' := Nat.div_add_mod num' den'
  rw [← hwhole] at hnum'
  rw [← hnum, ← hnum'] at h
  have hleft : (den * (num / den) + num % den) * den' =
      den * den' * (num / den) + num % den * den' := by ring
  have hright : (den' * (num / den) + num' % den') * den =
      den * den' * (num / den) + num' % den' * den := by ring
  rw [hleft, hright] at h
  exact Nat.le_of_add_le_add_left h

/-- Rounding to the nearest integer keeps the order of quotients. -/
theorem roundEven_mono (hden : 0 < den) (hden' : 0 < den') (h : num * den' ≤ num' * den) :
    roundEven num den ≤ roundEven num' den' := by
  have hwhole := div_le_div_of_cross hden hden' h
  have hup : ∀ n d, roundEven n d ≤ n / d + 1 := by
    intro n d
    unfold roundEven
    dsimp only
    split_ifs <;> omega
  have hdown : ∀ n d, n / d ≤ roundEven n d := by
    intro n d
    unfold roundEven
    dsimp only
    split_ifs <;> omega
  rcases Nat.lt_or_eq_of_le hwhole with hlt | heq
  · exact (hup num den).trans (hlt.trans_le (hdown num' den'))
  -- with equal whole parts the remainders decide, both taken over the product of the denominators
  have hmod := mod_mul_le_of_cross h heq
  have hbelow : 2 * (num' % den') < den' → 2 * (num % den) < den := by
    intro hlt
    have hscaled : 2 * (num % den) * den' < den * den' := by nlinarith
    exact Nat.lt_of_mul_lt_mul_right hscaled
  have habove : den < 2 * (num % den) → den' < 2 * (num' % den') := by
    intro hlt
    have hscaled : den' * den < 2 * (num' % den') * den := by nlinarith
    exact Nat.lt_of_mul_lt_mul_right hscaled
  unfold roundEven
  dsimp only
  rw [heq]
  split_ifs <;> omega

/-- A whole number is rounded to itself. -/
lemma roundEven_one (n : ℕ) : roundEven n 1 = n := by
  have h := roundEven_mul_right n Nat.one_pos
  rwa [Nat.mul_one] at h

/-- The rounded significand of a quotient is at most `2 ^ 53`. -/
lemma roundEven_le_of_log2 (num : ℕ) (hden : 0 < den) :
    roundEven num (den * 2 ^ (Nat.log2 (num / den) - 52)) ≤ 2 ^ 53 := by
  have hscale : 0 < den * 2 ^ (Nat.log2 (num / den) - 52) :=
    Nat.mul_pos hden (Nat.two_pow_pos _)
  have hquot : num / den < 2 ^ (53 + (Nat.log2 (num / den) - 52)) := by
    refine Nat.lt_log2_self.trans_le (Nat.pow_le_pow_right (by decide) ?_)
    omega
  have hnum : num < 2 ^ 53 * (den * 2 ^ (Nat.log2 (num / den) - 52)) := by
    rw [Nat.div_lt_iff_lt_mul hden, pow_add] at hquot
    calc num < 2 ^ 53 * 2 ^ (Nat.log2 (num / den) - 52) * den := hquot
      _ = 2 ^ 53 * (den * 2 ^ (Nat.log2 (num / den) - 52)) := by ring
  have hround := roundEven_mono hscale Nat.one_pos
    (by rw [Nat.mul_one]; exact hnum.le :
      num * 1 ≤ 2 ^ 53 * (den * 2 ^ (Nat.log2 (num / den) - 52)))
  rwa [roundEven_one] at hround

/-- The rounded significand of a quotient that is not small is at least `2 ^ 52`. -/
lemma le_roundEven_of_log2 (hden : 0 < den) (hlog : 52 < Nat.log2 (num / den)) :
    2 ^ 52 ≤ roundEven num (den * 2 ^ (Nat.log2 (num / den) - 52)) := by
  have hscale : 0 < den * 2 ^ (Nat.log2 (num / den) - 52) :=
    Nat.mul_pos hden (Nat.two_pow_pos _)
  have hne : num / den ≠ 0 := by
    intro hzero
    rw [hzero] at hlog
    revert hlog
    decide
  have hquot : 2 ^ (52 + (Nat.log2 (num / den) - 52)) ≤ num / den := by
    have hexponent : 52 + (Nat.log2 (num / den) - 52) = Nat.log2 (num / den) := by omega
    rw [hexponent]
    exact Nat.log2_self_le hne
  have hnum : 2 ^ 52 * (den * 2 ^ (Nat.log2 (num / den) - 52)) ≤ num := by
    rw [Nat.le_div_iff_mul_le hden, pow_add] at hquot
    calc 2 ^ 52 * (den * 2 ^ (Nat.log2 (num / den) - 52))
        = 2 ^ 52 * 2 ^ (Nat.log2 (num / den) - 52) * den := by ring
      _ ≤ num := hquot
  have hround := roundEven_mono Nat.one_pos hscale
    (by rw [Nat.mul_one]; exact hnum :
      2 ^ 52 * (den * 2 ^ (Nat.log2 (num / den) - 52)) ≤ num * 1)
  rwa [roundEven_one] at hround

/-- Rounding to the nearest number keeps the order of quotients. -/
theorem nearestRank_mono (hden : 0 < den) (hden' : 0 < den') (h : num * den' ≤ num' * den) :
    nearestRank num den ≤ nearestRank num' den' := by
  have hlog : Nat.log2 (num / den) ≤ Nat.log2 (num' / den') := by
    have hwhole := div_le_div_of_cross hden hden' h
    rw [Nat.log2_eq_log_two, Nat.log2_eq_log_two]
    exact Nat.log_mono_right hwhole
  have hspacing : Nat.log2 (num / den) - 52 ≤ Nat.log2 (num' / den') - 52 := by omega
  unfold nearestRank
  dsimp only
  rcases Nat.lt_or_eq_of_le hspacing with hlt | heq
  · -- a wider spacing makes up for the greatest significand
    have hlow := roundEven_le_of_log2 num hden
    have hhigh : 2 ^ 52 ≤ roundEven num' (den' * 2 ^ (Nat.log2 (num' / den') - 52)) :=
      le_roundEven_of_log2 hden' (by omega)
    have hsteps : (Nat.log2 (num / den) - 52) * 2 ^ 52 + 2 ^ 52 ≤
        (Nat.log2 (num' / den') - 52) * 2 ^ 52 := by
      rw [← Nat.succ_mul]
      exact Nat.mul_le_mul_right _ hlt
    omega
  · rw [heq]
    refine Nat.add_le_add_left (roundEven_mono ?_ ?_ ?_) _
    · exact Nat.mul_pos hden (Nat.two_pow_pos _)
    · exact Nat.mul_pos hden' (Nat.two_pow_pos _)
    · calc num * (den' * 2 ^ (Nat.log2 (num' / den') - 52))
          = num * den' * 2 ^ (Nat.log2 (num' / den') - 52) := by ring
        _ ≤ num' * den * 2 ^ (Nat.log2 (num' / den') - 52) := Nat.mul_le_mul_right _ h
        _ = num' * (den * 2 ^ (Nat.log2 (num' / den') - 52)) := by ring

/-- A quotient is finite if a greater one is. -/
lemma isFinite_ofQuotient_of_le (s t : Bool) (hden : 0 < den) (hden' : 0 < den')
    (h : num * den' ≤ num' * den) (hfinite : (ofQuotient t num' den').isFinite = true) :
    (ofQuotient s num den).isFinite = true := by
  have hrank : nearestRank num' den' < rankLimit := by
    by_contra hlarge
    unfold ofQuotient at hfinite
    rw [dif_neg hlarge] at hfinite
    cases hfinite
  have hle := nearestRank_mono hden hden' h
  unfold ofQuotient
  rw [dif_pos (hle.trans_lt hrank)]
  rfl

end Quotients

/-! ### Products and quotients -/

/-- A finite quotient has the rank that its value is rounded to. -/
lemma ofQuotient_eq_finite_iff {s t : Bool} {num den : ℕ} {r : Fin rankLimit} :
    ofQuotient s num den = finite t r ↔ s = t ∧ nearestRank num den = r.val := by
  unfold ofQuotient
  by_cases hlt : nearestRank num den < rankLimit
  · rw [dif_pos hlt, finite.injEq, Fin.ext_iff]
  · rw [dif_neg hlt]
    constructor
    · intro h
      cases h
    · rintro ⟨-, hrank⟩
      exact absurd r.isLt (hrank ▸ hlt)

/-- A natural number that is not greater than a finite one is finite, and is rounded to a number
that is not greater. -/
lemma exists_ofNat_of_le {a b : ℕ} (h : a ≤ b) {t : Bool} {rb : Fin rankLimit}
    (hb : ofNat b = finite t rb) : ∃ ra : Fin rankLimit, ofNat a = finite false ra ∧ ra ≤ rb := by
  have hrank := (ofQuotient_eq_finite_iff.mp hb).2
  have hle : nearestRank (a * one) 1 ≤ rb.val := by
    rw [← hrank]
    refine nearestRank_mono Nat.one_pos Nat.one_pos ?_
    exact Nat.mul_le_mul_right 1 (Nat.mul_le_mul_right one h)
  exact ⟨⟨_, hle.trans_lt rb.isLt⟩, ofQuotient_eq_finite_iff.mpr ⟨rfl, rfl⟩, hle⟩

/-- A product is finite if one of greater factors is. -/
lemma isFinite_mul_of_le {s t s' t' : Bool} {a b a' b' : Fin rankLimit} (ha : a ≤ a') (hb : b ≤ b')
    (h : (finite s' a' * finite t' b').isFinite = true) :
    (finite s a * finite t b).isFinite = true := by
  rw [mul_eq] at h ⊢
  simp only [mul] at h ⊢
  have hfirst : magnitude a ≤ magnitude a' := magnitude_le_magnitude.mpr ha
  have hsecond : magnitude b ≤ magnitude b' := magnitude_le_magnitude.mpr hb
  refine isFinite_ofQuotient_of_le _ _ one_pos one_pos ?_ h
  exact Nat.mul_le_mul_right one (Nat.mul_le_mul hfirst hsecond)

/-- A finite number over one that is at least one in size is finite. -/
lemma isFinite_div {x : Binary64} (hx : x.isFinite = true) {t : Bool} {r : Fin rankLimit}
    (hr : one ≤ magnitude r) : (x / finite t r).isFinite = true := by
  rw [div_eq]
  cases x with
  | nan => cases hx
  | infinite s => cases hx
  | finite s a =>
    have hpos : 0 < magnitude r := one_pos.trans_le hr
    have hne : r.val ≠ 0 := fun hzero => hpos.ne' (magnitude_eq_zero.mpr hzero)
    have hself : (ofQuotient s (magnitude a) 1).isFinite = true := by
      rw [ofQuotient_magnitude]
      rfl
    simp only [div, if_neg hne]
    refine isFinite_ofQuotient_of_le _ s hpos Nat.one_pos ?_ hself
    rw [Nat.mul_one]
    exact Nat.mul_le_mul_left _ hr

end MailTemplate.Binary64
