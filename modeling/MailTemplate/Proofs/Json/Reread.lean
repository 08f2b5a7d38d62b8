import MailTemplate.Proofs.Binary64.Order
import MailTemplate.Proofs.Json.RoundTrip

/-!
# Every finite number is read from its text

Reading a number from JSON text fails when its decimal value is out of range.  The digits that are
written for a number never are.  Apart from the greatest number, which is read as itself, their
value is at most that of the digits written for the greatest number but one; what the reader gathers
of them is no more, and the product with a power of ten is then finite.

Main results: a finite number is read as some number (`exists_rereadFloat`), and so is all of a
proper value (`exists_reread`).
-/

namespace MailTemplate

/-- The decimal value that is written for the greatest number but one. -/
def greatestDecimal : ℕ := 17976931348623155 * 10 ^ 292

namespace Binary64

/-! ### The ends of the range -/

/-- What computing with the numbers at the ends of the range gives, and with one. -/
structure RangeFacts : Prop where
  zero : (ofNat 0).same 0 = true
  magnitude_one : magnitude (nearestRank (10 ^ 0 * one) 1) = one
  pos : 0 < greatestDecimal
  lt : greatestDecimal < 10 ^ 309
  rank : nearestRank (greatestDecimal * one) 1 = rankLimit - 2
  digits : (Decimal.shortest .even ⟨rankLimit - 2, by decide⟩).digits *
      10 ^ (Decimal.shortest .even ⟨rankLimit - 2, by decide⟩).exponent.toNat ≤
    greatestDecimal * 10 ^ (-(Decimal.shortest .even ⟨rankLimit - 2, by decide⟩).exponent).toNat
  /-- The powers of ten that the reader scales by are in range. -/
  powers : nearestRank (10 ^ 308 * one) 1 < rankLimit
  significand_le : Json.maxSignificand ≤ greatestDecimal
  significand : nearestRank (Json.maxSignificand * one) 1 < rankLimit
  product : (ofNat Json.maxSignificand * Json.powerOfTen 288).isFinite = true
  /-- With each of the powers above, the greatest significand whose product is in range. -/
  products : ∀ k < 20, (ofNat (greatestDecimal / 10 ^ (289 + k)) *
    Json.powerOfTen (289 + k)).isFinite = true
  /-- The greatest number is read from its text, with either sign. -/
  greatest : ∀ s, (Json.rereadFloat (.finite s ⟨rankLimit - 1, by decide⟩)).isSome = true

lemma rangeFacts : RangeFacts := by
  constructor
  all_goals decide +kernel

/-! ### Decimal values -/

/-- A decimal that is read as a finite number is not greater than a whole number that is rounded to
a greater one. -/
lemma nearestRank_le_of_ofDecimal {n m : ℕ} {e : ℤ} {r : Fin rankLimit}
    (h : ofDecimal false n e = finite false r) (hm : 0 < m)
    (hle : m * 10 ^ (-e).toNat ≤ n * 10 ^ e.toNat) : nearestRank (m * one) 1 ≤ r.val := by
  have hpow : ∀ k, 0 < 10 ^ k := fun k => Nat.pow_pos (by decide)
  unfold ofDecimal at h
  by_cases hzero : n = 0
  · rw [hzero, Nat.zero_mul] at hle
    exact absurd (Nat.mul_pos hm (hpow _)) (Nat.not_lt.mpr hle)
  rw [if_neg hzero] at h
  by_cases hhigh : 400 < e
  · rw [if_pos hhigh] at h
    cases h
  rw [if_neg hhigh] at h
  by_cases hsign : 0 ≤ e
  · have hlow : ¬(Nat.log2 n : ℤ) + 1 + 3 * e < -1100 := by omega
    rw [if_neg hlow, if_pos hsign] at h
    rw [← (ofQuotient_eq_finite_iff.mp h).2]
    have hnone : (-e).toNat = 0 := by omega
    rw [hnone, pow_zero, Nat.mul_one] at hle
    refine nearestRank_mono Nat.one_pos Nat.one_pos ?_
    exact Nat.mul_le_mul_right 1 (Nat.mul_le_mul_right one hle)
  · obtain ⟨k, hk⟩ : ∃ k : ℕ, e = -k := ⟨(-e).toNat, by omega⟩
    have hexponent : (-e).toNat = k := by omega
    have hnone : e.toNat = 0 := by omega
    rw [hexponent, hnone, pow_zero, Nat.mul_one] at hle
    -- with so many places behind the point the digits are many, and the value is not too small
    have hlog : 3 * k ≤ Nat.log2 n := by
      rw [Nat.le_log2 hzero, Nat.pow_mul]
      calc (2 ^ 3) ^ k ≤ 10 ^ k := Nat.pow_le_pow_left (by decide) k
        _ ≤ m * 10 ^ k := Nat.le_mul_of_pos_left _ hm
        _ ≤ n := hle
    have hlow : ¬(Nat.log2 n : ℤ) + 1 + 3 * e < -1100 := by omega
    rw [if_neg hlow, if_neg hsign, hexponent] at h
    rw [← (ofQuotient_eq_finite_iff.mp h).2]
    refine nearestRank_mono Nat.one_pos (hpow k) ?_
    calc m * one * 10 ^ k = m * 10 ^ k * one := by ring
      _ ≤ n * one := Nat.mul_le_mul_right one hle
      _ = n * one * 1 := (Nat.mul_one _).symm

/-- The digits written for a number, if it is not the greatest, have at most the value of those for
the greatest but one. -/
lemma shortest_le_greatest {rank : Fin rankLimit} (hrank : rank.val < rankLimit - 1) :
    (Decimal.shortest .even rank).digits * 10 ^ (Decimal.shortest .even rank).exponent.toNat ≤
      greatestDecimal * 10 ^ (-(Decimal.shortest .even rank).exponent).toNat := by
  by_contra hlarge
  have hle := nearestRank_le_of_ofDecimal (ofDecimal_shortest .even rank)
    (RangeFacts.pos rangeFacts) (Nat.le_of_not_le hlarge)
  rw [RangeFacts.rank rangeFacts] at hle
  have hlast : rank = ⟨rankLimit - 2, by decide⟩ :=
    Fin.ext (Nat.le_antisymm (Nat.le_sub_one_of_lt hrank) hle)
  rw [hlast] at hlarge
  exact hlarge (RangeFacts.digits rangeFacts)

/-- What stands for the first digits of a number has no greater value. -/
lemma mul_pow_le_greatest {rank : Fin rankLimit} (hrank : rank.val < rankLimit - 1)
    (left : ℕ) {n e : ℕ} (hdigits : n * 10 ^ left ≤ (Decimal.shortest .even rank).digits)
    (he : (e : ℤ) = (Decimal.shortest .even rank).exponent + left) :
    n * 10 ^ e ≤ greatestDecimal := by
  have hle := shortest_le_greatest hrank
  generalize (Decimal.shortest .even rank).digits = digits at hdigits hle
  generalize (Decimal.shortest .even rank).exponent = exponent at he hle
  have hpow : 0 < 10 ^ (-exponent).toNat := Nat.pow_pos (by decide)
  have hsum : e + (-exponent).toNat = left + exponent.toNat := by omega
  refine Nat.le_of_mul_le_mul_right ?_ hpow
  calc n * 10 ^ e * 10 ^ (-exponent).toNat = n * 10 ^ left * 10 ^ exponent.toNat := by
        rw [Nat.mul_assoc, ← pow_add, hsum, pow_add, Nat.mul_assoc]
    _ ≤ digits * 10 ^ exponent.toNat := Nat.mul_le_mul_right _ hdigits
    _ ≤ greatestDecimal * 10 ^ (-exponent).toNat := hle

end Binary64

namespace Json

open Binary64

/-! ### Scaling -/

/-- Greater powers of ten are not rounded to lesser numbers. -/
lemma nearestRank_powerOfTen_mono {e e' : ℕ} (h : e ≤ e') :
    nearestRank (10 ^ e * one) 1 ≤ nearestRank (10 ^ e' * one) 1 := by
  refine nearestRank_mono Nat.one_pos Nat.one_pos ?_
  exact Nat.mul_le_mul_right 1 (Nat.mul_le_mul_right one (Nat.pow_le_pow_right (by decide) h))

/-- The powers of ten that the reader scales by are numbers in the order of their exponents. -/
lemma exists_powerOfTen {e : ℕ} (he : e ≤ 308) :
    ∃ r : Fin rankLimit, powerOfTen e = finite false r ∧ r.val = nearestRank (10 ^ e * one) 1 := by
  have hrank := nearestRank_powerOfTen_mono he
  refine ⟨⟨_, hrank.trans_lt (RangeFacts.powers rangeFacts)⟩, ?_, rfl⟩
  have hlow : ¬(Nat.log2 1 : ℤ) + 1 + 3 * e < -1100 := by omega
  unfold powerOfTen ofDecimal
  rw [if_neg (by decide), if_neg (by omega), if_neg hlow, if_pos (by omega), Nat.one_mul,
    Int.toNat_natCast]
  exact ofQuotient_eq_finite_iff.mpr ⟨rfl, rfl⟩

/-- A power of ten is at least one in size. -/
lemma one_le_powerOfTen {e : ℕ} {r : Fin rankLimit} (hr : r.val = nearestRank (10 ^ e * one) 1) :
    one ≤ magnitude r := by
  have hrank : nearestRank (10 ^ 0 * one) 1 ≤ r.val := by
    rw [hr]
    exact nearestRank_powerOfTen_mono (Nat.zero_le e)
  have hsize := magnitude_le_magnitude.mpr hrank
  rwa [RangeFacts.magnitude_one rangeFacts] at hsize

/-- The greatest significand is a number. -/
lemma exists_maxSignificand : ∃ r, ofNat maxSignificand = finite false r :=
  ⟨⟨_, RangeFacts.significand rangeFacts⟩, ofQuotient_eq_finite_iff.mpr ⟨rfl, rfl⟩⟩

/-- Every significand makes a finite product with a power of ten that is not close to the greatest
number. -/
lemma isFinite_product_low {n e : ℕ} (hn : n ≤ maxSignificand) (he : e ≤ 288) :
    (ofNat n * powerOfTen e).isFinite = true := by
  have hfinite := RangeFacts.product rangeFacts
  obtain ⟨rb, hb⟩ := exists_maxSignificand
  obtain ⟨ra, ha, hle⟩ := exists_ofNat_of_le hn hb
  obtain ⟨p, hp, hrank⟩ := exists_powerOfTen (he.trans (by decide))
  obtain ⟨q, hq, hrank'⟩ := exists_powerOfTen (e := 288) (by decide)
  rw [hb, hq] at hfinite
  rw [ha, hp]
  refine isFinite_mul_of_le hle ?_ hfinite
  rw [Fin.le_def, hrank, hrank']
  exact nearestRank_powerOfTen_mono he

/-- Near the greatest number the significands whose product is in range make a finite one. -/
lemma isFinite_product_high {n k : ℕ} (hk : k < 20) (h : n * 10 ^ (289 + k) ≤ greatestDecimal) :
    (ofNat n * powerOfTen (289 + k)).isFinite = true := by
  have hbound : n ≤ greatestDecimal / 10 ^ (289 + k) :=
    (Nat.le_div_iff_mul_le (Nat.pow_pos (by decide))).mpr h
  have hfinite := RangeFacts.products rangeFacts k hk
  obtain ⟨p, hp, -⟩ := exists_powerOfTen (e := 289 + k) (by omega)
  rw [hp] at hfinite ⊢
  cases hb : ofNat (greatestDecimal / 10 ^ (289 + k)) with
  | nan =>
    rw [hb] at hfinite
    cases hfinite
  | infinite t =>
    rw [hb, mul_eq] at hfinite
    simp only [mul] at hfinite
    split at hfinite
    · cases hfinite
    · cases hfinite
  | finite t rb =>
    obtain ⟨ra, ha, hle⟩ := exists_ofNat_of_le hbound hb
    rw [hb] at hfinite
    rw [ha]
    exact isFinite_mul_of_le hle le_rfl hfinite

/-- A finite number scaled down, as far as it may be, is a finite number. -/
lemma exists_scale_of_neg {x : Binary64} (hx : x.isFinite = true) {exponent : ℤ}
    (h : exponent < 0) (fuel : ℕ) : ∃ y, scale x exponent fuel = some y ∧ y.isFinite = true := by
  induction fuel generalizing x exponent with
  | zero => exact ⟨x, rfl, hx⟩
  | succ fuel ih =>
    have hdown : ∀ e ≤ 308, (x / powerOfTen e).isFinite = true := by
      intro e he
      obtain ⟨r, hpower, hr⟩ := exists_powerOfTen he
      rw [hpower]
      exact isFinite_div hx (one_le_powerOfTen hr)
    unfold scale
    by_cases hsmall : exponent.natAbs ≤ 308
    · rw [if_pos hsmall, if_neg (by omega)]
      exact ⟨_, rfl, hdown _ (by omega)⟩
    rw [if_neg hsmall]
    by_cases hzero : x.same 0 = true
    · rw [if_pos hzero]
      exact ⟨x, rfl, hx⟩
    rw [if_neg hzero, if_neg (by omega)]
    exact ih (hdown 308 le_rfl) (by omega)

/-- A significand is a finite number. -/
lemma isFinite_ofNat {n : ℕ} (h : n ≤ maxSignificand) : (ofNat n).isFinite = true := by
  obtain ⟨rb, hb⟩ := exists_maxSignificand
  obtain ⟨ra, ha, -⟩ := exists_ofNat_of_le h hb
  rw [ha]
  rfl

/-- A significand is scaled by a power of ten if the value is not out of range. -/
lemma exists_scale {n : ℕ} {exponent : ℤ} (hn : n ≤ maxSignificand)
    (h : 0 < exponent → n * 10 ^ exponent.toNat ≤ greatestDecimal) :
    ∃ y, scale (ofNat n) exponent 5 = some y := by
  rcases lt_or_ge exponent 0 with hneg | hpos
  · obtain ⟨y, hy, -⟩ := exists_scale_of_neg (isFinite_ofNat hn) hneg 5
    exact ⟨y, hy⟩
  obtain ⟨e, rfl⟩ := Int.eq_ofNat_of_zero_le hpos
  have hvalue : n * 10 ^ e ≤ greatestDecimal := by
    rcases Nat.eq_zero_or_pos e with rfl | he
    · rw [pow_zero, Nat.mul_one]
      exact hn.trans (RangeFacts.significand_le rangeFacts)
    · exact h (Int.natCast_pos.mpr he)
  unfold scale
  by_cases hsmall : e < 309
  · have hproduct : (ofNat n * powerOfTen e).isFinite = true := by
      by_cases hlow : e ≤ 288
      · exact isFinite_product_low hn hlow
      · obtain ⟨k, rfl⟩ : ∃ k, e = 289 + k := ⟨e - 289, by omega⟩
        exact isFinite_product_high (by omega) hvalue
    have habs : (e : ℤ).natAbs = e := Int.natAbs_natCast e
    rw [if_pos (by omega), if_pos hpos, habs]
    simp only [hproduct, if_true]
    exact ⟨_, rfl⟩
  · -- only zero is in range with so great an exponent
    have hzero : n = 0 := by
      by_contra hne
      have hfactor : 10 ^ e ≤ n * 10 ^ e := Nat.le_mul_of_pos_left _ (Nat.pos_of_ne_zero hne)
      have hpow : 10 ^ 309 ≤ 10 ^ e := pow_le_pow_right₀ (by decide) (Nat.not_lt.mp hsmall)
      exact absurd (hpow.trans (hfactor.trans hvalue))
        (Nat.not_le.mpr (RangeFacts.lt rangeFacts))
    rw [if_neg (by omega), hzero, if_pos (RangeFacts.zero rangeFacts)]
    exact ⟨_, rfl⟩

/-- A number is put together if its value is not out of range. -/
lemma exists_assemble (negative : Bool) {n : ℕ} (exponent : ℤ) (hn : n ≤ maxSignificand)
    (h : 0 < exponent → n * 10 ^ exponent.toNat ≤ greatestDecimal) (rest : List Char) :
    ∃ p, assemble negative n exponent rest = .ok p := by
  obtain ⟨y, hy⟩ := exists_scale hn h
  unfold assemble
  rw [hy]
  exact ⟨_, rfl⟩

/-! ### Parts of a number -/

/-- What is gathered of digits is in range, and is the value of the digits that were taken. -/
lemma gather_bound {ds left : List Char} {start n k : ℕ} (h : gather start ds = (n, k, left))
    (hstart : start ≤ maxSignificand) :
    n ≤ maxSignificand ∧ n * 10 ^ left.length ≤ Nat.ofDigitChars 10 ds start ∧
      k + left.length = ds.length := by
  have hzeros : ∀ (cs : List Char) (m : ℕ), m * 10 ^ cs.length ≤ Nat.ofDigitChars 10 cs m := by
    intro cs m
    rw [Nat.ofDigitChars_eq_ofDigitChars_zero, Nat.mul_comm]
    exact Nat.le_add_right _ _
  induction ds generalizing start n k left with
  | nil =>
    obtain ⟨rfl, rfl, rfl⟩ : start = n ∧ 0 = k ∧ [] = left := by simpa [gather] using h
    exact ⟨hstart, hzeros [] start, rfl⟩
  | cons c ds ih =>
    rw [gather] at h
    split at h
    · next hfits =>
      rw [Bool.and_eq_true, decide_eq_true_eq] at hfits
      obtain ⟨⟨m, j, after⟩, hmore⟩ : ∃ p, gather (start * 10 + digitValue c) ds = p := ⟨_, rfl⟩
      rw [hmore] at h
      obtain ⟨rfl, rfl, rfl⟩ : m = n ∧ j + 1 = k ∧ after = left := by simpa using h
      obtain ⟨hn, hle, hlen⟩ := ih hmore hfits.2
      refine ⟨hn, ?_, by rw [List.length_cons, ← hlen]; omega⟩
      rw [Nat.ofDigitChars_cons, Nat.mul_comm 10 start]
      exact hle
    · obtain ⟨rfl, rfl, rfl⟩ : start = n ∧ 0 = k ∧ c :: ds = left := by simpa using h
      exact ⟨hstart, hzeros (c :: ds) start, by rw [Nat.zero_add]⟩

/-- The value of digits has no more digits than they are. -/
lemma ofDigitChars_lt {ds : List Char} (hds : ∀ c ∈ ds, c.isDigit = true) :
    Nat.ofDigitChars 10 ds 0 < 10 ^ ds.length := by
  induction ds with
  | nil => decide
  | cons c ds ih =>
    obtain ⟨n, hn, rfl⟩ := Text.exists_digitChar (hds c List.mem_cons_self)
    have hmore := ih fun a ha => hds a (List.mem_cons_of_mem _ ha)
    rw [Nat.ofDigitChars_cons_digitChar_of_lt_ten hn, Nat.mul_zero, Nat.zero_add,
      Nat.ofDigitChars_eq_ofDigitChars_zero, List.length_cons, pow_succ]
    have hle : 10 ^ ds.length * n ≤ 10 ^ ds.length * 9 := Nat.mul_le_mul_left _ (by omega)
    omega

/-- An exponent in range is read from its digits. -/
lemma exponentDigits_fits {ds : List Char} (hds : ∀ c ∈ ds, c.isDigit = true) (start : ℕ)
    (h : Nat.ofDigitChars 10 ds start < 2 ^ 31) :
    exponentDigits start ds = (some (Nat.ofDigitChars 10 ds start), []) := by
  induction ds generalizing start with
  | nil => rfl
  | cons c ds ih =>
    have hc : c.isDigit = true := hds c List.mem_cons_self
    have hvalue : Nat.ofDigitChars 10 (c :: ds) start =
        Nat.ofDigitChars 10 ds (start * 10 + digitValue c) := by
      rw [Nat.ofDigitChars_cons, Nat.mul_comm]
      rfl
    rw [hvalue] at h ⊢
    have hfits : start * 10 + digitValue c < 2 ^ 31 := by
      refine lt_of_le_of_lt ?_ h
      rw [Nat.ofDigitChars_eq_ofDigitChars_zero]
      exact Nat.le_add_right_of_le (Nat.le_mul_of_pos_left _ (Nat.pow_pos (by decide)))
    rw [exponentDigits, if_pos hc, if_pos hfits]
    exact ih (fun a ha => hds a (List.mem_cons_of_mem c ha)) _ h

/-- An exponent behind digits makes a number if the value is not out of range. -/
lemma exists_readExponent (negative : Bool) {n : ℕ} (power : ℕ) (start : ℤ) (down : Bool)
    (hn : n ≤ maxSignificand) (hstart : start ≤ 0)
    (h : down = false → power < 2 ^ 31 ∧
      (0 < start + power → n * 10 ^ (start + power).toNat ≤ greatestDecimal)) :
    ∃ p, readExponent negative n start
      ((if down = true then '-' else '+') :: Nat.toDigits 10 power) = .ok p := by
  obtain ⟨d, ds, hdigits⟩ :=
    List.exists_cons_of_ne_nil (Nat.toDigits_ne_nil (n := power) (b := 10))
  have hall : ∀ c ∈ d :: ds, c.isDigit = true := by
    rw [← hdigits]
    exact fun c => Text.isDigit_of_mem_toDigits
  have hd : d.isDigit = true := hall d List.mem_cons_self
  rw [hdigits]
  cases down with
  | true =>
    -- however small the exponent is, the number is scaled down or taken for zero
    obtain ⟨⟨result, rest⟩, hread⟩ : ∃ p, exponentDigits (digitValue d) ds = p := ⟨_, rfl⟩
    cases result with
    | none => simp [readExponent, hd, hread]
    | some e =>
      obtain ⟨p, hp⟩ := exists_assemble negative
        (max (-2 ^ 31) (min (2 ^ 31 - 1) (start - e))) hn (fun hpos => by omega) rest
      refine ⟨p, ?_⟩
      simp only [readExponent, if_true, hd, Bool.not_true, Bool.false_eq_true, if_false, hread]
      exact hp
  | false =>
    obtain ⟨hpower, hvalue⟩ := h rfl
    have hwhole : Nat.ofDigitChars 10 ds (digitValue d) = power := by
      have hfull : Nat.ofDigitChars 10 (d :: ds) 0 = power := by
        rw [← hdigits]
        exact Nat.ofDigitChars_ten_toDigits
      rw [Nat.ofDigitChars_cons, Nat.mul_zero, Nat.zero_add] at hfull
      exact hfull
    have hread := exponentDigits_fits (fun c hc => hall c (List.mem_cons_of_mem d hc))
      (digitValue d) (by rw [hwhole]; exact hpower)
    rw [hwhole] at hread
    obtain ⟨p, hp⟩ := exists_assemble negative
      (max (-2 ^ 31) (min (2 ^ 31 - 1) (start + power))) hn (fun hpos => by
        have hkeep : max (-2 ^ 31) (min (2 ^ 31 - 1) (start + power)) = start + power := by omega
        rw [hkeep] at hpos ⊢
        exact hvalue hpos) []
    refine ⟨p, ?_⟩
    simp only [readExponent, Bool.false_eq_true, if_false, hd, Bool.not_true, hread]
    exact hp

/-! ### Whole texts -/

/-- A fraction is read if the number before it is a significand, with or without an exponent after
it that does not take the value out of range. -/
lemma exists_readFraction (negative : Bool) {n : ℕ} (hn : n ≤ maxSignificand) {ds : List Char}
    (hne : ds ≠ []) (hds : ∀ c ∈ ds, c.isDigit = true) :
    ∃ m k left : ℕ, m ≤ maxSignificand ∧ m * 10 ^ left ≤ Nat.ofDigitChars 10 ds n ∧
      k + left = ds.length ∧ ∀ rest, NoDigit rest →
        readFraction negative n 0 (ds ++ rest) = readTail negative m (0 - k) rest := by
  obtain ⟨m, k, left, hgather, hread⟩ := readFraction_append negative n 0 hne hds
  obtain ⟨hm, hvalue, hlen⟩ := gather_bound hgather hn
  exact ⟨m, k, left.length, hm, hvalue, hlen, hread⟩

/-- Digits with a point after at most sixteen of them are read. -/
lemma exists_readNumber_fraction (negative : Bool) {ds : List Char} (h : IsWhole ds)
    (hlen : ds.length ≤ 16) {fs : List Char} (hne : fs ≠ []) (hfs : ∀ c ∈ fs, c.isDigit = true) :
    ∃ p, readNumber negative (ds ++ '.' :: fs) = .ok p := by
  have hvalue : Nat.ofDigitChars 10 ds 0 ≤ maxSignificand := by
    have hlt := ofDigitChars_lt h.2.1
    have hpow : 10 ^ ds.length ≤ 10 ^ 16 := Nat.pow_le_pow_right (by decide) hlen
    have hmax : 10 ^ 16 ≤ maxSignificand := by decide
    omega
  obtain ⟨m, k, -, hm, -, -, hread⟩ := exists_readFraction negative hvalue hne hfs
  have htail := hread [] noDigit_nil
  rw [List.append_nil] at htail
  obtain ⟨p, hp⟩ := exists_assemble negative ((0 : ℤ) - k) hm (fun hpos => by omega) []
  refine ⟨p, ?_⟩
  rw [readNumber_whole negative h hvalue (noDigit_cons (by decide) fs)]
  exact htail.trans hp

/-- The first of the digits is read on its own. -/
lemma readNumber_digit (negative : Bool) {d : Char} (hd : d.isDigit = true) :
    digitValue d ≤ maxSignificand ∧ ∀ rest, NoDigit rest →
      readNumber negative (d :: rest) = readRest negative (digitValue d) rest := by
  have hdigit := isWhole_digit hd
  have hone : Nat.ofDigitChars 10 [d] 0 = digitValue d := by
    rw [Nat.ofDigitChars_cons, Nat.mul_zero, Nat.zero_add]
    rfl
  have hsmall : digitValue d ≤ maxSignificand := by
    have hlt := ofDigitChars_lt hdigit.2.1
    have hten : 10 ^ 1 ≤ maxSignificand := by decide
    rw [hone, List.length_singleton] at hlt
    exact hlt.le.trans hten
  refine ⟨hsmall, fun rest hrest => ?_⟩
  have hread := readNumber_whole negative hdigit (by rw [hone]; exact hsmall) hrest
  rwa [hone] at hread

/-- Digits in scientific notation are read if no part of them is out of range with the rest of the
exponent. -/
lemma exists_readNumber_scientific (negative : Bool) {digits : List Char} {whole : ℤ}
    (hne : digits ≠ []) (hdigits : ∀ c ∈ digits, c.isDigit = true)
    (hpower : 0 ≤ whole - 1 → whole - 1 < 2 ^ 31)
    (hvalue : ∀ m k left e : ℕ, m * 10 ^ left ≤ Nat.ofDigitChars 10 digits 0 →
      1 + k + left = digits.length → (e : ℤ) = whole - 1 - k → m * 10 ^ e ≤ greatestDecimal) :
    ∃ p, readNumber negative (Layout.scientific digits whole) = .ok p := by
  -- what is left to read behind the digits that are gathered is the exponent
  have hexponent : ∀ m k left : ℕ, m ≤ maxSignificand →
      m * 10 ^ left ≤ Nat.ofDigitChars 10 digits 0 → 1 + k + left = digits.length →
      ∃ p, readExponent negative m (0 - k) ((if whole - 1 < 0 then '-' else '+') ::
        Nat.toDigits 10 (whole - 1).natAbs) = .ok p := by
    intro m k left hm hle hlen
    have hread := exists_readExponent negative (whole - 1).natAbs (0 - k)
      (decide (whole - 1 < 0)) hm (by omega) fun hup => by
        rw [decide_eq_false_iff_not] at hup
        refine ⟨by have := hpower (by omega); omega, fun hpos => ?_⟩
        exact hvalue m k left _ hle hlen (by omega)
    simpa only [decide_eq_true_eq] using hread
  match digits, hne with
  | [d], _ =>
    obtain ⟨hsmall, hread⟩ := readNumber_digit negative (hdigits d List.mem_cons_self)
    obtain ⟨p, hp⟩ := hexponent (digitValue d) 0 0 hsmall (by
      rw [Nat.ofDigitChars_cons, Nat.mul_zero, Nat.zero_add, pow_zero, Nat.mul_one]
      rfl) rfl
    refine ⟨p, ?_⟩
    change readNumber negative (d :: 'e' :: _) = _
    rw [hread _ (noDigit_cons (by decide) _)]
    exact hp
  | d :: f :: fs, _ =>
    obtain ⟨hsmall, hread⟩ := readNumber_digit negative (hdigits d List.mem_cons_self)
    have hfs : ∀ c ∈ f :: fs, c.isDigit = true := fun c hc =>
      hdigits c (List.mem_cons_of_mem d hc)
    obtain ⟨m, k, left, hm, hle, hlen, hfraction⟩ :=
      exists_readFraction negative hsmall (List.cons_ne_nil f fs) hfs
    obtain ⟨p, hp⟩ := hexponent m k left hm (by
      rw [Nat.ofDigitChars_cons, Nat.mul_zero, Nat.zero_add]
      exact hle) (by simp only [List.length_cons] at hlen ⊢; omega)
    refine ⟨p, ?_⟩
    change readNumber negative (d :: '.' :: (f :: fs ++ 'e' :: _)) = _
    rw [hread _ (noDigit_cons (by decide) _)]
    change readFraction negative (digitValue d) 0 (f :: fs ++ 'e' :: _) = _
    rw [hfraction _ (noDigit_cons (by decide) _)]
    exact hp

/-- The text of a number that is not the greatest is read. -/
lemma exists_readNumber_unsigned (negative : Bool) {rank : Fin rankLimit}
    (hrank : rank.val < rankLimit - 1) :
    ∃ p, readNumber negative (numberLayout.unsigned rank) = .ok p := by
  have hwhole := isWhole_toDigits (Decimal.shortest .even rank).digits
  have hvalue : Nat.ofDigitChars 10 (Nat.toDigits 10 (Decimal.shortest .even rank).digits) 0 =
      (Decimal.shortest .even rank).digits := Nat.ofDigitChars_ten_toDigits
  have hone : 1 ≤ (Nat.toDigits 10 (Decimal.shortest .even rank).digits).length :=
    Nat.length_toDigits_pos
  unfold Layout.unsigned numberLayout Decimal.digitText
  simp only
  split
  · next hplaces =>
    obtain ⟨ds, f, fs, htext, hds, hlen, hfs⟩ := exists_place hwhole whole_shortest
    rw [htext]
    exact exists_readNumber_fraction negative hds (hlen.trans (by omega)) (List.cons_ne_nil f fs)
      hfs
  · next hplaces =>
    refine exists_readNumber_scientific negative hwhole.1 hwhole.2.1 (fun hup => ?_) ?_
    · -- the first digit alone says how great the exponent can be
      have hdigits : 10 ^ ((Nat.toDigits 10 (Decimal.shortest .even rank).digits).length - 1) ≤
          (Decimal.shortest .even rank).digits := by
        by_contra hfew
        rcases Nat.eq_zero_or_pos
          ((Nat.toDigits 10 (Decimal.shortest .even rank).digits).length - 1) with hzero | hpos
        · rw [hzero, pow_zero, Nat.not_le, Nat.lt_one_iff] at hfew
          have hexponent := exponent_shortest hfew
          omega
        · have hlen := (Nat.length_toDigits_le_iff (by decide) hpos).mpr (Nat.not_le.mp hfew)
          omega
      obtain ⟨e, he⟩ := Int.eq_ofNat_of_zero_le hup
      have hle := mul_pow_le_greatest hrank
        ((Nat.toDigits 10 (Decimal.shortest .even rank).digits).length - 1) (n := 1) (e := e)
        (by rw [Nat.one_mul]; exact hdigits) (by omega)
      have hsmall : e < 309 := by
        by_contra hlarge
        have hpow : 10 ^ 309 ≤ 10 ^ e := pow_le_pow_right₀ (by decide) (Nat.not_lt.mp hlarge)
        rw [Nat.one_mul] at hle
        exact absurd (hpow.trans hle) (Nat.not_le.mpr (RangeFacts.lt rangeFacts))
      omega
    · intro m k left e hle hlen he
      rw [hvalue] at hle
      exact mul_pow_le_greatest hrank left hle (by omega)

/-- Every finite number is read from its text. -/
theorem exists_rereadFloat {x : Binary64} (hx : x.isFinite = true) :
    ∃ y, rereadFloat x = some y := by
  cases x with
  | nan => cases hx
  | infinite s => cases hx
  | finite s rank =>
    by_cases hrank : rank.val < rankLimit - 1
    · obtain ⟨p, hp⟩ := exists_readNumber_unsigned s hrank
      obtain ⟨ds, tail, htext, hds, -⟩ := exists_unsigned rank
      have hchars : numberLayout.chars (.finite s rank) = Binary64.withSign s (ds ++ tail) := by
        rw [← htext]
        cases s with
        | true => rfl
        | false => rfl
      have hvalue : readValue 1 0 (Binary64.withSign s (ds ++ tail) ++ []) =
          readNumber s (ds ++ tail ++ []) := readValue_number 0 0 s hds []
      have hread := readValue_float 0 0 hx endsNumber_nil
      rw [hchars, hvalue, List.append_nil, ← htext, hp] at hread
      cases hreread : rereadFloat (.finite s rank) with
      | none =>
        rw [hreread] at hread
        cases hread
      | some y => exact ⟨y, rfl⟩
    · have hlast : rank = ⟨rankLimit - 1, by decide⟩ :=
        Fin.ext (Nat.le_antisymm (Nat.le_sub_one_of_lt rank.isLt) (Nat.not_lt.mp hrank))
      rw [hlast]
      exact Option.isSome_iff_exists.mp (RangeFacts.greatest rangeFacts s)

/-! ### Whole values -/

mutual

/-- Every proper value is read from its text. -/
theorem exists_reread : ∀ {v : Json}, v.Proper → ∃ w, reread v = some w
  | .null, _ => ⟨.null, rfl⟩
  | .bool b, _ => ⟨.bool b, rfl⟩
  | .int n, _ => ⟨.int n, rfl⟩
  | .text s, _ => ⟨.text s, rfl⟩
  | .float x, h => by
    obtain ⟨y, hy⟩ := exists_rereadFloat h
    exact ⟨.float y, by rw [reread, hy]; rfl⟩
  | .array xs, h => by
    obtain ⟨ys, hys⟩ := exists_rereadItems h
    exact ⟨.array ys, by rw [reread, hys]; rfl⟩
  | .object fs, h => by
    obtain ⟨gs, hgs⟩ := exists_rereadFields h.2
    exact ⟨.object gs, by rw [reread, hgs]; rfl⟩

/-- Proper items are read from their texts. -/
theorem exists_rereadItems : ∀ {xs : List Json}, ProperItems xs → ∃ ys, rereadItems xs = some ys
  | [], _ => ⟨[], rfl⟩
  | x :: xs, h => by
    obtain ⟨y, hy⟩ := exists_reread h.1
    obtain ⟨ys, hys⟩ := exists_rereadItems h.2
    exact ⟨y :: ys, by rw [rereadItems, hy, hys]; rfl⟩

/-- Fields with proper values are read from their texts. -/
theorem exists_rereadFields : ∀ {fs : List (String × Json)}, ProperFields fs →
    ∃ gs, rereadFields fs = some gs
  | [], _ => ⟨[], rfl⟩
  | (k, x) :: fs, h => by
    obtain ⟨y, hy⟩ := exists_reread h.1
    obtain ⟨gs, hgs⟩ := exists_rereadFields h.2
    exact ⟨(k, y) :: gs, by rw [rereadFields, hy, hgs]; rfl⟩

end

end Json

end MailTemplate
