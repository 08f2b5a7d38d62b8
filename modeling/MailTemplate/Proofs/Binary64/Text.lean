import MailTemplate.Attribute.Value
import MailTemplate.Proofs.Binary64.Rank
import MailTemplate.Proofs.Lists

/-!
# Numbers written and read back

The digits that are chosen for a number read back as the number (`ofDecimal_shortest`), and so does
every way of laying them out without an exponent (`readUnsigned?_place`).

Main result: what style declarations hold for a finite number is read as a number of the same value
(`read?_numberText`).
-/

namespace MailTemplate

/-! ### Runs of digits -/

namespace Text

/-- The value of a run of digits, as the library computes it. -/
lemma digitsValue_eq (ds : List Char) : digitsValue ds = Nat.ofDigitChars 10 ds 0 :=
  Nat.ofDigitChars_eq_foldl.symm

/-- The digits of a number have the value of the number. -/
@[simp] lemma digitsValue_toDigits (n : ℕ) : digitsValue (Nat.toDigits 10 n) = n := by
  rw [digitsValue_eq, Nat.ofDigitChars_ten_toDigits]

/-- Zeros behind digits multiply by powers of ten. -/
lemma digitsValue_append_zeros (ds : List Char) (k : ℕ) :
    digitsValue (ds ++ List.replicate k '0') = digitsValue ds * 10 ^ k := by
  rw [digitsValue_eq, digitsValue_eq, Nat.ofDigitChars_append, Nat.ofDigitChars_replicate_zero,
    Nat.mul_comm]

/-- Zeros before digits change nothing. -/
lemma digitsValue_zeros_append (k : ℕ) (ds : List Char) :
    digitsValue (List.replicate k '0' ++ ds) = digitsValue ds := by
  rw [digitsValue_eq, digitsValue_eq, Nat.ofDigitChars_append, Nat.ofDigitChars_replicate_zero,
    Nat.mul_zero]

/-- The digits of a number are digits. -/
lemma isDigit_of_mem_toDigits {n : ℕ} {c : Char} (h : c ∈ Nat.toDigits 10 n) :
    c.isDigit = true :=
  Nat.isDigit_of_mem_toDigits (by decide) (by decide) h

/-- There are ten digits. -/
lemma exists_digitChar {c : Char} (h : c.isDigit = true) : ∃ n < 10, c = Nat.digitChar n := by
  unfold Char.isDigit at h
  rw [Bool.and_eq_true, decide_eq_true_eq, decide_eq_true_eq] at h
  have hlow : 48 ≤ c.toNat := h.1
  have hhigh : c.toNat ≤ 57 := h.2
  have hall : ∀ n < 10, Char.ofNat (n + 48) = Nat.digitChar n := by decide
  refine ⟨c.toNat - 48, by omega, ?_⟩
  rw [← hall _ (by omega), Nat.sub_add_cancel hlow, Char.ofNat_toNat]

/-- A digit is its own lower case. -/
lemma toLower_of_isDigit {c : Char} (h : c.isDigit = true) : c.toLower = c := by
  unfold Char.isDigit at h
  unfold Char.toLower
  rw [Bool.and_eq_true, decide_eq_true_eq, decide_eq_true_eq] at h
  rw [dif_neg]
  intro hupper
  exact absurd (UInt32.le_trans hupper.1 h.2) (by decide)

end Text

namespace Binary64

/-! ### Decimal values -/

/-- A quotient with the other sign is the same number with that sign. -/
lemma ofQuotient_eq_finite {num den : ℕ} {r : Fin rankLimit}
    (h : ofQuotient false num den = finite false r) (s : Bool) :
    ofQuotient s num den = finite s r := by
  unfold ofQuotient at h ⊢
  by_cases hlt : nearestRank num den < rankLimit
  · rw [dif_pos hlt] at h ⊢
    rw [finite.injEq] at h
    rw [h.2]
  · rw [dif_neg hlt] at h
    cases h

/-- A decimal with the other sign is the same number with that sign. -/
lemma ofDecimal_eq_finite {n : ℕ} {e : ℤ} {r : Fin rankLimit}
    (h : ofDecimal false n e = finite false r) (s : Bool) : ofDecimal s n e = finite s r := by
  unfold ofDecimal at h ⊢
  by_cases hzero : n = 0
  · rw [if_pos hzero] at h ⊢
    exact ofQuotient_eq_finite h s
  rw [if_neg hzero] at h ⊢
  by_cases hhigh : 400 < e
  · rw [if_pos hhigh] at h
    cases h
  rw [if_neg hhigh] at h ⊢
  by_cases hlow : (Nat.log2 n : ℤ) + 1 + 3 * e < -1100
  · rw [if_pos hlow] at h ⊢
    exact ofQuotient_eq_finite h s
  rw [if_neg hlow] at h ⊢
  by_cases hsign : 0 ≤ e
  · rw [if_pos hsign] at h ⊢
    exact ofQuotient_eq_finite h s
  · rw [if_neg hsign] at h ⊢
    exact ofQuotient_eq_finite h s

/-- A whole number is the quotient of its multiple. -/
lemma ofDecimal_zero_right (s : Bool) (n : ℕ) : ofDecimal s n 0 = ofQuotient s (n * one) 1 := by
  unfold ofDecimal
  by_cases hzero : n = 0
  · rw [if_pos hzero, hzero, Nat.zero_mul]
    rfl
  rw [if_neg hzero, if_neg (by decide), if_neg (by omega), if_pos le_rfl]
  rw [Int.toNat_zero, pow_zero, Nat.mul_one]

/-- A decimal that is a finite number stays the same when its power of ten is written out. -/
lemma ofDecimal_mul_pow {n k : ℕ} {r : Fin rankLimit}
    (h : ofDecimal false n k = finite false r) :
    ofDecimal false (n * 10 ^ k) 0 = finite false r := by
  rw [ofDecimal_zero_right]
  unfold ofDecimal at h
  by_cases hzero : n = 0
  · rw [if_pos hzero] at h
    rw [hzero, Nat.zero_mul, Nat.zero_mul]
    exact h
  rw [if_neg hzero] at h
  by_cases hhigh : (400 : ℤ) < k
  · rw [if_pos hhigh] at h
    cases h
  rw [if_neg hhigh, if_neg (by omega), if_pos (Int.natCast_nonneg k), Int.toNat_natCast] at h
  exact h

/-! ### Digits that read back -/

/-- The full expansion of a number reads back. -/
lemma readsBack_exact {rank : Fin rankLimit} (h : rank.val ≠ 0) :
    Decimal.readsBack rank (Decimal.exact rank) = true := by
  have hmag : 0 < magnitude rank := Nat.pos_of_ne_zero fun hzero => h (magnitude_eq_zero.mp hzero)
  have hfive : ∀ k, (2 ^ 2) ^ k ≤ 5 ^ k := fun k => Nat.pow_le_pow_left (by decide) k
  have hdigits : magnitude rank * 5 ^ 1074 ≠ 0 :=
    (Nat.mul_pos hmag (Nat.pow_pos (by decide))).ne'
  have hlog : 2 * 1074 ≤ Nat.log2 (magnitude rank * 5 ^ 1074) := by
    rw [Nat.le_log2 hdigits, Nat.pow_mul]
    exact (hfive 1074).trans (Nat.le_mul_of_pos_left _ hmag)
  have hten : magnitude rank * 5 ^ 1074 * one = magnitude rank * 10 ^ 1074 := by
    unfold one
    rw [Nat.mul_assoc, ← Nat.mul_pow]
  unfold Decimal.readsBack Decimal.exact
  simp only [beq_iff_eq]
  unfold ofDecimal
  generalize magnitude rank * 5 ^ 1074 = digits at hdigits hlog hten
  rw [if_neg hdigits, if_neg (by decide), if_neg (by omega), if_neg (by decide), hten]
  exact ofQuotient_magnitude_mul false rank (Nat.pow_pos (by decide))

/-- The digits chosen for a number read back. -/
theorem ofDecimal_shortest (tie : Tie) (rank : Fin rankLimit) :
    ofDecimal false (Decimal.shortest tie rank).digits (Decimal.shortest tie rank).exponent =
      finite false rank := by
  unfold Decimal.shortest
  split
  · next hzero =>
    have hquot := ofQuotient_magnitude false rank
    rw [hzero, magnitude_eq_zero.mpr rfl] at hquot
    rw [ofDecimal_zero_right, Nat.zero_mul]
    exact hquot
  · next hpos =>
    have hback : Decimal.readsBack rank
        ((Decimal.search tie rank 20 (Decimal.topExponent rank)).getD (Decimal.exact rank)) =
          true := by
      cases hsearch : Decimal.search tie rank 20 (Decimal.topExponent rank) with
      | none => exact readsBack_exact hpos
      | some d => exact Decimal.readsBack_of_search hsearch
    exact beq_iff_eq.mp hback

/-! ### Laid-out digits -/

/-- Digits without a point are read as a whole number. -/
lemma readUnsigned?_digits (s : Bool) (ds : List Char) (hne : ds ≠ [])
    (hds : ∀ c ∈ ds, c.isDigit = true) :
    readUnsigned? s ds = some (ofDecimal s (Text.digitsValue ds) 0) := by
  have htake : ds.takeWhile Char.isDigit = ds := List.takeWhile_eq_self_iff.mpr hds
  have hdrop : ds.dropWhile Char.isDigit = [] := List.dropWhile_eq_nil_iff.mpr hds
  unfold readUnsigned?
  simp only [htake, hdrop]
  simp [hne, readExponent?]

/-- Digits around a point are read with as many decimals as digits behind the point. -/
lemma readUnsigned?_point (s : Bool) (whole fraction : List Char) (hne : whole ≠ [])
    (hwhole : ∀ c ∈ whole, c.isDigit = true) (hfraction : ∀ c ∈ fraction, c.isDigit = true) :
    readUnsigned? s (whole ++ '.' :: fraction) =
      some (ofDecimal s (Text.digitsValue (whole ++ fraction)) (0 - fraction.length)) := by
  have hpoint : Char.isDigit '.' = false := by decide
  have htake : (whole ++ '.' :: fraction).takeWhile Char.isDigit = whole :=
    takeWhile_run hwhole hpoint
  have hdrop : (whole ++ '.' :: fraction).dropWhile Char.isDigit = '.' :: fraction :=
    dropWhile_run hwhole hpoint
  have htake' : fraction.takeWhile Char.isDigit = fraction :=
    List.takeWhile_eq_self_iff.mpr hfraction
  have hdrop' : fraction.dropWhile Char.isDigit = [] := List.dropWhile_eq_nil_iff.mpr hfraction
  unfold readUnsigned?
  simp only [htake, hdrop, htake', hdrop']
  simp [hne, readExponent?]

/-- Digits laid out around a point read back as the decimal that they make. -/
theorem readUnsigned?_place {n : ℕ} {e : ℤ} {r : Fin rankLimit}
    (h : ofDecimal false n e = finite false r) (s : Bool) :
    readUnsigned? s (Layout.place false (Nat.toDigits 10 n) (e + (Nat.toDigits 10 n).length)) =
      some (finite s r) := by
  have hds : ∀ c ∈ Nat.toDigits 10 n, c.isDigit = true := fun c => Text.isDigit_of_mem_toDigits
  have hvalue : Text.digitsValue (Nat.toDigits 10 n) = n := Text.digitsValue_toDigits n
  have hne : Nat.toDigits 10 n ≠ [] := Nat.toDigits_ne_nil
  generalize Nat.toDigits 10 n = ds at hds hvalue hne
  have hzeros : ∀ k, ∀ c ∈ List.replicate k '0', c.isDigit = true := by
    intro k c hc
    rw [List.eq_of_mem_replicate hc]
    decide
  unfold Layout.place
  split
  · -- all digits stand behind the point, after zeros
    next hwhole =>
    have hread := readUnsigned?_point s ['0']
      (List.replicate (-(e + ds.length)).toNat '0' ++ ds) (List.cons_ne_nil _ _)
      (forall_mem_of_all (by decide))
      (fun c hc => (List.mem_append.mp hc).elim (hzeros _ c) (hds c))
    have hdigits : Text.digitsValue (['0'] ++ (List.replicate (-(e + ds.length)).toNat '0' ++ ds)) =
        n := by
      rw [← List.append_assoc, ← hvalue]
      exact Text.digitsValue_zeros_append ((-(e + ds.length)).toNat + 1) ds
    have hexp : (0 : ℤ) - (List.replicate (-(e + ds.length)).toNat '0' ++ ds).length = e := by
      rw [List.length_append, List.length_replicate]
      omega
    rw [hdigits, hexp, ofDecimal_eq_finite h s] at hread
    exact hread
  · next hwhole =>
    have hsplit : ds.take (e + ds.length).toNat ++ ds.drop (e + ds.length).toNat = ds :=
      List.take_append_drop _ _
    simp only
    split
    · -- the point would stand behind the last digit, after more zeros
      next hdrop =>
      rw [hdrop, List.append_nil] at hsplit
      rw [hsplit]
      obtain ⟨k, hk⟩ : ∃ k : ℕ, e = k := by
        have hle : ds.length ≤ (e + ds.length).toNat := List.drop_eq_nil_iff.mp hdrop
        exact ⟨e.toNat, by omega⟩
      have hpad : (e + ds.length).toNat - ds.length = k := by omega
      have hread := readUnsigned?_digits s (ds ++ List.replicate k '0') (by simp [hne])
        fun c hc => (List.mem_append.mp hc).elim (hds c) (hzeros k c)
      rw [Text.digitsValue_append_zeros, hvalue] at hread
      rw [hk] at h
      rw [ofDecimal_eq_finite (ofDecimal_mul_pow h) s] at hread
      simpa [hpad] using hread
    · -- the point stands between two digits
      next hdrop =>
      have hlt : (e + ds.length).toNat < ds.length := by
        by_contra hle
        exact hdrop (List.drop_eq_nil_of_le (not_lt.mp hle))
      have htake : ds.take (e + ds.length).toNat ≠ [] := by
        rw [Ne, List.take_eq_nil_iff, not_or]
        exact ⟨by omega, hne⟩
      have hread := readUnsigned?_point s _ (ds.drop (e + ds.length).toNat) htake
        (fun c hc => hds c (List.mem_of_mem_take hc)) (fun c hc => hds c (List.mem_of_mem_drop hc))
      have hexp : (0 : ℤ) - (ds.drop (e + ds.length).toNat).length = e := by
        rw [List.length_drop]
        omega
      rw [hsplit, hvalue, hexp, ofDecimal_eq_finite h s] at hread
      exact hread

/-! ### Texts of numbers -/

/-- Digits and points, a digit first. -/
def IsPlain (cs : List Char) : Prop :=
  ∃ c rest, cs = c :: rest ∧ c.isDigit = true ∧ ∀ a ∈ rest, a.isDigit = true ∨ a = '.'

/-- The digits of a number are plain. -/
lemma isPlain_toDigits (n : ℕ) : IsPlain (Nat.toDigits 10 n) := by
  have hds : ∀ c ∈ Nat.toDigits 10 n, c.isDigit = true := fun c => Text.isDigit_of_mem_toDigits
  have hne : Nat.toDigits 10 n ≠ [] := Nat.toDigits_ne_nil
  cases h : Nat.toDigits 10 n with
  | nil => exact absurd h hne
  | cons c rest =>
    rw [h] at hds
    exact ⟨c, rest, rfl, hds c List.mem_cons_self, fun a ha => .inl (hds a (.tail c ha))⟩

/-- What is laid out around a point is plain. -/
lemma isPlain_place {ds : List Char} (hds : IsPlain ds) (whole : ℤ) :
    IsPlain (Layout.place false ds whole) := by
  obtain ⟨c, rest, rfl, hc, hrest⟩ := hds
  have hzeros : ∀ k, ∀ a ∈ List.replicate k '0', a.isDigit = true ∨ a = '.' := by
    intro k a ha
    rw [List.eq_of_mem_replicate ha]
    exact .inl (by decide)
  unfold Layout.place
  split
  · refine ⟨'0', _, rfl, by decide, fun a ha => ?_⟩
    rcases List.mem_cons.mp ha with rfl | ha
    · exact .inr rfl
    · rcases List.mem_append.mp ha with ha | ha
      · exact hzeros _ a ha
      · rcases List.mem_cons.mp ha with rfl | ha
        · exact .inl hc
        · exact hrest a ha
  · next hwhole =>
    obtain ⟨k, hk⟩ : ∃ k, whole.toNat = k + 1 := ⟨whole.toNat - 1, by omega⟩
    simp only [hk, List.take_succ_cons, List.drop_succ_cons]
    have htake : ∀ a ∈ rest.take k, a.isDigit = true ∨ a = '.' := fun a ha =>
      hrest a (List.mem_of_mem_take ha)
    split
    · refine ⟨c, rest.take k ++ List.replicate (k + 1 - (c :: rest).length) '0', by simp, hc,
        fun a ha => ?_⟩
      exact (List.mem_append.mp ha).elim (htake a) (hzeros _ a)
    · refine ⟨c, rest.take k ++ '.' :: rest.drop k, by simp, hc, fun a ha => ?_⟩
      rcases List.mem_append.mp ha with ha | ha
      · exact htake a ha
      · rcases List.mem_cons.mp ha with rfl | ha
        · exact .inr rfl
        · exact hrest a (List.mem_of_mem_drop ha)

/-- A text with a sign if the number has one. -/
def withSign (negative : Bool) (cs : List Char) : List Char := if negative then '-' :: cs else cs

/-- A plain text is read with the sign before it. -/
lemma read?_withSign {body : List Char} (h : IsPlain body) (s : Bool) :
    read? (withSign s body) = readUnsigned? s body := by
  obtain ⟨c, rest, rfl, hc, -⟩ := h
  have hlower := Text.toLower_of_isDigit hc
  -- a word starts with a letter
  have hword : ∀ (w : String) (a : Char), w.toList.head? = some a → a.isDigit = false →
      Text.lowerAscii (c :: rest) ≠ w.toList := by
    intro w a hfirst ha heq
    have hhead := congrArg List.head? heq
    rw [Text.lowerAscii, List.map_cons, List.head?_cons, hlower, hfirst] at hhead
    obtain rfl := Option.some.inj hhead
    rw [hc] at ha
    cases ha
  have hinf := hword "inf" 'i' rfl (by decide)
  have hinfinity := hword "infinity" 'i' rfl (by decide)
  have hnan := hword "nan" 'n' rfl (by decide)
  cases s with
  | true =>
    unfold read? withSign
    simp only [if_true]
    rw [if_neg (not_or.mpr ⟨hinf, hinfinity⟩), if_neg hnan]
  | false =>
    have hminus : c ≠ '-' := fun h => by
      rw [h] at hc
      exact absurd hc (by decide)
    have hplus : c ≠ '+' := fun h => by
      rw [h] at hc
      exact absurd hc (by decide)
    unfold read? withSign
    simp only [Bool.false_eq_true, if_false]
    split
    · next h => exact absurd (List.cons.inj h).1 hminus
    · next h => exact absurd (List.cons.inj h).1 hplus
    · rw [if_neg (not_or.mpr ⟨hinf, hinfinity⟩), if_neg hnan]

/-- Numbers of the same rank have the same value if their signs agree or the rank is zero. -/
lemma same_finite {s t : Bool} {r : Fin rankLimit} (h : s = t ∨ r.val = 0) :
    (finite s r).same (finite t r) = true := by
  have hsigned : compare?.signed s r = compare?.signed t r := by
    rcases h with rfl | hzero
    · rfl
    · cases s <;> cases t <;> simp [hzero]
  unfold same compare?
  simp [hsigned]

/-- A small integer is truncated to itself. -/
lemma exists_truncateTo {s : Bool} {r : Fin rankLimit} (hint : (finite s r).isInteger = true)
    (hsmall : (finite false r).lt (ofNat (10 ^ 15)) = true) :
    ∃ q : ℕ, magnitude r = q * one ∧
      (finite s r).truncateTo (-10 ^ 15) (10 ^ 15) = if s then -(q : ℤ) else q := by
  obtain ⟨limit, hlimit, hmag⟩ := exists_ofNat_eq_finite (n := 10 ^ 15) (by norm_num)
  rw [hlimit, finite_lt_finite, signed_false, signed_false, Nat.cast_lt] at hsmall
  have hlt := magnitude_strictMono hsmall
  rw [hmag] at hlt
  have hmod : magnitude r % one = 0 := of_decide_eq_true hint
  unfold truncateTo
  have hpos := one_pos
  generalize one = unit at hlt hmod hpos ⊢
  obtain ⟨q, hq⟩ := Nat.dvd_of_mod_eq_zero hmod
  have hdiv : magnitude r / unit = q := by
    rw [hq]
    exact Nat.mul_div_cancel_left q hpos
  have hbound : q < 10 ^ 15 := by
    rw [hq, Nat.mul_comm] at hlt
    exact Nat.lt_of_mul_lt_mul_right hlt
  refine ⟨q, by rw [hq, Nat.mul_comm], ?_⟩
  simp only [← Int.natCast_ediv, hdiv]
  split <;> omega

/-- The text of a finite number is plain up to a sign, and reads as a number of the same value. -/
lemma exists_numberText {x : Binary64} (h : x.isFinite = true) :
    ∃ s body y, (numberText x).toList = withSign s body ∧ IsPlain body ∧
      readUnsigned? s body = some y ∧ y.isFinite = true ∧ x.same y = true := by
  cases x with
  | nan => cases h
  | infinite s => cases h
  | finite s r =>
    unfold numberText
    split
    · next hcond =>
      rw [Bool.and_eq_true] at hcond
      obtain ⟨q, hmag, htruncate⟩ := exists_truncateTo hcond.1 hcond.2
      have hread : readUnsigned? (s && q != 0) (Nat.toDigits 10 q) =
          some (finite (s && q != 0) r) := by
        rw [readUnsigned?_digits _ _ Nat.toDigits_ne_nil fun c => Text.isDigit_of_mem_toDigits,
          Text.digitsValue_toDigits, ofDecimal_zero_right, ← hmag]
        exact congrArg some (ofQuotient_magnitude _ r)
      refine ⟨s && q != 0, Nat.toDigits 10 q, _, ?_, isPlain_toDigits q, hread, rfl, ?_⟩
      · rw [htruncate, String.toList_ofList]
        unfold Json.intText withSign
        cases s with
        | false => simp
        | true =>
          by_cases hq : q = 0
          · simp [hq]
          · have hneg : -(q : ℤ) < 0 := by omega
            simp [hq]
      · refine same_finite ?_
        by_cases hq : q = 0
        · rw [hq, Nat.zero_mul, magnitude_eq_zero] at hmag
          exact .inr hmag
        · exact .inl (by simp [hq])
    · refine ⟨s, Layout.plain.unsigned r, finite s r, ?_, ?_, ?_, rfl, same_finite (.inl rfl)⟩
      · cases s <;> simp [Layout.write, Layout.chars, withSign]
      · exact isPlain_place (isPlain_toDigits _) _
      · exact readUnsigned?_place (ofDecimal_shortest .up r) s

/-- What style declarations hold for a finite number reads as a number of the same value. -/
theorem read?_numberText {x : Binary64} (h : x.isFinite = true) :
    ∃ y, read? (numberText x).toList = some y ∧ y.isFinite = true ∧ x.same y = true := by
  obtain ⟨s, body, y, htext, hbody, hread, hfinite, hsame⟩ := exists_numberText h
  refine ⟨y, ?_, hfinite, hsame⟩
  rw [htext, read?_withSign hbody, hread]

/-- The text of a finite number consists of digits, points and hyphens, and is not empty. -/
lemma numberText_chars {x : Binary64} (h : x.isFinite = true) :
    (numberText x).toList ≠ [] ∧
      ∀ c ∈ (numberText x).toList, c.isDigit = true ∨ c = '.' ∨ c = '-' := by
  obtain ⟨s, body, -, htext, ⟨c, rest, rfl, hc, hrest⟩, -⟩ := exists_numberText h
  rw [htext]
  have hbody : ∀ a ∈ c :: rest, a.isDigit = true ∨ a = '.' ∨ a = '-' := by
    intro a ha
    rcases List.mem_cons.mp ha with rfl | ha
    · exact .inl hc
    · exact (hrest a ha).imp_right .inl
  cases s with
  | false => exact ⟨List.cons_ne_nil _ _, hbody⟩
  | true =>
    refine ⟨List.cons_ne_nil _ _, fun a ha => ?_⟩
    rcases List.mem_cons.mp ha with rfl | ha
    · exact .inr (.inr rfl)
    · exact hbody a ha

end Binary64

end MailTemplate
