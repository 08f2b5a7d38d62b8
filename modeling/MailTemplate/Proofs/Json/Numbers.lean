import MailTemplate.Proofs.Binary64.Text
import MailTemplate.Proofs.Success
import MailTemplate.Json.Reader

/-!
# JSON numbers read from their texts

Whatever text follows a written number, as long as it cannot go on with the number, the reader takes
the number and nothing else, and makes the same value of it each time.  Which value that is depends
on the digits alone; the reader rounds more than once, so it need not be the number written.

Main results: integers read back (`readValue_int`), and a binary64 number reads as `rereadFloat`
wherever it stands (`readValue_float`).
-/

namespace MailTemplate.Json

/-- A text that does not start with a digit. -/
def NoDigit (rest : List Char) : Prop := ∀ c ∈ rest.head?, c.isDigit = false

/-- A text that cannot go on with a number. -/
def EndsNumber (rest : List Char) : Prop :=
  ∀ c ∈ rest.head?, c.isDigit = false ∧ c ≠ '.' ∧ c ≠ 'e' ∧ c ≠ 'E'

/-- Before any text that ends a number, a reader takes exactly the given text, and makes of it the
same binary64 number each time or a fault each time. -/
def TakesFloat (read : List Char → Except Fault (Json × List Char)) (text : List Char) : Prop :=
  ∃ value : Option Binary64, ∀ rest, EndsNumber rest →
    (read (text ++ rest)).toOption = value.map fun x => (.float x, rest)

/-- The end of the text is no digit. -/
lemma noDigit_nil : NoDigit [] := by
  intro c hc
  cases hc

/-- A text that starts with another character starts with no digit. -/
lemma noDigit_cons {c : Char} (hc : c.isDigit = false) (rest : List Char) :
    NoDigit (c :: rest) := by
  intro a ha
  obtain rfl : c = a := Option.some.inj ha
  exact hc

/-- A text that ends a number starts with no digit. -/
lemma EndsNumber.noDigit {rest : List Char} (h : EndsNumber rest) : NoDigit rest :=
  fun c hc => (h c hc).1

/-- The end of the text ends a number. -/
lemma endsNumber_nil : EndsNumber [] := by
  intro c hc
  cases hc

/-- A text that starts with one of the marks between JSON values, or with a blank, ends a number. -/
lemma endsNumber_cons {c : Char} (h : c ∈ [',', ']', '\x7d', ' ', '\n', '\t', '\r'])
    (rest : List Char) : EndsNumber (c :: rest) := by
  intro a ha
  obtain rfl : c = a := by simpa using ha
  simp only [List.mem_cons, List.not_mem_nil, or_false] at h
  rcases h with rfl | rfl | rfl | rfl | rfl | rfl | rfl
  all_goals decide

/-! ### Runs of digits -/

section Runs

variable {ds rest : List Char} (hds : ∀ c ∈ ds, c.isDigit = true)

include hds

/-- The digits at the front of a text are those before the first other character. -/
lemma takeWhile_digits (hrest : NoDigit rest) : (ds ++ rest).takeWhile Char.isDigit = ds := by
  cases rest with
  | nil => rw [List.append_nil, List.takeWhile_eq_self_iff.mpr hds]
  | cons c rest => exact takeWhile_run hds (hrest c rfl)

/-- What is left after the digits at the front of a text starts with the first other character. -/
lemma dropWhile_digits (hrest : NoDigit rest) : (ds ++ rest).dropWhile Char.isDigit = rest := by
  cases rest with
  | nil => rw [List.append_nil, List.dropWhile_eq_nil_iff.mpr hds]
  | cons c rest => exact dropWhile_run hds (hrest c rfl)

/-- Digits are gathered as far as they keep the significand in range; how far does not depend on
what follows them. -/
lemma gather_append (significand : ℕ) :
    ∃ n k left, (∀ c ∈ left, c.isDigit = true) ∧ (k = 0 → left = ds) ∧
      ∀ rest, NoDigit rest → gather significand (ds ++ rest) = (n, k, left ++ rest) := by
  induction ds generalizing significand with
  | nil =>
    refine ⟨significand, 0, [], hds, fun _ => rfl, fun rest hrest => ?_⟩
    cases rest with
    | nil => rfl
    | cons c rest => simp [gather, hrest c rfl]
  | cons c ds ih =>
    have hc : c.isDigit = true := hds c List.mem_cons_self
    have htail : ∀ a ∈ ds, a.isDigit = true := fun a ha => hds a (List.mem_cons_of_mem c ha)
    by_cases hfits : significand * 10 + digitValue c ≤ maxSignificand
    · obtain ⟨n, k, left, hleft, -, h⟩ := ih htail (significand * 10 + digitValue c)
      refine ⟨n, k + 1, left, hleft, fun hk => absurd hk (Nat.succ_ne_zero k), fun rest hrest => ?_⟩
      simp [gather, hc, hfits, h rest hrest]
    · refine ⟨significand, 0, c :: ds, hds, fun _ => rfl, fun rest _ => ?_⟩
      simp [gather, hfits]

/-- The digits of an exponent are read as far as they keep it in range; how far does not depend on
what follows them. -/
lemma exponentDigits_append (value : ℕ) :
    ∃ result left, (∀ c ∈ left, c.isDigit = true) ∧ (result.isSome = true → left = []) ∧
      ∀ rest, NoDigit rest → exponentDigits value (ds ++ rest) = (result, left ++ rest) := by
  induction ds generalizing value with
  | nil =>
    refine ⟨some value, [], hds, fun _ => rfl, fun rest hrest => ?_⟩
    cases rest with
    | nil => rfl
    | cons c rest => simp [exponentDigits, hrest c rfl]
  | cons c ds ih =>
    have hc : c.isDigit = true := hds c List.mem_cons_self
    have htail : ∀ a ∈ ds, a.isDigit = true := fun a ha => hds a (List.mem_cons_of_mem c ha)
    by_cases hfits : value * 10 + digitValue c < 2 ^ 31
    · obtain ⟨result, left, hleft, hsome, h⟩ := ih htail (value * 10 + digitValue c)
      refine ⟨result, left, hleft, hsome, fun rest hrest => ?_⟩
      rw [← h rest hrest, List.cons_append, exponentDigits, if_pos hc, if_pos hfits]
    · refine ⟨none, ds, htail, fun h => absurd h (by simp), fun rest _ => ?_⟩
      rw [List.cons_append, exponentDigits, if_pos hc, if_neg hfits]

end Runs

/-! ### Parts of a number -/

/-- An exponent as it is written: its letter, a sign and digits. -/
def IsExponent (text : List Char) : Prop :=
  ∃ sign d ds, text = 'e' :: sign :: d :: ds ∧ (sign = '+' ∨ sign = '-') ∧
    ∀ c ∈ d :: ds, c.isDigit = true

/-- A fraction as it is written: a point and digits, with or without an exponent after them. -/
def IsFraction (text : List Char) : Prop :=
  ∃ f fs tail, text = '.' :: f :: fs ++ tail ∧ (∀ c ∈ f :: fs, c.isDigit = true) ∧
    (tail = [] ∨ IsExponent tail)

/-- Digits with a sign and an exponent make a number without looking at what follows. -/
lemma takesFloat_assemble (negative : Bool) (significand : ℕ) (exponent : ℤ) :
    TakesFloat (assemble negative significand exponent) [] := by
  refine ⟨(scale (Binary64.ofNat significand) exponent 5).map fun x =>
      if negative then x.neg else x,
    fun rest _ => ?_⟩
  unfold assemble
  rw [List.nil_append]
  cases scale (Binary64.ofNat significand) exponent 5 with
  | none => rfl
  | some x => rfl

/-- An exponent is taken whole. -/
lemma takesFloat_readExponent {negative : Bool} {significand : ℕ} {start : ℤ} {sign d : Char}
    {ds : List Char} (hsign : sign = '+' ∨ sign = '-') (hds : ∀ c ∈ d :: ds, c.isDigit = true) :
    TakesFloat (readExponent negative significand start) (sign :: d :: ds) := by
  have hd : d.isDigit = true := hds d List.mem_cons_self
  have htail : ∀ c ∈ ds, c.isDigit = true := fun c hc => hds c (List.mem_cons_of_mem d hc)
  obtain ⟨result, left, hleft, hsome, hdigits⟩ := exponentDigits_append htail (digitValue d)
  -- the exponent is in range, or too large, whatever follows it
  cases result with
  | none =>
    refine ⟨if significand ≠ 0 ∧ !decide (sign = '-') then none
      else some (Binary64.signedZero negative), fun rest hrest => ?_⟩
    have hdrop := dropWhile_digits hleft hrest.noDigit
    rcases hsign with rfl | rfl
    · by_cases hzero : significand = 0
      · simp [readExponent, hd, hdigits rest hrest.noDigit, hdrop, hzero, Except.toOption]
      · simp [readExponent, hd, hdigits rest hrest.noDigit, hzero, Except.toOption]
    · simp [readExponent, hd, hdigits rest hrest.noDigit, hdrop, Except.toOption]
  | some e =>
    obtain rfl : left = [] := hsome rfl
    obtain ⟨value, hvalue⟩ := takesFloat_assemble negative significand (max (-2 ^ 31)
      (min (2 ^ 31 - 1) (if sign = '-' then start - e else start + e)))
    refine ⟨value, fun rest hrest => ?_⟩
    rw [← hvalue rest hrest]
    rcases hsign with rfl | rfl
    · simp [readExponent, hd, hdigits rest hrest.noDigit]
    · simp [readExponent, hd, hdigits rest hrest.noDigit]

/-- What may follow the digits of a number that is not an integer is taken whole. -/
lemma takesFloat_readTail (negative : Bool) (significand : ℕ) (exponent : ℤ) {tail : List Char}
    (h : tail = [] ∨ IsExponent tail) :
    TakesFloat (readTail negative significand exponent) tail := by
  rcases h with rfl | ⟨sign, d, ds, rfl, hsign, hds⟩
  · obtain ⟨value, hvalue⟩ := takesFloat_assemble negative significand exponent
    refine ⟨value, fun rest hrest => ?_⟩
    rw [← hvalue rest hrest, List.nil_append]
    unfold readTail
    split
    · exact absurd rfl (hrest _ rfl).2.2.1
    · exact absurd rfl (hrest _ rfl).2.2.2
    · rfl
  · exact takesFloat_readExponent hsign hds

/-- An exponent starts with no digit. -/
lemma noDigit_tail {tail rest : List Char} (h : tail = [] ∨ IsExponent tail)
    (hrest : EndsNumber rest) : NoDigit (tail ++ rest) := by
  rcases h with rfl | ⟨sign, d, ds, rfl, -, -⟩
  · exact hrest.noDigit
  · exact noDigit_cons (by decide) _

/-- Digits behind a point move the exponent, and then comes what may follow digits. -/
lemma readFraction_append (negative : Bool) (significand : ℕ) (exponent : ℤ) {ds : List Char}
    (hne : ds ≠ []) (hds : ∀ c ∈ ds, c.isDigit = true) :
    ∃ n k left, gather significand ds = (n, k, left) ∧ ∀ rest, NoDigit rest →
      readFraction negative significand exponent (ds ++ rest) =
        readTail negative n (exponent - k) rest := by
  obtain ⟨n, k, left, hleft, hnone, hgather⟩ := gather_append hds significand
  have hown := hgather [] noDigit_nil
  rw [List.append_nil, List.append_nil] at hown
  refine ⟨n, k, left, hown, fun rest hrest => ?_⟩
  unfold readFraction
  rw [hgather rest hrest]
  cases left with
  | nil =>
    have hk : k ≠ 0 := fun hk => hne (hnone hk).symm
    cases rest with
    | nil => simp [hk, readTail]
    | cons c rest => simp [hk, hrest c rfl]
  | cons c left =>
    have hc : c.isDigit = true := hleft c List.mem_cons_self
    have hdrop := dropWhile_digits (fun a ha => hleft a (List.mem_cons_of_mem c ha)) hrest
    simp [hc, hdrop]

/-- A fraction is taken whole. -/
lemma takesFloat_readFraction {negative : Bool} {significand : ℕ} {exponent : ℤ} {f : Char}
    {fs tail : List Char} (hfs : ∀ c ∈ f :: fs, c.isDigit = true)
    (htail : tail = [] ∨ IsExponent tail) :
    TakesFloat (readFraction negative significand exponent) (f :: fs ++ tail) := by
  obtain ⟨n, k, -, -, hread⟩ :=
    readFraction_append negative significand exponent (List.cons_ne_nil f fs) hfs
  obtain ⟨value, hvalue⟩ := takesFloat_readTail negative n (exponent - k) htail
  refine ⟨value, fun rest hrest => ?_⟩
  rw [List.append_assoc, hread _ (noDigit_tail htail hrest)]
  exact hvalue rest hrest

/-! ### Whole numbers -/

/-- Digits at the front of a number: at least one, and no zero before others. -/
def IsWhole (ds : List Char) : Prop :=
  ds ≠ [] ∧ (∀ c ∈ ds, c.isDigit = true) ∧ (ds.head? = some '0' → ds = ['0'])

/-- The digits at the front of a number are taken, and then comes what may follow them, which does
not depend on what that is. -/
lemma readNumber_append (negative : Bool) {ds : List Char} (h : IsWhole ds) :
    (∃ n, ∀ rest, NoDigit rest → readNumber negative (ds ++ rest) = readRest negative n rest) ∨
      ∃ n dropped, ∀ rest, NoDigit rest →
        readNumber negative (ds ++ rest) = readLong negative n dropped rest := by
  obtain ⟨hne, hds, hzero⟩ := h
  cases ds with
  | nil => exact absurd rfl hne
  | cons d ds =>
    by_cases hd : d = '0'
    · subst hd
      obtain rfl : ds = [] := (List.cons.inj (hzero rfl)).2
      refine .inl ⟨0, fun rest hrest => ?_⟩
      cases rest with
      | nil => rfl
      | cons c rest => simp [readNumber, hrest c rfl]
    · have hdigit : d.isDigit = true := hds d List.mem_cons_self
      obtain ⟨n, k, left, hleft, -, hgather⟩ :=
        gather_append (fun c hc => hds c (List.mem_cons_of_mem d hc)) (digitValue d)
      have hread : ∀ rest, NoDigit rest → readNumber negative (d :: ds ++ rest) =
          if left.isEmpty then readRest negative n (left ++ rest)
          else readLong negative n left.length rest := by
        intro rest hrest
        rw [List.cons_append, readNumber.eq_def]
        simp only [hdigit, Bool.not_true, Bool.false_eq_true, if_false]
        rw [hgather rest hrest, takeWhile_digits hleft hrest, dropWhile_digits hleft hrest]
      cases left with
      | nil => exact .inl ⟨n, fun rest hrest => hread rest hrest⟩
      | cons c left => exact .inr ⟨n, (c :: left).length, fun rest hrest => hread rest hrest⟩

/-- A number with a fraction or an exponent is taken whole. -/
theorem takesFloat_readNumber (negative : Bool) {ds tail : List Char} (hds : IsWhole ds)
    (htail : IsFraction tail ∨ IsExponent tail) :
    TakesFloat (readNumber negative) (ds ++ tail) := by
  have hstart : ∀ rest, NoDigit (tail ++ rest) := by
    intro rest
    rcases htail with ⟨f, fs, more, rfl, -, -⟩ | ⟨sign, d, digits, rfl, -, -⟩
    · exact noDigit_cons (by decide) _
    · exact noDigit_cons (by decide) _
  have hafter : ∀ next : List Char → Except Fault (Json × List Char), TakesFloat next tail →
      (∀ rest, NoDigit rest → readNumber negative (ds ++ rest) = next rest) →
        TakesFloat (readNumber negative) (ds ++ tail) := by
    rintro next ⟨value, hvalue⟩ hread
    refine ⟨value, fun rest hrest => ?_⟩
    rw [List.append_assoc, hread _ (hstart rest)]
    exact hvalue rest hrest
  rcases readNumber_append negative hds with ⟨n, hread⟩ | ⟨n, dropped, hread⟩
  · refine hafter _ ?_ hread
    rcases htail with ⟨f, fs, more, rfl, hfs, hmore⟩ | ⟨sign, d, digits, rfl, hsign, hdigits⟩
    · exact takesFloat_readFraction hfs hmore
    · exact takesFloat_readExponent hsign hdigits
  · refine hafter _ ?_ hread
    rcases htail with ⟨f, fs, more, rfl, hfs, hmore⟩ | ⟨sign, d, digits, rfl, hsign, hdigits⟩
    · exact takesFloat_readFraction hfs hmore
    · exact takesFloat_readExponent hsign hdigits

/-! ### Written digits -/

/-- Only zero is written with a zero in front. -/
lemma head?_toDigits_ne {n : ℕ} (h : 0 < n) : (Nat.toDigits 10 n).head? ≠ some '0' := by
  have hsmall : ∀ m < 10, 0 < m → Nat.digitChar m ≠ '0' := by decide
  induction n using Nat.base_induction 10 (by decide) with
  | single m hm =>
    rw [Nat.toDigits_of_lt_base hm, List.head?_cons]
    exact fun heq => hsmall m hm h (Option.some.inj heq)
  | digit m k hk hm ih =>
    rw [← Nat.toDigits_append_toDigits (by decide) hm hk,
      List.head?_append_of_ne_nil _ Nat.toDigits_ne_nil]
    exact ih hm

/-- The digits of a number make a whole number. -/
lemma isWhole_toDigits (n : ℕ) : IsWhole (Nat.toDigits 10 n) := by
  refine ⟨Nat.toDigits_ne_nil, fun c => Text.isDigit_of_mem_toDigits, fun hhead => ?_⟩
  rcases Nat.eq_zero_or_pos n with rfl | hpos
  · exact Nat.toDigits_zero 10
  · exact absurd hhead (head?_toDigits_ne hpos)

/-- One digit makes a whole number. -/
lemma isWhole_digit {c : Char} (hc : c.isDigit = true) : IsWhole [c] := by
  refine ⟨List.cons_ne_nil c [], fun a ha => ?_, fun hfirst => ?_⟩
  · obtain rfl : a = c := by simpa using ha
    exact hc
  · rw [List.head?_cons, Option.some.injEq] at hfirst
    rw [hfirst]

/-- A run of zeros is a run of digits. -/
lemma isDigit_of_mem_zeros {k : ℕ} {c : Char} (h : c ∈ List.replicate k '0') :
    c.isDigit = true := by
  rw [List.eq_of_mem_replicate h]
  decide

/-- Digits around a point are a whole number, of no more digits than stand before the point, and a
fraction. -/
lemma exists_place {digits : List Char} {whole : ℤ} (h : IsWhole digits)
    (hzero : digits = ['0'] → whole = 1) :
    ∃ ds f fs, Layout.place true digits whole = ds ++ '.' :: f :: fs ∧ IsWhole ds ∧
      ds.length ≤ max 1 whole.toNat ∧ ∀ c ∈ f :: fs, c.isDigit = true := by
  obtain ⟨hne, hdigits, hlead⟩ := h
  unfold Layout.place
  split
  · next hwhole =>
    have hall : ∀ c ∈ List.replicate (-whole).toNat '0' ++ digits, c.isDigit = true := fun c hc =>
      (List.mem_append.mp hc).elim isDigit_of_mem_zeros (hdigits c)
    cases hcs : List.replicate (-whole).toNat '0' ++ digits with
    | nil => exact absurd (List.append_eq_nil_iff.mp hcs).2 hne
    | cons f fs =>
      rw [hcs] at hall
      exact ⟨['0'], f, fs, rfl, isWhole_digit (by decide), le_max_left _ _, hall⟩
  · next hwhole =>
    -- the digits before the point start with the first digit
    obtain ⟨k, hk⟩ : ∃ k, whole.toNat = k + 1 := ⟨whole.toNat - 1, by omega⟩
    obtain ⟨d, ds, rfl⟩ := List.exists_cons_of_ne_nil hne
    have htake : ∀ c ∈ (d :: ds).take whole.toNat, c.isDigit = true := fun c hc =>
      hdigits c (List.mem_of_mem_take hc)
    have hhead : ((d :: ds).take whole.toNat).head? = some d := by rw [hk]; rfl
    simp only
    split
    · next hdrop =>
      have hle : (d :: ds).length ≤ whole.toNat := List.drop_eq_nil_iff.mp hdrop
      refine ⟨_, '0', [], rfl, ⟨?_, fun c hc => ?_, fun hfirst => ?_⟩, ?_,
        forall_mem_of_all (by decide)⟩
      · simp [hk]
      · exact (List.mem_append.mp hc).elim (htake c) isDigit_of_mem_zeros
      · rw [List.head?_append_of_ne_nil _ (by simp [hk]), hhead] at hfirst
        have hsingle := hlead (by rw [List.head?_cons, Option.some.inj hfirst])
        have hone := hzero hsingle
        rw [hsingle, hone]
        rfl
      · rw [List.length_append, List.length_take, List.length_replicate]
        omega
    · next hdrop =>
      cases hafter : (d :: ds).drop whole.toNat with
      | nil => exact absurd hafter hdrop
      | cons f fs =>
        refine ⟨_, f, fs, rfl, ⟨by simp [hk], htake, fun hfirst => ?_⟩, ?_, fun c hc => ?_⟩
        · rw [hhead] at hfirst
          have hsingle := hlead (by rw [List.head?_cons, Option.some.inj hfirst])
          rw [hsingle, hzero hsingle] at hafter
          exact absurd hafter (by simp)
        · rw [List.length_take]
          omega
        · rw [← hafter] at hc
          exact hdigits c (List.mem_of_mem_drop hc)

/-- Scientific notation is a digit, with or without a fraction, and an exponent. -/
lemma exists_scientific {digits : List Char} {whole : ℤ} (hne : digits ≠ [])
    (hdigits : ∀ c ∈ digits, c.isDigit = true) :
    ∃ ds tail, Layout.scientific digits whole = ds ++ tail ∧ IsWhole ds ∧
      (IsFraction tail ∨ IsExponent tail) := by
  -- the exponent has a sign and at least one digit
  have hexponent : IsExponent ('e' :: (if whole - 1 < 0 then '-' else '+') ::
      Nat.toDigits 10 (whole - 1).natAbs) := by
    obtain ⟨d, ds, hds⟩ :=
      List.exists_cons_of_ne_nil (Nat.toDigits_ne_nil (n := (whole - 1).natAbs) (b := 10))
    refine ⟨_, d, ds, by rw [hds], ?_, fun c hc => ?_⟩
    · split
      · exact .inr rfl
      · exact .inl rfl
    · rw [← hds] at hc
      exact Text.isDigit_of_mem_toDigits hc
  have hwhole : ∀ d ∈ digits, IsWhole [d] := fun d hd => isWhole_digit (hdigits d hd)
  match digits, hne with
  | [d], _ => exact ⟨[d], _, rfl, hwhole d List.mem_cons_self, .inr hexponent⟩
  | d :: f :: fs, _ =>
    refine ⟨[d], '.' :: f :: fs ++ _, rfl, hwhole d List.mem_cons_self, .inl ⟨f, fs, _, rfl, ?_,
      .inr hexponent⟩⟩
    exact fun c hc => hdigits c (List.mem_cons_of_mem d hc)

/-- The digits chosen for a number are zero only for zero, which has no exponent. -/
lemma exponent_shortest {tie : Tie} {rank : Fin rankLimit}
    (h : (Decimal.shortest tie rank).digits = 0) : (Decimal.shortest tie rank).exponent = 0 := by
  by_cases hrank : rank.val = 0
  · unfold Decimal.shortest
    rw [if_pos hrank]
  · have hback := Binary64.ofDecimal_shortest tie rank
    rw [h] at hback
    unfold Binary64.ofDecimal Binary64.signedZero at hback
    rw [if_pos rfl] at hback
    have hfirst := Binary64.ofQuotient_magnitude false ⟨0, by decide⟩
    rw [Binary64.magnitude_eq_zero.mpr rfl, hback, Binary64.finite.injEq] at hfirst
    exact absurd (congrArg Fin.val hfirst.2) hrank

/-- The digits chosen for a number are those of zero only if one of them stands before the point. -/
lemma whole_shortest {tie : Tie} {rank : Fin rankLimit}
    (h : Nat.toDigits 10 (Decimal.shortest tie rank).digits = ['0']) :
    (Decimal.shortest tie rank).exponent +
      (Nat.toDigits 10 (Decimal.shortest tie rank).digits).length = 1 := by
  have hvalue := Text.digitsValue_toDigits (Decimal.shortest tie rank).digits
  rw [h] at hvalue
  rw [h, exponent_shortest hvalue.symm]
  rfl

/-- The text of a number, its sign aside, is a whole number with a fraction or an exponent. -/
lemma exists_unsigned (rank : Fin rankLimit) :
    ∃ ds tail, numberLayout.unsigned rank = ds ++ tail ∧ IsWhole ds ∧
      (IsFraction tail ∨ IsExponent tail) := by
  have hwhole := isWhole_toDigits (Decimal.shortest .even rank).digits
  unfold Layout.unsigned numberLayout Decimal.digitText
  simp only
  split
  · obtain ⟨ds, f, fs, htext, hds, -, hfs⟩ := exists_place hwhole whole_shortest
    exact ⟨ds, '.' :: f :: fs, htext, hds, .inl ⟨f, fs, [], by rw [List.append_nil], hfs, .inl rfl⟩⟩
  · exact exists_scientific hwhole.1 hwhole.2.1

/-! ### Numbers among other values -/

/-- A digit is none of the characters that start other values. -/
lemma ne_of_isDigit {c d : Char} (hc : c.isDigit = true) (hd : d.isDigit = false) : c ≠ d := by
  intro heq
  rw [heq, hd] at hc
  cases hc

/-- A value that starts with a digit is a number. -/
lemma readValue_digit (fuel depth : ℕ) {c : Char} (hc : c.isDigit = true) (cs : List Char) :
    readValue (fuel + 1) depth (c :: cs) = readNumber false (c :: cs) := by
  have hne : ∀ d, d.isDigit = false → c ≠ d := fun d => ne_of_isDigit hc
  have hgap : isGap c = false := by
    simp [isGap, hne ' ' (by decide), hne '\n' (by decide), hne '\t' (by decide),
      hne '\r' (by decide)]
  have hskip : skipGap (c :: cs) = c :: cs := List.dropWhile_cons_of_neg (by simp [hgap])
  rw [readValue, hskip]
  simp [hne 'n' (by decide), hne 't' (by decide), hne 'f' (by decide), hne '-' (by decide),
    hne '"' (by decide), hne '[' (by decide), hne '{' (by decide), hc]

/-- A value that starts with a hyphen is a number. -/
lemma readValue_minus (fuel depth : ℕ) (cs : List Char) :
    readValue (fuel + 1) depth ('-' :: cs) = readNumber true cs := by
  have hskip : skipGap ('-' :: cs) = '-' :: cs := List.dropWhile_cons_of_neg (by decide)
  rw [readValue, hskip]
  rfl

/-- A value that is a number is what its digits read as. -/
lemma readValue_number (fuel depth : ℕ) (negative : Bool) {ds tail : List Char} (h : IsWhole ds)
    (rest : List Char) :
    readValue (fuel + 1) depth (Binary64.withSign negative (ds ++ tail) ++ rest) =
      readNumber negative (ds ++ tail ++ rest) := by
  obtain ⟨hne, hds, -⟩ := h
  obtain ⟨d, ds, rfl⟩ := List.exists_cons_of_ne_nil hne
  cases negative with
  | true => exact readValue_minus fuel depth _
  | false => exact readValue_digit fuel depth (hds d List.mem_cons_self) _

/-- Digits that fit the significand are all gathered. -/
lemma gather_fits {ds rest : List Char} (hds : ∀ c ∈ ds, c.isDigit = true) (significand : ℕ)
    (h : Nat.ofDigitChars 10 ds significand ≤ maxSignificand) (hrest : NoDigit rest) :
    gather significand (ds ++ rest) = (Nat.ofDigitChars 10 ds significand, ds.length, rest) := by
  induction ds generalizing significand with
  | nil =>
    cases rest with
    | nil => rfl
    | cons c rest => simp [gather, hrest c rfl]
  | cons c ds ih =>
    have hc : c.isDigit = true := hds c List.mem_cons_self
    have hvalue : Nat.ofDigitChars 10 (c :: ds) significand =
        Nat.ofDigitChars 10 ds (significand * 10 + digitValue c) := by
      rw [Nat.ofDigitChars_cons, Nat.mul_comm]
      rfl
    rw [hvalue] at h ⊢
    have hfits : significand * 10 + digitValue c ≤ maxSignificand := by
      refine le_trans ?_ h
      rw [Nat.ofDigitChars_eq_ofDigitChars_zero]
      exact Nat.le_add_right_of_le (Nat.le_mul_of_pos_left _ (Nat.pow_pos (by decide)))
    have hmore := ih (fun a ha => hds a (List.mem_cons_of_mem c ha)) _ h
    simp [gather, hc, hfits, hmore]

/-- The digits of a whole number of 64 bits are read as the number. -/
lemma readNumber_whole (negative : Bool) {ds : List Char} (h : IsWhole ds)
    (hfits : Nat.ofDigitChars 10 ds 0 ≤ maxSignificand) {rest : List Char} (hrest : NoDigit rest) :
    readNumber negative (ds ++ rest) = readRest negative (Nat.ofDigitChars 10 ds 0) rest := by
  obtain ⟨hne, hall, hzero⟩ := h
  obtain ⟨d, ds, rfl⟩ := List.exists_cons_of_ne_nil hne
  by_cases hd : d = '0'
  · subst hd
    obtain rfl : ds = [] := (List.cons.inj (hzero rfl)).2
    cases rest with
    | nil => rfl
    | cons c rest =>
      have hvalue : Nat.ofDigitChars 10 ['0'] 0 = 0 := rfl
      simp [readNumber, hrest c rfl, hvalue]
  · have hdigit : d.isDigit = true := hall d List.mem_cons_self
    have hstart : Nat.ofDigitChars 10 (d :: ds) 0 = Nat.ofDigitChars 10 ds (digitValue d) := by
      rw [Nat.ofDigitChars_cons, Nat.mul_zero, Nat.zero_add]
      rfl
    rw [hstart] at hfits ⊢
    have hgather := gather_fits (fun c hc => hall c (List.mem_cons_of_mem d hc)) (digitValue d)
      hfits hrest
    have hempty : ∀ c ∈ ([] : List Char), c.isDigit = true := fun c hc => absurd hc List.not_mem_nil
    have hnone : rest.takeWhile Char.isDigit = [] := takeWhile_digits hempty hrest
    rw [List.cons_append, readNumber.eq_def]
    simp only [hdigit, Bool.not_true, Bool.false_eq_true, if_false]
    rw [hgather, hnone]
    rfl

/-- The digits of a number of 64 bits are read as the number. -/
lemma readNumber_toDigits (negative : Bool) {n : ℕ} (hn : n < 2 ^ 64) {rest : List Char}
    (hrest : NoDigit rest) :
    readNumber negative (Nat.toDigits 10 n ++ rest) = readRest negative n rest := by
  have hvalue : Nat.ofDigitChars 10 (Nat.toDigits 10 n) 0 = n := Nat.ofDigitChars_ten_toDigits
  have hread := readNumber_whole negative (isWhole_toDigits n)
    (by rw [hvalue]; exact Nat.le_pred_of_lt hn) hrest
  rwa [hvalue] at hread

/-- Integers of 64 bits, with or without sign. -/
def IsWord (n : ℤ) : Prop := -2 ^ 63 ≤ n ∧ n < 2 ^ 64

/-- An integer reads back, whatever follows it. -/
theorem readValue_int (fuel depth : ℕ) {n : ℤ} (hn : IsWord n) {rest : List Char}
    (hrest : EndsNumber rest) :
    readValue (fuel + 1) depth (intText n ++ rest) = .ok (.int n, rest) := by
  obtain ⟨hlow, hhigh⟩ := hn
  have htext : intText n =
      Binary64.withSign (decide (n < 0)) (Nat.toDigits 10 n.natAbs ++ []) := by
    unfold intText Binary64.withSign
    simp only [decide_eq_true_eq, List.append_nil]
  have habs : n.natAbs < 2 ^ 64 := by omega
  rw [htext, readValue_number fuel depth _ (isWhole_toDigits _), List.append_nil,
    readNumber_toDigits _ habs hrest.noDigit]
  have hplain : ∀ negative m, readRest negative m rest =
      if !negative then .ok (.int m, rest)
      else if 0 < m ∧ m ≤ 2 ^ 63 then .ok (.int (-m), rest)
      else .ok (.float (Binary64.ofNat m).neg, rest) := by
    intro negative m
    unfold readRest
    split
    · exact absurd rfl (hrest _ rfl).2.1
    · exact absurd rfl (hrest _ rfl).2.2.1
    · exact absurd rfl (hrest _ rfl).2.2.2
    · rfl
  rw [hplain]
  by_cases hneg : n < 0
  · have hmag : -(n.natAbs : ℤ) = n := by omega
    rw [decide_eq_true hneg, if_neg (by simp), if_pos (by omega), hmag]
  · have hmag : (n.natAbs : ℤ) = n := by omega
    rw [decide_eq_false hneg, if_pos (by decide), hmag]

/-- The number that the text of a number reads as; none if it is refused. -/
def rereadFloat (x : Binary64) : Option Binary64 :=
  (readText (numberLayout.chars x)).toOption.bind fun v =>
    match v with
    | .float y => some y
    | _ => none

/-- A binary64 number reads as it does on its own, whatever follows it. -/
theorem readValue_float (fuel depth : ℕ) {x : Binary64} (hx : x.isFinite = true)
    {rest : List Char} (hrest : EndsNumber rest) :
    (readValue (fuel + 1) depth (numberLayout.chars x ++ rest)).toOption =
      (rereadFloat x).map fun y => (.float y, rest) := by
  obtain ⟨s, rank, rfl⟩ : ∃ s rank, x = .finite s rank := by
    cases x with
    | finite s rank => exact ⟨s, rank, rfl⟩
    | nan => cases hx
    | infinite s => cases hx
  obtain ⟨ds, tail, htext, hds, htail⟩ := exists_unsigned rank
  obtain ⟨value, hvalue⟩ := takesFloat_readNumber s hds htail
  have hchars : numberLayout.chars (.finite s rank) = Binary64.withSign s (ds ++ tail) := by
    rw [← htext]
    cases s with
    | true => rfl
    | false => rfl
  have hread : ∀ fuel depth rest, EndsNumber rest →
      (readValue (fuel + 1) depth (numberLayout.chars (.finite s rank) ++ rest)).toOption =
        value.map fun y => (.float y, rest) := by
    intro fuel depth rest hrest
    rw [hchars, readValue_number fuel depth s hds]
    exact hvalue rest hrest
  -- the text on its own is the case in which nothing follows
  have hown : rereadFloat (.finite s rank) = value := by
    have hend := hread (numberLayout.chars (.finite s rank)).length maxDepth [] endsNumber_nil
    rw [List.append_nil] at hend
    unfold rereadFloat readText
    rw [toOption_bind, hend]
    cases value with
    | none => rfl
    | some y => rfl
  rw [hown]
  exact hread fuel depth rest hrest

end MailTemplate.Json
