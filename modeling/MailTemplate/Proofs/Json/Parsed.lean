import MailTemplate.Proofs.Json.Reread

/-!
# Values read from JSON text

Whatever text is read, the value can be written again: its integers have 64 bits, its other numbers
are finite, the fields of its objects are in order, and it is nested no deeper than the reader goes.

Main results: parsed values are proper and not too deep (`parse_proper`), and what a text with a
bracket in front is parsed to is an array or an object (`isContainer_of_parse`).
-/

namespace MailTemplate.Json

/-! ### Numbers -/

/-- A number that a JSON text can hold. -/
def IsNumber : Json → Prop
  | .int n => IsWord n
  | .float x => x.isFinite = true
  | _ => False

/-- A number is proper, and not nested. -/
lemma IsNumber.proper {v : Json} (h : v.IsNumber) : v.Proper ∧ v.depth = 0 := by
  cases v with
  | int n => exact ⟨h, rfl⟩
  | float x => exact ⟨h, rfl⟩
  | _ => cases h

/-- A number is finite with either sign. -/
lemma isFinite_neg {x : Binary64} (h : x.isFinite = true) : x.neg.isFinite = true := by
  cases x with
  | finite s r => rfl
  | infinite s => cases h
  | nan => cases h

/-- A finite number is scaled to a finite one. -/
lemma isFinite_scale {x y : Binary64} {exponent : ℤ} {fuel : ℕ} (hx : x.isFinite = true)
    (h : scale x exponent fuel = some y) : y.isFinite = true := by
  rcases lt_or_ge exponent 0 with hneg | hpos
  · obtain ⟨z, hz, hfinite⟩ := exists_scale_of_neg hx hneg fuel
    rw [hz] at h
    exact Option.some.inj h ▸ hfinite
  cases fuel with
  | zero => exact Option.some.inj h ▸ hx
  | succ fuel =>
    simp only [scale, hpos, if_true] at h
    split at h
    · split at h
      · next hproduct => exact Option.some.inj h ▸ hproduct
      · cases h
    · split at h
      · exact Option.some.inj h ▸ hx
      · cases h

section Readers

variable {negative : Bool} {n : ℕ} {exponent : ℤ} {cs rest : List Char} {v : Json}

/-- A number that is put together is one that a text can hold. -/
lemma isNumber_assemble (hn : n ≤ maxSignificand)
    (h : assemble negative n exponent cs = .ok (v, rest)) : v.IsNumber := by
  unfold assemble at h
  split at h
  · next x hx =>
    obtain ⟨rfl, -⟩ := Prod.mk.inj (Except.ok.inj h)
    have hfinite := isFinite_scale (isFinite_ofNat hn) hx
    cases negative with
    | true => exact isFinite_neg hfinite
    | false => exact hfinite
  · cases h

/-- A number with an exponent is one that a text can hold. -/
lemma isNumber_readExponent (hn : n ≤ maxSignificand)
    (h : readExponent negative n exponent cs = .ok (v, rest)) : v.IsNumber := by
  unfold readExponent at h
  simp only at h
  split at h
  · cases h
  · split at h
    · cases h
    · split at h
      · exact isNumber_assemble hn h
      · split_ifs at h
        obtain ⟨rfl, -⟩ := Prod.mk.inj (Except.ok.inj h)
        cases negative with
        | true => rfl
        | false => rfl

/-- A number with or without an exponent is one that a text can hold. -/
lemma isNumber_readTail (hn : n ≤ maxSignificand)
    (h : readTail negative n exponent cs = .ok (v, rest)) : v.IsNumber := by
  unfold readTail at h
  split at h
  · exact isNumber_readExponent hn h
  · exact isNumber_readExponent hn h
  · exact isNumber_assemble hn h

/-- Digits are gathered no further than a significand goes. -/
lemma le_of_gather {start k : ℕ} (hstart : start ≤ maxSignificand)
    (h : gather start cs = (n, k, rest)) : n ≤ maxSignificand := by
  obtain ⟨hn, -, -⟩ := gather_bound h hstart
  exact hn

/-- A number with a fraction is one that a text can hold. -/
lemma isNumber_readFraction (hn : n ≤ maxSignificand)
    (h : readFraction negative n exponent cs = .ok (v, rest)) : v.IsNumber := by
  obtain ⟨⟨m, taken, after⟩, hgather⟩ : ∃ p, gather n cs = p := ⟨_, rfl⟩
  have hm := le_of_gather hn hgather
  unfold readFraction at h
  simp only [hgather] at h
  split at h
  · split at h
    · cases h
    · exact isNumber_assemble hm h
  · split at h
    · exact isNumber_readTail hm h
    · split at h
      · cases h
      · exact isNumber_readTail hm h

/-- What the end of a significand is read as is a number that a text can hold. -/
lemma isNumber_readRest (hn : n ≤ maxSignificand)
    (h : readRest negative n cs = .ok (v, rest)) : v.IsNumber := by
  have hmax : maxSignificand < 2 ^ 64 := by decide
  unfold readRest at h
  split at h
  · exact isNumber_readFraction hn h
  · exact isNumber_readExponent hn h
  · exact isNumber_readExponent hn h
  · split at h
    · obtain ⟨rfl, -⟩ := Prod.mk.inj (Except.ok.inj h)
      exact ⟨by omega, by omega⟩
    · split at h
      · next hsmall =>
        obtain ⟨rfl, -⟩ := Prod.mk.inj (Except.ok.inj h)
        exact ⟨by omega, by omega⟩
      · obtain ⟨rfl, -⟩ := Prod.mk.inj (Except.ok.inj h)
        exact isFinite_neg (isFinite_ofNat hn)

/-- Whatever is read as a number is one that a text can hold. -/
theorem isNumber_readNumber (h : readNumber negative cs = .ok (v, rest)) : v.IsNumber := by
  have hdigit : ∀ c : Char, c.isDigit = true → digitValue c ≤ maxSignificand := by
    intro c hc
    obtain ⟨d, hd, rfl⟩ := Text.exists_digitChar hc
    have hall : ∀ d < 10, digitValue (Nat.digitChar d) ≤ maxSignificand := by decide
    exact hall d hd
  unfold readNumber at h
  split at h
  · cases h
  · split at h
    · split at h
      · cases h
      · exact isNumber_readRest (Nat.zero_le _) h
    · exact isNumber_readRest (Nat.zero_le _) h
  · next c after hzero =>
    split at h
    · cases h
    · next hc =>
      rw [Bool.not_eq_true, Bool.not_eq_false'] at hc
      obtain ⟨⟨m, taken, left⟩, hgather⟩ : ∃ p, gather (digitValue c) after = p := ⟨_, rfl⟩
      have hm := le_of_gather (hdigit c hc) hgather
      simp only [hgather] at h
      split at h
      · exact isNumber_readRest hm h
      · unfold readLong at h
        split at h
        · exact isNumber_readFraction hm h
        · exact isNumber_readTail hm h

end Readers

/-! ### Objects -/

/-- Fields have what their values have. -/
lemma properFields_iff {fs : List (String × Json)} : ProperFields fs ↔ ∀ f ∈ fs, f.2.Proper := by
  induction fs with
  | nil => simp [ProperFields]
  | cons f fs ih => rw [ProperFields, ih, List.forall_mem_cons]

/-- Fields are nested as deep as their values. -/
lemma depthFields_le_iff {fs : List (String × Json)} {limit : ℕ} :
    depthFields fs ≤ limit ↔ ∀ f ∈ fs, f.2.depth ≤ limit := by
  induction fs with
  | nil => simp [depthFields]
  | cons f fs ih => rw [depthFields, max_le_iff, ih, List.forall_mem_cons]

/-- The fields of an object are among those that it is made of. -/
lemma mem_of_mem_ofList {fs : List (String × Json)} {f : String × Json} (h : f ∈ Keyed.ofList fs) :
    f ∈ fs := by
  rcases Keyed.mem_foldl_insert h with hnone | hmem
  · cases hnone
  · exact hmem

/-- An object that is made of proper fields is proper, and nested one level deeper than they are. -/
lemma proper_ofFields {fs : List (String × Json)} {limit : ℕ} (h : ProperFields fs)
    (hdepth : depthFields fs ≤ limit) : (ofFields fs).Proper ∧ (ofFields fs).depth ≤ limit + 1 := by
  rw [properFields_iff] at h
  rw [depthFields_le_iff] at hdepth
  refine ⟨⟨Keyed.ordered_ofList fs, properFields_iff.mpr fun f hf => ?_⟩, ?_⟩
  · exact h f (mem_of_mem_ofList hf)
  · refine Nat.succ_le_succ (depthFields_le_iff.mpr fun f hf => ?_)
    exact hdepth f (mem_of_mem_ofList hf)

/-! ### Whole values -/

/-- A word is read as its value. -/
lemma eq_of_readWord {value v : Json} {letters cs rest : List Char}
    (h : readWord value letters cs = .ok (v, rest)) : v = value := by
  induction letters generalizing cs with
  | nil =>
    rw [readWord] at h
    exact (Prod.mk.inj (Except.ok.inj h)).1.symm
  | cons l letters ih =>
    cases cs with
    | nil => cases h
    | cons c cs =>
      rw [readWord] at h
      split at h
      · exact ih h
      · cases h

/-- An item at the front of a text and those behind it. -/
def readItemsFrom (fuel depth : ℕ) (cs : List Char) : Except Fault (List Json × List Char) := do
  let (item, after) ← readValue fuel depth cs
  let (items, after) ← readItems fuel depth false after
  return (item :: items, after)

/-- A field whose key has been read and the fields behind it. -/
def readFieldsBehind (fuel depth : ℕ) (key cs : List Char) :
    Except Fault (List (String × Json) × List Char) := do
  let after ← match skipGap cs with
    | [] => .error (.before .endInObject [])
    | ':' :: r => pure r
    | r => .error (.onto .expectedColon r)
  let (value, after) ← readValue fuel depth after
  let (fields, after) ← readFields fuel depth false after
  return ((String.ofList key, value) :: fields, after)

/-- A field at the front of a text and those behind it. -/
def readFieldsFrom (fuel depth : ℕ) (cs : List Char) :
    Except Fault (List (String × Json) × List Char) := do
  let (key, after) ← match cs with
    | '"' :: r => readString (r.length + 1) r
    | r => .error (.onto .keyNotString r)
  readFieldsBehind fuel depth key after

section Members

variable {fuel depth : ℕ} {first : Bool} {cs rest : List Char}

/-- Items are none, or a value and the items behind it. -/
lemma readItems_eq_ok {items : List Json}
    (h : readItems (fuel + 1) depth first cs = .ok (items, rest)) :
    items = [] ∨ ∃ start item after more, readValue fuel depth start = .ok (item, after) ∧
      readItems fuel depth false after = .ok (more, rest) ∧ items = item :: more := by
  rw [readItems] at h
  split at h
  · cases h
  · exact .inl (Prod.mk.inj (Except.ok.inj h)).1.symm
  · -- whether a comma was read or not, an item starts somewhere
    obtain ⟨start, hstart⟩ : ∃ start, readItemsFrom fuel depth start = .ok (items, rest) := by
      dsimp only at h
      split at h
      · exact ⟨_, h⟩
      · split at h
        · cases h
        · split at h
          · cases h
          · cases h
          · exact ⟨_, h⟩
    obtain ⟨⟨item, after⟩, hitem, hrest⟩ := bind_eq_ok.mp hstart
    obtain ⟨⟨more, last⟩, hmore, heq⟩ := bind_eq_ok.mp hrest
    obtain ⟨rfl, rfl⟩ := Prod.mk.inj (pure_eq_ok.mp heq)
    exact .inr ⟨start, item, after, more, hitem, hmore, rfl⟩

/-- Fields are none, or one with a value and the fields behind it. -/
lemma readFields_eq_ok {fields : List (String × Json)}
    (h : readFields (fuel + 1) depth first cs = .ok (fields, rest)) :
    fields = [] ∨ ∃ start key value after more, readValue fuel depth start = .ok (value, after) ∧
      readFields fuel depth false after = .ok (more, rest) ∧ fields = (key, value) :: more := by
  rw [readFields] at h
  split at h
  · cases h
  · exact .inl (Prod.mk.inj (Except.ok.inj h)).1.symm
  · -- whether a comma was read or not, a field starts somewhere
    obtain ⟨start, hstart⟩ : ∃ start, readFieldsFrom fuel depth start = .ok (fields, rest) := by
      dsimp only at h
      split at h
      · exact ⟨_, h⟩
      · split at h
        · cases h
        · split at h
          · cases h
          · cases h
          · exact ⟨_, h⟩
    obtain ⟨key, after, hbehind⟩ : ∃ key after,
        readFieldsBehind fuel depth key after = .ok (fields, rest) := by
      unfold readFieldsFrom at hstart
      split at hstart
      · obtain ⟨⟨key, after⟩, -, hkey⟩ := bind_eq_ok.mp hstart
        exact ⟨key, after, hkey⟩
      · cases hstart
    unfold readFieldsBehind at hbehind
    split at hbehind
    · cases hbehind
    · next behind _ =>
      obtain ⟨_, hstart, hbehind⟩ := bind_eq_ok.mp hbehind
      obtain rfl := pure_eq_ok.mp hstart
      obtain ⟨⟨value, left⟩, hvalue, hrest⟩ := bind_eq_ok.mp hbehind
      obtain ⟨⟨more, last⟩, hmore, heq⟩ := bind_eq_ok.mp hrest
      obtain ⟨rfl, rfl⟩ := Prod.mk.inj (pure_eq_ok.mp heq)
      exact .inr ⟨behind, _, value, left, more, hvalue, hmore, rfl⟩
    · cases hbehind

end Members

mutual

/-- Whatever is read as a value can be written again, and is nested no deeper than it may be. -/
theorem proper_readValue : ∀ (fuel depth : ℕ) {cs rest : List Char} {v : Json},
    readValue fuel depth cs = .ok (v, rest) → v.Proper ∧ v.depth ≤ depth
  | 0, _, _, _, _, h => by
    rw [readValue] at h
    cases h
  | fuel + 1, depth, cs, rest, v, h => by
    have hnumber : v.IsNumber → v.Proper ∧ v.depth ≤ depth := by
      intro hv
      obtain ⟨hproper, hzero⟩ := hv.proper
      exact ⟨hproper, hzero ▸ Nat.zero_le depth⟩
    rw [readValue] at h
    split at h
    · cases h
    · obtain rfl := eq_of_readWord h
      exact ⟨trivial, Nat.zero_le depth⟩
    · obtain rfl := eq_of_readWord h
      exact ⟨trivial, Nat.zero_le depth⟩
    · obtain rfl := eq_of_readWord h
      exact ⟨trivial, Nat.zero_le depth⟩
    · exact hnumber (isNumber_readNumber h)
    · obtain ⟨⟨s, after⟩, -, heq⟩ := bind_eq_ok.mp h
      obtain ⟨rfl, -⟩ := Prod.mk.inj (pure_eq_ok.mp heq)
      exact ⟨trivial, Nat.zero_le depth⟩
    · cases depth with
      | zero => cases h
      | succ depth =>
        obtain ⟨⟨items, after⟩, hitems, heq⟩ := bind_eq_ok.mp h
        obtain ⟨rfl, -⟩ := Prod.mk.inj (pure_eq_ok.mp heq)
        obtain ⟨hproper, hdepth⟩ := proper_readItems fuel depth true hitems
        exact ⟨hproper, Nat.succ_le_succ hdepth⟩
    · cases depth with
      | zero => cases h
      | succ depth =>
        obtain ⟨⟨fields, after⟩, hfields, heq⟩ := bind_eq_ok.mp h
        obtain ⟨rfl, -⟩ := Prod.mk.inj (pure_eq_ok.mp heq)
        obtain ⟨hproper, hdepth⟩ := proper_readFields fuel depth true hfields
        exact proper_ofFields hproper hdepth
    · split at h
      · exact hnumber (isNumber_readNumber h)
      · cases h

/-- Whatever is read as items can be written again, and is nested no deeper than it may be. -/
theorem proper_readItems : ∀ (fuel depth : ℕ) (first : Bool) {cs rest : List Char}
    {items : List Json}, readItems fuel depth first cs = .ok (items, rest) →
      ProperItems items ∧ depthItems items ≤ depth
  | 0, _, _, _, _, _, h => by
    rw [readItems] at h
    cases h
  | fuel + 1, depth, first, cs, rest, items, h => by
    rcases readItems_eq_ok h with rfl | ⟨start, item, after, more, hitem, hmore, rfl⟩
    · exact ⟨trivial, Nat.zero_le depth⟩
    · obtain ⟨hproper, hdepth⟩ := proper_readValue fuel depth hitem
      obtain ⟨hpropers, hdepths⟩ := proper_readItems fuel depth false hmore
      exact ⟨⟨hproper, hpropers⟩, max_le hdepth hdepths⟩

/-- Whatever is read as fields can be written again, and is nested no deeper than it may be. -/
theorem proper_readFields : ∀ (fuel depth : ℕ) (first : Bool) {cs rest : List Char}
    {fields : List (String × Json)}, readFields fuel depth first cs = .ok (fields, rest) →
      ProperFields fields ∧ depthFields fields ≤ depth
  | 0, _, _, _, _, _, h => by
    rw [readFields] at h
    cases h
  | fuel + 1, depth, first, cs, rest, fields, h => by
    rcases readFields_eq_ok h with rfl | ⟨start, key, value, after, more, hvalue, hmore, rfl⟩
    · exact ⟨trivial, Nat.zero_le depth⟩
    · obtain ⟨hproper, hdepth⟩ := proper_readValue fuel depth hvalue
      obtain ⟨hpropers, hdepths⟩ := proper_readFields fuel depth false hmore
      exact ⟨⟨hproper, hpropers⟩, max_le hdepth hdepths⟩

end

/-- The value of a whole text is read from its front. -/
lemma exists_readValue_of_parse {s : String} {v : Json} (h : parse s = .ok v) :
    ∃ rest, readValue (s.toList.length + 1) maxDepth s.toList = .ok (v, rest) := by
  unfold parse readText at h
  obtain ⟨⟨w, rest⟩, hread, hend⟩ := bind_eq_ok.mp (mapError_eq_ok.mp h)
  simp only at hend
  split at hend
  · obtain rfl := pure_eq_ok.mp hend
    exact ⟨rest, hread⟩
  · cases hend

/-- A parsed value can be written again. -/
theorem parse_proper {s : String} {v : Json} (h : parse s = .ok v) :
    v.Proper ∧ v.depth ≤ maxDepth := by
  obtain ⟨rest, hread⟩ := exists_readValue_of_parse h
  exact proper_readValue _ _ hread

/-- A text with a bracket in front is parsed to an array or an object. -/
theorem isContainer_of_parse {s : String} {v : Json} (h : parse s = .ok v)
    (hbracket : s.toList.head? = some '[' ∨ s.toList.head? = some '{') :
    v.isContainer = true := by
  obtain ⟨rest, hread⟩ := exists_readValue_of_parse h
  cases hchars : s.toList with
  | nil =>
    rw [hchars] at hbracket
    simp at hbracket
  | cons c cs =>
    rw [hchars, List.head?_cons, Option.some.injEq, Option.some.injEq] at hbracket
    rw [hchars, readValue] at hread
    rcases hbracket with rfl | rfl
    · have hskip : skipGap ('[' :: cs) = '[' :: cs := List.dropWhile_cons_of_neg (by decide)
      rw [hskip] at hread
      obtain ⟨⟨items, after⟩, -, heq⟩ := bind_eq_ok.mp hread
      obtain ⟨rfl, -⟩ := Prod.mk.inj (pure_eq_ok.mp heq)
      rfl
    · have hskip : skipGap ('{' :: cs) = '{' :: cs := List.dropWhile_cons_of_neg (by decide)
      rw [hskip] at hread
      obtain ⟨⟨fields, after⟩, -, heq⟩ := bind_eq_ok.mp hread
      obtain ⟨rfl, -⟩ := Prod.mk.inj (pure_eq_ok.mp heq)
      rfl

end MailTemplate.Json
