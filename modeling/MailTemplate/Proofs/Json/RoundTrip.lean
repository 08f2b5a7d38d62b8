import MailTemplate.Json.Writer
import MailTemplate.Proofs.Json.Numbers
import MailTemplate.Proofs.Keyed

/-!
# JSON values read from their texts

A text is read whatever blanks stand between its parts, so the compact and the indented form are two
spacings of one form (`Spacing.chars`).  The text of a value reads back as the value with the fields
of its objects in order (`sorted`) and each of its binary64 numbers replaced by the one that its
digits read as: `reread` is the value with these numbers, and there is none if a number is refused.

Main results: the text of a value is taken whole and gives the reread value, whatever follows it
(`Spacing.readValue_chars`, and of whole texts `parse_compact` and `parse_indented`); the reread
value is the same exactly when every binary64 number in the value rereads as itself
(`exists_same_reread_iff`).
-/

namespace MailTemplate.Json

/-! ### Strings -/

/-- A hexadecimal digit has the value that it is written for. -/
lemma hexValue?_hexDigit {n : ℕ} (h : n < 16) : hexValue? (hexDigit n) = some n := by
  have hall : ∀ n < 16, hexValue? (hexDigit n) = some n := by decide
  exact hall n h

/-- The escape of a control character stands for the character. -/
lemma readEscape_control {c : Char} (hc : c.toNat < 0x20) (rest : List Char) :
    readEscape ('u' :: '0' :: '0' :: hexDigit (c.toNat / 16) :: hexDigit (c.toNat % 16) :: rest) =
      .ok (c, rest) := by
  have hhigh := hexValue?_hexDigit (n := c.toNat / 16) (by omega)
  have hlow := hexValue?_hexDigit (n := c.toNat % 16) (by omega)
  have hzero : hexValue? '0' = some 0 := by decide
  have hvalue : ((0 * 16 + 0) * 16 + c.toNat / 16) * 16 + c.toNat % 16 = c.toNat := by omega
  generalize hexDigit (c.toNat / 16) = high at hhigh ⊢
  generalize hexDigit (c.toNat % 16) = low at hlow ⊢
  have hsize : ¬Text.utf8Size ('0' :: '0' :: high :: low :: rest) < 4 := by
    have hfirst := Char.utf8Size_pos '0'
    have hhigh := Char.utf8Size_pos high
    have hlow := Char.utf8Size_pos low
    simp only [Text.utf8Size_cons]
    omega
  have hhex : readHex ('0' :: '0' :: high :: low :: rest) = .ok (c.toNat, rest) := by
    rw [readHex, if_neg hsize]
    simp only [hzero, hhigh, hlow, hvalue]
  have hlone : ¬(0xDC00 ≤ c.toNat ∧ c.toNat ≤ 0xDFFF) := by omega
  have hplain : c.toNat < 0xD800 ∨ 0xDBFF < c.toNat := by omega
  rw [readEscape, hhex]
  simp only [bind, Except.bind]
  rw [if_neg hlone, if_pos hplain, Char.ofNat_toNat]

/-- What stands for a character inside quotes is read as that character. -/
lemma readString_escapeChar (fuel : ℕ) (c : Char) (rest : List Char) :
    readString (fuel + 1) (escapeChar c ++ rest) =
      (readString fuel rest).map fun p => (c :: p.1, p.2) := by
  have hescape : ∀ tail, readEscape tail = .ok (c, rest) →
      readString (fuel + 1) ('\\' :: tail) =
        (readString fuel rest).map fun p => (c :: p.1, p.2) := by
    intro tail htail
    rw [readString, htail]
    simp only [bind, Except.bind]
    cases readString fuel rest with
    | error e => rfl
    | ok p => rfl
  unfold escapeChar
  split
  · next h => exact hescape _ (by rw [h]; rfl)
  split
  · next h => exact hescape _ (by rw [h]; rfl)
  split
  · next h => exact hescape _ (by rw [h]; rfl)
  split
  · next h => exact hescape _ (by rw [h]; rfl)
  split
  · next h => exact hescape _ (by rw [h]; rfl)
  split
  · next h => exact hescape _ (by rw [h]; rfl)
  split
  · next h => exact hescape _ (by rw [h]; rfl)
  split
  · next h => exact hescape _ (readEscape_control h rest)
  · next hquote hslash _ _ _ _ _ hcontrol =>
    rw [List.singleton_append, readString.eq_def]
    simp only [hcontrol, if_false, bind, Except.bind]
    cases readString fuel rest with
    | error e => rfl
    | ok p => rfl

/-- Quoted text is read as the text, up to its closing quote. -/
lemma readString_quoted {fuel : ℕ} {s : List Char} (h : s.length < fuel) (rest : List Char) :
    readString fuel (s.flatMap escapeChar ++ '"' :: rest) = .ok (s, rest) := by
  induction s generalizing fuel with
  | nil =>
    obtain ⟨fuel, rfl⟩ := Nat.exists_eq_succ_of_ne_zero (Nat.ne_of_gt h)
    rfl
  | cons c s ih =>
    obtain ⟨fuel, rfl⟩ := Nat.exists_eq_succ_of_ne_zero (Nat.ne_of_gt (Nat.zero_lt_of_lt h))
    have hs : s.length < fuel := by
      rw [List.length_cons] at h
      omega
    rw [List.flatMap_cons, List.append_assoc, readString_escapeChar, ih hs]
    rfl

/-- No character is escaped to nothing. -/
lemma length_le_flatMap_escapeChar (s : List Char) : s.length ≤ (s.flatMap escapeChar).length := by
  induction s with
  | nil => simp
  | cons c s ih =>
    have hc : 0 < (escapeChar c).length := by
      unfold escapeChar
      repeat' split
      all_goals simp
    rw [List.flatMap_cons, List.length_append, List.length_cons]
    omega

/-- Quoted text is read with as much fuel as there are characters behind the opening quote. -/
lemma readString_quote (s rest : List Char) :
    readString ((s.flatMap escapeChar ++ '"' :: rest).length + 1)
      (s.flatMap escapeChar ++ '"' :: rest) = .ok (s, rest) := by
  refine readString_quoted ?_ rest
  have hlen := length_le_flatMap_escapeChar s
  rw [List.length_append]
  omega

/-! ### Spacings -/

/-- The blanks of a text: before an item, a field or a closing bracket at a depth, and behind a
colon. -/
structure Spacing where
  line : ℕ → List Char
  colon : List Char
  line_gap : ∀ depth, ∀ c ∈ line depth, isGap c = true
  colon_gap : ∀ c ∈ colon, isGap c = true

namespace Spacing

/-- No blanks, as in compact texts. -/
def tight : Spacing where
  line _ := []
  colon := []
  line_gap _ := List.forall_mem_nil _
  colon_gap := List.forall_mem_nil _

/-- The blanks of indented texts. -/
def spread : Spacing where
  line := newLine
  colon := [' ']
  line_gap depth := by
    intro c hc
    rcases List.mem_cons.mp hc with rfl | hc
    · decide
    · rw [List.eq_of_mem_replicate hc]
      decide
  colon_gap := List.forall_mem_singleton.mpr rfl

mutual

/-- The text of a value that stands at a depth. -/
def chars (s : Spacing) (depth : ℕ) : Json → List Char
  | .array [] => ['[', ']']
  | .array (x :: xs) =>
    '[' :: (s.line (depth + 1) ++ (chars s (depth + 1) x ++ (moreItems s (depth + 1) xs ++
      (s.line depth ++ [']']))))
  | .object [] => ['{', '}']
  | .object ((k, x) :: fs) =>
    '{' :: (s.line (depth + 1) ++ (quote k.toList ++ ':' :: (s.colon ++ (chars s (depth + 1) x ++
      (moreFields s (depth + 1) fs ++ (s.line depth ++ ['}']))))))
  | v => (scalarText? v).getD []

/-- Items behind the first one, each behind a comma. -/
def moreItems (s : Spacing) (depth : ℕ) : List Json → List Char
  | [] => []
  | x :: xs => ',' :: (s.line depth ++ (chars s depth x ++ moreItems s depth xs))

/-- Fields behind the first one, each behind a comma. -/
def moreFields (s : Spacing) (depth : ℕ) : List (String × Json) → List Char
  | [] => []
  | (k, x) :: fs =>
    ',' :: (s.line depth ++ (quote k.toList ++ ':' :: (s.colon ++ (chars s depth x ++
      moreFields s depth fs))))

end

/-- Items from the first one on. -/
def items (s : Spacing) (depth : ℕ) : List Json → List Char
  | [] => []
  | x :: xs => s.chars depth x ++ s.moreItems depth xs

/-- Fields from the first one on. -/
def fields (s : Spacing) (depth : ℕ) : List (String × Json) → List Char
  | [] => []
  | (k, x) :: fs => quote k.toList ++ ':' :: (s.colon ++ (s.chars depth x ++ s.moreFields depth fs))

mutual

/-- Compact texts have no blanks. -/
theorem compactChars_eq (depth : ℕ) : ∀ v : Json, compactChars v = tight.chars depth v
  | .null => rfl
  | .bool _ => rfl
  | .int _ => rfl
  | .float _ => rfl
  | .text _ => rfl
  | .array [] => rfl
  | .array (x :: xs) => by
    rw [compactChars, compactItems_eq (depth + 1) (x :: xs)]
    simp [chars, items, tight]
  | .object [] => rfl
  | .object ((k, x) :: fs) => by
    rw [compactChars, compactFields_eq (depth + 1) ((k, x) :: fs)]
    simp [chars, fields, tight]

theorem compactItems_eq (depth : ℕ) : ∀ xs : List Json, compactItems xs = tight.items depth xs
  | [] => rfl
  | [x] => by
    rw [compactItems, compactChars_eq depth x]
    simp [items, moreItems]
  | x :: y :: xs => by
    rw [compactItems, compactChars_eq depth x, compactItems_eq depth (y :: xs)]
    simp [items, moreItems, tight]

theorem compactFields_eq (depth : ℕ) :
    ∀ fs : List (String × Json), compactFields fs = tight.fields depth fs
  | [] => rfl
  | [(k, x)] => by
    rw [compactFields, compactChars_eq depth x]
    simp [fields, moreFields, tight]
  | (k, x) :: (l, y) :: fs => by
    rw [compactFields, compactChars_eq depth x, compactFields_eq depth ((l, y) :: fs)]
    simp [fields, moreFields, tight]

end

mutual

/-- Indented texts have a line for each item and each field. -/
theorem indentedChars_eq : ∀ (depth : ℕ) (v : Json), indentedChars depth v = spread.chars depth v
  | _, .null => rfl
  | _, .bool _ => rfl
  | _, .int _ => rfl
  | _, .float _ => rfl
  | _, .text _ => rfl
  | _, .array [] => rfl
  | depth, .array (x :: xs) => by
    rw [indentedChars, indentedItems_eq (depth + 1) (x :: xs)]
    simp [chars, items, spread]
  | _, .object [] => rfl
  | depth, .object ((k, x) :: fs) => by
    rw [indentedChars, indentedFields_eq (depth + 1) ((k, x) :: fs)]
    simp [chars, fields, spread]

theorem indentedItems_eq :
    ∀ (depth : ℕ) (xs : List Json), indentedItems depth xs = spread.items depth xs
  | _, [] => rfl
  | depth, [x] => by
    rw [indentedItems, indentedChars_eq depth x]
    simp [items, moreItems]
  | depth, x :: y :: xs => by
    rw [indentedItems, indentedChars_eq depth x, indentedItems_eq depth (y :: xs)]
    simp [items, moreItems, spread]

theorem indentedFields_eq :
    ∀ (depth : ℕ) (fs : List (String × Json)), indentedFields depth fs = spread.fields depth fs
  | _, [] => rfl
  | depth, [(k, x)] => by
    rw [indentedFields, indentedChars_eq depth x]
    simp [fields, moreFields, spread]
  | depth, (k, x) :: (l, y) :: fs => by
    rw [indentedFields, indentedChars_eq depth x, indentedFields_eq depth ((l, y) :: fs)]
    simp [fields, moreFields, spread]

end

end Spacing

/-- A character at which a value can start. -/
def StartsValue (c : Char) : Prop := isGap c = false ∧ c ≠ ']' ∧ c ≠ '}' ∧ c ≠ ','

instance (c : Char) : Decidable (StartsValue c) := by
  unfold StartsValue
  infer_instance

/-- A digit can start a value. -/
lemma startsValue_of_isDigit {c : Char} (hc : c.isDigit = true) : StartsValue c := by
  have hne : ∀ d, d.isDigit = false → c ≠ d := fun d => ne_of_isDigit hc
  refine ⟨?_, hne _ (by decide), hne _ (by decide), hne _ (by decide)⟩
  simp [isGap, hne ' ' (by decide), hne '\n' (by decide), hne '\t' (by decide),
    hne '\r' (by decide)]

/-- The text of a number starts as a value does. -/
lemma exists_withSign (negative : Bool) {ds : List Char} (h : IsWhole ds) (tail : List Char) :
    ∃ c cs, Binary64.withSign negative (ds ++ tail) = c :: cs ∧ StartsValue c := by
  obtain ⟨hne, hds, -⟩ := h
  obtain ⟨d, ds, rfl⟩ := List.exists_cons_of_ne_nil hne
  cases negative with
  | true => exact ⟨'-', _, rfl, by decide⟩
  | false => exact ⟨d, _, rfl, startsValue_of_isDigit (hds d List.mem_cons_self)⟩

/-! ### Reread values -/

mutual

/-- A value that a JSON text can hold: integers of 64 bits, numbers with a finite value, and the
fields of every object in the order of their keys. -/
def Proper : Json → Prop
  | .int n => IsWord n
  | .float x => x.isFinite = true
  | .array items => ProperItems items
  | .object fields => Keyed.Ordered fields ∧ ProperFields fields
  | _ => True

/-- Items that a JSON text can hold. -/
def ProperItems : List Json → Prop
  | [] => True
  | x :: xs => Proper x ∧ ProperItems xs

/-- Fields whose values a JSON text can hold. -/
def ProperFields : List (String × Json) → Prop
  | [] => True
  | (_, x) :: fs => Proper x ∧ ProperFields fs

end

mutual

/-- A value whose text can be read: integers of 64 bits and numbers with a finite value. -/
def Legible : Json → Prop
  | .int n => IsWord n
  | .float x => x.isFinite = true
  | .array items => LegibleItems items
  | .object fields => LegibleFields fields
  | _ => True

/-- Items whose texts can be read. -/
def LegibleItems : List Json → Prop
  | [] => True
  | x :: xs => Legible x ∧ LegibleItems xs

/-- Fields whose values have texts that can be read. -/
def LegibleFields : List (String × Json) → Prop
  | [] => True
  | (_, x) :: fs => Legible x ∧ LegibleFields fs

end

mutual

/-- The value with each of its binary64 numbers replaced by what its text reads as; none if one of
them is refused. -/
def reread : Json → Option Json
  | .float x => (rereadFloat x).map .float
  | .array items => (rereadItems items).map .array
  | .object fields => (rereadFields fields).map .object
  | v => some v

/-- The items, reread. -/
def rereadItems : List Json → Option (List Json)
  | [] => some []
  | x :: xs => (reread x).bind fun y => (rereadItems xs).map (y :: ·)

/-- The fields, their values reread. -/
def rereadFields : List (String × Json) → Option (List (String × Json))
  | [] => some []
  | (k, x) :: fs => (reread x).bind fun y => (rereadFields fs).map ((k, y) :: ·)

end

mutual

/-- The value with the fields of every object in the order of their keys, the last of a repeated key
only. -/
def sorted : Json → Json
  | .array items => .array (sortedItems items)
  | .object fields => ofFields (sortedFields fields)
  | v => v

/-- The items, each with its fields in order. -/
def sortedItems : List Json → List Json
  | [] => []
  | x :: xs => sorted x :: sortedItems xs

/-- The fields as they stand, each value with its fields in order. -/
def sortedFields : List (String × Json) → List (String × Json)
  | [] => []
  | (k, x) :: fs => (k, sorted x) :: sortedFields fs

end

lemma sortedItems_eq (xs : List Json) : sortedItems xs = xs.map sorted := by
  induction xs with
  | nil => rfl
  | cons x xs ih => rw [sortedItems, ih, List.map_cons]

lemma sortedFields_eq (fs : List (String × Json)) :
    sortedFields fs = fs.map fun f => (f.1, f.2.sorted) := by
  induction fs with
  | nil => rfl
  | cons f fs ih => rw [sortedFields, ih, List.map_cons]

lemma legibleItems_iff {xs : List Json} : LegibleItems xs ↔ ∀ x ∈ xs, x.Legible := by
  induction xs with
  | nil => simp [LegibleItems]
  | cons x xs ih => rw [LegibleItems, ih, List.forall_mem_cons]

lemma legibleFields_iff {fs : List (String × Json)} :
    LegibleFields fs ↔ ∀ f ∈ fs, f.2.Legible := by
  induction fs with
  | nil => simp [LegibleFields]
  | cons f fs ih => rw [LegibleFields, ih, List.forall_mem_cons]

mutual

/-- A proper value has a text that can be read. -/
theorem Proper.legible : ∀ {v : Json}, v.Proper → v.Legible
  | .null, _ => trivial
  | .bool _, _ => trivial
  | .int _, h => h
  | .float _, h => h
  | .text _, _ => trivial
  | .array _, h => ProperItems.legible h
  | .object _, h => ProperFields.legible h.2

theorem ProperItems.legible : ∀ {xs : List Json}, ProperItems xs → LegibleItems xs
  | [], _ => trivial
  | _ :: _, h => ⟨h.1.legible, ProperItems.legible h.2⟩

theorem ProperFields.legible : ∀ {fs : List (String × Json)}, ProperFields fs → LegibleFields fs
  | [], _ => trivial
  | (_, _) :: _, h => ⟨h.1.legible, ProperFields.legible h.2⟩

end

/-- Rereading keeps the keys of an object. -/
lemma keys_rereadFields {fs gs : List (String × Json)} (h : rereadFields fs = some gs) :
    gs.map Prod.fst = fs.map Prod.fst := by
  induction fs generalizing gs with
  | nil =>
    rw [rereadFields, Option.some.injEq] at h
    rw [← h]
  | cons f fs ih =>
    obtain ⟨k, x⟩ := f
    rw [rereadFields] at h
    obtain ⟨y, -, h⟩ := Option.bind_eq_some_iff.mp h
    obtain ⟨hs, hhs, rfl⟩ := Option.map_eq_some_iff.mp h
    rw [List.map_cons, List.map_cons, ih hhs]

mutual

/-- A proper value is in order already. -/
theorem Proper.sorted_eq : ∀ {v : Json}, v.Proper → v.sorted = v
  | .null, _ => rfl
  | .bool _, _ => rfl
  | .int _, _ => rfl
  | .float _, _ => rfl
  | .text _, _ => rfl
  | .array _, h => by rw [sorted, ProperItems.sorted_eq h]
  | .object _, h => by
    rw [sorted, ProperFields.sorted_eq h.2, ofFields, Keyed.ofList_of_ordered h.1]

theorem ProperItems.sorted_eq : ∀ {xs : List Json}, ProperItems xs → sortedItems xs = xs
  | [], _ => rfl
  | _ :: _, h => by rw [sortedItems, h.1.sorted_eq, ProperItems.sorted_eq h.2]

theorem ProperFields.sorted_eq : ∀ {fs : List (String × Json)}, ProperFields fs →
    sortedFields fs = fs
  | [], _ => rfl
  | (_, _) :: _, h => by rw [sortedFields, h.1.sorted_eq, ProperFields.sorted_eq h.2]

end

mutual

/-- What a proper value rereads as is in order already. -/
theorem sorted_of_reread : ∀ {v w : Json}, v.Proper → reread v = some w → w.sorted = w
  | .null, _, _, h => by
    obtain rfl := Option.some.inj h
    rfl
  | .bool _, _, _, h => by
    obtain rfl := Option.some.inj h
    rfl
  | .int _, _, _, h => by
    obtain rfl := Option.some.inj h
    rfl
  | .float _, _, _, h => by
    obtain ⟨y, -, rfl⟩ := Option.map_eq_some_iff.mp h
    rfl
  | .text _, _, _, h => by
    obtain rfl := Option.some.inj h
    rfl
  | .array _, _, hv, h => by
    obtain ⟨ys, hys, rfl⟩ := Option.map_eq_some_iff.mp h
    rw [sorted, sortedItems_of_reread hv hys]
  | .object _, _, hv, h => by
    obtain ⟨gs, hgs, rfl⟩ := Option.map_eq_some_iff.mp h
    have hordered : Keyed.Ordered gs := hv.1.of_keys_eq (keys_rereadFields hgs)
    rw [sorted, sortedFields_of_reread hv.2 hgs, ofFields, Keyed.ofList_of_ordered hordered]

theorem sortedItems_of_reread : ∀ {xs ys : List Json}, ProperItems xs →
    rereadItems xs = some ys → sortedItems ys = ys
  | [], _, _, h => by
    obtain rfl := Option.some.inj h
    rfl
  | _ :: _, _, hv, h => by
    obtain ⟨y, hy, h⟩ := Option.bind_eq_some_iff.mp h
    obtain ⟨ys, hys, rfl⟩ := Option.map_eq_some_iff.mp h
    rw [sortedItems, sorted_of_reread hv.1 hy, sortedItems_of_reread hv.2 hys]

theorem sortedFields_of_reread : ∀ {fs gs : List (String × Json)}, ProperFields fs →
    rereadFields fs = some gs → sortedFields gs = gs
  | [], _, _, h => by
    obtain rfl := Option.some.inj h
    rfl
  | (_, _) :: _, _, hv, h => by
    obtain ⟨y, hy, h⟩ := Option.bind_eq_some_iff.mp h
    obtain ⟨gs, hgs, rfl⟩ := Option.map_eq_some_iff.mp h
    rw [sortedFields, sorted_of_reread hv.1 hy, sortedFields_of_reread hv.2 hgs]

end

/-! ### Steps of the reader -/

section Steps

variable (fuel depth : ℕ)

/-- Blanks are skipped up to a character that starts a value. -/
lemma skipGap_of_not_gap {c : Char} (hc : isGap c = false) (cs : List Char) :
    skipGap (c :: cs) = c :: cs :=
  List.dropWhile_cons_of_neg (by simp [hc])

/-- Blanks before other text are skipped. -/
lemma skipGap_append {gap : List Char} (hgap : ∀ c ∈ gap, isGap c = true) (cs : List Char) :
    skipGap (gap ++ cs) = skipGap cs :=
  List.dropWhile_append_of_pos hgap

/-- Blanks before a value are skipped. -/
lemma readValue_gap {gap : List Char} (hgap : ∀ c ∈ gap, isGap c = true) (cs : List Char) :
    readValue (fuel + 1) depth (gap ++ cs) = readValue (fuel + 1) depth cs := by
  rw [readValue, readValue, skipGap_append hgap]

/-- Blanks before an item are skipped. -/
lemma readItems_gap (first : Bool) {gap : List Char} (hgap : ∀ c ∈ gap, isGap c = true)
    (cs : List Char) :
    readItems (fuel + 1) depth first (gap ++ cs) = readItems (fuel + 1) depth first cs := by
  rw [readItems, readItems, skipGap_append hgap]

/-- Blanks before a field are skipped. -/
lemma readFields_gap (first : Bool) {gap : List Char} (hgap : ∀ c ∈ gap, isGap c = true)
    (cs : List Char) :
    readFields (fuel + 1) depth first (gap ++ cs) = readFields (fuel + 1) depth first cs := by
  rw [readFields, readFields, skipGap_append hgap]

/-- A closing bracket ends the items. -/
lemma readItems_close (first : Bool) (rest : List Char) :
    readItems (fuel + 1) depth first (']' :: rest) = .ok ([], rest) := by
  rw [readItems, skipGap_of_not_gap (by decide)]
  rfl

/-- The first item is read where it stands. -/
lemma readItems_first {c : Char} (hc : StartsValue c) (cs : List Char) :
    readItems (fuel + 1) depth true (c :: cs) = (do
      let (item, after) ← readValue fuel depth (c :: cs)
      let (items, after) ← readItems fuel depth false after
      return (item :: items, after)) := by
  rw [readItems, skipGap_of_not_gap hc.1]
  split
  · next heq => cases heq
  · next heq => exact absurd (List.cons.inj heq).1 hc.2.1
  · next heq =>
    obtain ⟨rfl, rfl⟩ := List.cons.inj heq
    rfl

/-- A later item is read behind its comma and the blanks there. -/
lemma readItems_next {gap : List Char} (hgap : ∀ c ∈ gap, isGap c = true) {c : Char}
    (hc : StartsValue c) (cs : List Char) :
    readItems (fuel + 1) depth false (',' :: (gap ++ c :: cs)) = (do
      let (item, after) ← readValue fuel depth (c :: cs)
      let (items, after) ← readItems fuel depth false after
      return (item :: items, after)) := by
  have hskip : skipGap (gap ++ c :: cs) = c :: cs := by
    rw [skipGap_append hgap, skipGap_of_not_gap hc.1]
  have hclose : c ≠ ']' := hc.2.1
  rw [readItems, skipGap_of_not_gap (by decide)]
  simp [hskip, hclose]

/-- A closing brace ends the fields. -/
lemma readFields_close (first : Bool) (rest : List Char) :
    readFields (fuel + 1) depth first ('\x7d' :: rest) = .ok ([], rest) := by
  rw [readFields, skipGap_of_not_gap (by decide)]
  rfl

/-- The first field is read where it stands. -/
lemma readFields_first (key cs : List Char) :
    readFields (fuel + 1) depth true (quote key ++ ':' :: cs) = (do
      let (value, after) ← readValue fuel depth cs
      let (fields, after) ← readFields fuel depth false after
      return ((String.ofList key, value) :: fields, after)) := by
  have htext : quote key ++ ':' :: cs = '"' :: (key.flatMap escapeChar ++ '"' :: ':' :: cs) := by
    simp [quote]
  have hcolon : skipGap (':' :: cs) = ':' :: cs := skipGap_of_not_gap (by decide) cs
  have hkey := readString_quote key (':' :: cs)
  rw [htext, readFields, skipGap_of_not_gap (by decide)]
  generalize key.flatMap escapeChar ++ '"' :: ':' :: cs = body at hkey
  simp [hkey, hcolon]

/-- A later field is read behind its comma and the blanks there. -/
lemma readFields_next {gap : List Char} (hgap : ∀ c ∈ gap, isGap c = true)
    (key cs : List Char) :
    readFields (fuel + 1) depth false (',' :: (gap ++ (quote key ++ ':' :: cs))) = (do
      let (value, after) ← readValue fuel depth cs
      let (fields, after) ← readFields fuel depth false after
      return ((String.ofList key, value) :: fields, after)) := by
  have htext : quote key ++ ':' :: cs = '"' :: (key.flatMap escapeChar ++ '"' :: ':' :: cs) := by
    simp [quote]
  have hcolon : skipGap (':' :: cs) = ':' :: cs := skipGap_of_not_gap (by decide) cs
  have hkey := readString_quote key (':' :: cs)
  rw [htext, readFields, skipGap_of_not_gap (by decide)]
  generalize key.flatMap escapeChar ++ '"' :: ':' :: cs = body at hkey
  have hskip : skipGap (gap ++ '"' :: body) = '"' :: body := by
    rw [skipGap_append hgap, skipGap_of_not_gap (by decide)]
  simp [hskip, hkey, hcolon]

/-- An item and the items behind it are read if each of them is. -/
lemma readItems_toOption {text more rest : List Char} {x : Json} {xs : List Json}
    (hvalue : (readValue fuel depth text).toOption = (reread x).map fun w => (w.sorted, more))
    (hitems : (readItems fuel depth false more).toOption =
      (rereadItems xs).map fun ys => (sortedItems ys, rest)) :
    (do
      let (item, after) ← readValue fuel depth text
      let (items, after) ← readItems fuel depth false after
      return (item :: items, after) : Except Fault (List Json × List Char)).toOption =
        (rereadItems (x :: xs)).map fun ys => (sortedItems ys, rest) := by
  rw [toOption_bind, hvalue, rereadItems]
  cases reread x with
  | none => rfl
  | some y =>
    simp only [Option.map_some, Option.bind_some]
    rw [toOption_bind, hitems]
    cases rereadItems xs with
    | none => rfl
    | some ys => rfl

/-- A field and the fields behind it are read if each of them is. -/
lemma readFields_toOption {key : String} {text more rest : List Char} {x : Json}
    {fs : List (String × Json)}
    (hvalue : (readValue fuel depth text).toOption = (reread x).map fun w => (w.sorted, more))
    (hfields : (readFields fuel depth false more).toOption =
      (rereadFields fs).map fun gs => (sortedFields gs, rest)) :
    (do
      let (value, after) ← readValue fuel depth text
      let (fields, after) ← readFields fuel depth false after
      return ((String.ofList key.toList, value) :: fields, after) :
        Except Fault (List (String × Json) × List Char)).toOption =
        (rereadFields ((key, x) :: fs)).map fun gs => (sortedFields gs, rest) := by
  rw [toOption_bind, hvalue, rereadFields, String.ofList_toList]
  cases reread x with
  | none => rfl
  | some y =>
    simp only [Option.map_some, Option.bind_some]
    rw [toOption_bind, hfields]
    cases rereadFields fs with
    | none => rfl
    | some gs => rfl

end Steps

/-- An array is read from its opening bracket on. -/
lemma readValue_bracket (fuel depth : ℕ) (cs : List Char) :
    readValue (fuel + 1) (depth + 1) ('[' :: cs) = (do
      let (items, after) ← readItems fuel depth true cs
      return (.array items, after)) := by
  rw [readValue, skipGap_of_not_gap (by decide)]
  rfl

/-- An object is read from its opening brace on. -/
lemma readValue_brace (fuel depth : ℕ) (cs : List Char) :
    readValue (fuel + 1) (depth + 1) ('\x7b' :: cs) = (do
      let (fields, after) ← readFields fuel depth true cs
      return (.ofFields fields, after)) := by
  rw [readValue, skipGap_of_not_gap (by decide)]
  rfl

/-! ### Whole values -/

/-- A word of letters is read as the value that it names. -/
lemma readWord_append (value : Json) (letters rest : List Char) :
    readWord value letters (letters ++ rest) = .ok (value, rest) := by
  induction letters with
  | nil => rfl
  | cons l ls ih => rw [List.cons_append, readWord, if_pos rfl, ih]

/-- Blanks before a mark between values end a number. -/
lemma endsNumber_gap {gap : List Char} (hgap : ∀ c ∈ gap, isGap c = true) {c : Char}
    (hc : c ∈ [',', ']', '\x7d']) (cs : List Char) : EndsNumber (gap ++ c :: cs) := by
  cases gap with
  | nil =>
    refine endsNumber_cons ?_ cs
    exact List.mem_append_left [' ', '\n', '\t', '\r'] hc
  | cons d gap =>
    refine endsNumber_cons ?_ _
    have hd := hgap d List.mem_cons_self
    simp only [isGap, Bool.or_eq_true, beq_iff_eq] at hd
    rcases hd with ((rfl | rfl) | rfl) | rfl <;> decide

namespace Spacing

variable (s : Spacing)

/-- The text of a value is not empty, and starts as a value does. -/
lemma exists_chars (n : ℕ) (v : Json) : ∃ c cs, s.chars n v = c :: cs ∧ StartsValue c := by
  cases v with
  | null => exact ⟨'n', _, rfl, by decide⟩
  | bool b =>
    cases b with
    | true => exact ⟨'t', _, rfl, by decide⟩
    | false => exact ⟨'f', _, rfl, by decide⟩
  | int n =>
    obtain ⟨c, cs, htext, hc⟩ :=
      exists_withSign (decide (n < 0)) (isWhole_toDigits n.natAbs) []
    refine ⟨c, cs, ?_, hc⟩
    rw [← htext, List.append_nil]
    unfold chars scalarText? intText Binary64.withSign
    simp
  | float x =>
    cases x with
    | nan => exact ⟨'n', _, rfl, by decide⟩
    | infinite s =>
      cases s with
      | true => exact ⟨'n', _, rfl, by decide⟩
      | false => exact ⟨'n', _, rfl, by decide⟩
    | finite s rank =>
      obtain ⟨ds, tail, htext, hds, -⟩ := exists_unsigned rank
      obtain ⟨c, cs, hsigned, hc⟩ := exists_withSign s hds tail
      refine ⟨c, cs, ?_, hc⟩
      rw [← hsigned, ← htext]
      cases s with
      | true => rfl
      | false => rfl
  | text s => exact ⟨'"', _, rfl, by decide⟩
  | array xs =>
    cases xs with
    | nil => exact ⟨'[', _, rfl, by decide⟩
    | cons x xs => exact ⟨'[', _, by rw [chars], by decide⟩
  | object fs =>
    cases fs with
    | nil => exact ⟨'\x7b', _, rfl, by decide⟩
    | cons f fs => exact ⟨'\x7b', _, by rw [chars], by decide⟩

/-- Behind an item there is a comma or the closing bracket, blanks before it. -/
lemma endsNumber_items (n m : ℕ) (xs : List Json) (rest : List Char) :
    EndsNumber (s.moreItems n xs ++ (s.line m ++ ']' :: rest)) := by
  cases xs with
  | nil => exact endsNumber_gap (s.line_gap m) (by decide) rest
  | cons x xs => exact endsNumber_cons (by decide) _

/-- Behind a field there is a comma or the closing brace, blanks before it. -/
lemma endsNumber_fields (n m : ℕ) (fs : List (String × Json)) (rest : List Char) :
    EndsNumber (s.moreFields n fs ++ (s.line m ++ '\x7d' :: rest)) := by
  cases fs with
  | nil => exact endsNumber_gap (s.line_gap m) (by decide) rest
  | cons f fs => exact endsNumber_cons (by decide) _

/-- A scalar is read as itself, a binary64 number as it rereads. -/
lemma readValue_scalar {v : Json} (hv : v.Legible) (hscalar : v.isContainer = false) (n : ℕ)
    {fuel : ℕ} (hfuel : (s.chars n v).length ≤ fuel) (depth : ℕ) {rest : List Char}
    (hrest : EndsNumber rest) :
    (readValue fuel depth (s.chars n v ++ rest)).toOption =
      (reread v).map fun w => (w.sorted, rest) := by
  obtain ⟨fuel, rfl⟩ : ∃ n, fuel = n + 1 := by
    obtain ⟨c, cs, htext, -⟩ := s.exists_chars n v
    rw [htext, List.length_cons] at hfuel
    exact ⟨fuel - 1, by omega⟩
  cases v with
  | null =>
    have hread : readValue (fuel + 1) depth (s.chars n .null ++ rest) = .ok (.null, rest) :=
      readWord_append .null ['u', 'l', 'l'] rest
    rw [hread]
    rfl
  | bool b =>
    have hread : readValue (fuel + 1) depth (s.chars n (.bool b) ++ rest) =
        .ok (.bool b, rest) := by
      cases b with
      | true => exact readWord_append (.bool true) ['r', 'u', 'e'] rest
      | false => exact readWord_append (.bool false) ['a', 'l', 's', 'e'] rest
    rw [hread]
    rfl
  | int k =>
    have hread : readValue (fuel + 1) depth (s.chars n (.int k) ++ rest) = .ok (.int k, rest) :=
      readValue_int fuel depth hv hrest
    rw [hread]
    rfl
  | float x =>
    have hread := readValue_float fuel depth (x := x) hv hrest
    have htext : s.chars n (.float x) = numberLayout.chars x := rfl
    rw [htext, hread, reread, Option.map_map]
    rfl
  | text t =>
    have htext : s.chars n (.text t) ++ rest =
        '"' :: (t.toList.flatMap escapeChar ++ '"' :: rest) := by
      simp [chars, scalarText?, quote]
    have hread := readString_quote t.toList rest
    rw [htext, readValue, skipGap_of_not_gap (by decide)]
    generalize t.toList.flatMap escapeChar ++ '"' :: rest = body at hread
    simp [hread, reread, sorted, Except.toOption]
  | array items => cases hscalar
  | object fields => cases hscalar

mutual

/-- Before any text that ends a number, the text of a value is taken whole, and the value is
reread. -/
theorem readValue_chars : ∀ (v : Json) (n fuel depth : ℕ) (rest : List Char), v.Legible →
    v.depth ≤ depth → (s.chars n v).length ≤ fuel → EndsNumber rest →
      (readValue fuel depth (s.chars n v ++ rest)).toOption =
        (reread v).map fun w => (w.sorted, rest)
  | .null, n, _, depth, _, hv, _, hfuel, hrest => s.readValue_scalar hv rfl n hfuel depth hrest
  | .bool _, n, _, depth, _, hv, _, hfuel, hrest => s.readValue_scalar hv rfl n hfuel depth hrest
  | .int _, n, _, depth, _, hv, _, hfuel, hrest => s.readValue_scalar hv rfl n hfuel depth hrest
  | .float _, n, _, depth, _, hv, _, hfuel, hrest => s.readValue_scalar hv rfl n hfuel depth hrest
  | .text _, n, _, depth, _, hv, _, hfuel, hrest => s.readValue_scalar hv rfl n hfuel depth hrest
  | .array [], _, fuel, depth, rest, _, hdepth, hfuel, _ => by
    obtain ⟨depth, rfl⟩ := Nat.exists_eq_add_of_lt (Nat.lt_of_lt_of_le (Nat.succ_pos _) hdepth)
    obtain ⟨fuel, rfl⟩ : ∃ k, fuel = k + 2 := Nat.exists_eq_add_of_le' hfuel
    change (readValue (fuel + 2) (0 + depth + 1) ('[' :: ']' :: rest)).toOption = _
    rw [readValue_bracket, readItems_close]
    rfl
  | .array (x :: xs), n, fuel, depth, rest, hv, hdepth, hfuel, _ => by
    obtain ⟨c, cs, hx, hc⟩ := s.exists_chars (n + 1) x
    have hpos : 0 < (s.chars (n + 1) x).length := by
      rw [hx]
      exact Nat.succ_pos _
    rw [Json.depth, depthItems] at hdepth
    rw [chars] at hfuel
    simp only [List.length_cons, List.length_append, List.length_nil] at hfuel
    obtain ⟨depth, rfl⟩ := Nat.exists_eq_add_of_lt (Nat.lt_of_lt_of_le (Nat.succ_pos _) hdepth)
    obtain ⟨fuel, rfl⟩ : ∃ k, fuel = k + 2 := Nat.exists_eq_add_of_le' (by omega)
    have hvalue := readValue_chars x (n + 1) fuel (0 + depth) _ hv.1 (by omega) (by omega)
      (s.endsNumber_items (n + 1) n xs rest)
    have hitems := readItems_more xs (n + 1) n fuel (0 + depth) rest hv.2 (by omega) (by omega)
    have htext : s.chars n (.array (x :: xs)) ++ rest =
        '[' :: (s.line (n + 1) ++ (c :: (cs ++
          (s.moreItems (n + 1) xs ++ (s.line n ++ ']' :: rest))))) := by
      rw [chars, hx]
      simp
    rw [hx, List.cons_append] at hvalue
    rw [htext, readValue_bracket, toOption_bind, readItems_gap _ _ _ (s.line_gap (n + 1)),
      readItems_first _ _ hc, readItems_toOption _ _ hvalue hitems, reread]
    cases rereadItems (x :: xs) with
    | none => rfl
    | some ys => rfl
  | .object [], _, fuel, depth, rest, _, hdepth, hfuel, _ => by
    obtain ⟨depth, rfl⟩ := Nat.exists_eq_add_of_lt (Nat.lt_of_lt_of_le (Nat.succ_pos _) hdepth)
    obtain ⟨fuel, rfl⟩ : ∃ k, fuel = k + 2 := Nat.exists_eq_add_of_le' hfuel
    change (readValue (fuel + 2) (0 + depth + 1) ('\x7b' :: '\x7d' :: rest)).toOption = _
    rw [readValue_brace, readFields_close]
    rfl
  | .object ((k, x) :: fs), n, fuel, depth, rest, hv, hdepth, hfuel, _ => by
    rw [Json.depth, depthFields] at hdepth
    rw [chars] at hfuel
    simp only [List.length_cons, List.length_append, List.length_nil] at hfuel
    obtain ⟨depth, rfl⟩ := Nat.exists_eq_add_of_lt (Nat.lt_of_lt_of_le (Nat.succ_pos _) hdepth)
    obtain ⟨fuel, rfl⟩ : ∃ k, fuel = k + 3 := Nat.exists_eq_add_of_le' (by omega)
    have hvalue := readValue_chars x (n + 1) (fuel + 1) (0 + depth) _ hv.1 (by omega) (by omega)
      (s.endsNumber_fields (n + 1) n fs rest)
    have hfields := readFields_more fs (n + 1) n (fuel + 1) (0 + depth) rest hv.2 (by omega)
      (by omega)
    have htext : s.chars n (.object ((k, x) :: fs)) ++ rest =
        '\x7b' :: (s.line (n + 1) ++ (quote k.toList ++ ':' :: (s.colon ++
          (s.chars (n + 1) x ++ (s.moreFields (n + 1) fs ++ (s.line n ++ '\x7d' :: rest)))))) := by
      rw [chars]
      simp
    rw [← readValue_gap _ _ s.colon_gap] at hvalue
    rw [htext, readValue_brace, toOption_bind, readFields_gap _ _ _ (s.line_gap (n + 1)),
      readFields_first, readFields_toOption _ _ hvalue hfields, reread]
    cases rereadFields ((k, x) :: fs) with
    | none => rfl
    | some gs => rfl

/-- The items behind the first one are taken up to the closing bracket. -/
theorem readItems_more : ∀ (xs : List Json) (n m fuel depth : ℕ) (rest : List Char),
    LegibleItems xs → depthItems xs ≤ depth → (s.moreItems n xs).length + 1 ≤ fuel →
      (readItems fuel depth false (s.moreItems n xs ++ (s.line m ++ ']' :: rest))).toOption =
        (rereadItems xs).map fun ys => (sortedItems ys, rest)
  | [], _, m, fuel, depth, rest, _, _, hfuel => by
    obtain ⟨fuel, rfl⟩ := Nat.exists_eq_add_of_lt (Nat.lt_of_lt_of_le (Nat.succ_pos _) hfuel)
    rw [moreItems, List.nil_append, readItems_gap _ _ _ (s.line_gap m), readItems_close]
    rfl
  | x :: xs, n, m, fuel, depth, rest, hv, hdepth, hfuel => by
    obtain ⟨c, cs, hx, hc⟩ := s.exists_chars n x
    rw [depthItems, max_le_iff] at hdepth
    rw [moreItems, List.length_cons, List.length_append, List.length_append] at hfuel
    obtain ⟨fuel, rfl⟩ := Nat.exists_eq_add_of_lt (Nat.lt_of_lt_of_le (Nat.succ_pos _) hfuel)
    have hvalue := readValue_chars x n (0 + fuel) depth _ hv.1 hdepth.1 (by omega)
      (s.endsNumber_items n m xs rest)
    have hitems := readItems_more xs n m (0 + fuel) depth rest hv.2 hdepth.2 (by omega)
    have htext : s.moreItems n (x :: xs) ++ (s.line m ++ ']' :: rest) =
        ',' :: (s.line n ++ (c :: (cs ++ (s.moreItems n xs ++ (s.line m ++ ']' :: rest))))) := by
      rw [moreItems, hx]
      simp
    rw [hx, List.cons_append] at hvalue
    rw [htext, readItems_next _ _ (s.line_gap n) hc]
    exact readItems_toOption _ _ hvalue hitems

/-- The fields behind the first one are taken up to the closing brace. -/
theorem readFields_more : ∀ (fs : List (String × Json)) (n m fuel depth : ℕ) (rest : List Char),
    LegibleFields fs → depthFields fs ≤ depth → (s.moreFields n fs).length + 1 ≤ fuel →
      (readFields fuel depth false
        (s.moreFields n fs ++ (s.line m ++ '\x7d' :: rest))).toOption =
          (rereadFields fs).map fun gs => (sortedFields gs, rest)
  | [], _, m, fuel, depth, rest, _, _, hfuel => by
    obtain ⟨fuel, rfl⟩ := Nat.exists_eq_add_of_lt (Nat.lt_of_lt_of_le (Nat.succ_pos _) hfuel)
    rw [moreFields, List.nil_append, readFields_gap _ _ _ (s.line_gap m), readFields_close]
    rfl
  | (k, x) :: fs, n, m, fuel, depth, rest, hv, hdepth, hfuel => by
    rw [depthFields, max_le_iff] at hdepth
    rw [moreFields] at hfuel
    simp only [List.length_cons, List.length_append] at hfuel
    obtain ⟨fuel, rfl⟩ : ∃ k, fuel = k + 2 := Nat.exists_eq_add_of_le' (by omega)
    have hvalue := readValue_chars x n (fuel + 1) depth _ hv.1 hdepth.1 (by omega)
      (s.endsNumber_fields n m fs rest)
    have hfields := readFields_more fs n m (fuel + 1) depth rest hv.2 hdepth.2 (by omega)
    have htext : s.moreFields n ((k, x) :: fs) ++ (s.line m ++ '\x7d' :: rest) =
        ',' :: (s.line n ++ (quote k.toList ++ ':' :: (s.colon ++
          (s.chars n x ++ (s.moreFields n fs ++ (s.line m ++ '\x7d' :: rest)))))) := by
      rw [moreFields]
      simp
    rw [← readValue_gap _ _ s.colon_gap] at hvalue
    rw [htext, readFields_next _ _ (s.line_gap n)]
    exact readFields_toOption _ _ hvalue hfields

end

/-- A whole text of a value that is nested no deeper than can be read gives the reread value, its
fields in order. -/
theorem readText_chars {v : Json} (hv : v.Legible) (hdepth : v.depth ≤ maxDepth) :
    (readText (s.chars 0 v)).toOption = (reread v).map sorted := by
  have hread := s.readValue_chars v 0 ((s.chars 0 v).length + 1) maxDepth [] hv hdepth
    (Nat.le_succ _) endsNumber_nil
  rw [List.append_nil] at hread
  rw [readText, toOption_bind, hread]
  cases reread v with
  | none => rfl
  | some w => rfl

end Spacing

/-- What a text parses as, apart from the fault. -/
lemma toOption_parse (cs : List Char) :
    (parse (String.ofList cs)).toOption = (readText cs).toOption := by
  unfold parse
  rw [String.toList_ofList]
  cases readText cs with
  | error e => rfl
  | ok w => rfl

/-- The compact text of a value whose fields are in order gives the reread value. -/
theorem parse_compact {v : Json} (hv : v.Proper) (hdepth : v.depth ≤ maxDepth) :
    (parse v.compact).toOption = reread v := by
  rw [compact, toOption_parse, Spacing.compactChars_eq 0,
    Spacing.tight.readText_chars hv.legible hdepth]
  cases hreread : reread v with
  | none => rfl
  | some w => rw [Option.map_some, sorted_of_reread hv hreread]

/-! ### Equality with the reread value -/

mutual

/-- The binary64 numbers in a value. -/
def floats : Json → List Binary64
  | .float x => [x]
  | .array items => floatsItems items
  | .object fields => floatsFields fields
  | _ => []

/-- The binary64 numbers in items. -/
def floatsItems : List Json → List Binary64
  | [] => []
  | x :: xs => floats x ++ floatsItems xs

/-- The binary64 numbers in the values of fields. -/
def floatsFields : List (String × Json) → List Binary64
  | [] => []
  | (_, x) :: fs => floats x ++ floatsFields fs

end

/-- The text of a number reads as a number of the same value. -/
def Rereads (x : Binary64) : Prop := ∃ y, rereadFloat x = some y ∧ x.same y = true

instance : DecidablePred Rereads := fun x =>
  decidable_of_iff ((rereadFloat x).any fun y => x.same y) (Option.any_eq_true _ _)

/-- A value that rereads as itself and holds no binary64 number. -/
lemma exists_same_scalar {v : Json} (hreread : reread v = some v) (hsame : v.same v = true)
    (hfloats : v.floats = []) :
    (∃ w, reread v = some w ∧ v.same w = true) ↔ ∀ x ∈ v.floats, Rereads x := by
  rw [hfloats]
  exact ⟨fun _ x hx => absurd hx List.not_mem_nil, fun _ => ⟨v, hreread, hsame⟩⟩

mutual

/-- A value rereads as the same value exactly when all binary64 numbers in it do. -/
theorem exists_same_reread_iff : ∀ v : Json,
    (∃ w, reread v = some w ∧ v.same w = true) ↔ ∀ x ∈ v.floats, Rereads x
  | .null => exists_same_scalar rfl rfl rfl
  | .bool b => exists_same_scalar rfl (beq_self_eq_true b) rfl
  | .int n => exists_same_scalar rfl (beq_self_eq_true n) rfl
  | .text s => exists_same_scalar rfl (beq_self_eq_true s) rfl
  | .float x => by
    rw [reread, floats, List.forall_mem_singleton, Rereads]
    constructor
    · rintro ⟨w, hw, hsame⟩
      obtain ⟨y, hy, rfl⟩ := Option.map_eq_some_iff.mp hw
      exact ⟨y, hy, hsame⟩
    · rintro ⟨y, hy, hsame⟩
      exact ⟨.float y, by rw [hy]; rfl, hsame⟩
  | .array xs => by
    rw [reread, floats, ← exists_same_rereadItems_iff xs]
    constructor
    · rintro ⟨w, hw, hsame⟩
      obtain ⟨ys, hys, rfl⟩ := Option.map_eq_some_iff.mp hw
      exact ⟨ys, hys, hsame⟩
    · rintro ⟨ys, hys, hsame⟩
      exact ⟨.array ys, by rw [hys]; rfl, hsame⟩
  | .object fs => by
    rw [reread, floats, ← exists_same_rereadFields_iff fs]
    constructor
    · rintro ⟨w, hw, hsame⟩
      obtain ⟨gs, hgs, rfl⟩ := Option.map_eq_some_iff.mp hw
      exact ⟨gs, hgs, hsame⟩
    · rintro ⟨gs, hgs, hsame⟩
      exact ⟨.object gs, by rw [hgs]; rfl, hsame⟩

/-- Items reread as the same items exactly when all binary64 numbers in them do. -/
theorem exists_same_rereadItems_iff : ∀ xs : List Json,
    (∃ ys, rereadItems xs = some ys ∧ sameItems xs ys = true) ↔ ∀ x ∈ floatsItems xs, Rereads x
  | [] => by simp [rereadItems, sameItems, floatsItems]
  | x :: xs => by
    rw [rereadItems, floatsItems, List.forall_mem_append, ← exists_same_reread_iff x,
      ← exists_same_rereadItems_iff xs]
    constructor
    · rintro ⟨ws, hws, hsame⟩
      obtain ⟨y, hy, hmore⟩ := Option.bind_eq_some_iff.mp hws
      obtain ⟨ys, hys, rfl⟩ := Option.map_eq_some_iff.mp hmore
      rw [sameItems, Bool.and_eq_true] at hsame
      exact ⟨⟨y, hy, hsame.1⟩, ys, hys, hsame.2⟩
    · rintro ⟨⟨y, hy, hsame⟩, ys, hys, hmore⟩
      refine ⟨y :: ys, by rw [hy, hys]; rfl, ?_⟩
      rw [sameItems, Bool.and_eq_true]
      exact ⟨hsame, hmore⟩

/-- Fields reread as the same fields exactly when all binary64 numbers in them do. -/
theorem exists_same_rereadFields_iff : ∀ fs : List (String × Json),
    (∃ gs, rereadFields fs = some gs ∧ sameFields fs gs = true) ↔
      ∀ x ∈ floatsFields fs, Rereads x
  | [] => by simp [rereadFields, sameFields, floatsFields]
  | (k, x) :: fs => by
    rw [rereadFields, floatsFields, List.forall_mem_append, ← exists_same_reread_iff x,
      ← exists_same_rereadFields_iff fs]
    constructor
    · rintro ⟨ws, hws, hsame⟩
      obtain ⟨y, hy, hmore⟩ := Option.bind_eq_some_iff.mp hws
      obtain ⟨gs, hgs, rfl⟩ := Option.map_eq_some_iff.mp hmore
      rw [sameFields, Bool.and_eq_true, Bool.and_eq_true] at hsame
      exact ⟨⟨y, hy, hsame.1.2⟩, gs, hgs, hsame.2⟩
    · rintro ⟨⟨y, hy, hsame⟩, gs, hgs, hmore⟩
      refine ⟨(k, y) :: gs, by rw [hy, hgs]; rfl, ?_⟩
      rw [sameFields, Bool.and_eq_true, Bool.and_eq_true]
      exact ⟨⟨beq_self_eq_true k, hsame⟩, hmore⟩

end

/-! ### Values whose numbers are read exactly -/

mutual

/-- A value rereads as itself if its numbers do. -/
theorem reread_of_exact : ∀ {v : Json}, (∀ x ∈ v.floats, rereadFloat x = some x) →
    reread v = some v
  | .null, _ => rfl
  | .bool _, _ => rfl
  | .int _, _ => rfl
  | .text _, _ => rfl
  | .float x, h => by
    rw [reread, h x List.mem_cons_self]
    rfl
  | .array _, h => by
    rw [reread, rereadItems_of_exact h]
    rfl
  | .object _, h => by
    rw [reread, rereadFields_of_exact h]
    rfl

theorem rereadItems_of_exact : ∀ {xs : List Json}, (∀ x ∈ floatsItems xs, rereadFloat x = some x) →
    rereadItems xs = some xs
  | [], _ => rfl
  | x :: xs, h => by
    rw [floatsItems, List.forall_mem_append] at h
    rw [rereadItems, reread_of_exact h.1, rereadItems_of_exact h.2]
    rfl

theorem rereadFields_of_exact : ∀ {fs : List (String × Json)},
    (∀ x ∈ floatsFields fs, rereadFloat x = some x) → rereadFields fs = some fs
  | [], _ => rfl
  | (k, x) :: fs, h => by
    rw [floatsFields, List.forall_mem_append] at h
    rw [rereadFields, reread_of_exact h.1, rereadFields_of_exact h.2]
    rfl

end

/-- Both texts of a value whose numbers are read exactly give the value, its fields in order. -/
theorem parse_written {v : Json} (hv : v.Legible) (hexact : ∀ x ∈ v.floats, rereadFloat x = some x)
    (hdepth : v.depth ≤ maxDepth) :
    ∀ text ∈ [v.compact, v.indented], parse text = .ok v.sorted := by
  have hread : ∀ s : Spacing, parse (String.ofList (s.chars 0 v)) = .ok v.sorted := by
    intro s
    refine eq_ok_of_toOption ?_
    rw [toOption_parse, s.readText_chars hv hdepth, reread_of_exact hexact]
    rfl
  intro text htext
  rcases List.mem_cons.mp htext with rfl | htext
  · rw [compact, Spacing.compactChars_eq 0]
    exact hread Spacing.tight
  · rw [List.mem_singleton.mp htext, indented, Spacing.indentedChars_eq]
    exact hread Spacing.spread

/-- A field is found in an object whose fields have been put in order. -/
lemma get?_sorted {fs : List (String × Json)} (h : (fs.map Prod.fst).Nodup) (key : String) :
    (sorted (.object fs)).get? key = (fs.lookup key).map sorted := by
  have hkeys : ((sortedFields fs).map Prod.fst).Nodup := by
    rw [sortedFields_eq, List.map_map]
    exact h
  rw [sorted, ofFields, get?, Keyed.lookup_ofList_of_nodup hkeys, sortedFields_eq]
  induction fs with
  | nil => rfl
  | cons f fs ih =>
    rw [List.map_cons, List.lookup_cons, List.lookup_cons]
    split
    · rfl
    · exact ih (List.nodup_cons.mp h).2 (List.nodup_cons.mp hkeys).2

end MailTemplate.Json
