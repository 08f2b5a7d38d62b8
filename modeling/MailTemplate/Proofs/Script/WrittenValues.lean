import MailTemplate.Proofs.Json.RoundTrip
import MailTemplate.Script.Convert
import MailTemplate.Script.Writer

/-!
# Attribute values scanned from their texts

Each way of writing a value is taken whole by the scanner, and the scan ends where the text of the
value does: a quoted text at its quote, embedded JSON at the bracket that closes it, and a bare word
at a blank or at a mark of the surface form.

Main results: a written value is scanned as `rawValue` (`scanValue_valueText`), and from there it
becomes the reread value again (`convert_rawValue`).
-/

namespace MailTemplate

/-- The value with its numbers replaced by what their texts read as; none if one is refused. -/
def AttributeValue.reread : AttributeValue → Option AttributeValue
  | .number x => (Binary64.read? (numberText x).toList).map .number
  | .json v => v.reread.map .json
  | v => some v

/-- A value that a script can hold: a number with a finite value, and of the structured values an
array or an object that is nested no deeper than JSON is read. -/
def AttributeValue.Writable : AttributeValue → Prop
  | .number x => x.isFinite = true
  | .json v => v.isContainer = true ∧ v.depth ≤ Json.maxDepth ∧ v.Proper
  | _ => True

namespace Script

/-- The value that the text of a value is scanned as. -/
def rawValue : AttributeValue → RawValue
  | .bool b => .bare (if b then "true" else "false")
  | .number x => .bare (numberText x)
  | .text s => if isBareSafe s.toList then .bare s else .quoted s
  | .json v => if v.isContainer then .structured v.compact else .quoted v.compact

/-- The text of a scanned value is that of the value as style declarations hold it. -/
@[simp] lemma text_rawValue (v : AttributeValue) : (rawValue v).text = v.css := by
  cases v with
  | bool b =>
    cases b with
    | true => rfl
    | false => rfl
  | number x => rfl
  | text s =>
    unfold rawValue
    simp only
    split
    · rfl
    · rfl
  | json v =>
    unfold rawValue
    simp only
    split
    · rfl
    · rfl

/-- A text before which every value ends. -/
def EndsValue (form : Form) : List Char → Prop
  | [] => True
  | c :: rest => endsBare form c rest = true

/-! ### Bare words -/

/-- A character of a bare word ends none. -/
lemma endsBare_of_isBareChar {c : Char} (h : isBareChar c = true) (form : Form)
    (rest : List Char) : endsBare form c rest = false := by
  unfold isBareChar at h
  rw [Bool.and_eq_true] at h
  obtain ⟨hblank, hmarks⟩ := h
  have hne : ∀ d, d ∈ ['{', '}', '<', '>', '"', '\\', '/', ','] → (c == d) = false := by
    intro d hd
    rw [beq_eq_false_iff_ne]
    rintro rfl
    simp [hd] at hmarks
  unfold endsBare
  rw [Bool.not_eq_true'] at hblank
  rw [hblank, Bool.false_or]
  cases form with
  | brace => simp [hne '{' (by decide), hne '}' (by decide)]
  | tag => simp [hne '>' (by decide), hne '/' (by decide)]

/-- A bare word is scanned up to where values end. -/
lemma scanBare_append {form : Form} {word rest : List Char}
    (hword : ∀ c ∈ word, isBareChar c = true)
    (hrest : EndsValue form rest) : scanBare form (word ++ rest) = (word, rest) := by
  induction word with
  | nil =>
    cases rest with
    | nil => rfl
    | cons c rest =>
      have hend : endsBare form c rest = true := hrest
      rw [List.nil_append, scanBare, if_pos hend]
  | cons c word ih =>
    have hc := endsBare_of_isBareChar (hword c List.mem_cons_self) form (word ++ rest)
    rw [List.cons_append, scanBare, hc, ih fun a ha => hword a (List.mem_cons_of_mem c ha)]
    rfl

/-- A bare word that does not look like embedded JSON is scanned as a bare word. -/
lemma scanValue_bare {form : Form} {word rest : List Char} (hne : word ≠ [])
    (hword : ∀ c ∈ word, isBareChar c = true) (hhead : word.head? ≠ some '[')
    (hrest : EndsValue form rest) :
    scanValue form (word ++ rest) = .ok (.bare (String.ofList word), rest) := by
  have hscan := scanBare_append hword hrest
  obtain ⟨c, word, rfl⟩ := List.exists_cons_of_ne_nil hne
  have hc : isBareChar c = true := hword c List.mem_cons_self
  have hmarks : ∀ d, isBareChar d = false → c ≠ d := by
    rintro d hd rfl
    rw [hc] at hd
    cases hd
  have hbracket : c ≠ '[' := fun h => hhead (congrArg some h)
  rw [List.cons_append] at hscan ⊢
  unfold scanValue
  simp [hmarks '"' (by decide), hbracket, hmarks '{' (by decide), hmarks '<' (by decide), hscan]

/-! ### Quoted texts -/

/-- A quoted text is scanned as the text, up to its closing quote. -/
lemma scanQuoted_escaped (s rest : List Char) :
    scanQuoted (s.flatMap (fun c => if c = '"' ∨ c = '\\' then ['\\', c] else [c]) ++ '"' :: rest) =
      .ok (s, rest) := by
  induction s with
  | nil => rfl
  | cons c s ih =>
    rw [List.flatMap_cons, List.append_assoc]
    generalize s.flatMap (fun c => if c = '"' ∨ c = '\\' then ['\\', c] else [c]) ++ '"' :: rest =
      body at ih
    by_cases hescape : c = '"' ∨ c = '\\'
    · rw [if_pos hescape, List.cons_append, List.singleton_append, scanQuoted, ih]
      rfl
    · rw [if_neg hescape, List.singleton_append]
      obtain ⟨hquote, hslash⟩ := not_or.mp hescape
      unfold scanQuoted
      simp [hslash, ih]

/-- A text in quotes is scanned as the text, whatever follows it. -/
theorem scanValue_quoteText (form : Form) (s rest : List Char) :
    scanValue form (quoteText s ++ rest) = .ok (.quoted (String.ofList s), rest) := by
  have htext : quoteText s ++ rest = '"' ::
      (s.flatMap (fun c => if c = '"' ∨ c = '\\' then ['\\', c] else [c]) ++ '"' :: rest) := by
    simp [quoteText]
  rw [htext, scanValue, scanQuoted_escaped]
  rfl

/-! ### Embedded JSON -/

/-- A scanned text with more text before it. -/
def prepend (before : List Char) (scan : Except ScanFault (List Char × List Char)) :
    Except ScanFault (List Char × List Char) :=
  scan.map fun p => (before ++ p.1, p.2)

/-- Text put before a scanned text bit by bit. -/
@[simp] lemma prepend_prepend (before more : List Char)
    (scan : Except ScanFault (List Char × List Char)) :
    prepend before (prepend more scan) = prepend (before ++ more) scan := by
  cases scan with
  | error fault => rfl
  | ok p => simp [prepend, Except.map]

/-- No text before a scanned text. -/
@[simp] lemma prepend_nil (scan : Except ScanFault (List Char × List Char)) :
    prepend [] scan = scan := by
  cases scan with
  | error fault => rfl
  | ok p => rfl

/-- A scan for the closing bracket goes over the whole text, whatever follows it. -/
def Passes (text : List Char) : Prop :=
  ∀ depth rest, scanStructured .outside (depth + 1) (text ++ rest) =
    prepend text (scanStructured .outside (depth + 1) rest)

/-- A character that stands for itself outside of strings. -/
def IsPlainMark (c : Char) : Prop := c ≠ '"' ∧ c ≠ '[' ∧ c ≠ '{' ∧ c ≠ ']' ∧ c ≠ '}'

instance (c : Char) : Decidable (IsPlainMark c) := by
  unfold IsPlainMark
  infer_instance

/-- No text at all is passed. -/
lemma passes_nil : Passes [] := fun depth rest => by rw [List.nil_append, prepend_nil]

/-- Two texts that are passed are passed together. -/
lemma Passes.append {text more : List Char} (h : Passes text) (hmore : Passes more) :
    Passes (text ++ more) := by
  intro depth rest
  rw [List.append_assoc, h, hmore, prepend_prepend]

/-- Plain characters are passed. -/
lemma passes_of_plain {text : List Char} (h : ∀ c ∈ text, IsPlainMark c) : Passes text := by
  induction text with
  | nil => exact passes_nil
  | cons c text ih =>
    have hc := h c List.mem_cons_self
    have hmore := ih fun a ha => h a (List.mem_cons_of_mem c ha)
    intro depth rest
    have hstep : scanStructured .outside (depth + 1) (c :: (text ++ rest)) =
        prepend [c] (scanStructured .outside (depth + 1) (text ++ rest)) := by
      obtain ⟨hquote, hopen, hbrace, hclose, hend⟩ := hc
      rw [scanStructured]
      simp only [hquote, hopen, hbrace, hclose, hend, or_self, if_false]
      rfl
    rw [List.cons_append, hstep, hmore, prepend_prepend]
    rfl

/-- The inside of a quoted text is scanned up to its closing quote. -/
lemma scanStructured_inside (s : List Char) (depth : ℕ) (rest : List Char) :
    scanStructured .inside depth (s.flatMap Json.escapeChar ++ '"' :: rest) =
      prepend (s.flatMap Json.escapeChar ++ ['"']) (scanStructured .outside depth rest) := by
  induction s with
  | nil =>
    rw [List.flatMap_nil, List.nil_append, List.nil_append, scanStructured]
    rfl
  | cons c s ih =>
    -- an escape is a backslash and characters that are neither quotes nor backslashes behind it
    have hinside : ∀ a tail, a ≠ '"' → a ≠ '\\' →
        scanStructured .inside depth (a :: tail) =
          prepend [a] (scanStructured .inside depth tail) := by
      intro a tail hquote hslash
      rw [scanStructured]
      simp only [hquote, hslash, if_false]
      rfl
    have hescaped : ∀ a tail, scanStructured .inside depth ('\\' :: a :: tail) =
        prepend ['\\', a] (scanStructured .inside depth tail) := by
      intro a tail
      have hfirst : scanStructured .inside depth ('\\' :: a :: tail) =
          prepend ['\\'] (scanStructured .escaped depth (a :: tail)) := by
        rw [scanStructured]
        rfl
      have hsecond : scanStructured .escaped depth (a :: tail) =
          prepend [a] (scanStructured .inside depth tail) := by
        rw [scanStructured]
        rfl
      rw [hfirst, hsecond, prepend_prepend]
      rfl
    have hdigit : ∀ n < 16, Json.hexDigit n ≠ '"' ∧ Json.hexDigit n ≠ '\\' := by decide
    have hchar : ∀ tail, scanStructured .inside depth (Json.escapeChar c ++ tail) =
        prepend (Json.escapeChar c) (scanStructured .inside depth tail) := by
      intro tail
      unfold Json.escapeChar
      split
      · exact hescaped _ tail
      split
      · exact hescaped _ tail
      split
      · exact hescaped _ tail
      split
      · exact hescaped _ tail
      split
      · exact hescaped _ tail
      split
      · exact hescaped _ tail
      split
      · exact hescaped _ tail
      split
      · next hcontrol =>
        have hhigh := hdigit (c.toNat / 16) (by omega)
        have hlow := hdigit (c.toNat % 16) (by omega)
        simp only [List.cons_append, List.nil_append]
        rw [hescaped, hinside _ _ (by decide) (by decide), hinside _ _ (by decide) (by decide),
          hinside _ _ hhigh.1 hhigh.2, hinside _ _ hlow.1 hlow.2]
        simp
      · next hquote hslash _ _ _ _ _ _ => exact hinside c tail hquote hslash
    rw [List.flatMap_cons, List.append_assoc, hchar, ih, prepend_prepend, List.append_assoc]

/-- A quoted text is passed. -/
lemma passes_quote (s : List Char) : Passes (Json.quote s) := by
  intro depth rest
  have hopen : ∀ tail, scanStructured .outside (depth + 1) ('"' :: tail) =
      prepend ['"'] (scanStructured .inside (depth + 1) tail) := by
    intro tail
    rw [scanStructured]
    rfl
  have htext : Json.quote s ++ rest = '"' :: (s.flatMap Json.escapeChar ++ '"' :: rest) := by
    simp [Json.quote]
  rw [htext, hopen, scanStructured_inside, prepend_prepend]
  rfl

/-- A bracket opens one more level, whatever is inside. -/
lemma scanStructured_open {c : Char} (hc : c = '[' ∨ c = '{') (depth : ℕ) (rest : List Char) :
    scanStructured .outside depth (c :: rest) =
      prepend [c] (scanStructured .outside (depth + 1) rest) := by
  have hquote : c ≠ '"' := by rcases hc with rfl | rfl <;> decide
  rw [scanStructured]
  simp only [hquote, hc, if_false, if_true]
  rfl

/-- Text in brackets is passed if the text inside is. -/
lemma passes_brackets {first last : Char} {inside : List Char} (hfirst : first = '[' ∨ first = '{')
    (hlast : last = ']' ∨ last = '}') (h : Passes inside) :
    Passes (first :: (inside ++ [last])) := by
  intro depth rest
  have hclose : scanStructured .outside (depth + 1 + 1) (last :: rest) =
      prepend [last] (scanStructured .outside (depth + 1) rest) := by
    have hquote : last ≠ '"' := by rcases hlast with rfl | rfl <;> decide
    have hopen : ¬(last = '[' ∨ last = '{') := by rcases hlast with rfl | rfl <;> decide
    have hdepth : ¬depth + 1 + 1 ≤ 1 := by omega
    rw [scanStructured]
    simp only [hquote, hopen, hlast, hdepth, if_false, if_true]
    rfl
  have htext : first :: (inside ++ [last]) ++ rest = first :: (inside ++ last :: rest) := by simp
  rw [htext, scanStructured_open hfirst, h, hclose, prepend_prepend, prepend_prepend]
  simp

/-- Text in brackets is scanned up to its closing bracket if the text inside is passed. -/
lemma scanStructured_brackets {first last : Char} {inside : List Char}
    (hfirst : first = '[' ∨ first = '{') (hlast : last = ']' ∨ last = '}') (h : Passes inside)
    (rest : List Char) :
    scanStructured .outside 0 (first :: (inside ++ [last]) ++ rest) =
      .ok (first :: (inside ++ [last]), rest) := by
  have hclose : scanStructured .outside (0 + 1) (last :: rest) = .ok ([last], rest) := by
    have hquote : last ≠ '"' := by rcases hlast with rfl | rfl <;> decide
    have hopen : ¬(last = '[' ∨ last = '{') := by rcases hlast with rfl | rfl <;> decide
    rw [scanStructured]
    simp only [hquote, hopen, hlast, if_false, if_true]
    rfl
  have htext : first :: (inside ++ [last]) ++ rest = first :: (inside ++ last :: rest) := by simp
  rw [htext, scanStructured_open hfirst, h, hclose, prepend_prepend]
  simp [prepend, Except.map]

/-- A digit is a plain character. -/
lemma isPlainMark_of_isDigit {c : Char} (hc : c.isDigit = true) : IsPlainMark c := by
  have hne : ∀ d, d.isDigit = false → c ≠ d := fun d => Json.ne_of_isDigit hc
  exact ⟨hne _ (by decide), hne _ (by decide), hne _ (by decide), hne _ (by decide),
    hne _ (by decide)⟩

/-- The characters of an exponent are plain. -/
lemma isPlainMark_of_mem_exponent {tail : List Char} (h : Json.IsExponent tail) {c : Char}
    (hc : c ∈ tail) : IsPlainMark c := by
  obtain ⟨sign, d, ds, rfl, hsign, hds⟩ := h
  rcases List.mem_cons.mp hc with rfl | hc
  · decide
  rcases List.mem_cons.mp hc with rfl | hc
  · rcases hsign with rfl | rfl <;> decide
  · exact isPlainMark_of_isDigit (hds c hc)

/-- The characters of a number are plain. -/
lemma isPlainMark_of_mem_number {x : Binary64} {c : Char} (hc : c ∈ Json.numberLayout.chars x) :
    IsPlainMark c := by
  have hnull : ∀ a ∈ "null".toList, IsPlainMark a :=
    forall_mem_of_all (by decide)
  cases x with
  | nan => exact hnull c hc
  | infinite s =>
    cases s with
    | true => exact hnull c hc
    | false => exact hnull c hc
  | finite s rank =>
    obtain ⟨ds, tail, htext, ⟨-, hds, -⟩, htail⟩ := Json.exists_unsigned rank
    have hunsigned : ∀ a ∈ Json.numberLayout.unsigned rank, IsPlainMark a := by
      intro a ha
      rw [htext] at ha
      rcases List.mem_append.mp ha with ha | ha
      · exact isPlainMark_of_isDigit (hds a ha)
      · rcases htail with ⟨f, fs, more, rfl, hfs, hmore⟩ | hexponent
        · rcases List.mem_append.mp ha with ha | ha
          · rcases List.mem_cons.mp ha with rfl | ha
            · decide
            · exact isPlainMark_of_isDigit (hfs a ha)
          · rcases hmore with rfl | hexponent
            · cases ha
            · exact isPlainMark_of_mem_exponent hexponent ha
        · exact isPlainMark_of_mem_exponent hexponent ha
    cases s with
    | false => exact hunsigned c hc
    | true =>
      rcases List.mem_cons.mp hc with rfl | hc
      · decide
      · exact hunsigned c hc

/-- The digits of an integer are plain. -/
lemma isPlainMark_of_mem_intText {n : ℤ} {c : Char} (hc : c ∈ Json.intText n) : IsPlainMark c := by
  unfold Json.intText at hc
  split at hc
  · rcases List.mem_cons.mp hc with rfl | hc
    · decide
    · exact isPlainMark_of_isDigit (Text.isDigit_of_mem_toDigits hc)
  · exact isPlainMark_of_isDigit (Text.isDigit_of_mem_toDigits hc)

mutual

/-- The compact text of a value is passed. -/
lemma passes_compactChars : ∀ v : Json, Passes v.compactChars
  | .null => passes_of_plain (forall_mem_of_all (by decide))
  | .bool true => passes_of_plain (forall_mem_of_all (by decide))
  | .bool false => passes_of_plain (forall_mem_of_all (by decide))
  | .int _ => passes_of_plain fun _ => isPlainMark_of_mem_intText
  | .float _ => passes_of_plain fun _ => isPlainMark_of_mem_number
  | .text s => passes_quote s.toList
  | .array xs => by
    rw [Json.compactChars]
    exact passes_brackets (.inl rfl) (.inl rfl) (passes_compactItems xs)
  | .object fs => by
    rw [Json.compactChars]
    exact passes_brackets (.inr rfl) (.inr rfl) (passes_compactFields fs)

/-- Items are passed. -/
lemma passes_compactItems : ∀ xs : List Json, Passes (Json.compactItems xs)
  | [] => passes_nil
  | [x] => by
    rw [Json.compactItems]
    exact passes_compactChars x
  | x :: y :: xs => by
    have hcomma : Passes [','] := passes_of_plain (forall_mem_of_all (by decide))
    rw [Json.compactItems]
    exact (passes_compactChars x).append (hcomma.append (passes_compactItems (y :: xs)))

/-- Fields are passed. -/
lemma passes_compactFields : ∀ fs : List (String × Json), Passes (Json.compactFields fs)
  | [] => passes_nil
  | [(k, x)] => by
    have hcolon : Passes [':'] := passes_of_plain (forall_mem_of_all (by decide))
    rw [Json.compactFields]
    exact (passes_quote k.toList).append (hcolon.append (passes_compactChars x))
  | (k, x) :: f :: fs => by
    have hcolon : Passes [':'] := passes_of_plain (forall_mem_of_all (by decide))
    have hcomma : Passes [','] := passes_of_plain (forall_mem_of_all (by decide))
    rw [Json.compactFields]
    exact (passes_quote k.toList).append (hcolon.append
      ((passes_compactChars x).append (hcomma.append (passes_compactFields (f :: fs)))))

end

/-- Embedded JSON is scanned up to its closing bracket, whatever follows it. -/
theorem scanValue_compactChars (form : Form) {v : Json} (hv : v.isContainer = true)
    (rest : List Char) :
    scanValue form (v.compactChars ++ rest) = .ok (.structured v.compact, rest) := by
  unfold Json.compact
  cases v with
  | array xs =>
    have hscan := scanStructured_brackets (.inl rfl) (.inl rfl) (passes_compactItems xs) rest
    rw [Json.compactChars]
    unfold scanValue
    rw [List.cons_append] at hscan ⊢
    simp only [hscan]
    rfl
  | object fs =>
    have hscan := scanStructured_brackets (.inr rfl) (.inr rfl) (passes_compactFields fs) rest
    rw [Json.compactChars]
    unfold scanValue
    rw [List.cons_append] at hscan ⊢
    simp only [hscan]
    rfl
  | null => cases hv
  | bool b => cases hv
  | int n => cases hv
  | float x => cases hv
  | text s => cases hv

/-! ### All kinds of values -/

/-- The characters of a number as style declarations hold it may stand in bare words. -/
lemma isBareChar_of_number {c : Char} (hc : c.isDigit = true ∨ c = '.' ∨ c = '-') :
    isBareChar c = true := by
  rcases hc with hc | rfl | rfl
  · obtain ⟨n, hn, rfl⟩ := Text.exists_digitChar hc
    have hall : ∀ n < 10, isBareChar (Nat.digitChar n) = true := by decide
    exact hall n hn
  · decide
  · decide

/-- The text of a number is a bare word, also that of an infinity or of no number. -/
lemma numberText_isBare (x : Binary64) :
    (numberText x).toList ≠ [] ∧ (∀ c ∈ (numberText x).toList, isBareChar c = true) ∧
      (numberText x).toList.head? ≠ some '[' := by
  have hword : ∀ word : List Char, (numberText x).toList = word → word ≠ [] →
      (word.all fun c => isBareChar c) = true → word.head? ≠ some '[' →
      (numberText x).toList ≠ [] ∧ (∀ c ∈ (numberText x).toList, isBareChar c = true) ∧
        (numberText x).toList.head? ≠ some '[' := by
    intro word htext hne hall hhead
    rw [htext]
    exact ⟨hne, List.all_eq_true.mp hall, hhead⟩
  cases x with
  | nan => exact hword "NaN".toList (by decide) (by decide) (by decide) (by decide)
  | infinite s =>
    cases s with
    | true => exact hword "-inf".toList (by decide) (by decide) (by decide) (by decide)
    | false => exact hword "inf".toList (by decide) (by decide) (by decide) (by decide)
  | finite s r =>
    obtain ⟨hne, hchars⟩ := Binary64.numberText_chars (x := .finite s r) rfl
    refine ⟨hne, fun c hc => isBareChar_of_number (hchars c hc), fun hhead => ?_⟩
    have hbracket := hchars '[' (List.mem_of_mem_head? hhead)
    revert hbracket
    decide

/-- A written value is scanned as the value it was written for. -/
theorem scanValue_valueText {form : Form} (v : AttributeValue) {rest : List Char}
    (hrest : EndsValue form rest) :
    scanValue form (valueText v ++ rest) = .ok (rawValue v, rest) := by
  cases v with
  | bool b =>
    cases b with
    | true => exact scanValue_bare (by decide) (forall_mem_of_all (by decide)) (by decide) hrest
    | false => exact scanValue_bare (by decide) (forall_mem_of_all (by decide)) (by decide) hrest
  | number x =>
    obtain ⟨hne, hchars, hhead⟩ := numberText_isBare x
    have hscan := scanValue_bare hne hchars hhead hrest
    rwa [String.ofList_toList] at hscan
  | text s =>
    unfold valueText rawValue
    simp only
    by_cases hsafe : isBareSafe s.toList = true
    · rw [if_pos hsafe, if_pos hsafe]
      unfold isBareSafe at hsafe
      simp only [Bool.and_eq_true, Bool.not_eq_true', bne_iff_ne, List.all_eq_true] at hsafe
      obtain ⟨⟨⟨⟨⟨hne, hhead⟩, hchars⟩, -⟩, -⟩, -⟩ := hsafe
      have hscan := scanValue_bare (by simpa using hne) hchars hhead hrest
      rwa [String.ofList_toList] at hscan
    · rw [if_neg hsafe, if_neg hsafe, scanValue_quoteText, String.ofList_toList]
  | json v =>
    unfold valueText rawValue
    simp only
    by_cases hcontainer : v.isContainer = true
    · rw [if_pos hcontainer, if_pos hcontainer]
      exact scanValue_compactChars form hcontainer rest
    · rw [if_neg hcontainer, if_neg hcontainer, scanValue_quoteText]
      rfl

/-- A bare word that is safe is a text. -/
lemma bareValue_of_isBareSafe {s : String} (h : isBareSafe s.toList = true) :
    bareValue s = .text s := by
  unfold isBareSafe at h
  simp only [Bool.and_eq_true, bne_iff_ne, Option.isNone_iff_eq_none] at h
  obtain ⟨⟨⟨-, htrue⟩, hfalse⟩, hnumber⟩ := h
  unfold bareValue Binary64.ofText?
  rw [if_neg fun heq => htrue (by rw [heq]), if_neg fun heq => hfalse (by rw [heq]), hnumber]

/-- A bare word that reads as a finite number is that number. -/
lemma bareValue_of_read {s : String} {y : Binary64} (h : Binary64.read? s.toList = some y)
    (hy : y.isFinite = true) : bareValue s = .number y := by
  have htrue : s ≠ "true" := by
    rintro rfl
    have hnone : Binary64.read? "true".toList = none := by decide
    rw [hnone] at h
    cases h
  have hfalse : s ≠ "false" := by
    rintro rfl
    have hnone : Binary64.read? "false".toList = none := by decide
    rw [hnone] at h
    cases h
  unfold bareValue Binary64.ofText?
  rw [if_neg htrue, if_neg hfalse, h]
  simp only [hy, if_true]

/-- Values under other keys are not spread. -/
lemma boxSides?_of_not_mem {key : String} (h : key ∉ boxKeys) (raw : String) :
    boxSides? key raw = none := by
  have hcontains : boxKeys.contains key = false := by
    rw [List.contains_eq_mem, decide_eq_false_iff_not]
    exact h
  unfold boxSides?
  rw [hcontains]
  rfl

/-- The sides that a written value is spread over, if its key takes a box shorthand and it is one
of these. -/
def shorthand? (key : String) (v : AttributeValue) : Option (List (String × AttributeValue)) :=
  match v with
  | .json _ => none
  | v => boxSides? key v.css

/-- A scanned value becomes the reread value under its key, or the sides that it is spread over. -/
lemma toOption_convert_rawValue (key : String) {v : AttributeValue} (hv : v.Writable) :
    (convert key (rawValue v)).toOption =
      v.reread.map fun w => (shorthand? key v).getD [(key, w)] := by
  cases v with
  | bool b =>
    cases b with
    | true =>
      have hvalue : bareValue "true" = .bool true := if_pos rfl
      change some ((boxSides? key "true").getD [(key, bareValue "true")]) = _
      rw [hvalue]
      rfl
    | false =>
      have hvalue : bareValue "false" = .bool false := by
        rw [bareValue, if_neg (by decide), if_pos rfl]
      change some ((boxSides? key "false").getD [(key, bareValue "false")]) = _
      rw [hvalue]
      rfl
  | number x =>
    obtain ⟨y, hread, hy, -⟩ := Binary64.read?_numberText hv
    have hvalue := bareValue_of_read hread hy
    change some ((boxSides? key (numberText x)).getD [(key, bareValue (numberText x))]) = _
    rw [hvalue, AttributeValue.reread, hread]
    rfl
  | text s =>
    unfold rawValue
    simp only
    by_cases hsafe : isBareSafe s.toList = true
    · have hvalue := bareValue_of_isBareSafe hsafe
      rw [if_pos hsafe, convert, hvalue]
      rfl
    · rw [if_neg hsafe]
      rfl
  | json v =>
    obtain ⟨hcontainer, hdepth, hproper⟩ := hv
    have hparse := Json.parse_compact hproper hdepth
    unfold convert rawValue AttributeValue.reread
    simp only [hcontainer, if_true]
    rw [toOption_bind, hparse]
    cases v.reread with
    | none => rfl
    | some w => rfl

/-- A scanned value becomes the reread value under its key, unless it is a box shorthand. -/
theorem convert_rawValue {key : String} {v : AttributeValue} (hv : v.Writable)
    (hbox : v.json? = none → boxSides? key v.css = none) :
    (convert key (rawValue v)).toOption = v.reread.map fun w => [(key, w)] := by
  have hnone : shorthand? key v = none := by
    cases v with
    | json v => rfl
    | bool b => exact hbox rfl
    | number x => exact hbox rfl
    | text s => exact hbox rfl
  rw [toOption_convert_rawValue key hv, hnone]
  rfl

end Script

end MailTemplate
