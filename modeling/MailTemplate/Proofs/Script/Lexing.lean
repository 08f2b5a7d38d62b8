import MailTemplate.Proofs.Script.InlineMarkup
import MailTemplate.Proofs.Script.TagContent
import MailTemplate.Proofs.Script.WrittenValues

/-!
# Lexing token by token

What a text is lexed to depends on what each token takes from its front: layout adds nothing, and a
token comes before the tokens of what follows it.

Main results: the rules for attributes (`lexes_attributes`), for keywords and braces
(`lexes_keyword`, `lexes_open`, `lexes_close`), and for tags and the content between them
(`lexes_openTag`, `lexes_tagEnd`, `lexes_selfClose`, `lexes_closeTag`, `lexes_content`), from which
the tokens of a written script are put together.
-/

namespace MailTemplate.Script

/-- The tokens among pieces. -/
def tokensOf : List Piece → List Token
  | [] => []
  | .gap _ :: pieces => tokensOf pieces
  | .token token _ :: pieces => token :: tokensOf pieces

/-- The lexemes of pieces are their tokens, wherever they stand. -/
lemma map_token_lexemesFrom (position : ℕ) (pieces : List Piece) :
    (lexemesFrom position pieces).map Lexeme.token = tokensOf pieces := by
  induction pieces generalizing position with
  | nil => rfl
  | cons piece pieces ih =>
    cases piece with
    | gap text => exact ih _
    | token token text =>
      rw [lexemesFrom, List.map_cons, ih]
      rfl

/-- The front of a text in a surface form. -/
def front (form : Form) (c : Char) (rest : List Char) : Front :=
  match form with
  | .brace => frontBrace c rest
  | .tag => frontOfTags c rest

/-- A text is lexed to tokens, with as many steps as it has characters. -/
def Lexes (form : Form) (leaf : Option (Element × List Char)) (cs : List Char)
    (tokens : List Token) : Prop :=
  ∀ fuel, cs.length ≤ fuel →
    ∃ pieces, piecesFrom form fuel leaf cs = .ok pieces ∧ tokensOf pieces = tokens

section Rules

variable {form : Form} {leaf : Option (Element × List Char)} {c : Char} {cs rest : List Char}
  {tokens : List Token}

/-- No text has no tokens. -/
lemma lexes_nil : Lexes form leaf [] [] := by
  intro fuel _
  cases fuel with
  | zero => exact ⟨[], rfl, rfl⟩
  | succ fuel => exact ⟨[], rfl, rfl⟩

/-- A fault at the front of a text is the fault of the text. -/
lemma piecesFrom_fault (fuel : ℕ) {fault : ScanFault} {lexeme : List Char}
    (h : front form c rest = .fault fault lexeme) : piecesFrom form (fuel + 1) leaf (c :: rest) =
      .error ⟨causeOf form fault (c :: rest), lexeme, c :: rest⟩ := by
  cases form with
  | brace =>
    have hbrace : frontBrace c rest = .fault fault lexeme := h
    rw [piecesFrom.eq_def]
    simp only [hbrace]
  | tag =>
    have htag : frontOfTags c rest = .fault fault lexeme := h
    rw [piecesFrom.eq_def]
    simp only [htag]

/-- A name at the front of a text that is no element is the fault of the text. -/
lemma piecesFrom_unknown (fuel : ℕ) {cause : Cause} {lexeme : List Char}
    (h : front form c rest = .unknown cause lexeme) :
    piecesFrom form (fuel + 1) leaf (c :: rest) = .error ⟨cause, lexeme, c :: rest⟩ := by
  cases form with
  | brace =>
    have hbrace : frontBrace c rest = .unknown cause lexeme := h
    rw [piecesFrom.eq_def]
    simp only [hbrace]
  | tag =>
    have htag : frontOfTags c rest = .unknown cause lexeme := h
    rw [piecesFrom.eq_def]
    simp only [htag]

/-- A gap at the front comes before the pieces of what follows it. -/
lemma piecesFrom_gap (fuel : ℕ) {text after : List Char}
    (h : front form c rest = .piece (.gap text) after) :
    piecesFrom form (fuel + 1) leaf (c :: rest) = (do
      let pieces ← piecesFrom form fuel leaf after
      return .gap text :: pieces) := by
  cases form with
  | brace =>
    have hbrace : frontBrace c rest = .piece (.gap text) after := h
    rw [piecesFrom.eq_def]
    simp only [hbrace]
  | tag =>
    have htag : frontOfTags c rest = .piece (.gap text) after := h
    rw [piecesFrom.eq_def]
    simp only [htag]

/-- A token at the front comes before the pieces of what follows it, unless it is the end of the
opening tag of a leaf. -/
lemma piecesFrom_token (fuel : ℕ) {token : Token} {text after : List Char}
    (h : front form c rest = .piece (.token token text) after)
    (hplain : token ≠ .tagEnd ∨ leaf = none) :
    piecesFrom form (fuel + 1) leaf (c :: rest) = (do
      let pieces ← piecesFrom form fuel (leafAfter leaf token (c :: rest)) after
      return .token token text :: pieces) := by
  cases form with
  | brace =>
    have hbrace : frontBrace c rest = .piece (.token token text) after := h
    rw [piecesFrom.eq_def]
    simp only [hbrace]
    split
    · simp at hplain
    · rfl
  | tag =>
    have htag : frontOfTags c rest = .piece (.token token text) after := h
    rw [piecesFrom.eq_def]
    simp only [htag]
    split
    · simp at hplain
    · rfl

/-- After the end of the opening tag of a leaf its content is one token. -/
lemma piecesFrom_tagEnd (fuel : ℕ) {element : Element} {opened text after : List Char}
    (h : front form c rest = .piece (.token .tagEnd text) after) :
    piecesFrom form (fuel + 1) (some (element, opened)) (c :: rest) =
      match contentBefore element.keyword.toList after with
      | none => .error ⟨.unterminatedContent element, opened, opened⟩
      | some (content, behind) => do
        let pieces ← piecesFrom form fuel none behind
        return .token .tagEnd text ::
          .token (.content (String.ofList (Text.trim content))) content :: pieces := by
  cases form with
  | brace =>
    have hbrace : frontBrace c rest = .piece (.token .tagEnd text) after := h
    have hstep := piecesFrom.eq_def .brace (fuel + 1) (some (element, opened)) (c :: rest)
    simp only [hbrace] at hstep
    exact hstep
  | tag =>
    have htag : frontOfTags c rest = .piece (.token .tagEnd text) after := h
    have hstep := piecesFrom.eq_def .tag (fuel + 1) (some (element, opened)) (c :: rest)
    simp only [htag] at hstep
    exact hstep

/-- Layout at the front is one gap. -/
lemma front_layout (hc : Text.isLayout c = true) : front form c rest =
    .piece (.gap ((c :: rest).takeWhile Text.isLayout)) (rest.dropWhile Text.isLayout) := by
  have hdrop : (c :: rest).dropWhile Text.isLayout = rest.dropWhile Text.isLayout :=
    List.dropWhile_cons_of_pos hc
  rw [← hdrop]
  cases form with
  | brace => exact if_pos hc
  | tag => exact if_pos hc

/-- A character of layout adds no token. -/
lemma lexes_layout (hc : Text.isLayout c = true) (h : Lexes form leaf rest tokens) :
    Lexes form leaf (c :: rest) tokens := by
  intro fuel hfuel
  obtain ⟨fuel, rfl⟩ : ∃ n, fuel = n + 1 := ⟨fuel - 1, by rw [List.length_cons] at hfuel; omega⟩
  have hle : rest.length ≤ fuel := by simpa using hfuel
  -- more layout would be part of the same gap
  have hmore : ∃ pieces, piecesFrom form fuel leaf (rest.dropWhile Text.isLayout) = .ok pieces ∧
      tokensOf pieces = tokens := by
    cases rest with
    | nil => exact h fuel hle
    | cons d rest =>
      by_cases hd : Text.isLayout d = true
      · obtain ⟨pieces, hpieces, htokens⟩ := h (fuel + 1) (Nat.le_succ_of_le hle)
        rw [piecesFrom_gap fuel (front_layout hd), bind_eq_ok] at hpieces
        obtain ⟨later, hlater, heq⟩ := hpieces
        obtain rfl := Except.ok.inj heq
        exact ⟨later, by rwa [List.dropWhile_cons_of_pos hd], htokens⟩
      · rw [List.dropWhile_cons_of_neg hd]
        exact h fuel hle
  obtain ⟨pieces, hpieces, htokens⟩ := hmore
  refine ⟨.gap ((c :: rest).takeWhile Text.isLayout) :: pieces, ?_, htokens⟩
  rw [piecesFrom_gap fuel (front_layout hc), hpieces]
  rfl

/-- A run of layout adds no token. -/
lemma lexes_layouts {run : List Char} (hrun : ∀ a ∈ run, Text.isLayout a = true)
    (h : Lexes form leaf rest tokens) : Lexes form leaf (run ++ rest) tokens := by
  induction run with
  | nil => exact h
  | cons a run ih =>
    exact lexes_layout (hrun a List.mem_cons_self) (ih fun b hb => hrun b (.tail a hb))

/-- A token at the front comes before the tokens of what follows it. -/
lemma lexes_token {token : Token} {text after : List Char}
    (hfront : front form c rest = .piece (.token token text) after)
    (hlen : after.length ≤ rest.length) (hplain : token ≠ .tagEnd ∨ leaf = none)
    (h : Lexes form (leafAfter leaf token (c :: rest)) after tokens) :
    Lexes form leaf (c :: rest) (token :: tokens) := by
  intro fuel hfuel
  obtain ⟨fuel, rfl⟩ : ∃ n, fuel = n + 1 := ⟨fuel - 1, by rw [List.length_cons] at hfuel; omega⟩
  have hle : after.length ≤ fuel := hlen.trans (by simpa using hfuel)
  obtain ⟨pieces, hpieces, htokens⟩ := h fuel hle
  refine ⟨.token token text :: pieces, ?_, by rw [tokensOf, htokens]⟩
  rw [piecesFrom_token fuel hfront hplain, hpieces]
  rfl

end Rules

/-! ### Names -/

/-- A character that starts a name is no layout and no mark. -/
lemma ne_of_isNameStart {c : Char} (hc : isNameStart c = true) {d : Char}
    (hd : isNameStart d = false) : c ≠ d := by
  rintro rfl
  rw [hc] at hd
  cases hd

/-- A character that starts a name is no layout. -/
lemma not_isLayout_of_isNameStart {c : Char} (hc : isNameStart c = true) :
    Text.isLayout c = false := by
  have hne : ∀ d, isNameStart d = false → (c == d) = false := fun d hd =>
    beq_eq_false_iff_ne.mpr (ne_of_isNameStart hc hd)
  unfold Text.isLayout
  rw [hne ' ' (by decide), hne '\t' (by decide), hne '\n' (by decide), hne '\r' (by decide)]
  rfl

/-- No mark is layout. -/
lemma ne_of_isLayout {c : Char} (hc : Text.isLayout c = true) {m : Char}
    (hm : Text.isLayout m = false) : c ≠ m := by
  rintro rfl
  rw [hc] at hm
  cases hm

/-- Layout stands in no name. -/
lemma not_isKeyChar_of_isLayout {c : Char} (hc : Text.isLayout c = true) : isKeyChar c = false := by
  unfold Text.isLayout at hc
  simp only [Bool.or_eq_true, beq_iff_eq] at hc
  rcases hc with ((rfl | rfl) | rfl) | rfl <;> decide

/-- A name is read up to its last character. -/
lemma takeWhile_name {p : Char → Bool} {cs rest : List Char} (hcs : ∀ c ∈ cs, p c = true)
    (hrest : ∀ c ∈ rest.head?, p c = false) :
    (cs ++ rest).takeWhile p = cs ∧ (cs ++ rest).dropWhile p = rest := by
  cases rest with
  | nil =>
    rw [List.append_nil]
    exact ⟨List.takeWhile_eq_self_iff.mpr hcs, List.dropWhile_eq_nil_iff.mpr hcs⟩
  | cons c rest => exact ⟨takeWhile_run hcs (hrest c rfl), dropWhile_run hcs (hrest c rfl)⟩

/-- A name in front of an equals sign is the key of an attribute, in both forms. -/
lemma front_key (form : Form) {c : Char} {cs : List Char} (hc : isNameStart c = true)
    (hcs : ∀ a ∈ cs, isKeyChar a = true) (rest : List Char) :
    front form c (cs ++ '=' :: rest) = frontAttribute form (c :: cs) rest := by
  have hequals : ∀ a ∈ ('=' :: rest).head?, isKeyChar a = false := by
    intro a ha
    obtain rfl : '=' = a := by simpa using ha
    decide
  obtain ⟨htake, hdrop⟩ := takeWhile_name hcs hequals
  have hne : ∀ d, isNameStart d = false → c ≠ d := fun d => ne_of_isNameStart hc
  cases form with
  | brace =>
    have hslash : ¬(c = '/' ∧ (cs ++ '=' :: rest).head? = some '/') := fun h =>
      hne '/' (by decide) h.1
    simp only [front, frontBrace, not_isLayout_of_isNameStart hc, hne '{' (by decide),
      hne '}' (by decide), hslash, hc, htake, hdrop, Bool.false_eq_true, if_false, if_true]
  | tag =>
    have hslash : ¬(c = '/' ∧ (cs ++ '=' :: rest).head? = some '>') := fun h =>
      hne '/' (by decide) h.1
    simp only [front, frontOfTags, not_isLayout_of_isNameStart hc, hne '<' (by decide),
      hne '>' (by decide), hslash, hc, htake, hdrop, Bool.false_eq_true, if_false, if_true]

/-- A name in front of anything else is a keyword in the brace form. -/
lemma front_keyword {c : Char} {cs rest : List Char} (hc : isNameStart c = true)
    (hcs : ∀ a ∈ cs, isKeyChar a = true) (hplain : '-' ∉ c :: cs)
    (hrest : ∀ a ∈ rest.head?, isKeyChar a = false ∧ a ≠ '=') {element : Element}
    (helement : Element.ofKeyword? (String.ofList (c :: cs)) = some element) :
    front .brace c (cs ++ rest) = .piece (.token (.keyword element) (c :: cs)) rest := by
  obtain ⟨htake, hdrop⟩ := takeWhile_name hcs fun a ha => (hrest a ha).1
  have hne : ∀ d, isNameStart d = false → c ≠ d := fun d => ne_of_isNameStart hc
  have hslash : ¬(c = '/' ∧ (cs ++ rest).head? = some '/') := fun h => hne '/' (by decide) h.1
  have hhyphen : (c :: cs).contains '-' = false := by simpa using hplain
  unfold front frontBrace
  simp only [not_isLayout_of_isNameStart hc, hne '{' (by decide), hne '}' (by decide), hslash, hc,
    htake, hdrop, Bool.false_eq_true, if_false, if_true]
  split
  · exact absurd rfl (hrest _ rfl).2
  · simp only [hhyphen, Bool.false_eq_true, if_false, helement]

/-! ### Keywords -/

/-- The keyword of an element is a word of letters. -/
lemma exists_keyword (element : Element) :
    ∃ c cs, element.keyword.toList = c :: cs ∧ ∀ a ∈ c :: cs, a.isAlpha = true := by
  cases element with
  | email => exact ⟨'E', "MAIL".toList, by decide, forall_mem_of_all (by decide)⟩
  | row => exact ⟨'R', "OW".toList, by decide, forall_mem_of_all (by decide)⟩
  | column => exact ⟨'C', "OLUMN".toList, by decide, forall_mem_of_all (by decide)⟩
  | block kind => cases kind <;> exact ⟨_, _, rfl, forall_mem_of_all (by decide)⟩

/-- A letter starts a name. -/
lemma isNameStart_of_isAlpha {c : Char} (hc : c.isAlpha = true) : isNameStart c = true := by
  unfold isNameStart
  rw [hc, Bool.true_or]

/-- A letter is a character of a key. -/
lemma isKeyChar_of_isAlpha {c : Char} (hc : c.isAlpha = true) : isKeyChar c = true := by
  unfold isKeyChar isWordChar Char.isAlphanum
  rw [hc, Bool.true_or, Bool.true_or, Bool.true_or]

/-- Layout is no letter. -/
lemma not_isAlpha_of_isLayout {c : Char} (hc : Text.isLayout c = true) : c.isAlpha = false := by
  by_contra hletter
  rw [Bool.not_eq_false] at hletter
  rw [not_isLayout_of_isNameStart (isNameStart_of_isAlpha hletter)] at hc
  cases hc

/-- A text of letters holds no other character. -/
lemma not_mem_of_isAlpha {cs : List Char} (hcs : ∀ a ∈ cs, a.isAlpha = true) {d : Char}
    (hd : d.isAlpha = false) : d ∉ cs := by
  intro hmem
  rw [hcs d hmem] at hd
  cases hd

/-! ### Tokens of the brace form -/

section Braces

variable {rest : List Char} {tokens : List Token}

/-- A keyword is one token. -/
lemma lexes_keyword (element : Element) (hrest : ∀ a ∈ rest.head?, isKeyChar a = false ∧ a ≠ '=')
    (h : Lexes .brace none rest tokens) :
    Lexes .brace none (element.keyword.toList ++ rest) (.keyword element :: tokens) := by
  obtain ⟨c, cs, htext, hletters⟩ := exists_keyword element
  have hc : isNameStart c = true := isNameStart_of_isAlpha (hletters c List.mem_cons_self)
  have hcs : ∀ a ∈ cs, isKeyChar a = true := fun a ha =>
    isKeyChar_of_isAlpha (hletters a (List.mem_cons_of_mem c ha))
  have helement : Element.ofKeyword? (String.ofList (c :: cs)) = some element := by
    rw [← htext, String.ofList_toList]
    exact Element.ofKeyword?_keyword element
  rw [htext, List.cons_append]
  exact lexes_token (front_keyword hc hcs (not_mem_of_isAlpha hletters (by decide)) hrest helement)
    (by simp) (.inr rfl) h

/-- An opening brace is one token. -/
lemma lexes_open (h : Lexes .brace none rest tokens) :
    Lexes .brace none ('{' :: rest) (.openBrace :: tokens) :=
  lexes_token (show front .brace '{' rest = .piece (.token .openBrace ['{']) rest from rfl)
    le_rfl (.inr rfl) h

/-- A closing brace is one token. -/
lemma lexes_close (h : Lexes .brace none rest tokens) :
    Lexes .brace none ('}' :: rest) (.closeBrace :: tokens) :=
  lexes_token (show front .brace '}' rest = .piece (.token .closeBrace ['}']) rest from rfl)
    le_rfl (.inr rfl) h

end Braces

/-! ### Tokens of the tag form -/

section Tags

variable {leaf : Option (Element × List Char)} {rest : List Char} {tokens : List Token}

/-- Only letters stand in a keyword. -/
lemma not_mem_keyword (element : Element) {d : Char} (hd : d.isAlpha = false) :
    d ∉ element.keyword.toList := by
  obtain ⟨c, cs, htext, hletters⟩ := exists_keyword element
  rw [htext]
  exact not_mem_of_isAlpha hletters hd

/-- The name at the front of an opening tag is its keyword. -/
lemma front_openTag (element : Element) (hrest : ∀ a ∈ rest.head?, a.isAlpha = false) :
    front .tag '<' (element.keyword.toList ++ rest) =
      .piece (.token (.openTag element) ('<' :: element.keyword.toList)) rest := by
  have helement : Element.ofKeyword? (String.ofList element.keyword.toList) = some element := by
    rw [String.ofList_toList]
    exact Element.ofKeyword?_keyword element
  obtain ⟨c, cs, htext, hletters⟩ := exists_keyword element
  rw [htext] at helement ⊢
  obtain ⟨htake, hdrop⟩ := takeWhile_name hletters hrest
  have hfirst : ∀ d, d.isAlpha = false → c ≠ d := by
    rintro d hd rfl
    exact not_mem_of_isAlpha hletters hd List.mem_cons_self
  change frontTag (c :: cs ++ rest) = _
  unfold frontTag
  split
  · next heq => exact absurd (List.cons.inj heq).1 (hfirst '!' (by decide))
  · next heq => exact absurd (List.cons.inj heq).1 (hfirst '/' (by decide))
  · simp only [htake, hdrop, helement]
    rfl

/-- The start of an opening tag is one token.  What follows it belongs to a leaf if the element is
one. -/
lemma lexes_openTag (element : Element) (hrest : ∀ a ∈ rest.head?, a.isAlpha = false)
    (h : ∀ opened, Lexes .tag (if element.isLeaf = true then some (element, opened) else none) rest
      tokens) :
    Lexes .tag none ('<' :: (element.keyword.toList ++ rest)) (.openTag element :: tokens) :=
  lexes_token (front_openTag element hrest) (by simp) (.inr rfl) (h _)

/-- The end of an opening tag is one token. -/
lemma lexes_tagEnd (h : Lexes .tag none rest tokens) :
    Lexes .tag none ('>' :: rest) (.tagEnd :: tokens) :=
  lexes_token (show front .tag '>' rest = .piece (.token .tagEnd ['>']) rest from rfl) le_rfl
    (.inr rfl) h

/-- The end of a tag that closes itself is one token. -/
lemma lexes_selfClose (h : Lexes .tag none rest tokens) :
    Lexes .tag leaf ('/' :: '>' :: rest) (.selfClose :: tokens) :=
  lexes_token (show front .tag '/' ('>' :: rest) = .piece (.token .selfClose ['/', '>']) rest from
    rfl) (Nat.le_succ _) (.inl Token.noConfusion) h

/-- A closing tag is at the front of a text, with the blanks before its end. -/
lemma front_closeTag (element : Element) {blanks : List Char}
    (hblanks : ∀ a ∈ blanks, Text.isLayout a = true) (rest : List Char) :
    front .tag '<' ('/' :: (element.keyword.toList ++ blanks) ++ '>' :: rest) =
      .piece (.token (.closeTag element)
        ('<' :: '/' :: (element.keyword.toList ++ blanks) ++ ['>'])) rest := by
  have helement : Element.ofKeyword? (String.ofList element.keyword.toList) = some element := by
    rw [String.ofList_toList]
    exact Element.ofKeyword?_keyword element
  obtain ⟨c, cs, htext, hletters⟩ := exists_keyword element
  rw [htext] at helement ⊢
  have hname : ∀ a ∈ (blanks ++ '>' :: rest).head?, a.isAlpha = false := by
    intro a ha
    cases blanks with
    | nil =>
      obtain rfl : '>' = a := by simpa using ha
      decide
    | cons b blanks =>
      obtain rfl : b = a := by simpa using ha
      exact not_isAlpha_of_isLayout (hblanks b List.mem_cons_self)
  have hmark : ∀ a ∈ ('>' :: rest).head?, Text.isLayout a = false := by
    intro a ha
    obtain rfl : '>' = a := by simpa using ha
    decide
  obtain ⟨htake, hdrop⟩ := takeWhile_name hletters hname
  obtain ⟨hblank, hend⟩ := takeWhile_name hblanks hmark
  rw [List.cons_append, List.append_assoc]
  change frontTag ('/' :: (c :: cs ++ (blanks ++ '>' :: rest))) = _
  unfold frontTag
  simp only [htake, hdrop, hblank, hend, helement]
  rfl

/-- A closing tag is one token. -/
lemma lexes_closeTag (element : Element) (h : Lexes .tag none rest tokens) :
    Lexes .tag none ('<' :: '/' :: (element.keyword.toList ++ '>' :: rest))
      (.closeTag element :: tokens) := by
  have hfront := front_closeTag element (List.forall_mem_nil _) rest
  rw [List.append_nil] at hfront
  exact lexes_token hfront (by simp; omega) (.inr rfl) h

/-- The end of the opening tag of a leaf and the content after it are one token each. -/
lemma lexes_content {element : Element} {opened content after : List Char}
    (hcontent : contentBefore element.keyword.toList rest = some (content, after))
    (h : Lexes .tag none after tokens) :
    Lexes .tag (some (element, opened)) ('>' :: rest)
      (.tagEnd :: .content (String.ofList (Text.trim content)) :: tokens) := by
  intro fuel hfuel
  obtain ⟨fuel, rfl⟩ : ∃ n, fuel = n + 1 := ⟨fuel - 1, by rw [List.length_cons] at hfuel; omega⟩
  have hle : after.length ≤ fuel := by
    have hrest := congrArg List.length ((contentBefore_spec hcontent).1)
    rw [List.length_append] at hrest
    rw [List.length_cons] at hfuel
    omega
  obtain ⟨pieces, hpieces, htokens⟩ := h fuel hle
  have hfront : front .tag '>' rest = .piece (.token .tagEnd ['>']) rest := rfl
  refine ⟨.token .tagEnd ['>'] :: .token (.content (String.ofList (Text.trim content))) content ::
    pieces, ?_, by rw [tokensOf, tokensOf, htokens]⟩
  rw [piecesFrom_tagEnd fuel hfront]
  simp only [hcontent, hpieces]
  rfl

end Tags

/-! ### Attributes -/

/-- A text in front of which every attribute value ends. -/
def EndsAttribute (form : Form) (rest : List Char) : Prop := EndsValue form rest ∧ StartsNone rest

/-- Layout ends every attribute. -/
lemma endsAttribute_layout (form : Form) {c : Char} (hc : Text.isLayout c = true)
    (rest : List Char) : EndsAttribute form (c :: rest) := by
  refine ⟨?_, fun more hmore => ?_⟩
  · have hblank := Text.isBlank_of_isLayout hc
    change endsBare form c rest = true
    unfold endsBare
    rw [hblank, Bool.true_or]
  · obtain rfl : c = '<' := (List.cons.inj hmore).1
    have hmark : Text.isLayout '<' = false := by decide
    rw [hmark] at hc
    cases hc

/-- A text that is read as an attribute, in front of any text that ends attributes. -/
def Writes (form : Form) (text : List Char) (a : RawAttribute) : Prop :=
  ∃ value, text = pair a.key value ∧ isScriptKey a.key.toList = true ∧
    ∀ rest, EndsAttribute form rest → scanValue form (value ++ rest) = .ok (a.value, rest)

/-- An attribute is at the front of a text, if its value is scanned in front of what follows. -/
lemma front_attribute {form : Form} {c : Char} {cs value after : List Char} {v : RawValue}
    (hkey : isScriptKey (c :: cs) = true)
    (hvalue : scanValue form (value ++ after) = .ok (v, after)) :
    front form c (cs ++ '=' :: (value ++ after)) =
      .piece (.token (.attr ⟨String.ofList (c :: cs), v⟩) (c :: cs ++ '=' :: value)) after := by
  simp only [isScriptKey, Bool.and_eq_true, List.all_eq_true] at hkey
  rw [front_key form hkey.1 hkey.2 (value ++ after)]
  unfold frontAttribute
  simp only [hvalue]
  rw [List.length_append, Nat.add_sub_cancel, List.take_left]

/-- An attribute is one token. -/
lemma lexes_attribute {form : Form} {leaf : Option (Element × List Char)} {text rest : List Char}
    {a : RawAttribute} {tokens : List Token} (ha : Writes form text a)
    (hrest : EndsAttribute form rest) (h : Lexes form leaf rest tokens) :
    Lexes form leaf (text ++ rest) (.attr a :: tokens) := by
  obtain ⟨value, rfl, hkey, hscan⟩ := ha
  obtain ⟨c, cs, hname⟩ : ∃ c cs, a.key.toList = c :: cs := by
    refine List.exists_cons_of_ne_nil fun hnil => ?_
    rw [hnil] at hkey
    cases hkey
  have htext : pair a.key value ++ rest = c :: (cs ++ '=' :: (value ++ rest)) := by
    rw [pair, hname]
    simp
  rw [hname] at hkey
  have hfront := front_attribute hkey (hscan rest hrest)
  rw [← hname, String.ofList_toList] at hfront
  rw [htext]
  exact lexes_token hfront (by simp; omega) (.inl Token.noConfusion) h

/-- Attributes with a blank before each are one token each. -/
lemma lexes_attributes {form : Form} {leaf : Option (Element × List Char)}
    {texts : List (List Char)} {attributes : List RawAttribute} {rest : List Char}
    {tokens : List Token} (hwrites : List.Forall₂ (Writes form) texts attributes)
    (hrest : EndsAttribute form rest) (h : Lexes form leaf rest tokens) :
    Lexes form leaf ((texts.flatMap fun p => ' ' :: p) ++ rest)
      (attributes.map .attr ++ tokens) := by
  induction hwrites with
  | nil => exact h
  | @cons text a texts attributes ha hwrites ih =>
    have hends : EndsAttribute form ((texts.flatMap fun p => ' ' :: p) ++ rest) := by
      cases texts with
      | nil => exact hrest
      | cons p texts => exact endsAttribute_layout form (by decide) _
    rw [List.flatMap_cons, List.append_assoc]
    exact lexes_layout (by decide) (lexes_attribute ha hends ih)

end MailTemplate.Script
