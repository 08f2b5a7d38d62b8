import MailTemplate.Proofs.Script.LexicalGrammar
import MailTemplate.Proofs.Script.Spans

/-!
# The gaps between tokens

What a source has beside its tokens are gaps: layout, and the comments of its form.  A comment of
the brace form goes on to the end of its line, and one of the tag form ends at the first double
hyphen in it.

Main result: every token is a part of the source, and every stretch between two tokens, before the
first or behind the last of them is a gap (`standsAt_lex`).
-/

namespace MailTemplate.Script

/-! ### Gaps -/

/-- A text is a comment of a surface form, in front of what follows it. -/
def IsComment : Form → (text after : List Char) → Prop
  | .brace, text, after =>
    ∃ body, text = "//".toList ++ body ∧ '\n' ∉ body ∧ ∀ c ∈ after.head?, c = '\n'
  | .tag, text, _ =>
    ∃ body, text = "<!--".toList ++ (body ++ "-->".toList) ∧ ¬['-', '-'] <:+: body ++ ['-']

/-- A text is layout and comments, in front of what follows it. -/
inductive IsGap (form : Form) : (text after : List Char) → Prop
  | nil (after : List Char) : IsGap form [] after
  | layout {c : Char} {text after : List Char} (hc : Text.isLayout c = true)
      (hmore : IsGap form text after) : IsGap form (c :: text) after
  | comment {comment text after : List Char} (hcomment : IsComment form comment (text ++ after))
      (hmore : IsGap form text after) : IsGap form (comment ++ text) after

section Gaps

variable {form : Form} {c : Char} {text more after rest : List Char}

/-- A gap goes on with a gap. -/
lemma IsGap.append (h : IsGap form text (more ++ after)) (hmore : IsGap form more after) :
    IsGap form (text ++ more) after := by
  generalize hafter : more ++ after = behind at h
  induction h with
  | nil => exact hmore
  | layout hc _ ih => exact .layout hc (ih hafter)
  | @comment comment text _ hcomment _ ih =>
    rw [List.append_assoc]
    refine .comment ?_ (ih hafter)
    rwa [List.append_assoc, hafter]

/-- A run of layout is a gap. -/
lemma isGap_of_layout (h : ∀ c ∈ text, Text.isLayout c = true) (after : List Char) :
    IsGap form text after := by
  induction text with
  | nil => exact .nil after
  | cons c text ih =>
    rw [List.forall_mem_cons] at h
    exact .layout h.1 (ih h.2)

/-- A comment is a gap. -/
lemma IsComment.isGap (h : IsComment form text after) : IsGap form text after := by
  rw [← List.append_nil text]
  exact .comment (by rwa [List.nil_append]) (.nil after)

/-- A comment of the tag form is scanned up to the first double hyphen in it. -/
lemma exists_of_scanComment {cs : List Char} (h : scanComment cs = .ok (text, after)) :
    ∃ body, text = body ++ "-->".toList ∧ ¬['-', '-'] <:+: body ++ ['-'] := by
  fun_induction scanComment cs generalizing text with
  | case1 => cases h
  | case2 rest =>
    obtain ⟨rfl, -⟩ := Prod.mk.inj (Except.ok.inj h)
    exact ⟨[], rfl, by decide⟩
  | case3 rest _ => cases h
  | case4 c rest _ hc s r hscan ih =>
    obtain ⟨rfl, rfl⟩ := Prod.mk.inj (Except.ok.inj h)
    obtain ⟨body, rfl, hbody⟩ := ih hscan
    refine ⟨'-' :: c :: body, rfl, ?_⟩
    simp [List.infix_cons_iff, hbody, Ne.symm hc]
  | case5 c rest _ _ s hscan ih => cases h
  | case6 rest _ _ => cases h
  | case7 c rest _ _ hc s r hscan ih =>
    obtain ⟨rfl, rfl⟩ := Prod.mk.inj (Except.ok.inj h)
    obtain ⟨body, rfl, hbody⟩ := ih hscan
    refine ⟨c :: body, rfl, ?_⟩
    simp [List.infix_cons_iff, hbody, Ne.symm hc]
  | case8 c rest _ _ _ s hscan ih => cases h

/-- A piece that is no token is a gap, in front of what it stands before. -/
lemma Stands.isGap (h : Stands form (.gap text) after) : IsGap form text after := by
  cases h with
  | layout _ htext _ => exact isGap_of_layout htext after
  | @line body _ hbody hafter => exact IsComment.isGap ⟨body, rfl, hbody, hafter⟩
  | comment htext =>
    obtain ⟨body, rfl, hbody⟩ := exists_of_scanComment (htext [])
    exact IsComment.isGap ⟨body, rfl, hbody⟩

end Gaps

/-! ### Whole sources -/

/-- The pieces that are no tokens are gaps, each in front of those behind it. -/
def AreGaps (form : Form) : List Piece → Prop
  | [] => True
  | .gap text :: ps => IsGap form text (textOf ps) ∧ AreGaps form ps
  | .token _ _ :: ps => AreGaps form ps

/-- The pieces of a text that are no tokens are gaps. -/
lemma InPieces.areGaps {form : Form} {leaf : Option Element} {ps : List Piece}
    (h : InPieces form leaf ps) : AreGaps form ps := by
  induction h with
  | nil => trivial
  | gap hgap _ ih => exact ⟨hgap.isGap, ih⟩
  | token _ _ _ ih => exact ih
  | content _ _ _ _ ih => exact ih

/-- A span of a source is where a text stands, in front of what follows it. -/
def StandsAt (source : List Char) (span : Span) (text after : List Char) : Prop :=
  ∃ before, source = before ++ (text ++ after) ∧
    span = ⟨Text.utf8Size before, Text.utf8Size before + Text.utf8Size text⟩

/-- The spans before, between and behind tokens, from one position of a source to another. -/
def spansBetween (stop : ℕ) : (start : ℕ) → List Lexeme → List Span
  | start, [] => [⟨start, stop⟩]
  | start, l :: rest => ⟨start, l.span.start⟩ :: spansBetween stop l.span.stop rest

/-- A token of pieces is a part of the text that they make up. -/
lemma standsAt_of_mem_lexemesFrom {source : List Char} {ps : List Piece} {l : Lexeme}
    (hsource : textOf ps = source) (hl : l ∈ lexemesFrom 0 ps) :
    ∃ text after, StandsAt source l.span text after := by
  obtain ⟨first, text, more, rfl, hspan⟩ := exists_of_mem_lexemesFrom hl
  refine ⟨text, textOf more, textOf first, ?_, ?_⟩
  · rw [← hsource, textOf_append, textOf_cons, Piece.text_token]
  · rw [hspan, Nat.zero_add]

/-- What is between the tokens of pieces are gaps; `pending` is the gap at the front that was read
before. -/
lemma isGap_of_mem_spansBetween {form : Form} {source before pending : List Char} {ps : List Piece}
    (hgaps : AreGaps form ps) (hsource : source = before ++ (pending ++ textOf ps))
    (hpending : IsGap form pending (textOf ps)) :
    ∀ gap ∈ spansBetween (Text.utf8Size source) (Text.utf8Size before)
        (lexemesFrom (Text.utf8Size before + Text.utf8Size pending) ps),
      ∃ text after, StandsAt source gap text after ∧ IsGap form text after := by
  induction ps generalizing before pending with
  | nil =>
    intro gap hgap
    obtain rfl := List.mem_singleton.mp hgap
    refine ⟨pending, [], ⟨before, hsource, ?_⟩, hpending⟩
    rw [hsource]
    simp
  | cons p ps ih =>
    cases p with
    | gap text =>
      obtain ⟨hgap, hgaps⟩ := hgaps
      rw [textOf_cons, Piece.text_gap] at hsource hpending
      rw [lexemesFrom, Nat.add_assoc, ← Text.utf8Size_append]
      exact ih hgaps (by rw [hsource, List.append_assoc]) (hpending.append hgap)
    | token token text =>
      rw [textOf_cons, Piece.text_token] at hsource hpending
      have hwhole : source = before ++ pending ++ text ++ ([] ++ textOf ps) := by
        rw [hsource]
        simp
      have hspans := ih hgaps hwhole (.nil _)
      simp only [Text.utf8Size_append, Text.utf8Size_nil, Nat.add_zero] at hspans
      rw [lexemesFrom]
      exact List.forall_mem_cons.mpr ⟨⟨pending, _, ⟨before, hsource, rfl⟩, hpending⟩, hspans⟩

/-- The tokens of a source are parts of it, and what is between them are gaps. -/
theorem standsAt_lex {source : List Char} {lexemes : List Lexeme} (h : lex source = .ok lexemes) :
    (∀ l ∈ lexemes, ∃ text after, StandsAt source l.span text after) ∧
    ∀ gap ∈ spansBetween (Text.utf8Size source) 0 lexemes,
      ∃ text after, StandsAt source gap text after ∧ IsGap (formOf source) text after := by
  obtain ⟨ps, hsource, hpieces, rfl⟩ := lex_eq_ok_iff.mp h
  have hwhole : source = [] ++ ([] ++ textOf ps) := hsource.symm
  exact ⟨fun l hl => standsAt_of_mem_lexemesFrom hsource hl,
    isGap_of_mem_spansBetween hpieces.areGaps hwhole (.nil _)⟩

end MailTemplate.Script
