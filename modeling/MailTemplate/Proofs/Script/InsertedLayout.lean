import MailTemplate.Proofs.Blanks
import MailTemplate.Proofs.Script.ErasedLexemes
import MailTemplate.Proofs.Script.LexicalGrammar

/-!
# Layout between tokens

Layout does not matter: no token reaches into the text behind it, or depends on more of that than
layout leaves as it is.  So layout may be put in front of any token and behind it, also around the
content of a leaf, which is trimmed.

Main results: layout between pieces, at a token, leaves the tokens among them as they are
(`InPieces.insert_layout`), so a source with layout put in at a token has the same form and the same
tokens (`lex_insert_layout`) and compiles to the same document, or to an error with the same cause
(`script_insert_layout`).
-/

namespace MailTemplate

namespace Script

/-! ### Pieces and what starts them -/

section Ahead

variable {form : Form} {p : Piece} {after text : List Char} {token : Token}

/-- A token that stands in front of a text shows. -/
lemma Stands.shows (h : Stands form (.token token text) after) : Shows text := by
  obtain ⟨c, cs, rfl⟩ := List.exists_cons_of_ne_nil h.ne_nil
  exact shows_of_front_token (h.front_eq rfl)

/-- A text of several characters, or of one that is no mark of several tokens, starts alike in front
of all texts. -/
lemma ahead_append {c : Char} {cs : List Char} (h : cs = [] → c ≠ '<' ∧ c ≠ '/')
    (t t' : List Char) : ahead (c :: cs ++ t) = ahead (c :: cs ++ t') := by
  cases cs with
  | nil =>
    have hmark : ¬(c = '<' ∨ c = '/') := not_or.mpr (h rfl)
    rw [List.cons_append, List.cons_append, ahead, ahead, if_neg hmark, if_neg hmark]
  | cons d cs => rfl

/-- A piece that stands in front of a text starts alike in front of all texts. -/
lemma Stands.ahead_append (h : Stands form p after) (t t' : List Char) :
    ahead (p.text ++ t) = ahead (p.text ++ t') := by
  cases h with
  | @layout _ text _ hne htext _ =>
    obtain ⟨c, cs, rfl⟩ := List.exists_cons_of_ne_nil hne
    have hc := htext c List.mem_cons_self
    exact Script.ahead_append
      (fun _ => ⟨ne_of_isLayout hc (by decide), ne_of_isLayout hc (by decide)⟩) t t'
  | keyword element =>
    obtain ⟨c, cs, hname, hletters⟩ := exists_keyword element
    have hc := hletters c List.mem_cons_self
    rw [Piece.text_token, hname]
    refine Script.ahead_append (fun _ => ⟨?_, ?_⟩) t t'
    · rintro rfl
      cases hc
    · rintro rfl
      cases hc
  | @attr _ key value _ _ hkey _ =>
    obtain ⟨c, key, rfl⟩ : ∃ c cs, key = c :: cs := by
      refine List.exists_cons_of_ne_nil fun hnil => ?_
      rw [hnil] at hkey
      cases hkey
    exact Script.ahead_append (by simp) t t'
  | openTag element =>
    obtain ⟨c, cs, hname, -⟩ := exists_keyword element
    rw [Piece.text_token, hname]
    rfl
  | _ => rfl

/-- A piece with a closing tag at its front takes the end of the tag. -/
lemma Stands.mem_tagEnd (h : Stands form p after) {keyword : List Char}
    (hclosing : StartsClosing keyword (p.text ++ after)) : '>' ∈ p.text := by
  obtain ⟨blanks, rest, htext, -⟩ := hclosing
  cases h with
  | layout hne hrun _ =>
    obtain ⟨c, cs, rfl⟩ := List.exists_cons_of_ne_nil hne
    obtain rfl : c = '<' := (List.cons.inj htext).1
    exact absurd (hrun _ List.mem_cons_self) (by decide)
  | comment => simp at htext
  | @attr _ key _ _ _ hkey _ =>
    cases key with
    | nil => cases hkey
    | cons c key =>
      obtain rfl : c = '<' := (List.cons.inj htext).1
      cases hkey
  | keyword element =>
    obtain ⟨c, cs, hname, hletters⟩ := exists_keyword element
    rw [Piece.text_token, hname] at htext
    obtain rfl : c = '<' := (List.cons.inj htext).1
    cases hletters _ List.mem_cons_self
  | openTag element =>
    obtain ⟨c, cs, hname, hletters⟩ := exists_keyword element
    rw [Piece.text_token, hname] at htext
    obtain rfl : c = '/' := (List.cons.inj (List.cons.inj htext).2).1
    cases hletters _ List.mem_cons_self
  | closeTag => simp
  | tagEnd => simp
  | _ => simp at htext

end Ahead

/-! ### Layout among pieces -/

section Layout

variable {form : Form} {leaf : Option Element} {first more ps : List Piece} {w : List Char}

/-- The place between pieces is right behind a token, or right in front of one. -/
def AtToken (first more : List Piece) : Prop :=
  (∃ token text, first.getLast? = some (.token token text)) ∨
    ∃ token text, more.head? = some (.token token text)

/-- A place behind several pieces is the same behind the last of them. -/
lemma AtToken.of_cons {p : Piece} (h : AtToken (p :: first) more) (hne : first ≠ []) :
    AtToken first more := by
  refine h.imp_left fun ⟨token, text, hlast⟩ => ⟨token, text, ?_⟩
  obtain ⟨q, first, rfl⟩ := List.exists_cons_of_ne_nil hne
  rwa [List.getLast?_cons_cons] at hlast

/-- A text is read as tokens, while the opening tag of a leaf is being read. -/
def IsReadAs (form : Form) (leaf : Option Element) (text : List Char) (tokens : List Token) :
    Prop :=
  ∃ ps, InPieces form leaf ps ∧ textOf ps = text ∧ tokensOf ps = tokens

/-- Layout in front of pieces adds no token. -/
lemma InPieces.layout_append (h : InPieces form leaf ps) (hw : ∀ c ∈ w, Text.isLayout c = true) :
    IsReadAs form leaf (w ++ textOf ps) (tokensOf ps) := by
  rcases eq_or_ne w [] with rfl | hne
  · exact ⟨ps, h, rfl, rfl⟩
  -- in front of what is no layout it is a gap of its own
  have hgap : (∀ c ∈ (textOf ps).head?, Text.isLayout c = false) →
      IsReadAs form leaf (w ++ textOf ps) (tokensOf ps) := fun hhead =>
    ⟨.gap w :: ps, .gap (.layout hne hw hhead) h, rfl, rfl⟩
  have hshows : ∀ {text after : List Char}, Shows text →
      ∀ c ∈ (text ++ after).head?, Text.isLayout c = false := by
    rintro text after ⟨c, cs, rfl, hc⟩ d hd
    obtain rfl : c = d := Option.some.inj hd
    exact hc
  cases h with
  | nil => exact hgap fun c hc => by cases hc
  | @gap _ text ps hstands hmore =>
    cases hstands with
    | layout _ htext hafter =>
      -- more layout is a part of the same gap
      refine ⟨.gap (w ++ text) :: ps, .gap (.layout (by simp [hne]) ?_ hafter) hmore, by simp, rfl⟩
      exact List.forall_mem_append.mpr ⟨hw, htext⟩
    | line => exact hgap (hshows ⟨'/', _, rfl, by decide⟩)
    | comment => exact hgap (hshows ⟨'<', _, rfl, by decide⟩)
  | token htoken _ _ => exact hgap (hshows htoken.shows)
  | content hend _ _ _ => exact hgap (hshows hend.shows)

/-- Layout follows in the place of a text, in front of it. -/
lemma follows_layout_append (hw : ∀ c ∈ w, Text.isLayout c = true) (t : List Char) :
    Follows t (w ++ t) := by
  cases w with
  | nil => exact .alike rfl
  | cons c w => exact .layout (w ++ t) (hw c List.mem_cons_self)

/-- Pieces start alike with whatever stands behind the first of them. -/
lemma InPieces.ahead_eq (h : InPieces form leaf (first ++ more)) (hne : first ≠ [])
    (t : List Char) : ahead (textOf first ++ t) = ahead (textOf (first ++ more)) := by
  obtain ⟨p, first, rfl⟩ := List.exists_cons_of_ne_nil hne
  rw [textOf_append, textOf_cons, List.append_assoc, List.append_assoc]
  exact h.stands.ahead_append _ _

/-- Layout may be put in between a gap and a token. -/
lemma InPieces.insert_layout_gap {text : List Char} (hgap : Stands form (.gap text) (textOf more))
    (h : InPieces form leaf more) (hw : ∀ c ∈ w, Text.isLayout c = true)
    (hhead : ∃ token text, more.head? = some (.token token text)) :
    IsReadAs form leaf (text ++ (w ++ textOf more)) (tokensOf more) := by
  cases hgap with
  | layout hne htext _ =>
    rw [← List.append_assoc]
    exact h.layout_append (List.forall_mem_append.mpr ⟨htext, hw⟩)
  | line hbody hafter =>
    -- a comment goes on to the end of its line, so no token is behind it
    obtain ⟨token, text, hhead⟩ := hhead
    obtain ⟨more, rfl⟩ := List.head?_eq_some_iff.mp hhead
    obtain ⟨c, cs, rfl, hc⟩ := h.stands.shows
    obtain rfl : c = '\n' := hafter c rfl
    exact absurd hc (by decide)
  | comment htext =>
    obtain ⟨ps, hps, htextOf, htokens⟩ := h.layout_append hw
    refine ⟨.gap _ :: ps, .gap (.comment htext _) hps, ?_, htokens⟩
    rw [textOf_cons, htextOf, Piece.text_gap]

/-- The end of a tag stands in front of any text. -/
lemma Stands.tagEnd_front {text after : List Char} (h : Stands form (.token .tagEnd text) after)
    (t : List Char) : Stands form (.token .tagEnd text) t := by
  cases h
  exact .tagEnd t

/-- Layout may be put in anywhere behind the content of a leaf where it may be among the pieces
there. -/
lemma InPieces.insert_layout_content {element : Element} {text inside : List Char}
    (hend : Stands form (.token .tagEnd text) (inside ++ textOf (first ++ more)))
    (hinside : ¬HoldsClosing element.keyword.toList inside)
    (hclosing : StartsClosing element.keyword.toList (textOf (first ++ more)))
    (h : InPieces form none (first ++ more)) (hw : ∀ c ∈ w, Text.isLayout c = true)
    (hmore : first ≠ [] →
      IsReadAs form none (textOf first ++ (w ++ textOf more)) (tokensOf (first ++ more))) :
    IsReadAs form (some element) (text ++ (inside ++ (textOf first ++ (w ++ textOf more))))
      (.tagEnd :: .content (String.ofList (Text.trim inside)) :: tokensOf (first ++ more)) := by
  have hmark : '>' ∉ element.keyword.toList := not_mem_keyword element (by decide)
  rcases first with _ | ⟨p, first⟩
  · -- right behind the content, of which it becomes a part
    have hblank : ∀ c ∈ w, Text.isBlank c = true := fun c hc => Text.isBlank_of_isLayout (hw c hc)
    have hnot : ¬HoldsClosing element.keyword.toList (inside ++ w) := fun hholds =>
      hinside (hholds.of_append_blanks hmark hblank)
    refine ⟨_, .content (hend.tagEnd_front _) hnot hclosing h, by simp, ?_⟩
    rw [Text.trim_append_blanks hblank]
    rfl
  · -- behind the closing tag, or a part of it, of which the end is in the first piece
    obtain ⟨ps, hps, htext, htokens⟩ := hmore (by simp)
    have hclosed : '>' ∈ textOf (p :: first) :=
      List.mem_append_left _ (h.stands.mem_tagEnd hclosing)
    rw [textOf_append] at hclosing
    have hclosing' : StartsClosing element.keyword.toList (textOf ps) := by
      rw [htext]
      exact (hclosing.of_append hmark hclosed).append _
    refine ⟨_, .content (hend.tagEnd_front _) hinside hclosing' hps, by simp [htext], ?_⟩
    rw [tokensOf, tokensOf, htokens]

/-- Layout may be put in at any token: the text is read as the same tokens. -/
theorem InPieces.insert_layout (h : InPieces form leaf (first ++ more))
    (hw : ∀ c ∈ w, Text.isLayout c = true) (hat : AtToken first more) :
    IsReadAs form leaf (textOf first ++ (w ++ textOf more)) (tokensOf (first ++ more)) := by
  rcases eq_or_ne first [] with rfl | hne
  · exact h.layout_append hw
  generalize hall : first ++ more = all at h
  -- the layout comes right behind the first piece, or further on, where the induction puts it
  induction h generalizing first with
  | nil leaf => exact absurd (List.append_eq_nil_iff.mp hall).1 hne
  | @gap leaf text ps hgap hmore ih =>
    obtain ⟨p, first, rfl⟩ := List.exists_cons_of_ne_nil hne
    rw [List.cons_append] at hall
    obtain ⟨rfl, rfl⟩ := List.cons.inj hall
    rcases eq_or_ne first [] with rfl | hfirst
    · have hhead : ∃ token text, more.head? = some (.token token text) :=
        hat.resolve_left (by simp)
      simpa [tokensOf] using hmore.insert_layout_gap hgap hw hhead
    · obtain ⟨ps, hps, htext, htokens⟩ := ih (hat.of_cons hfirst) hfirst rfl
      have hahead : ahead (textOf ps) = ahead (textOf (first ++ more)) := by
        rw [htext]
        exact hmore.ahead_eq hfirst _
      refine ⟨.gap text :: ps, .gap (hgap.follows (.alike hahead) fun _ _ => hahead) hps, ?_,
        htokens⟩
      rw [textOf_cons, htext, textOf_cons, List.append_assoc]
  | @token leaf token text ps htoken hplain hmore ih =>
    obtain ⟨p, first, rfl⟩ := List.exists_cons_of_ne_nil hne
    rw [List.cons_append] at hall
    obtain ⟨rfl, rfl⟩ := List.cons.inj hall
    have hrest : IsReadAs form (leafBehind leaf token) (textOf first ++ (w ++ textOf more))
        (tokensOf (first ++ more)) := by
      rcases eq_or_ne first [] with rfl | hfirst
      · exact hmore.layout_append hw
      · exact ih (hat.of_cons hfirst) hfirst rfl
    have hfollows : Follows (textOf (first ++ more)) (textOf first ++ (w ++ textOf more)) := by
      rcases eq_or_ne first [] with rfl | hfirst
      · exact follows_layout_append hw _
      · exact .alike (hmore.ahead_eq hfirst _)
    obtain ⟨ps, hps, htext, htokens⟩ := hrest
    rw [← htext] at hfollows
    have hstands : Stands form (.token token text) (textOf ps) :=
      htoken.follows hfollows fun _ hgap => by cases hgap
    refine ⟨.token token text :: ps, .token hstands hplain hps, ?_, congrArg (token :: ·) htokens⟩
    rw [textOf_cons, htext, textOf_cons, List.append_assoc]
  | @content element text inside ps hend hinside hclosing hmore ih =>
    rcases first with _ | ⟨p, _ | ⟨q, first⟩⟩
    · exact absurd rfl hne
    · -- in front of the content, of which it becomes a part
      obtain ⟨rfl, rfl⟩ := List.cons.inj hall
      have hblank : ∀ c ∈ w, Text.isBlank c = true := fun c hc =>
        Text.isBlank_of_isLayout (hw c hc)
      have hnot : ¬HoldsClosing element.keyword.toList (w ++ inside) := fun hholds =>
        hinside (hholds.of_blanks_append hblank)
      refine ⟨_, .content (hend.tagEnd_front _) hnot hclosing hmore, by simp, ?_⟩
      rw [Text.trim_blanks_append hblank]
      rfl
    · rw [List.cons_append, List.cons_append] at hall
      obtain ⟨rfl, hrest⟩ := List.cons.inj hall
      obtain ⟨rfl, rfl⟩ := List.cons.inj hrest
      have hread := hmore.insert_layout_content hend hinside hclosing hw fun hfirst =>
        ih ((hat.of_cons (by simp)).of_cons hfirst) hfirst rfl
      simpa [tokensOf] using hread

end Layout

/-! ### Whole sources -/

section Sources

variable {before after w : List Char} {lexemes : List Lexeme} {l : Lexeme}

/-- Layout put in anywhere leaves the form of a source as it is. -/
lemma formOf_insert_layout (hw : ∀ c ∈ w, Text.isLayout c = true) (before after : List Char) :
    formOf (before ++ (w ++ after)) = formOf (before ++ after) := by
  have hblank : ∀ c ∈ w, Text.isBlank c = true := fun c hc => Text.isBlank_of_isLayout (hw c hc)
  have hhead : (Text.trimLeft (before ++ (w ++ after))).head? =
      (Text.trimLeft (before ++ after)).head? := by
    rw [Text.trimLeft, Text.trimLeft, List.dropWhile_append, List.dropWhile_append_of_pos hblank,
      List.dropWhile_append]
    split
    · rfl
    · next hne =>
      have hshown : before.dropWhile Text.isBlank ≠ [] := fun hnil => hne (by rw [hnil]; rfl)
      rw [List.head?_append_of_ne_nil _ hshown, List.head?_append_of_ne_nil _ hshown]
  unfold formOf
  rw [hhead]

/-- A text is cut in one way at a position. -/
lemma append_inj_of_utf8Size {first more : List Char} (h : before ++ after = first ++ more)
    (hsize : Text.utf8Size before = Text.utf8Size first) : before = first ∧ after = more := by
  have hsplit := Text.splitBytes?_append before after
  rw [hsize, h, Text.splitBytes?_append] at hsplit
  obtain ⟨rfl, rfl⟩ := Prod.mk.inj (Option.some.inj hsplit)
  exact ⟨rfl, rfl⟩

/-- Where a token of pieces starts or ends is a place between them at a token. -/
lemma exists_atToken {ps : List Piece} (hl : l ∈ lexemesFrom 0 ps)
    (hsource : textOf ps = before ++ after)
    (hat : Text.utf8Size before = l.span.start ∨ Text.utf8Size before = l.span.stop) :
    ∃ first more, ps = first ++ more ∧ textOf first = before ∧ textOf more = after ∧
      AtToken first more := by
  obtain ⟨first, text, more, rfl, hspan⟩ := exists_of_mem_lexemesFrom hl
  rw [hspan] at hat
  simp only [Nat.zero_add, ← Text.utf8Size_append] at hat
  rcases hat with hstart | hstop
  · have hsplit : before ++ after = textOf first ++ textOf (.token l.token text :: more) := by
      rw [← hsource, textOf_append]
    obtain ⟨rfl, rfl⟩ := append_inj_of_utf8Size hsplit hstart
    exact ⟨first, _, rfl, rfl, rfl, .inr ⟨l.token, text, rfl⟩⟩
  · have hsplit : before ++ after = (textOf first ++ text) ++ textOf more := by
      rw [← hsource, textOf_append, textOf_cons, Piece.text_token, List.append_assoc]
    obtain ⟨rfl, rfl⟩ := append_inj_of_utf8Size hsplit hstop
    exact ⟨first ++ [.token l.token text], more, by simp, by simp, rfl,
      .inl ⟨l.token, text, by simp⟩⟩

/-- A source with layout put in right in front of a token or right behind it has the same tokens. -/
lemma lex_insert_layout (hlex : lex (before ++ after) = .ok lexemes) (hl : l ∈ lexemes)
    (hat : Text.utf8Size before = l.span.start ∨ Text.utf8Size before = l.span.stop)
    (hw : ∀ c ∈ w, Text.isLayout c = true) :
    ∃ lexemes', lex (before ++ (w ++ after)) = .ok lexemes' ∧
      lexemes'.map Lexeme.token = lexemes.map Lexeme.token := by
  obtain ⟨ps, hsource, hpieces, rfl⟩ := lex_eq_ok_iff.mp hlex
  obtain ⟨first, more, rfl, rfl, rfl, hplace⟩ := exists_atToken hl hsource hat
  obtain ⟨ps', hps', htext, htokens⟩ := hpieces.insert_layout hw hplace
  rw [← formOf_insert_layout hw] at hps'
  refine ⟨lexemesFrom 0 ps', lex_eq_ok_iff.mpr ⟨ps', htext, hps', rfl⟩, ?_⟩
  rw [map_token_lexemesFrom, map_token_lexemesFrom, htokens]

/-- Layout does not matter: put in right in front of a token of a source, or right behind it,
spaces, tabs and line breaks leave the form of the source and its tokens as they are, up to spans,
and it compiles to the same document, or to an error with the same cause. -/
theorem script_insert_layout (hlex : lex (before ++ after) = .ok lexemes) (hl : l ∈ lexemes)
    (hat : Text.utf8Size before = l.span.start ∨ Text.utf8Size before = l.span.stop)
    (hw : ∀ c ∈ w, Text.isLayout c = true) :
    formOf (before ++ (w ++ after)) = formOf (before ++ after) ∧
    (∃ lexemes', lex (before ++ (w ++ after)) = .ok lexemes' ∧
      lexemes'.map Lexeme.token = lexemes.map Lexeme.token) ∧
    ∀ defaults : Defaults,
      (compileWith defaults (String.ofList (before ++ (w ++ after)))).mapError Error.cause =
        (compileWith defaults (String.ofList (before ++ after))).mapError Error.cause := by
  have hform := formOf_insert_layout hw before after
  obtain ⟨lexemes', hlex', htokens⟩ := lex_insert_layout hlex hl hat hw
  refine ⟨hform, ⟨lexemes', hlex', htokens⟩, fun defaults => ?_⟩
  rw [← String.toList_ofList (l := before ++ after)] at hlex
  rw [← String.toList_ofList (l := before ++ (w ++ after))] at hlex'
  rw [mapError_compileWith hlex, mapError_compileWith hlex', htokens, String.toList_ofList,
    String.toList_ofList, hform]

end Sources

/-- A line break and a tab in front of the content of a leaf, behind inline markup. -/
theorem script_insert_layout_content :
    lex ("<TEXT html=<b>x</b>>".toList ++ "Hi</TEXT>".toList) =
      .ok [⟨.openTag (.block .text), ⟨0, 5⟩⟩, ⟨.attr ⟨"html", .html "<b>x</b>"⟩, ⟨6, 19⟩⟩,
        ⟨.tagEnd, ⟨19, 20⟩⟩, ⟨.content "Hi", ⟨20, 22⟩⟩, ⟨.closeTag (.block .text), ⟨22, 29⟩⟩] ∧
    formOf "<TEXT html=<b>x</b>>\n\tHi</TEXT>".toList = .tag ∧
    (∃ lexemes, lex "<TEXT html=<b>x</b>>\n\tHi</TEXT>".toList = .ok lexemes ∧
      lexemes.map Lexeme.token = [.openTag (.block .text), .attr ⟨"html", .html "<b>x</b>"⟩,
        .tagEnd, .content "Hi", .closeTag (.block .text)]) ∧
    (compileWith {} "<TEXT html=<b>x</b>>\n\tHi</TEXT>").mapError Error.cause =
      (compileWith {} "<TEXT html=<b>x</b>>Hi</TEXT>").mapError Error.cause := by
  have hlex : lex ("<TEXT html=<b>x</b>>".toList ++ "Hi</TEXT>".toList) =
      .ok [⟨.openTag (.block .text), ⟨0, 5⟩⟩, ⟨.attr ⟨"html", .html "<b>x</b>"⟩, ⟨6, 19⟩⟩,
        ⟨.tagEnd, ⟨19, 20⟩⟩, ⟨.content "Hi", ⟨20, 22⟩⟩, ⟨.closeTag (.block .text), ⟨22, 29⟩⟩] := by
    decide +kernel
  have hform : formOf ("<TEXT html=<b>x</b>>".toList ++ "Hi</TEXT>".toList) = .tag := by
    decide +kernel
  have hw : ∀ c ∈ "\n\t".toList, Text.isLayout c = true := forall_mem_of_all (by decide)
  have hmem : (⟨.tagEnd, ⟨19, 20⟩⟩ : Lexeme) ∈ [⟨.openTag (.block .text), ⟨0, 5⟩⟩,
      ⟨.attr ⟨"html", .html "<b>x</b>"⟩, ⟨6, 19⟩⟩, ⟨.tagEnd, ⟨19, 20⟩⟩, ⟨.content "Hi", ⟨20, 22⟩⟩,
      ⟨.closeTag (.block .text), ⟨22, 29⟩⟩] := by simp
  obtain ⟨hsame, htokens, hcompile⟩ :=
    script_insert_layout hlex hmem (.inr (by decide +kernel)) hw
  exact ⟨hlex, hsame.trans hform, htokens, hcompile {}⟩

end Script

end MailTemplate
