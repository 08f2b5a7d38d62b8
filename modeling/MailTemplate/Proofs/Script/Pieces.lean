import MailTemplate.Proofs.Script.Lexing
import MailTemplate.Proofs.Script.ScannedValues

/-!
# A source in pieces

Reading a source leaves nothing out: the texts of its pieces, one after the other, are the source
(`textOf_pieces`).  A token that is no content starts with a character that is no layout, and
content stands only behind the end of a tag (`covers_pieces`).  When reading fails, the text at
fault is at the front of what is left of the source, and it starts with such a character, too
(`stands_pieces`).
-/

namespace MailTemplate.Script

/-! ### What the scanners leave -/

/-- A comment and what it leaves make up the text; the text at a fault in it is its front. -/
lemma scanComment_spec (cs : List Char) :
    match scanComment cs with
    | .ok (s, rest) => s ++ rest = cs
    | .error s => s <+: cs := by
  fun_induction scanComment cs with
  | case1 => exact List.nil_prefix
  | case2 rest => rfl
  | case3 rest _ => exact List.nil_prefix
  | case4 c rest _ _ s r hscan ih =>
    rw [hscan] at ih
    exact congrArg ('-' :: c :: ·) ih
  | case5 c rest _ _ s hscan ih =>
    rw [hscan] at ih
    exact List.cons_prefix_cons.mpr ⟨rfl, List.cons_prefix_cons.mpr ⟨rfl, ih⟩⟩
  | case6 rest _ _ => exact List.nil_prefix
  | case7 c rest _ _ _ s r hscan ih =>
    rw [hscan] at ih
    exact congrArg (c :: ·) ih
  | case8 c rest _ _ _ s hscan ih =>
    rw [hscan] at ih
    exact List.cons_prefix_cons.mpr ⟨rfl, ih⟩

/-! ### What stands at the front -/

/-- What stands at the front of a text is cut off it: a piece that is no content, with what follows
it, or the text at fault. -/
def Front.Cuts (cs : List Char) : Front → Prop
  | .piece p after => p.text ++ after = cs ∧ p.text ≠ [] ∧ ∀ s t, p ≠ .token (.content s) t
  | .fault _ lexeme => lexeme <+: cs ∧ lexeme ≠ []
  | .unknown _ lexeme => lexeme <+: cs ∧ lexeme ≠ []

/-- An attribute is cut off the text that starts with its key. -/
lemma cuts_frontAttribute (form : Form) (key rest : List Char) :
    (frontAttribute form key rest).Cuts (key ++ '=' :: rest) := by
  unfold frontAttribute
  split
  · next value after hvalue =>
    obtain ⟨taken, rfl⟩ := scanValue_suffix hvalue
    have htake : (taken ++ after).take ((taken ++ after).length - after.length) = taken := by
      rw [List.length_append, Nat.add_sub_cancel, List.take_left]
    refine ⟨?_, by simp [Piece.text], nofun⟩
    rw [Piece.text, htake, List.append_assoc, List.cons_append]
  · exact ⟨⟨rest, by rw [List.append_assoc]; rfl⟩, by simp⟩

/-- A run at the front of a text is cut off it. -/
lemma cons_takeWhile_append {p : Char → Bool} (c : Char) (rest : List Char) :
    (c :: rest.takeWhile p) ++ rest.dropWhile p = c :: rest := by
  rw [List.cons_append, List.takeWhile_append_dropWhile]

/-- Layout is cut off the text. -/
lemma cuts_frontLayout {c : Char} (hc : Text.isLayout c = true) (rest : List Char) :
    (frontLayout (c :: rest)).Cuts (c :: rest) := by
  refine ⟨List.takeWhile_append_dropWhile, ?_, nofun⟩
  rw [Piece.text, List.takeWhile_cons_of_pos hc]
  exact List.cons_ne_nil _ _

/-- What stands at the front of a text in the brace form is cut off it. -/
lemma cuts_frontBrace (c : Char) (rest : List Char) : (frontBrace c rest).Cuts (c :: rest) := by
  unfold frontBrace
  split
  · next hc => exact cuts_frontLayout hc rest
  split
  · exact ⟨rfl, List.cons_ne_nil _ _, nofun⟩
  split
  · exact ⟨rfl, List.cons_ne_nil _ _, nofun⟩
  split
  · exact ⟨cons_takeWhile_append c rest, List.cons_ne_nil _ _, nofun⟩
  have hname := cons_takeWhile_append (p := isKeyChar) c rest
  split
  · simp only
    split
    · next after hafter =>
      rw [hafter] at hname
      exact hname ▸ cuts_frontAttribute .brace _ after
    · split
      · exact ⟨⟨_, hname⟩, List.cons_ne_nil _ _⟩
      · split
        · exact ⟨hname, List.cons_ne_nil _ _, nofun⟩
        · exact ⟨⟨_, hname⟩, List.cons_ne_nil _ _⟩
  · exact ⟨⟨rest, rfl⟩, List.cons_ne_nil _ _⟩

/-- What starts with a less-than sign in the tag form is cut off the text. -/
lemma cuts_frontTag (rest : List Char) : (frontTag rest).Cuts ('<' :: rest) := by
  unfold frontTag
  split
  · next r =>
    have hcomment := scanComment_spec r
    split
    · next s after hscan =>
      rw [hscan] at hcomment
      obtain rfl : s ++ after = r := hcomment
      exact ⟨rfl, List.cons_ne_nil _ _, nofun⟩
    · next s hscan =>
      rw [hscan] at hcomment
      obtain ⟨after, rfl⟩ : s <+: r := hcomment
      exact ⟨⟨after, rfl⟩, List.cons_ne_nil _ _⟩
  · next r =>
    simp only
    split
    · exact ⟨⟨_, rfl⟩, List.cons_ne_nil _ _⟩
    · -- the name, the blanks behind it, and what follows
      have hname : r.takeWhile Char.isAlpha ++ r.dropWhile Char.isAlpha = r :=
        List.takeWhile_append_dropWhile
      have hblanks : (r.dropWhile Char.isAlpha).takeWhile Text.isLayout ++
          (r.dropWhile Char.isAlpha).dropWhile Text.isLayout = r.dropWhile Char.isAlpha :=
        List.takeWhile_append_dropWhile
      have hlexeme : '<' :: '/' :: (r.takeWhile Char.isAlpha ++
          (r.dropWhile Char.isAlpha).takeWhile Text.isLayout) ++
            (r.dropWhile Char.isAlpha).dropWhile Text.isLayout = '<' :: '/' :: r := by
        rw [List.cons_append, List.cons_append, List.append_assoc, hblanks, hname]
      split
      · next after hafter =>
        rw [hafter, List.append_cons] at hlexeme
        split
        · exact ⟨hlexeme, by simp [Piece.text], nofun⟩
        · exact ⟨⟨after, hlexeme⟩, by simp⟩
      · exact ⟨⟨_, hlexeme⟩, List.cons_ne_nil _ _⟩
  · have hname := cons_takeWhile_append (p := Char.isAlpha) '<' rest
    simp only
    split
    · exact ⟨⟨_, rfl⟩, List.cons_ne_nil _ _⟩
    · split
      · exact ⟨hname, List.cons_ne_nil _ _, nofun⟩
      · exact ⟨⟨_, hname⟩, List.cons_ne_nil _ _⟩

/-- What stands at the front of a text in the tag form is cut off it. -/
lemma cuts_frontOfTags (c : Char) (rest : List Char) : (frontOfTags c rest).Cuts (c :: rest) := by
  unfold frontOfTags
  split
  · next hc => exact cuts_frontLayout hc rest
  split
  · next hc => exact hc ▸ cuts_frontTag rest
  split
  · exact ⟨rfl, List.cons_ne_nil _ _, nofun⟩
  split
  · next hc =>
    obtain ⟨rfl, hhead⟩ := hc
    obtain ⟨more, rfl⟩ := List.head?_eq_some_iff.mp hhead
    exact ⟨rfl, List.cons_ne_nil _ _, nofun⟩
  have hname := cons_takeWhile_append (p := isKeyChar) c rest
  split
  · simp only
    split
    · next after hafter =>
      rw [hafter] at hname
      exact hname ▸ cuts_frontAttribute .tag _ after
    · exact ⟨⟨_, hname⟩, List.cons_ne_nil _ _⟩
  · exact ⟨⟨rest, rfl⟩, List.cons_ne_nil _ _⟩

/-- What stands at the front of a text is cut off it. -/
lemma cuts_front (form : Form) (c : Char) (rest : List Char) :
    (front form c rest).Cuts (c :: rest) := by
  cases form with
  | brace => exact cuts_frontBrace c rest
  | tag => exact cuts_frontOfTags c rest

/-- A piece at the front of a text takes a character. -/
lemma length_after_le {form : Form} {c : Char} {rest after : List Char} {piece : Piece}
    (h : front form c rest = .piece piece after) : after.length ≤ rest.length := by
  have hcuts := cuts_front form c rest
  rw [h] at hcuts
  have hlength := congrArg List.length hcuts.1
  have hpos := List.length_pos_iff.mpr hcuts.2.1
  rw [List.length_append, List.length_cons] at hlength
  omega

/-! ### Texts that show -/

/-- The text starts with a character that is no layout. -/
def Shows (text : List Char) : Prop := ∃ c more, text = c :: more ∧ Text.isLayout c = false

/-- A front of a text that shows does so, too, if it is not empty. -/
lemma Shows.of_front {cs text : List Char} (h : Shows cs) (hfront : text <+: cs)
    (hne : text ≠ []) : Shows text := by
  obtain ⟨c, more, rfl, hc⟩ := h
  obtain ⟨d, rest, rfl⟩ := List.exists_cons_of_ne_nil hne
  obtain ⟨rfl, -⟩ := List.cons_prefix_cons.mp hfront
  exact ⟨d, rest, rfl, hc⟩

/-- A text that does not start with a gap shows. -/
lemma shows_of_front (form : Form) {c : Char} {rest : List Char}
    (h : ∀ text after, front form c rest ≠ .piece (.gap text) after) : Shows (c :: rest) := by
  refine ⟨c, rest, rfl, ?_⟩
  by_contra hlayout
  rw [Bool.not_eq_false] at hlayout
  exact h _ _ (front_layout hlayout)

/-- A text that does not start with a gap starts with a text that shows. -/
lemma shows_of_front_token {form : Form} {c : Char} {rest text after : List Char} {token : Token}
    (h : front form c rest = .piece (.token token text) after) : Shows text := by
  have hcuts := cuts_front form c rest
  rw [h] at hcuts
  obtain ⟨hsplit, hne, -⟩ := hcuts
  refine (shows_of_front form ?_).of_front ⟨after, hsplit⟩ hne
  intro gap after' hgap
  rw [h] at hgap
  cases hgap

/-! ### Whole sources -/

@[simp] lemma Piece.text_gap (text : List Char) : (Piece.gap text).text = text := rfl

@[simp] lemma Piece.text_token (token : Token) (text : List Char) :
    (Piece.token token text).text = text := rfl

/-- The text that pieces make up. -/
def textOf (ps : List Piece) : List Char := (ps.map Piece.text).flatten

@[simp] lemma textOf_nil : textOf [] = [] := rfl

@[simp] lemma textOf_cons (p : Piece) (ps : List Piece) : textOf (p :: ps) = p.text ++ textOf ps :=
  rfl

@[simp] lemma textOf_append (ps qs : List Piece) : textOf (ps ++ qs) = textOf ps ++ textOf qs := by
  rw [textOf, textOf, textOf, List.map_append, List.flatten_append]

/-- The pieces make up the text.  Every token shows, apart from content, and content stands only
behind the end of a tag. -/
inductive Covers : List Char → List Piece → Prop
  | nil : Covers [] []
  | gap (text : List Char) {after : List Char} {ps : List Piece} (hmore : Covers after ps) :
      Covers (text ++ after) (.gap text :: ps)
  | token {token : Token} {text after : List Char} {ps : List Piece} (hshows : Shows text)
      (hplain : ∀ s, token ≠ .content s) (hmore : Covers after ps) :
      Covers (text ++ after) (.token token text :: ps)
  | content {text : List Char} (content : String) (inside : List Char) {after : List Char}
      {ps : List Piece} (hshows : Shows text) (hmore : Covers after ps) :
      Covers (text ++ (inside ++ after))
        (.token .tagEnd text :: .token (.content content) inside :: ps)

/-- The text at fault is at the front of what is left of the source, and shows. -/
structure LexFault.Stands (source : List Char) (fault : LexFault) : Prop where
  rest : fault.rest <:+ source
  lexeme : fault.lexeme <+: fault.rest
  shows : Shows fault.lexeme

section Pieces

variable {form : Form} {fuel : ℕ} {leaf : Option (Element × List Char)} {c : Char}
  {cs rest source : List Char} {ps : List Piece}

/-- The pieces of a text have the piece at its front first, and after the end of the opening tag of
a leaf its content. -/
lemma piecesFrom_cons_eq_ok (h : piecesFrom form (fuel + 1) leaf (c :: rest) = .ok ps) :
    (∃ text after more, front form c rest = .piece (.gap text) after ∧
      piecesFrom form fuel leaf after = .ok more ∧ ps = .gap text :: more) ∨
    (∃ token text after more, front form c rest = .piece (.token token text) after ∧
      (token ≠ .tagEnd ∨ leaf = none) ∧
      piecesFrom form fuel (leafAfter leaf token (c :: rest)) after = .ok more ∧
      ps = .token token text :: more) ∨
    ∃ element opened text inside behind more, leaf = some (element, opened) ∧
      front form c rest = .piece (.token .tagEnd text) (inside ++ behind) ∧
      ¬HoldsClosing element.keyword.toList inside ∧
      StartsClosing element.keyword.toList behind ∧
      piecesFrom form fuel none behind = .ok more ∧
      ps = .token .tagEnd text ::
        .token (.content (String.ofList (Text.trim inside))) inside :: more := by
  cases hfront : front form c rest with
  | fault fault lexeme =>
    rw [piecesFrom_fault fuel hfront] at h
    cases h
  | unknown cause lexeme =>
    rw [piecesFrom_unknown fuel hfront] at h
    cases h
  | piece piece after =>
    cases piece with
    | gap text =>
      rw [piecesFrom_gap fuel hfront, bind_eq_ok] at h
      obtain ⟨more, hmore, heq⟩ := h
      exact .inl ⟨text, after, more, rfl, hmore, (pure_eq_ok.mp heq).symm⟩
    | token token text =>
      by_cases hplain : token ≠ .tagEnd ∨ leaf = none
      · rw [piecesFrom_token fuel hfront hplain, bind_eq_ok] at h
        obtain ⟨more, hmore, heq⟩ := h
        exact .inr (.inl
          ⟨token, text, after, more, rfl, hplain, hmore, (pure_eq_ok.mp heq).symm⟩)
      · obtain ⟨hend, hleaf⟩ := not_or.mp hplain
        obtain rfl := not_not.mp hend
        obtain ⟨⟨element, opened⟩, rfl⟩ := Option.ne_none_iff_exists'.mp hleaf
        rw [piecesFrom_tagEnd fuel hfront] at h
        split at h
        · cases h
        · next inside behind hinside =>
          obtain ⟨more, hmore, heq⟩ := bind_eq_ok.mp h
          obtain ⟨rfl, hholds, hstarts⟩ := contentBefore_spec hinside
          exact .inr (.inr ⟨element, opened, text, inside, behind, more, rfl, rfl, hholds, hstarts,
            hmore, (pure_eq_ok.mp heq).symm⟩)

/-- The pieces of a text make it up. -/
lemma covers_piecesFrom (hfuel : cs.length ≤ fuel) (h : piecesFrom form fuel leaf cs = .ok ps) :
    Covers cs ps := by
  induction fuel generalizing leaf cs ps with
  | zero =>
    obtain rfl := Except.ok.inj h
    obtain rfl := List.eq_nil_of_length_eq_zero (Nat.le_zero.mp hfuel)
    exact .nil
  | succ fuel ih =>
    cases cs with
    | nil =>
      obtain rfl := Except.ok.inj h
      exact .nil
    | cons c rest =>
      have hcuts := cuts_front form c rest
      -- the piece takes a character, so the fuel lasts for what follows
      have hlength : ∀ {piece after}, front form c rest = .piece piece after →
          after.length ≤ fuel := fun hfront =>
        (length_after_le hfront).trans (Nat.le_of_succ_le_succ hfuel)
      obtain ⟨text, after, more, hfront, hmore, rfl⟩ |
        ⟨token, text, after, more, hfront, -, hmore, rfl⟩ |
        ⟨element, opened, text, inside, behind, more, -, hfront, -, -, hmore, rfl⟩ :=
        piecesFrom_cons_eq_ok h
      · rw [hfront] at hcuts
        rw [← hcuts.1]
        exact .gap text (ih (hlength hfront) hmore)
      · rw [hfront] at hcuts
        obtain ⟨hsplit, -, hplain⟩ := hcuts
        rw [← hsplit]
        refine .token (shows_of_front_token hfront) ?_ (ih (hlength hfront) hmore)
        rintro s rfl
        exact hplain s text rfl
      · rw [hfront] at hcuts
        have hbehind := hlength hfront
        rw [List.length_append] at hbehind
        rw [← hcuts.1]
        exact .content _ inside (shows_of_front_token hfront) (ih (by omega) hmore)

/-- The leaf after a token is none, the former one, or one whose opening tag starts with the
token. -/
lemma leafAfter_cases (leaf : Option (Element × List Char)) (token : Token) (here : List Char) :
    leafAfter leaf token here = none ∨ leafAfter leaf token here = leaf ∨
      ∃ element, leafAfter leaf token here = some (element, here) := by
  cases token with
  | openTag element =>
    by_cases hleaf : element.isLeaf = true
    · exact .inr (.inr ⟨element, if_pos hleaf⟩)
    · exact .inl (if_neg hleaf)
  | closeTag element => exact .inl rfl
  | selfClose => exact .inl rfl
  | tagEnd => exact .inl rfl
  | _ => exact .inr (.inl rfl)

/-- A text at fault stands at the front of what is left of the source, if the opening tag that is
being read does. -/
lemma stands_piecesFrom (hsource : cs <:+ source)
    (hleaf : ∀ element opened, leaf = some (element, opened) → opened <:+ source ∧ Shows opened)
    {fault : LexFault} (h : piecesFrom form fuel leaf cs = .error fault) : fault.Stands source := by
  induction fuel generalizing leaf cs with
  | zero => cases h
  | succ fuel ih =>
    cases cs with
    | nil => cases h
    | cons c rest =>
      have hcuts := cuts_front form c rest
      cases hfront : front form c rest with
      | fault scan lexeme =>
        rw [hfront] at hcuts
        rw [piecesFrom_fault fuel hfront] at h
        obtain rfl := Except.error.inj h
        have hshows : Shows (c :: rest) := shows_of_front form (by simp [hfront])
        exact ⟨hsource, hcuts.1, hshows.of_front hcuts.1 hcuts.2⟩
      | unknown cause lexeme =>
        rw [hfront] at hcuts
        rw [piecesFrom_unknown fuel hfront] at h
        obtain rfl := Except.error.inj h
        have hshows : Shows (c :: rest) := shows_of_front form (by simp [hfront])
        exact ⟨hsource, hcuts.1, hshows.of_front hcuts.1 hcuts.2⟩
      | piece piece after =>
        rw [hfront] at hcuts
        have hafter : after <:+ source := List.IsSuffix.trans ⟨piece.text, hcuts.1⟩ hsource
        cases piece with
        | gap text =>
          rw [piecesFrom_gap fuel hfront, bind_eq_error] at h
          rcases h with h | ⟨more, -, h⟩
          · exact ih hafter hleaf h
          · cases h
        | token token text =>
          have hshows : Shows (c :: rest) := shows_of_front form (by simp [hfront])
          -- the end of a leaf's opening tag is the one token with content behind it
          by_cases hplain : token ≠ .tagEnd ∨ leaf = none
          · rw [piecesFrom_token fuel hfront hplain, bind_eq_error] at h
            rcases h with h | ⟨more, -, h⟩
            · refine ih hafter ?_ h
              intro element opened hopened
              rcases leafAfter_cases leaf token (c :: rest) with hnone | hsame | ⟨e, hhere⟩
              · rw [hnone] at hopened
                cases hopened
              · exact hleaf element opened (hsame ▸ hopened)
              · rw [hhere] at hopened
                obtain ⟨-, rfl⟩ := Prod.mk.inj (Option.some.inj hopened)
                exact ⟨hsource, hshows⟩
            · cases h
          · obtain ⟨hend, hsome⟩ := not_or.mp hplain
            obtain rfl := not_not.mp hend
            obtain ⟨⟨element, opened⟩, rfl⟩ := Option.ne_none_iff_exists'.mp hsome
            obtain ⟨hopened, hstarts⟩ := hleaf element opened rfl
            rw [piecesFrom_tagEnd fuel hfront] at h
            split at h
            · obtain rfl := Except.error.inj h
              exact ⟨hopened, List.prefix_refl _, hstarts⟩
            · next inside behind hinside =>
              have hbehind : behind <:+ after := ⟨inside, (contentBefore_spec hinside).1.symm⟩
              rcases bind_eq_error.mp h with h | ⟨more, -, h⟩
              · exact ih (hbehind.trans hafter) (by simp) h
              · cases h

end Pieces

variable {source : List Char}

/-- The pieces of a source make it up. -/
lemma covers_pieces {ps : List Piece} (h : pieces source = .ok ps) : Covers source ps :=
  covers_piecesFrom le_rfl h

/-- A text at fault stands in the source. -/
lemma stands_pieces {fault : LexFault} (h : pieces source = .error fault) : fault.Stands source :=
  stands_piecesFrom (List.suffix_refl source) (by simp) h

/-- Texts of pieces that make up a text are the text, one after the other. -/
lemma Covers.textOf_eq {cs : List Char} {ps : List Piece} (h : Covers cs ps) : textOf ps = cs := by
  induction h with
  | nil => rfl
  | gap text hmore ih => rw [textOf_cons, ih, Piece.text_gap]
  | token hshows hplain hmore ih => rw [textOf_cons, ih, Piece.text_token]
  | content content inside hshows hmore ih =>
    rw [textOf_cons, textOf_cons, ih, Piece.text_token, Piece.text_token]

/-- Reading a source leaves nothing out: the texts of its pieces are the source. -/
theorem textOf_pieces {ps : List Piece} (h : pieces source = .ok ps) : textOf ps = source :=
  (covers_pieces h).textOf_eq

end MailTemplate.Script
