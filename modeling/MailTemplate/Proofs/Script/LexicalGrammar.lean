import MailTemplate.Proofs.Script.Fronts

/-!
# The grammar of pieces

The pieces of a text are told from it without counting steps: each stands in front of those behind
it, and after the end of the opening tag of a leaf the text up to the closing tag is one piece
(`InPieces`).

Main results: a source is read as pieces exactly when they make it up and follow this grammar
(`pieces_eq_ok_iff`), and its tokens are those among such pieces (`lex_eq_ok_iff`).
-/

namespace MailTemplate.Script

/-- The leaf whose opening tag is being read, behind a token. -/
def leafBehind (leaf : Option Element) : Token → Option Element
  | .openTag element => if element.isLeaf then some element else none
  | .closeTag _ => none
  | .selfClose => none
  | .tagEnd => none
  | _ => leaf

/-- Where an opening tag stands does not matter to the leaf that it opens. -/
lemma map_fst_leafAfter (leaf : Option (Element × List Char)) (token : Token) (here : List Char) :
    (leafAfter leaf token here).map Prod.fst = leafBehind (leaf.map Prod.fst) token := by
  cases token with
  | openTag element =>
    rw [leafAfter, leafBehind]
    split
    · rfl
    · rfl
  | _ => rfl

/-- Pieces stand in front of one another, while the opening tag of a leaf is being read; content
stands behind its end and in front of the closing tag. -/
inductive InPieces (form : Form) : (leaf : Option Element) → List Piece → Prop
  | nil (leaf : Option Element) : InPieces form leaf []
  | gap {leaf : Option Element} {text : List Char} {ps : List Piece}
      (hgap : Stands form (.gap text) (textOf ps)) (hmore : InPieces form leaf ps) :
      InPieces form leaf (.gap text :: ps)
  | token {leaf : Option Element} {token : Token} {text : List Char} {ps : List Piece}
      (htoken : Stands form (.token token text) (textOf ps))
      (hplain : token ≠ .tagEnd ∨ leaf = none)
      (hmore : InPieces form (leafBehind leaf token) ps) :
      InPieces form leaf (.token token text :: ps)
  | content {element : Element} {text inside : List Char} {ps : List Piece}
      (hend : Stands form (.token .tagEnd text) (inside ++ textOf ps))
      (hinside : ¬HoldsClosing element.keyword.toList inside)
      (hclosing : StartsClosing element.keyword.toList (textOf ps))
      (hmore : InPieces form none ps) :
      InPieces form (some element) (.token .tagEnd text ::
        .token (.content (String.ofList (Text.trim inside))) inside :: ps)

/-- The first of pieces stands in front of the others. -/
lemma InPieces.stands {form : Form} {leaf : Option Element} {p : Piece} {ps : List Piece}
    (h : InPieces form leaf (p :: ps)) : Stands form p (textOf ps) := by
  cases h with
  | gap hgap _ => exact hgap
  | token htoken _ _ => exact htoken
  | content hend _ _ _ => exact hend

section Pieces

variable {form : Form} {fuel : ℕ} {leaf : Option (Element × List Char)} {cs : List Char}
  {ps : List Piece}

/-- A piece that stands in front of a text is not empty. -/
lemma Stands.ne_nil {p : Piece} {after : List Char} (h : Stands form p after) : p.text ≠ [] := by
  cases h with
  | layout hne => exact hne
  | attr => simp [Piece.text]
  | keyword element =>
    obtain ⟨c, cs, hname, -⟩ := exists_keyword element
    rw [Piece.text, hname]
    exact List.cons_ne_nil _ _
  | closeTag => simp [Piece.text]
  | _ => exact List.cons_ne_nil _ _

/-- The pieces of a text make it up and follow the grammar. -/
lemma inPieces_of_piecesFrom (hfuel : cs.length ≤ fuel)
    (h : piecesFrom form fuel leaf cs = .ok ps) : InPieces form (leaf.map Prod.fst) ps := by
  induction fuel generalizing leaf cs ps with
  | zero =>
    obtain rfl := Except.ok.inj h
    exact .nil _
  | succ fuel ih =>
    cases cs with
    | nil =>
      obtain rfl := Except.ok.inj h
      exact .nil _
    | cons c rest =>
      have hlength : ∀ {piece after}, front form c rest = .piece piece after →
          after.length ≤ fuel := fun hfront =>
        (length_after_le hfront).trans (Nat.le_of_succ_le_succ hfuel)
      have hflatten : ∀ {leaf' after more}, after.length ≤ fuel →
          piecesFrom form fuel leaf' after = .ok more → textOf more = after := fun hlen hmore =>
        (covers_piecesFrom hlen hmore).textOf_eq
      obtain ⟨text, after, more, hfront, hmore, rfl⟩ |
        ⟨token, text, after, more, hfront, hplain, hmore, rfl⟩ |
        ⟨element, opened, text, inside, behind, more, rfl, hfront, hinside, hclosing, hmore, rfl⟩ :=
        piecesFrom_cons_eq_ok h
      · refine .gap ?_ (ih (hlength hfront) hmore)
        rw [hflatten (hlength hfront) hmore]
        exact stands_front hfront
      · have hrest := ih (hlength hfront) hmore
        rw [map_fst_leafAfter] at hrest
        refine .token ?_ (hplain.imp_right fun hnone => by rw [hnone]; rfl) hrest
        rw [hflatten (hlength hfront) hmore]
        exact stands_front hfront
      · have hbehind := hlength hfront
        rw [List.length_append] at hbehind
        have htext := hflatten (by omega) hmore
        refine .content ?_ hinside (by rwa [htext]) (ih (by omega) hmore)
        rw [htext]
        exact stands_front hfront

/-- Pieces that follow the grammar are those that their text is read as. -/
lemma InPieces.piecesFrom {leaf' : Option Element} (h : InPieces form leaf' ps)
    (hleaf : leaf.map Prod.fst = leaf') (hfuel : (textOf ps).length ≤ fuel) :
    piecesFrom form fuel leaf (textOf ps) = .ok ps := by
  induction h generalizing leaf fuel with
  | nil =>
    cases fuel with
    | zero => rfl
    | succ fuel => rfl
  | @gap leaf' text ps hgap hmore ih =>
    obtain ⟨c, run, rfl⟩ := List.exists_cons_of_ne_nil hgap.ne_nil
    obtain ⟨fuel, rfl⟩ : ∃ n, fuel = n + 1 := ⟨fuel - 1, by simp at hfuel; omega⟩
    rw [textOf_cons, Piece.text_gap, List.cons_append, piecesFrom_gap fuel (hgap.front_eq rfl),
      ih hleaf (by simp at hfuel; omega)]
    rfl
  | @token leaf' token text ps htoken hplain hmore ih =>
    obtain ⟨c, run, rfl⟩ := List.exists_cons_of_ne_nil htoken.ne_nil
    obtain ⟨fuel, rfl⟩ : ∃ n, fuel = n + 1 := ⟨fuel - 1, by simp at hfuel; omega⟩
    have hplain' : token ≠ .tagEnd ∨ leaf = none := by
      rwa [← hleaf, Option.map_eq_none_iff] at hplain
    rw [textOf_cons, Piece.text_token, List.cons_append,
      piecesFrom_token fuel (htoken.front_eq rfl) hplain',
      ih (by rw [map_fst_leafAfter, hleaf]) (by simp at hfuel; omega)]
    rfl
  | @content element text inside ps hend hinside hclosing hmore ih =>
    obtain ⟨⟨_, opened⟩, rfl, rfl⟩ := Option.map_eq_some_iff.mp hleaf
    obtain ⟨c, run, rfl⟩ := List.exists_cons_of_ne_nil hend.ne_nil
    obtain ⟨fuel, rfl⟩ : ∃ n, fuel = n + 1 := ⟨fuel - 1, by simp at hfuel; omega⟩
    have hcontent := contentBefore_append (not_mem_keyword _ (by decide)) hinside hclosing
    rw [textOf_cons, textOf_cons, Piece.text_token, Piece.text_token, List.cons_append,
      piecesFrom_tagEnd fuel (hend.front_eq rfl)]
    simp only [hcontent]
    rw [ih rfl (by simp at hfuel; omega)]
    rfl

end Pieces

/-- A token of pieces is one of them, and its span is where its text stands. -/
lemma exists_of_mem_lexemesFrom {position : ℕ} {ps : List Piece} {l : Lexeme}
    (hl : l ∈ lexemesFrom position ps) :
    ∃ first text more, ps = first ++ .token l.token text :: more ∧
      l.span = ⟨position + Text.utf8Size (textOf first),
        position + Text.utf8Size (textOf first) + Text.utf8Size text⟩ := by
  induction ps generalizing position with
  | nil => cases hl
  | cons p ps ih =>
    cases p with
    | gap text =>
      obtain ⟨first, text', more, rfl, hspan⟩ := ih hl
      refine ⟨.gap text :: first, text', more, rfl, ?_⟩
      rw [hspan]
      simp [Nat.add_assoc]
    | token token text =>
      rcases List.mem_cons.mp hl with rfl | hl
      · exact ⟨[], text, ps, rfl, rfl⟩
      · obtain ⟨first, text', more, rfl, hspan⟩ := ih hl
        refine ⟨.token token text :: first, text', more, rfl, ?_⟩
        rw [hspan]
        simp [Nat.add_assoc]

/-- A source is read as pieces exactly when they make it up and follow the grammar of its form. -/
theorem pieces_eq_ok_iff {source : List Char} {ps : List Piece} :
    pieces source = .ok ps ↔ textOf ps = source ∧ InPieces (formOf source) none ps := by
  constructor
  · exact fun h => ⟨textOf_pieces h, inPieces_of_piecesFrom le_rfl h⟩
  · rintro ⟨rfl, h⟩
    exact h.piecesFrom rfl le_rfl

/-- The tokens of a source are those among the pieces that make it up and follow the grammar. -/
theorem lex_eq_ok_iff {source : List Char} {lexemes : List Lexeme} :
    lex source = .ok lexemes ↔ ∃ ps, textOf ps = source ∧ InPieces (formOf source) none ps ∧
      lexemesFrom 0 ps = lexemes := by
  simp only [← and_assoc, ← pieces_eq_ok_iff]
  unfold lex
  split
  · next ps hps => simp [hps]
  · next fault hfault => simp [hfault]

end MailTemplate.Script
