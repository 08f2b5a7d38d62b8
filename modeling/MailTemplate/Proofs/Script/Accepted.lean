import MailTemplate.Proofs.Script.Grammar
import MailTemplate.Proofs.Script.Reader

/-!
# The tokens that the parser accepts

The reader of nodes takes from the front of a list of tokens what the grammar derives, and leaves
the rest as it is (`takes_of_takeNodes`).  With the completeness of the reader and of the check of
balance, the two together accept exactly the derived lists of tokens, each with the one list of
nodes that it derives.

Main results: what the check of balance and the grammar accept (`accepts_iff_derives`), and which
sources have a tree (`exists_ofSource_iff`).
-/

namespace MailTemplate.Script

/-! ### Soundness of the reader -/

/-- The nodes are derived from the front of the tokens, and `rest` stands behind it. -/
def Takes (lexemes : List Lexeme) (nodes : List Node) (rest : List Lexeme) : Prop :=
  ∃ taken, lexemes = taken ++ rest ∧ Derives (taken.map Lexeme.token) (nodes.map Node.erase)

/-- No tokens are taken for no nodes. -/
lemma Takes.refl (lexemes : List Lexeme) : Takes lexemes [] lexemes :=
  ⟨[], rfl, .nil⟩

/-- The attributes that are read are those that the tokens at the front write. -/
lemma exists_attributes (lexemes : List Lexeme) :
    ∃ (first : List Lexeme) (raws : List RawAttribute),
      lexemes = first ++ (takeAttributes lexemes).2 ∧
      first.map Lexeme.token = raws.map .attr ∧
      (takeAttributes lexemes).1.map Attribute.erase = raws.map Attribute.ofRaw := by
  induction lexemes with
  | nil => exact ⟨[], [], rfl, rfl, rfl⟩
  | cons l lexemes ih =>
    obtain ⟨token, span⟩ := l
    cases token with
    | attr a =>
      obtain ⟨first, raws, hsplit, hfirst, hraws⟩ := ih
      refine ⟨⟨.attr a, span⟩ :: first, a :: raws, ?_, ?_, ?_⟩
      · rw [takeAttributes, List.cons_append, ← hsplit]
      · rw [List.map_cons, List.map_cons, hfirst]
      · rw [takeAttributes, List.map_cons, List.map_cons, hraws]
        rfl
    | _ => exact ⟨[], [], rfl, rfl, rfl⟩

section Productions

variable {element : Element} {span last place : Span} {behind inside left after rest : List Lexeme}
  {children more : List Node}

/-- A keyword with attributes and no braces is a node. -/
lemma takes_bare (hmore : Takes (takeAttributes behind).2 more rest) (whole : Span) :
    Takes (⟨.keyword element, span⟩ :: behind)
      (.mk element (takeAttributes behind).1 .empty whole :: more) rest := by
  obtain ⟨first, raws, hbehind, hfirst, hraws⟩ := exists_attributes behind
  obtain ⟨taken, hsplit, hderives⟩ := hmore
  refine ⟨⟨.keyword element, span⟩ :: (first ++ taken), ?_, ?_⟩
  · rw [List.cons_append, List.append_assoc, ← hsplit, ← hbehind]
  · rw [List.map_cons, List.map_append, hfirst, List.map_cons, Node.erase, hraws]
    exact .bare element raws hderives

/-- A keyword with attributes and nodes in braces is a node. -/
lemma takes_braces (hbody : (takeAttributes behind).2 = ⟨.openBrace, place⟩ :: inside)
    (hinside : Takes inside children (⟨.closeBrace, last⟩ :: after)) (hmore : Takes after more rest)
    (whole : Span) :
    Takes (⟨.keyword element, span⟩ :: behind)
      (.mk element (takeAttributes behind).1 (.children children) whole :: more) rest := by
  obtain ⟨first, raws, hbehind, hfirst, hraws⟩ := exists_attributes behind
  obtain ⟨inner, hinner, hchildren⟩ := hinside
  obtain ⟨taken, hsplit, hderives⟩ := hmore
  refine ⟨⟨.keyword element, span⟩ :: (first ++ ⟨.openBrace, place⟩ ::
    (inner ++ ⟨.closeBrace, last⟩ :: taken)), ?_, ?_⟩
  · simp only [List.cons_append, List.append_assoc]
    rw [← hsplit, ← hinner, ← hbody, ← hbehind]
  · simp only [List.map_cons, List.map_append]
    rw [hfirst, Node.erase, Body.erase, eraseAll_eq_map, hraws]
    exact .braces element raws hchildren hderives

/-- A tag that closes itself is a node. -/
lemma takes_selfClosed (hbody : (takeAttributes behind).2 = ⟨.selfClose, last⟩ :: after)
    (hmore : Takes after more rest) (whole : Span) :
    Takes (⟨.openTag element, span⟩ :: behind)
      (.mk element (takeAttributes behind).1 .empty whole :: more) rest := by
  obtain ⟨first, raws, hbehind, hfirst, hraws⟩ := exists_attributes behind
  obtain ⟨taken, hsplit, hderives⟩ := hmore
  refine ⟨⟨.openTag element, span⟩ :: (first ++ ⟨.selfClose, last⟩ :: taken), ?_, ?_⟩
  · simp only [List.cons_append, List.append_assoc]
    rw [← hsplit, ← hbody, ← hbehind]
  · simp only [List.map_cons, List.map_append]
    rw [hfirst, Node.erase, hraws]
    exact .selfClosed element raws hderives

/-- A text between tags is a node. -/
lemma takes_content {text : String} {textPlace : Span}
    (hbody : (takeAttributes behind).2 =
      ⟨.tagEnd, place⟩ :: ⟨.content text, textPlace⟩ :: ⟨.closeTag element, last⟩ :: after)
    (hmore : Takes after more rest) (whole : Span) :
    Takes (⟨.openTag element, span⟩ :: behind)
      (.mk element (takeAttributes behind).1 (.content text) whole :: more) rest := by
  obtain ⟨first, raws, hbehind, hfirst, hraws⟩ := exists_attributes behind
  obtain ⟨taken, hsplit, hderives⟩ := hmore
  refine ⟨⟨.openTag element, span⟩ :: (first ++ ⟨.tagEnd, place⟩ :: ⟨.content text, textPlace⟩ ::
    ⟨.closeTag element, last⟩ :: taken), ?_, ?_⟩
  · simp only [List.cons_append, List.append_assoc]
    rw [← hsplit, ← hbody, ← hbehind]
  · simp only [List.map_cons, List.map_append]
    rw [hfirst, Node.erase, Body.erase, hraws]
    exact .content element raws text hderives

/-- Nodes between tags are a node. -/
lemma takes_tags (hbody : (takeAttributes behind).2 = ⟨.tagEnd, place⟩ :: inside)
    (hinside : Takes inside children (⟨.closeTag element, last⟩ :: after))
    (hmore : Takes after more rest) (whole : Span) :
    Takes (⟨.openTag element, span⟩ :: behind)
      (.mk element (takeAttributes behind).1 (.children children) whole :: more) rest := by
  obtain ⟨first, raws, hbehind, hfirst, hraws⟩ := exists_attributes behind
  obtain ⟨inner, hinner, hchildren⟩ := hinside
  obtain ⟨taken, hsplit, hderives⟩ := hmore
  refine ⟨⟨.openTag element, span⟩ :: (first ++ ⟨.tagEnd, place⟩ ::
    (inner ++ ⟨.closeTag element, last⟩ :: taken)), ?_, ?_⟩
  · simp only [List.cons_append, List.append_assoc]
    rw [← hsplit, ← hinner, ← hbody, ← hbehind]
  · simp only [List.map_cons, List.map_append]
    rw [hfirst, Node.erase, Body.erase, eraseAll_eq_map, hraws]
    exact .tags element raws hchildren hderives

/-- A node that is read is taken as the grammar derives it, if the nodes in it and behind it are. -/
lemma ReadsFirst.takes {fuel : ℕ} {lexemes : List Lexeme} {node : Node}
    (h : ReadsFirst fuel lexemes node after)
    (ih : ∀ {lexemes rest nodes}, takeNodes fuel lexemes = .ok (nodes, rest) →
      Takes lexemes nodes rest)
    (hmore : Takes after more rest) : Takes lexemes (node :: more) rest := by
  cases h with
  | bare => exact takes_bare hmore _
  | braces hbody hinside => exact takes_braces hbody (ih hinside) hmore _
  | selfClosed hbody => exact takes_selfClosed hbody hmore _
  | content hbody => exact takes_content hbody hmore _
  | tags hbody _ hinside => exact takes_tags hbody (ih hinside) hmore _

end Productions

/-- What the reader of nodes takes is derived by the grammar, and nothing is left out or put in
another order. -/
theorem takes_of_takeNodes {fuel : ℕ} {lexemes rest : List Lexeme} {nodes : List Node}
    (h : takeNodes fuel lexemes = .ok (nodes, rest)) : Takes lexemes nodes rest := by
  induction fuel generalizing lexemes nodes rest with
  | zero =>
    obtain ⟨rfl, rfl⟩ := Prod.mk.inj (Except.ok.inj h)
    exact Takes.refl _
  | succ fuel ih =>
    rcases takeNodes_eq_ok h with ⟨rfl, rfl⟩ | ⟨node, after, more, hfirst, hmore, rfl⟩
    · exact Takes.refl _
    · exact hfirst.takes (fun h => ih h) (ih hmore)

/-! ### Acceptance -/

/-- The check of balance finds no fault in the tokens, and the grammar makes the nodes of them, up
to their places. -/
def Accepts (lexemes : List Lexeme) (nodes : List Node) : Prop :=
  balanceFault? [] 0 lexemes = none ∧
    ∃ found, nodesOf lexemes = .ok found ∧ found.map Node.erase = nodes

/-- Tokens of which the grammar makes nodes are derived. -/
lemma derives_of_nodesOf {lexemes : List Lexeme} {found : List Node}
    (h : nodesOf lexemes = .ok found) :
    Derives (lexemes.map Lexeme.token) (found.map Node.erase) := by
  unfold nodesOf at h
  obtain ⟨⟨nodes, rest⟩, htake, hend⟩ := bind_eq_ok.mp h
  simp only at hend
  split at hend
  · obtain rfl := pure_eq_ok.mp hend
    obtain ⟨taken, rfl, hderives⟩ := takes_of_takeNodes htake
    rwa [List.append_nil]
  · cases hend

/-- Derived tokens are balanced. -/
lemma Derives.balanceFault?_eq_none {lexemes : List Lexeme} {nodes : List Node}
    (h : Derives (lexemes.map Lexeme.token) nodes) : balanceFault? [] 0 lexemes = none := by
  obtain ⟨k, hbalance⟩ := h.balanceFault?_append rfl [] 0
  have hbalanced := hbalance []
  rwa [List.append_nil] at hbalanced

/-- The grammar makes the derived nodes of derived tokens. -/
lemma Derives.exists_nodesOf {lexemes : List Lexeme} {nodes : List Node}
    (h : Derives (lexemes.map Lexeme.token) nodes) :
    ∃ found, nodesOf lexemes = .ok found ∧ found.map Node.erase = nodes := by
  obtain ⟨found, htake, herase⟩ :=
    h.exists_takeNodes rfl stops_nil (Nat.lt_succ_self lexemes.length)
  rw [List.append_nil] at htake
  refine ⟨found, ?_, herase⟩
  unfold nodesOf
  rw [htake]
  rfl

/-- Tokens derive one list of nodes at most. -/
lemma Derives.nodes_unique {tokens : List Token} {nodes others : List Node}
    (h : Derives tokens nodes) (h' : Derives tokens others) : nodes = others := by
  -- the reader is a function, and it finds the nodes of every derivation
  let lexemes := tokens.map fun token => (⟨token, default⟩ : Lexeme)
  have htokens : lexemes.map Lexeme.token = tokens := by
    rw [List.map_map]
    exact List.map_id _
  rw [← htokens] at h h'
  obtain ⟨found, hfound, rfl⟩ := h.exists_nodesOf
  obtain ⟨found', hfound', rfl⟩ := h'.exists_nodesOf
  rw [hfound] at hfound'
  rw [Except.ok.inj hfound']

/-- The check of balance and the grammar accept a list of tokens exactly when the grammar derives
it, and with the nodes of the derivation, of which there is one at most.  The check of balance
refuses no list that is derived. -/
theorem accepts_iff_derives (lexemes : List Lexeme) :
    (∀ nodes, Accepts lexemes nodes ↔ Derives (lexemes.map Lexeme.token) nodes) ∧
      (∀ nodes others, Derives (lexemes.map Lexeme.token) nodes →
        Derives (lexemes.map Lexeme.token) others → nodes = others) ∧
      ∀ fault, balanceFault? [] 0 lexemes = some fault →
        ∀ nodes, ¬Derives (lexemes.map Lexeme.token) nodes := by
  refine ⟨fun nodes => ?_, fun nodes others h h' => h.nodes_unique h',
    fun fault hfault nodes h => ?_⟩
  · constructor
    · rintro ⟨-, found, hfound, rfl⟩
      exact derives_of_nodesOf hfound
    · intro h
      exact ⟨h.balanceFault?_eq_none, h.exists_nodesOf⟩
  · rw [h.balanceFault?_eq_none] at hfault
    cases hfault

/-- A row in the brace form with an attribute and a text between tags is accepted.  A brace that a
tag closes is balanced but not derived, and a closing brace is not even balanced. -/
theorem accepts_iff_derives_mixedBrackets :
    Accepts [⟨.keyword .row, ⟨0, 3⟩⟩, ⟨.attr ⟨"id", .bare "r"⟩, ⟨4, 8⟩⟩, ⟨.openBrace, ⟨9, 10⟩⟩,
        ⟨.openTag .column, ⟨10, 17⟩⟩, ⟨.tagEnd, ⟨17, 18⟩⟩, ⟨.content "x", ⟨18, 19⟩⟩,
        ⟨.closeTag .column, ⟨19, 28⟩⟩, ⟨.closeBrace, ⟨28, 29⟩⟩]
      [.mk .row [⟨"id", .bare "r", default⟩]
        (.children [.mk .column [] (.content "x") default]) default] ∧
    (balanceFault? [] 0 [⟨.openBrace, ⟨0, 1⟩⟩, ⟨.selfClose, ⟨1, 3⟩⟩] = none ∧
      ∀ nodes, ¬Accepts [⟨.openBrace, ⟨0, 1⟩⟩, ⟨.selfClose, ⟨1, 3⟩⟩] nodes) ∧
    balanceFault? [] 0 [⟨.closeBrace, ⟨0, 1⟩⟩] = some ⟨.strayBrace, ⟨0, 1⟩, false⟩ ∧
      ∀ nodes, ¬Derives [.closeBrace] nodes := by
  refine ⟨?_, ⟨rfl, fun nodes h => ?_⟩, rfl, ?_⟩
  · refine ((accepts_iff_derives _).1 _).mpr ?_
    exact .braces .row [⟨"id", .bare "r"⟩] (.content .column [] "x" .nil) .nil
  · have hderives := ((accepts_iff_derives _).1 nodes).mp h
    cases hderives
  · exact (accepts_iff_derives [⟨.closeBrace, ⟨0, 1⟩⟩]).2.2 _ rfl

/-! ### Sources -/

/-- A source has a tree exactly when the grammar derives its tokens, and then with the nodes of the
derivation. -/
theorem exists_ofSource_iff {source : List Char} {nodes : List Node} :
    (∃ found, Tree.ofSource source = .ok ⟨formOf source, found⟩ ∧
        found.map Node.erase = nodes) ↔
      ∃ lexemes, lex source = .ok lexemes ∧ Derives (lexemes.map Lexeme.token) nodes := by
  constructor
  · rintro ⟨found, hsource, rfl⟩
    unfold Tree.ofSource at hsource
    obtain ⟨lexemes, hlex, hsource⟩ := bind_eq_ok.mp hsource
    refine ⟨lexemes, hlex, ?_⟩
    split at hsource
    · cases hsource
    · split at hsource
      · next nodes hnodes =>
        obtain rfl := (Tree.mk.inj (pure_eq_ok.mp hsource)).2
        exact derives_of_nodesOf hnodes
      · cases hsource
  · rintro ⟨lexemes, hlex, hderives⟩
    exact exists_ofSource hlex rfl hderives

end MailTemplate.Script
