import Mathlib.Tactic
import MailTemplate.Proofs.Success
import MailTemplate.Script.Tree

/-!
# The grammar of scripts

`Derives` is the grammar as a relation between lists of tokens and the nodes that they make, the
places of tokens left out.  The reader of nodes finds every derivation, and the brackets of a
derived list of tokens are balanced.

Main result: a source whose tokens are derived has a tree, with the nodes of the derivation
(`exists_ofSource`).
-/

namespace MailTemplate.Script

/-! ### Nodes without places -/

/-- An attribute with no place in a source. -/
def Attribute.ofRaw (a : RawAttribute) : Attribute := ⟨a.key, a.value, default⟩

/-- The attribute with its place left out. -/
def Attribute.erase (a : Attribute) : Attribute := ⟨a.key, a.value, default⟩

mutual

/-- The node with all places in it left out. -/
def Node.erase : Node → Node
  | .mk element attributes body _ =>
    .mk element (attributes.map Attribute.erase) body.erase default

/-- The body with all places in it left out. -/
def Body.erase : Body → Body
  | .empty => .empty
  | .children nodes => .children (eraseAll nodes)
  | .content text => .content text

/-- The nodes with all places in them left out. -/
def eraseAll : List Node → List Node
  | [] => []
  | node :: nodes => node.erase :: eraseAll nodes

end

/-- Places are left out of nodes one by one. -/
lemma eraseAll_eq_map (nodes : List Node) : eraseAll nodes = nodes.map Node.erase := by
  induction nodes with
  | nil => rfl
  | cons node nodes ih => rw [eraseAll, ih, List.map_cons]

/-! ### Derivations -/

/-- The tokens are those of the nodes, in one of the two surface forms. -/
inductive Derives : List Token → List Node → Prop where
  | nil : Derives [] []
  /-- A keyword with attributes. -/
  | bare (element : Element) (attributes : List RawAttribute) {tokens : List Token}
      {nodes : List Node} : Derives tokens nodes →
      Derives (.keyword element :: (attributes.map .attr ++ tokens))
        (.mk element (attributes.map Attribute.ofRaw) .empty default :: nodes)
  /-- A keyword with attributes, and nodes in braces. -/
  | braces (element : Element) (attributes : List RawAttribute) {inside tokens : List Token}
      {children nodes : List Node} : Derives inside children → Derives tokens nodes →
      Derives (.keyword element :: (attributes.map .attr ++
          .openBrace :: (inside ++ .closeBrace :: tokens)))
        (.mk element (attributes.map Attribute.ofRaw) (.children children) default :: nodes)
  /-- A tag that closes itself. -/
  | selfClosed (element : Element) (attributes : List RawAttribute) {tokens : List Token}
      {nodes : List Node} : Derives tokens nodes →
      Derives (.openTag element :: (attributes.map .attr ++ .selfClose :: tokens))
        (.mk element (attributes.map Attribute.ofRaw) .empty default :: nodes)
  /-- A text between tags. -/
  | content (element : Element) (attributes : List RawAttribute) (text : String)
      {tokens : List Token} {nodes : List Node} : Derives tokens nodes →
      Derives (.openTag element :: (attributes.map .attr ++
          .tagEnd :: .content text :: .closeTag element :: tokens))
        (.mk element (attributes.map Attribute.ofRaw) (.content text) default :: nodes)
  /-- Nodes between tags. -/
  | tags (element : Element) (attributes : List RawAttribute) {inside tokens : List Token}
      {children nodes : List Node} : Derives inside children → Derives tokens nodes →
      Derives (.openTag element :: (attributes.map .attr ++
          .tagEnd :: (inside ++ .closeTag element :: tokens)))
        (.mk element (attributes.map Attribute.ofRaw) (.children children) default :: nodes)

/-- The list ends, or goes on with a token that closes an element. -/
def Stops (tail : List Lexeme) : Prop :=
  ∀ l ∈ tail.head?, l.token = .closeBrace ∨ ∃ element, l.token = .closeTag element

/-- The list does not go on with what belongs to the node before it. -/
def Separates (tail : List Lexeme) : Prop :=
  ∀ l ∈ tail.head?, (∀ a, l.token ≠ .attr a) ∧ l.token ≠ .openBrace ∧
    ∀ text, l.token ≠ .content text

/-- The end of a source stops a list of nodes. -/
lemma stops_nil : Stops [] := by
  intro l hl
  cases hl

/-- Derived tokens and what stops them are not taken for a part of the node before them. -/
lemma Derives.separates {tokens : List Token} {nodes : List Node} (h : Derives tokens nodes)
    {lexemes tail : List Lexeme} (hlexemes : lexemes.map Lexeme.token = tokens)
    (htail : Stops tail) : Separates (lexemes ++ tail) := by
  cases lexemes with
  | nil =>
    intro l hl
    rcases htail l hl with hclose | ⟨element, hclose⟩
    · simp [hclose]
    · simp [hclose]
  | cons l lexemes =>
    intro l' hl'
    obtain rfl : l = l' := by simpa using hl'
    rw [List.map_cons] at hlexemes
    have hfirst : (∃ element, l.token = .keyword element) ∨
        ∃ element, l.token = .openTag element := by
      cases h with
      | nil => cases hlexemes
      | bare element => exact .inl ⟨element, (List.cons.inj hlexemes).1⟩
      | braces element => exact .inl ⟨element, (List.cons.inj hlexemes).1⟩
      | selfClosed element => exact .inr ⟨element, (List.cons.inj hlexemes).1⟩
      | content element => exact .inr ⟨element, (List.cons.inj hlexemes).1⟩
      | tags element => exact .inr ⟨element, (List.cons.inj hlexemes).1⟩
    rcases hfirst with ⟨element, hfirst⟩ | ⟨element, hfirst⟩
    · simp [hfirst]
    · simp [hfirst]

/-! ### Reading nodes -/

/-- Attributes are read up to the first other token. -/
lemma exists_takeAttributes {lexemes rest : List Lexeme} {attributes : List RawAttribute}
    (h : lexemes.map Lexeme.token = attributes.map .attr)
    (hrest : ∀ l ∈ rest.head?, ∀ a, l.token ≠ .attr a) :
    ∃ taken, takeAttributes (lexemes ++ rest) = (taken, rest) ∧
      taken.map Attribute.erase = attributes.map Attribute.ofRaw := by
  induction attributes generalizing lexemes with
  | nil =>
    obtain rfl : lexemes = [] := by simpa using h
    refine ⟨[], ?_, rfl⟩
    rw [List.nil_append]
    unfold takeAttributes
    split
    · next a span more => exact absurd rfl (hrest ⟨.attr a, span⟩ rfl a)
    · rfl
  | cons a attributes ih =>
    rw [List.map_cons] at h
    obtain ⟨l, lexemes, rfl, hl, hmore⟩ := List.map_eq_cons_iff.mp h
    obtain ⟨token, span⟩ := l
    obtain rfl : token = .attr a := hl
    obtain ⟨taken, htake, herase⟩ := ih hmore
    refine ⟨⟨a.key, a.value, span⟩ :: taken, ?_, ?_⟩
    · rw [List.cons_append, takeAttributes, htake]
    · rw [List.map_cons, List.map_cons, herase]
      rfl

/-- A token that closes an element ends a list of nodes. -/
lemma takeNodes_stop (fuel : ℕ) {tail : List Lexeme} (h : Stops tail) :
    takeNodes (fuel + 1) tail = .ok ([], tail) := by
  unfold takeNodes
  split
  · rfl
  · rcases h _ rfl with hclose | ⟨element, hclose⟩
    · cases hclose
    · cases hclose
  · rcases h _ rfl with hclose | ⟨element, hclose⟩
    · cases hclose
    · cases hclose
  · rfl

/-- The lexemes of a token and of those behind it. -/
lemma exists_lexeme {lexemes : List Lexeme} {token : Token} {tokens : List Token}
    (h : lexemes.map Lexeme.token = token :: tokens) :
    ∃ span more, lexemes = ⟨token, span⟩ :: more ∧ more.map Lexeme.token = tokens := by
  obtain ⟨l, more, rfl, hl, hmore⟩ := List.map_eq_cons_iff.mp h
  obtain ⟨found, span⟩ := l
  obtain rfl : found = token := hl
  exact ⟨span, more, rfl, hmore⟩

/-- The lexemes of tokens, of one more token and of those behind it. -/
lemma exists_lexemes_append {lexemes : List Lexeme} {tokens more : List Token} {token : Token}
    (h : lexemes.map Lexeme.token = tokens ++ token :: more) :
    ∃ first span last, lexemes = first ++ ⟨token, span⟩ :: last ∧
      first.map Lexeme.token = tokens ∧ last.map Lexeme.token = more := by
  obtain ⟨first, rest, rfl, hfirst, hrest⟩ := List.map_eq_append_iff.mp h
  obtain ⟨span, last, rfl, hlast⟩ := exists_lexeme hrest
  exact ⟨first, span, last, rfl, hfirst, hlast⟩

/-- Attributes are read up to a token that is none. -/
lemma exists_takeAttributes_cons {lexemes : List Lexeme} {attributes : List RawAttribute}
    (h : lexemes.map Lexeme.token = attributes.map .attr) (token : Token)
    (htoken : ∀ a, token ≠ .attr a) (span : Span) (rest : List Lexeme) :
    ∃ taken, takeAttributes (lexemes ++ ⟨token, span⟩ :: rest) = (taken, ⟨token, span⟩ :: rest) ∧
      taken.map Attribute.erase = attributes.map Attribute.ofRaw := by
  refine exists_takeAttributes h fun l hl a => ?_
  obtain rfl : ⟨token, span⟩ = l := by simpa using hl
  exact htoken a

/-- A closing token stops a list of nodes. -/
lemma stops_cons {token : Token} (h : token = .closeBrace ∨ ∃ element, token = .closeTag element)
    (span : Span) (rest : List Lexeme) : Stops (⟨token, span⟩ :: rest) := by
  intro l hl
  obtain rfl : ⟨token, span⟩ = l := by simpa using hl
  exact h

/-- The reader of nodes finds the nodes of every derivation, up to their places. -/
theorem Derives.exists_takeNodes {tokens : List Token} {nodes : List Node}
    (h : Derives tokens nodes) {lexemes tail : List Lexeme} {fuel : ℕ}
    (hlexemes : lexemes.map Lexeme.token = tokens) (htail : Stops tail)
    (hfuel : lexemes.length < fuel) :
    ∃ taken, takeNodes fuel (lexemes ++ tail) = .ok (taken, tail) ∧
      taken.map Node.erase = nodes := by
  -- the lists inside an element and behind it are both shorter, so the fuel left suffices for each
  induction h generalizing lexemes tail fuel with
  | nil =>
    obtain ⟨n, rfl⟩ := Nat.exists_eq_succ_of_ne_zero (Nat.ne_of_gt (Nat.zero_lt_of_lt hfuel))
    obtain rfl : lexemes = [] := by simpa using hlexemes
    exact ⟨[], takeNodes_stop n htail, rfl⟩
  | @bare element attributes tokens nodes hmore ih =>
    obtain ⟨n, rfl⟩ := Nat.exists_eq_succ_of_ne_zero (Nat.ne_of_gt (Nat.zero_lt_of_lt hfuel))
    obtain ⟨span, body, rfl, hbody⟩ := exists_lexeme hlexemes
    obtain ⟨las, rest, rfl, hlas, hrest⟩ := List.map_eq_append_iff.mp hbody
    simp only [List.length_cons, List.length_append] at hfuel
    have hsep := hmore.separates hrest htail
    obtain ⟨as, htake, has⟩ := exists_takeAttributes hlas fun l hl => (hsep l hl).1
    have hle : rest.length < n := by omega
    obtain ⟨taken, hnodes, herase⟩ := ih hrest htail hle
    refine ⟨.mk element as .empty ⟨span.start, endOfAttributes span.stop as⟩ :: taken, ?_, ?_⟩
    · rw [List.cons_append, List.append_assoc, takeNodes, htake]
      simp only
      split
      · next last after heq => exact absurd rfl (hsep ⟨.openBrace, last⟩ (by rw [heq]; rfl)).2.1
      · rw [hnodes]
        rfl
    · rw [List.map_cons, herase, Node.erase, has]
      rfl
  | @braces element attributes inside tokens children nodes hinside hmore ihinside ihmore =>
    obtain ⟨n, rfl⟩ := Nat.exists_eq_succ_of_ne_zero (Nat.ne_of_gt (Nat.zero_lt_of_lt hfuel))
    obtain ⟨span, body, rfl, hbody⟩ := exists_lexeme hlexemes
    obtain ⟨las, first, rest, rfl, hlas, hrest⟩ := exists_lexemes_append hbody
    obtain ⟨lins, last, after, rfl, hlins, hafter⟩ := exists_lexemes_append hrest
    simp only [List.length_cons, List.length_append] at hfuel
    have hle : lins.length < n := by omega
    have hle' : after.length < n := by omega
    obtain ⟨as, htake, has⟩ := exists_takeAttributes_cons hlas .openBrace
      (fun a => Token.noConfusion) first (lins ++ ⟨.closeBrace, last⟩ :: (after ++ tail))
    obtain ⟨ins, htakeins, hins⟩ := ihinside hlins (stops_cons (.inl rfl) last (after ++ tail)) hle
    obtain ⟨taken, hnodes, herase⟩ := ihmore hafter htail hle'
    refine ⟨.mk element as (.children ins) ⟨span.start, last.stop⟩ :: taken, ?_, ?_⟩
    · simp only [List.cons_append, List.append_assoc]
      rw [takeNodes, htake]
      simp only [htakeins, ok_bind, hnodes]
      rfl
    · rw [List.map_cons, herase, Node.erase, has, Body.erase, eraseAll_eq_map, hins]
  | @selfClosed element attributes tokens nodes hmore ih =>
    obtain ⟨n, rfl⟩ := Nat.exists_eq_succ_of_ne_zero (Nat.ne_of_gt (Nat.zero_lt_of_lt hfuel))
    obtain ⟨span, body, rfl, hbody⟩ := exists_lexeme hlexemes
    obtain ⟨las, last, rest, rfl, hlas, hrest⟩ := exists_lexemes_append hbody
    simp only [List.length_cons, List.length_append] at hfuel
    have hle : rest.length < n := by omega
    obtain ⟨as, htake, has⟩ := exists_takeAttributes_cons hlas .selfClose
      (fun a => Token.noConfusion) last (rest ++ tail)
    obtain ⟨taken, hnodes, herase⟩ := ih hrest htail hle
    refine ⟨.mk element as .empty ⟨span.start, last.stop⟩ :: taken, ?_, ?_⟩
    · simp only [List.cons_append, List.append_assoc]
      rw [takeNodes, htake]
      simp only [ok_bind, hnodes]
      rfl
    · rw [List.map_cons, herase, Node.erase, has]
      rfl
  | @content element attributes text tokens nodes hmore ih =>
    obtain ⟨n, rfl⟩ := Nat.exists_eq_succ_of_ne_zero (Nat.ne_of_gt (Nat.zero_lt_of_lt hfuel))
    obtain ⟨span, body, rfl, hbody⟩ := exists_lexeme hlexemes
    obtain ⟨las, first, rest, rfl, hlas, hrest⟩ := exists_lexemes_append hbody
    obtain ⟨place, rest, rfl, hlater⟩ := exists_lexeme hrest
    obtain ⟨last, after, rfl, hafter⟩ := exists_lexeme hlater
    simp only [List.length_cons, List.length_append] at hfuel
    have hle : after.length < n := by omega
    obtain ⟨as, htake, has⟩ := exists_takeAttributes_cons hlas .tagEnd
      (fun a => Token.noConfusion) first
      (⟨.content text, place⟩ :: ⟨.closeTag element, last⟩ :: (after ++ tail))
    obtain ⟨taken, hnodes, herase⟩ := ih hafter htail hle
    refine ⟨.mk element as (.content text) ⟨span.start, last.stop⟩ :: taken, ?_, ?_⟩
    · simp only [List.cons_append, List.append_assoc]
      rw [takeNodes, htake]
      simp only [pure, Except.pure, ok_bind, hnodes, if_true]
    · rw [List.map_cons, herase, Node.erase, has]
      rfl
  | @tags element attributes inside tokens children nodes hinside hmore ihinside ihmore =>
    obtain ⟨n, rfl⟩ := Nat.exists_eq_succ_of_ne_zero (Nat.ne_of_gt (Nat.zero_lt_of_lt hfuel))
    obtain ⟨span, body, rfl, hbody⟩ := exists_lexeme hlexemes
    obtain ⟨las, first, rest, rfl, hlas, hrest⟩ := exists_lexemes_append hbody
    obtain ⟨lins, last, after, rfl, hlins, hafter⟩ := exists_lexemes_append hrest
    simp only [List.length_cons, List.length_append] at hfuel
    have hle : lins.length < n := by omega
    have hle' : after.length < n := by omega
    have hstop : Stops (⟨.closeTag element, last⟩ :: (after ++ tail)) :=
      stops_cons (.inr ⟨element, rfl⟩) last (after ++ tail)
    obtain ⟨as, htake, has⟩ := exists_takeAttributes_cons hlas .tagEnd
      (fun a => Token.noConfusion) first (lins ++ ⟨.closeTag element, last⟩ :: (after ++ tail))
    have hsep := hinside.separates hlins hstop
    obtain ⟨ins, htakeins, hins⟩ := ihinside hlins hstop hle
    obtain ⟨taken, hnodes, herase⟩ := ihmore hafter htail hle'
    refine ⟨.mk element as (.children ins) ⟨span.start, last.stop⟩ :: taken, ?_, ?_⟩
    · simp only [List.cons_append, List.append_assoc]
      rw [takeNodes, htake]
      simp only
      split
      · next text place later heq =>
        exact absurd rfl ((hsep ⟨.content text, place⟩ (by rw [heq]; rfl)).2.2 text)
      · simp only [htakeins, pure, Except.pure, ok_bind, hnodes, if_true]
    · rw [List.map_cons, herase, Node.erase, has, Body.erase, eraseAll_eq_map, hins]

/-! ### Balance -/

/-- Attributes open and close nothing. -/
lemma balanceFault?_attributes {lexemes : List Lexeme} {attributes : List RawAttribute}
    (h : lexemes.map Lexeme.token = attributes.map .attr) (stack : List (Opener × Span))
    (keyword : ℕ) (rest : List Lexeme) :
    balanceFault? stack keyword (lexemes ++ rest) = balanceFault? stack keyword rest := by
  induction attributes generalizing lexemes with
  | nil =>
    obtain rfl : lexemes = [] := by simpa using h
    rfl
  | cons a attributes ih =>
    rw [List.map_cons] at h
    obtain ⟨span, more, rfl, hmore⟩ := exists_lexeme h
    have hskip : balanceFault? stack keyword (⟨.attr a, span⟩ :: (more ++ rest)) =
        balanceFault? stack keyword (more ++ rest) := by simp [balanceFault?]
    rw [List.cons_append, hskip, ih hmore]

/-- Derived tokens leave the open brackets as they are. -/
theorem Derives.balanceFault?_append {tokens : List Token} {nodes : List Node}
    (h : Derives tokens nodes) {lexemes : List Lexeme}
    (hlexemes : lexemes.map Lexeme.token = tokens) (stack : List (Opener × Span)) (keyword : ℕ) :
    ∃ keyword', ∀ tail,
      balanceFault? stack keyword (lexemes ++ tail) = balanceFault? stack keyword' tail := by
  -- what is opened inside a node is closed there: behind it the stack is the same, and only the
  -- place of the last keyword is another
  induction h generalizing lexemes stack keyword with
  | nil =>
    obtain rfl : lexemes = [] := by simpa using hlexemes
    exact ⟨keyword, fun tail => rfl⟩
  | @bare element attributes tokens nodes hmore ih =>
    obtain ⟨span, body, rfl, hbody⟩ := exists_lexeme hlexemes
    obtain ⟨las, rest, rfl, hlas, hrest⟩ := List.map_eq_append_iff.mp hbody
    obtain ⟨k, hk⟩ := ih hrest stack span.start
    refine ⟨k, fun tail => ?_⟩
    rw [List.cons_append, List.append_assoc, balanceFault?, balanceFault?_attributes hlas, hk]
  | @braces element attributes inside tokens children nodes hinside hmore ihinside ihmore =>
    obtain ⟨span, body, rfl, hbody⟩ := exists_lexeme hlexemes
    obtain ⟨las, first, rest, rfl, hlas, hrest⟩ := exists_lexemes_append hbody
    obtain ⟨lins, last, after, rfl, hlins, hafter⟩ := exists_lexemes_append hrest
    obtain ⟨k, hk⟩ := ihinside hlins ((.brace, ⟨span.start, first.stop⟩) :: stack) span.start
    obtain ⟨k', hk'⟩ := ihmore hafter stack k
    refine ⟨k', fun tail => ?_⟩
    simp only [List.cons_append, List.append_assoc]
    rw [balanceFault?, balanceFault?_attributes hlas, balanceFault?, hk, balanceFault?, hk']
  | @selfClosed element attributes tokens nodes hmore ih =>
    obtain ⟨span, body, rfl, hbody⟩ := exists_lexeme hlexemes
    obtain ⟨las, last, rest, rfl, hlas, hrest⟩ := exists_lexemes_append hbody
    obtain ⟨k, hk⟩ := ih hrest stack keyword
    refine ⟨k, fun tail => ?_⟩
    simp only [List.cons_append, List.append_assoc]
    rw [balanceFault?, balanceFault?_attributes hlas, balanceFault?, List.tail_cons, hk]
  | @content element attributes text tokens nodes hmore ih =>
    obtain ⟨span, body, rfl, hbody⟩ := exists_lexeme hlexemes
    obtain ⟨las, first, rest, rfl, hlas, hrest⟩ := exists_lexemes_append hbody
    obtain ⟨place, rest, rfl, hlater⟩ := exists_lexeme hrest
    obtain ⟨last, after, rfl, hafter⟩ := exists_lexeme hlater
    obtain ⟨k, hk⟩ := ih hafter stack keyword
    refine ⟨k, fun tail => ?_⟩
    simp only [List.cons_append, List.append_assoc]
    rw [balanceFault?, balanceFault?_attributes hlas]
    simp only [balanceFault?, if_true]
    exact hk tail
  | @tags element attributes inside tokens children nodes hinside hmore ihinside ihmore =>
    obtain ⟨span, body, rfl, hbody⟩ := exists_lexeme hlexemes
    obtain ⟨las, first, rest, rfl, hlas, hrest⟩ := exists_lexemes_append hbody
    obtain ⟨lins, last, after, rfl, hlins, hafter⟩ := exists_lexemes_append hrest
    obtain ⟨k, hk⟩ := ihinside hlins ((.tag element, span) :: stack) keyword
    obtain ⟨k', hk'⟩ := ihmore hafter stack k
    refine ⟨k', fun tail => ?_⟩
    simp only [List.cons_append, List.append_assoc]
    rw [balanceFault?, balanceFault?_attributes hlas]
    simp only [balanceFault?]
    rw [hk]
    simp only [balanceFault?, if_true]
    exact hk' tail

/-- A source whose tokens are derived has a tree with the nodes of the derivation, up to their
places. -/
theorem exists_ofSource {source : List Char} {lexemes : List Lexeme} {tokens : List Token}
    {nodes : List Node} (hlex : lex source = .ok lexemes)
    (hlexemes : lexemes.map Lexeme.token = tokens) (h : Derives tokens nodes) :
    ∃ found, Tree.ofSource source = .ok ⟨formOf source, found⟩ ∧
      found.map Node.erase = nodes := by
  obtain ⟨k, hbalance⟩ := h.balanceFault?_append hlexemes [] 0
  have hbalanced := hbalance []
  rw [List.append_nil] at hbalanced
  have hnone : balanceFault? [] k [] = none := rfl
  obtain ⟨found, htake, herase⟩ :=
    h.exists_takeNodes hlexemes stops_nil (Nat.lt_succ_self lexemes.length)
  rw [List.append_nil] at htake
  refine ⟨found, ?_, herase⟩
  unfold Tree.ofSource nodesOf
  rw [hlex, ok_bind]
  simp only [hbalanced, hnone, htake, ok_bind]
  rfl

end MailTemplate.Script
