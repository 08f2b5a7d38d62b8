import MailTemplate.Proofs.Script.Gaps
import MailTemplate.Proofs.Script.Structure

/-!
# The tokens of nodes

Every node that is read from tokens owns a run of them: its keyword or the start of its opening tag,
its attributes, and what belongs to its body, the tokens of the nodes in it among them.  It spans
the source from the first token that it owns to the last.

Main results: the nodes that are read from tokens own these, one after the other
(`owns_takeNodes`), and the spans of tokens and nodes cover the source (`spans_cover`).
-/

namespace MailTemplate.Script

/-! ### Owned tokens -/

/-- The token of an attribute. -/
def Attribute.lexeme (a : Attribute) : Lexeme := ⟨.attr ⟨a.key, a.value⟩, a.span⟩

/-- A span goes from the start of the first token to the end of the last. -/
def Spanned (span : Span) (own : List Lexeme) : Prop :=
  ∃ first last, own.head? = some first ∧ own.getLast? = some last ∧
    span = ⟨first.span.start, last.span.stop⟩

/-- A node owns a run of tokens, and spans it. -/
inductive Owns : Node → List Lexeme → Prop
  | bare {element : Element} {attributes : List Attribute} {span first : Span} {own : List Lexeme}
      (hown : own = ⟨.keyword element, first⟩ :: attributes.map Attribute.lexeme)
      (hspan : Spanned span own) : Owns (.mk element attributes .empty span) own
  | braces {element : Element} {attributes : List Attribute} {children : List Node}
      {parts : List (List Lexeme)} {span first opening closing : Span} {own : List Lexeme}
      (hinside : List.Forall₂ Owns children parts)
      (hown : own = ⟨.keyword element, first⟩ :: (attributes.map Attribute.lexeme ++
        ⟨.openBrace, opening⟩ :: (parts.flatten ++ [⟨.closeBrace, closing⟩])))
      (hspan : Spanned span own) : Owns (.mk element attributes (.children children) span) own
  | selfClosed {element : Element} {attributes : List Attribute} {span first closing : Span}
      {own : List Lexeme}
      (hown : own = ⟨.openTag element, first⟩ :: (attributes.map Attribute.lexeme ++
        [⟨.selfClose, closing⟩]))
      (hspan : Spanned span own) : Owns (.mk element attributes .empty span) own
  | content {element : Element} {attributes : List Attribute} {text : String}
      {span first opening inside closing : Span} {own : List Lexeme}
      (hown : own = ⟨.openTag element, first⟩ :: (attributes.map Attribute.lexeme ++
        ⟨.tagEnd, opening⟩ :: ⟨.content text, inside⟩ :: [⟨.closeTag element, closing⟩]))
      (hspan : Spanned span own) : Owns (.mk element attributes (.content text) span) own
  | tags {element : Element} {attributes : List Attribute} {children : List Node}
      {parts : List (List Lexeme)} {span first opening closing : Span} {own : List Lexeme}
      (hinside : List.Forall₂ Owns children parts)
      (hown : own = ⟨.openTag element, first⟩ :: (attributes.map Attribute.lexeme ++
        ⟨.tagEnd, opening⟩ :: (parts.flatten ++ [⟨.closeTag element, closing⟩])))
      (hspan : Spanned span own) : Owns (.mk element attributes (.children children) span) own

section Reading

variable {fuel : ℕ} {lexemes after rest : List Lexeme} {node : Node} {nodes : List Node}

/-- The attributes that are read are the tokens at the front. -/
lemma takeAttributes_append (lexemes : List Lexeme) :
    (takeAttributes lexemes).1.map Attribute.lexeme ++ (takeAttributes lexemes).2 = lexemes := by
  induction lexemes with
  | nil => rfl
  | cons l lexemes ih =>
    obtain ⟨token, span⟩ := l
    cases token with
    | attr a =>
      rw [takeAttributes, List.map_cons, List.cons_append, ih]
      rfl
    | _ => rfl

/-- A keyword with attributes ends with the last of these. -/
lemma spanned_bare (element : Element) (first : Span) (attributes : List Attribute) :
    Spanned ⟨first.start, endOfAttributes first.stop attributes⟩
      (⟨.keyword element, first⟩ :: attributes.map Attribute.lexeme) := by
  refine ⟨_, ((attributes.map Attribute.lexeme).getLast?).getD ⟨.keyword element, first⟩, rfl, ?_,
    ?_⟩
  · rw [List.getLast?_cons]
  · unfold endOfAttributes
    rw [List.getLast?_map]
    cases attributes.getLast? with
    | none => rfl
    | some a => rfl

/-- Tokens are spanned from the first of them to the last. -/
lemma spanned_of_suffix (first last : Lexeme) {more : List Lexeme} (h : [last] <:+ more) :
    Spanned ⟨first.span.start, last.span.stop⟩ (first :: more) := by
  obtain ⟨middle, rfl⟩ := h
  exact ⟨first, last, rfl, by rw [← List.cons_append, List.getLast?_concat], rfl⟩

/-- A node that is read owns the tokens in front of what is left, if the nodes in it own theirs. -/
lemma ReadsFirst.owns (h : ReadsFirst fuel lexemes node after)
    (ih : ∀ {inside left nodes}, takeNodes fuel inside = .ok (nodes, left) →
      ∃ parts, List.Forall₂ Owns nodes parts ∧ inside = parts.flatten ++ left) :
    ∃ own, Owns node own ∧ lexemes = own ++ after := by
  cases h with
  | @bare element span behind =>
    refine ⟨_, .bare rfl (spanned_bare element span _), ?_⟩
    rw [List.cons_append, takeAttributes_append]
  | @braces element span place last behind inside _ children hbody hinside =>
    obtain ⟨parts, hparts, rfl⟩ := ih hinside
    have hbehind := takeAttributes_append behind
    rw [hbody] at hbehind
    refine ⟨⟨.keyword element, span⟩ :: ((takeAttributes behind).1.map Attribute.lexeme ++
        ⟨.openBrace, place⟩ :: (parts.flatten ++ [⟨.closeBrace, last⟩])),
      .braces hparts rfl (spanned_of_suffix ⟨.keyword element, span⟩ ⟨.closeBrace, last⟩ ?_), ?_⟩
    · rw [← List.cons_append, ← List.append_assoc]
      exact List.suffix_append _ _
    · rw [List.cons_append, List.append_assoc, List.cons_append, List.append_assoc,
        List.singleton_append, hbehind]
  | @selfClosed element span last behind _ hbody =>
    have hbehind := takeAttributes_append behind
    rw [hbody] at hbehind
    refine ⟨⟨.openTag element, span⟩ :: ((takeAttributes behind).1.map Attribute.lexeme ++
        [⟨.selfClose, last⟩]),
      .selfClosed rfl (spanned_of_suffix ⟨.openTag element, span⟩ ⟨.selfClose, last⟩ ?_), ?_⟩
    · exact List.suffix_append _ _
    · rw [List.cons_append, List.append_assoc, List.singleton_append, hbehind]
  | @content element span place textPlace last text behind _ hbody =>
    have hbehind := takeAttributes_append behind
    rw [hbody] at hbehind
    refine ⟨⟨.openTag element, span⟩ :: ((takeAttributes behind).1.map Attribute.lexeme ++
        [⟨.tagEnd, place⟩, ⟨.content text, textPlace⟩, ⟨.closeTag element, last⟩]),
      .content rfl (spanned_of_suffix ⟨.openTag element, span⟩ ⟨.closeTag element, last⟩ ?_), ?_⟩
    · refine List.IsSuffix.trans ?_ (List.suffix_append _ _)
      exact List.suffix_append [_, _] [_]
    · rw [List.cons_append, List.append_assoc, List.cons_append, List.cons_append,
        List.singleton_append, hbehind]
  | @tags element span place last behind inside _ children hbody _ hinside =>
    obtain ⟨parts, hparts, rfl⟩ := ih hinside
    have hbehind := takeAttributes_append behind
    rw [hbody] at hbehind
    refine ⟨⟨.openTag element, span⟩ :: ((takeAttributes behind).1.map Attribute.lexeme ++
        ⟨.tagEnd, place⟩ :: (parts.flatten ++ [⟨.closeTag element, last⟩])),
      .tags hparts rfl
        (spanned_of_suffix ⟨.openTag element, span⟩ ⟨.closeTag element, last⟩ ?_), ?_⟩
    · rw [← List.cons_append, ← List.append_assoc]
      exact List.suffix_append _ _
    · rw [List.cons_append, List.append_assoc, List.cons_append, List.append_assoc,
        List.singleton_append, hbehind]

/-- The nodes that are read own the tokens in front of what is left, one after the other. -/
theorem owns_takeNodes (h : takeNodes fuel lexemes = .ok (nodes, rest)) :
    ∃ parts, List.Forall₂ Owns nodes parts ∧ lexemes = parts.flatten ++ rest := by
  induction fuel generalizing lexemes rest nodes with
  | zero =>
    obtain ⟨rfl, rfl⟩ := Prod.mk.inj (Except.ok.inj h)
    exact ⟨[], .nil, rfl⟩
  | succ fuel ih =>
    rcases takeNodes_eq_ok h with ⟨rfl, rfl⟩ | ⟨node, after, more, hfirst, hmore, rfl⟩
    · exact ⟨[], .nil, rfl⟩
    · obtain ⟨own, hown, rfl⟩ := hfirst.owns fun h => ih h
      obtain ⟨parts, hparts, rfl⟩ := ih hmore
      exact ⟨own :: parts, .cons hown hparts, by simp⟩

/-- The nodes of a whole list of tokens own all of them. -/
lemma owns_nodesOf (h : nodesOf lexemes = .ok nodes) :
    ∃ parts, List.Forall₂ Owns nodes parts ∧ parts.flatten = lexemes := by
  unfold nodesOf at h
  obtain ⟨⟨found, left⟩, hfound, hend⟩ := bind_eq_ok.mp h
  obtain ⟨parts, hparts, rfl⟩ := owns_takeNodes hfound
  simp only at hend
  split at hend
  · obtain rfl := pure_eq_ok.mp hend
    exact ⟨parts, hparts, (List.append_nil _).symm⟩
  · cases hend

end Reading

/-! ### Nodes in nodes -/

/-- A node is one of some nodes, or in one of them. -/
inductive Occurs : Node → List Node → Prop
  | here {node : Node} {nodes : List Node} (hnode : node ∈ nodes) : Occurs node nodes
  | inside {node outer : Node} {nodes : List Node} (houter : outer ∈ nodes)
      (hnode : Occurs node outer.inner) : Occurs node nodes

/-- The spans of what is in a node: of its attributes, and then of its children. -/
def Node.innerSpans (node : Node) : List Span :=
  node.attributes.map Attribute.span ++ node.inner.map Node.span

section Parts

variable {node : Node} {nodes : List Node} {own lexemes : List Lexeme}
  {parts : List (List Lexeme)} {spans : List Span}

/-- A node spans what it owns. -/
lemma Owns.spanned (h : Owns node own) : Spanned node.span own := by
  cases h with
  | bare _ hspan => exact hspan
  | braces _ _ hspan => exact hspan
  | selfClosed _ hspan => exact hspan
  | content _ hspan => exact hspan
  | tags _ _ hspan => exact hspan

/-- What a node owns starts with its keyword or its opening tag. -/
lemma Owns.head (h : Owns node own) : ∀ first ∈ own.head?,
    first.token = .keyword node.element ∨ first.token = .openTag node.element := by
  intro first hfirst
  cases h with
  | bare hown _ =>
    obtain rfl := Option.some.inj (hown ▸ hfirst)
    exact .inl rfl
  | braces _ hown _ =>
    obtain rfl := Option.some.inj (hown ▸ hfirst)
    exact .inl rfl
  | selfClosed hown _ =>
    obtain rfl := Option.some.inj (hown ▸ hfirst)
    exact .inr rfl
  | content hown _ =>
    obtain rfl := Option.some.inj (hown ▸ hfirst)
    exact .inr rfl
  | tags _ hown _ =>
    obtain rfl := Option.some.inj (hown ▸ hfirst)
    exact .inr rfl

/-- The nodes in a node own parts of its tokens, in their order. -/
lemma Owns.exists_inner (h : Owns node own) : ∃ parts front back,
    List.Forall₂ Owns node.inner parts ∧
      own = front ++ (node.attributes.map Attribute.lexeme ++ back) ∧
      parts.flatten <:+: back := by
  cases h with
  | @bare element attributes span first _ hown _ =>
    exact ⟨[], [⟨.keyword element, first⟩], [], .nil, by simp [hown, Node.attributes], by simp⟩
  | @braces element attributes children parts span first opening closing _ hinside hown _ =>
    exact ⟨parts, [⟨.keyword element, first⟩], _, hinside, hown,
      ⟨[⟨.openBrace, opening⟩], [⟨.closeBrace, closing⟩], by simp⟩⟩
  | @selfClosed element attributes span first closing _ hown _ =>
    exact ⟨[], [⟨.openTag element, first⟩], _, .nil, hown, List.nil_infix⟩
  | @content element attributes text span first opening inside closing _ hown _ =>
    exact ⟨[], [⟨.openTag element, first⟩], _, .nil, hown, List.nil_infix⟩
  | @tags element attributes children parts span first opening closing _ hinside hown _ =>
    exact ⟨parts, [⟨.openTag element, first⟩], _, hinside, hown,
      ⟨[⟨.tagEnd, opening⟩], [⟨.closeTag element, closing⟩], by simp⟩⟩

/-- Every node in nodes that own tokens owns a run of these. -/
lemma Occurs.exists_owns (h : Occurs node nodes) (hparts : List.Forall₂ Owns nodes parts) :
    ∃ own, Owns node own ∧ own <:+: parts.flatten := by
  induction h generalizing parts with
  | here hnode =>
    obtain ⟨own, hown, howns⟩ := exists_mem_of_forall₂ hparts hnode
    exact ⟨own, howns, List.infix_of_mem_flatten hown⟩
  | inside houter _ ih =>
    obtain ⟨outer, houter, howns⟩ := exists_mem_of_forall₂ hparts houter
    obtain ⟨inner, front, back, hinner, rfl, hback⟩ := howns.exists_inner
    obtain ⟨own, hown, hrun⟩ := ih hinner
    refine ⟨own, hown, hrun.trans (hback.trans ?_)⟩
    refine List.IsInfix.trans ?_ (List.infix_of_mem_flatten houter)
    rw [← List.append_assoc]
    exact (List.suffix_append _ _).isInfix

/-- Spans of parts of tokens that stand one behind the other do so, too. -/
lemma pairwise_of_spanned (h : List.Forall₂ Spanned spans parts)
    (horder : parts.flatten.Pairwise fun l l' => l.span.stop ≤ l'.span.start) :
    spans.Pairwise fun s s' => s.stop ≤ s'.start := by
  induction h with
  | nil => exact .nil
  | @cons span part spans parts hspan hmore ih =>
    rw [List.flatten_cons, List.pairwise_append] at horder
    refine .cons (fun s' hs' => ?_) (ih horder.2.1)
    obtain ⟨first, last, -, hlast, rfl⟩ := hspan
    obtain ⟨part', hpart', first', last', hfirst', -, rfl⟩ := exists_mem_of_forall₂ hmore hs'
    exact horder.2.2 last (List.mem_of_getLast? hlast) first'
      (List.mem_flatten_of_mem hpart' (List.mem_of_head? hfirst'))

/-- What is spanned among tokens that stand one behind the other lies inside what they span. -/
lemma Spanned.inside {span s : Span} {part : List Lexeme} (h : Spanned span own)
    (hs : Spanned s part) (hpart : part ⊆ own)
    (horder : own.Pairwise fun l l' => l.span.stop ≤ l'.span.start)
    (hle : ∀ l ∈ own, l.span.start ≤ l.span.stop) :
    span.start ≤ s.start ∧ s.stop ≤ span.stop := by
  obtain ⟨first, last, hfirst, hlast, rfl⟩ := h
  obtain ⟨first', last', hfirst', hlast', rfl⟩ := hs
  have hmem := hpart (List.mem_of_head? hfirst')
  have hmem' := hpart (List.mem_of_getLast? hlast')
  constructor
  · obtain ⟨more, rfl⟩ := List.head?_eq_some_iff.mp hfirst
    rcases List.mem_cons.mp hmem with rfl | hmore
    · exact le_rfl
    · exact (hle first List.mem_cons_self).trans ((List.pairwise_cons.mp horder).1 first' hmore)
  · obtain ⟨more, rfl⟩ := List.getLast?_eq_some_iff.mp hlast
    rcases List.mem_append.mp hmem' with hmore | hend
    · refine ((List.pairwise_append.mp horder).2.2 last' hmore last ?_).trans (hle last ?_)
      · exact List.mem_singleton_self last
      · exact List.mem_append_right more (List.mem_singleton_self last)
    · rw [List.mem_singleton.mp hend]

/-- What is in a node spans parts of its tokens, one behind the other. -/
lemma Owns.exists_parts (h : Owns node own) :
    ∃ parts, List.Forall₂ Spanned node.innerSpans parts ∧ parts.flatten.Sublist own := by
  obtain ⟨parts, front, back, hinner, rfl, hback⟩ := h.exists_inner
  refine ⟨node.attributes.map (fun a => [a.lexeme]) ++ parts, ?_, ?_⟩
  · refine List.rel_append ?_ ?_
    · rw [List.forall₂_map_left_iff, List.forall₂_map_right_iff, List.forall₂_same]
      exact fun a _ => ⟨a.lexeme, a.lexeme, rfl, rfl, rfl⟩
    · rw [List.forall₂_map_left_iff]
      exact hinner.imp fun _ _ howns => howns.spanned
  · have hattributes : (node.attributes.map fun a => [a.lexeme]).flatten =
        node.attributes.map Attribute.lexeme := by
      rw [← List.flatMap_def, ← List.map_eq_flatMap]
    rw [List.flatten_append, hattributes]
    exact (hback.sublist.append_left _).trans (List.sublist_append_right _ _)

end Parts

/-! ### Whole sources -/

/-- The tokens of a source are parts of it, one behind the other, and all the rest of it is layout
and comments.  The nodes of its tree own its tokens, in order; each spans the source from its
keyword or opening tag to the last token that it owns, and its attributes and children, in that
order, span disjoint parts of that. -/
theorem spans_cover (source : List Char) :
    (∀ lexemes, lex source = .ok lexemes →
      (∀ l ∈ lexemes, ∃ text after, StandsAt source l.span text after) ∧
      (lexemes.Pairwise fun l l' => l.span.stop ≤ l'.span.start) ∧
      ∀ gap ∈ spansBetween (Text.utf8Size source) 0 lexemes,
        ∃ text after, StandsAt source gap text after ∧ IsGap (formOf source) text after) ∧
    ∀ tree, Tree.ofSource source = .ok tree →
      ∃ lexemes, lex source = .ok lexemes ∧
        (∃ parts, List.Forall₂ Owns tree.nodes parts ∧ parts.flatten = lexemes) ∧
        ((tree.nodes.map Node.span).Pairwise fun s s' => s.stop ≤ s'.start) ∧
        ∀ node, Occurs node tree.nodes → ∃ own first last,
          Owns node own ∧ own <:+: lexemes ∧
          own.head? = some first ∧ own.getLast? = some last ∧
          (first.token = .keyword node.element ∨ first.token = .openTag node.element) ∧
          node.span = ⟨first.span.start, last.span.stop⟩ ∧
          (∀ s ∈ node.innerSpans, node.span.start ≤ s.start ∧ s.stop ≤ node.span.stop) ∧
          node.innerSpans.Pairwise fun s s' => s.stop ≤ s'.start := by
  constructor
  · intro lexemes h
    obtain ⟨htokens, hgaps⟩ := standsAt_lex h
    exact ⟨htokens, (laid_lex h).1.order, hgaps⟩
  · intro tree h
    unfold Tree.ofSource at h
    obtain ⟨lexemes, hlex, htree⟩ := bind_eq_ok.mp h
    obtain ⟨nodes, hnodes, rfl⟩ : ∃ nodes, nodesOf lexemes = .ok nodes ∧
        tree = ⟨formOf source, nodes⟩ := by
      split at htree
      · cases htree
      · split at htree
        · next nodes hnodes => exact ⟨nodes, hnodes, (pure_eq_ok.mp htree).symm⟩
        · cases htree
    obtain ⟨parts, hparts, rfl⟩ := owns_nodesOf hnodes
    have horder := (laid_lex hlex).1.order
    have hle : ∀ l ∈ parts.flatten, l.span.start ≤ l.span.stop := by
      intro l hl
      obtain ⟨text, after, before, -, hspan⟩ := (standsAt_lex hlex).1 l hl
      rw [hspan]
      exact Nat.le_add_right _ _
    refine ⟨_, hlex, ⟨parts, hparts, rfl⟩, ?_, fun node hnode => ?_⟩
    · refine pairwise_of_spanned ?_ horder
      rw [List.forall₂_map_left_iff]
      exact hparts.imp fun _ _ howns => howns.spanned
    · obtain ⟨own, howns, hrun⟩ := hnode.exists_owns hparts
      obtain ⟨first, last, hfirst, hlast, hspan⟩ := howns.spanned
      obtain ⟨inner, hinner, hsublist⟩ := howns.exists_parts
      have hown := horder.sublist hrun.sublist
      refine ⟨own, first, last, howns, hrun, hfirst, hlast, howns.head first hfirst, hspan,
        fun s hs => ?_, pairwise_of_spanned hinner (hown.sublist hsublist)⟩
      obtain ⟨part, hpart, hs⟩ := exists_mem_of_forall₂ hinner hs
      refine howns.spanned.inside hs ?_ hown fun l hl => hle l (hrun.subset hl)
      exact fun l hl => hsublist.subset (List.mem_flatten_of_mem hpart hl)

/-- A comment, a row and a block in it, with a text of more than one byte for a character. -/
theorem spans_cover_nested :
    lex "<!-- é --><ROW id=ü ><TEXT/></ROW>".toList =
      .ok [⟨.openTag .row, ⟨11, 15⟩⟩, ⟨.attr ⟨"id", .bare "ü"⟩, ⟨16, 21⟩⟩, ⟨.tagEnd, ⟨22, 23⟩⟩,
        ⟨.openTag (.block .text), ⟨23, 28⟩⟩, ⟨.selfClose, ⟨28, 30⟩⟩, ⟨.closeTag .row, ⟨30, 36⟩⟩] ∧
    (∃ text after, StandsAt "<!-- é --><ROW id=ü ><TEXT/></ROW>".toList ⟨0, 11⟩ text after ∧
      IsGap .tag text after) ∧
    ∃ tree, Tree.ofSource "<!-- é --><ROW id=ü ><TEXT/></ROW>".toList = .ok tree ∧
      ∃ node, Occurs node tree.nodes ∧ node.span = ⟨11, 36⟩ ∧
        node.innerSpans = [⟨16, 21⟩, ⟨23, 30⟩] ∧
        node.innerSpans.Pairwise fun s s' => s.stop ≤ s'.start := by
  have hlex : lex "<!-- é --><ROW id=ü ><TEXT/></ROW>".toList =
      .ok [⟨.openTag .row, ⟨11, 15⟩⟩, ⟨.attr ⟨"id", .bare "ü"⟩, ⟨16, 21⟩⟩, ⟨.tagEnd, ⟨22, 23⟩⟩,
        ⟨.openTag (.block .text), ⟨23, 28⟩⟩, ⟨.selfClose, ⟨28, 30⟩⟩,
        ⟨.closeTag .row, ⟨30, 36⟩⟩] := by
    decide +kernel
  have hform : formOf "<!-- é --><ROW id=ü ><TEXT/></ROW>".toList = .tag := by decide +kernel
  have htree : Tree.ofSource "<!-- é --><ROW id=ü ><TEXT/></ROW>".toList =
      .ok ⟨.tag, [.mk .row [⟨"id", .bare "ü", ⟨16, 21⟩⟩]
        (.children [.mk (.block .text) [] .empty ⟨23, 30⟩]) ⟨11, 36⟩]⟩ := by
    unfold Tree.ofSource
    rw [hlex, hform]
    rfl
  obtain ⟨htokens, hnodes⟩ := spans_cover "<!-- é --><ROW id=ü ><TEXT/></ROW>".toList
  rw [hform] at htokens
  refine ⟨hlex, (htokens _ hlex).2.2 ⟨0, 11⟩ List.mem_cons_self, _, htree, ?_⟩
  obtain ⟨lexemes, -, -, -, hall⟩ := hnodes _ htree
  have hrow := Occurs.here (List.mem_singleton_self (Node.mk .row [⟨"id", .bare "ü", ⟨16, 21⟩⟩]
    (.children [.mk (.block .text) [] .empty ⟨23, 30⟩]) ⟨11, 36⟩))
  obtain ⟨own, first, last, -, -, -, -, -, -, -, horder⟩ := hall _ hrow
  exact ⟨_, hrow, rfl, rfl, horder⟩

end MailTemplate.Script
