import MailTemplate.Proofs.Script.CompileStep
import MailTemplate.Proofs.Script.Spans

/-!
# Where compiling fails

A fault of compilation names a node of the tree or one of its attributes, and carries its span.
Only a script in the tag form without any node has none to name: its fault spans the whole source.

Main result: `compile_eq_error`.
-/

namespace MailTemplate.Script

section Spans

variable {node : Node} {nodes members : List Node} {a : Attribute} {s : Span}

/-- The span of a node is among its spans. -/
lemma span_mem_spans (node : Node) : node.span ∈ node.spans := by
  cases node
  exact List.mem_cons_self

/-- The span of an attribute is among those of its node. -/
lemma attribute_mem_spans (node : Node) (ha : a ∈ node.attributes) : a.span ∈ node.spans := by
  cases node
  exact List.mem_cons_of_mem _ (List.mem_append_left _ (List.mem_map_of_mem ha))

/-- The spans of nodes are those of each of them. -/
lemma mem_spansOf : s ∈ spansOf nodes ↔ ∃ node ∈ nodes, s ∈ node.spans := by
  induction nodes with
  | nil => simp [spansOf]
  | cons node nodes ih => rw [spansOf, List.mem_append, ih, List.exists_mem_cons_iff]

/-- The spans of the nodes in a node are among its own. -/
lemma members_mem_spans (h : node.members = .ok members) (hs : s ∈ spansOf members) :
    s ∈ node.spans := by
  obtain ⟨element, attributes, body, span⟩ := node
  rw [Node.spans]
  refine List.mem_cons_of_mem _ (List.mem_append_right _ ?_)
  rcases members_eq_ok.mp h with hbody | ⟨hbody, rfl⟩
  · obtain rfl : body = .children members := hbody
    exact hs
  · cases hs

mutual

/-- An explicit id of a node is an attribute in it. -/
lemma explicitIds_mem_spans : ∀ {node : Node}, a ∈ node.explicitIds → a.span ∈ node.spans
  | .mk element attributes body span, h => by
    rw [Node.explicitIds] at h
    rcases List.mem_append.mp h with hown | hbody
    · refine attribute_mem_spans (.mk element attributes body span) ?_
      unfold Node.explicitId? at hown
      split at hown
      · cases hown
      · exact List.mem_of_find?_eq_some (Option.mem_toList.mp hown)
    · exact List.mem_cons_of_mem _ (List.mem_append_right _ (explicitIds_mem_body_spans hbody))

/-- An explicit id in a body is an attribute in it. -/
lemma explicitIds_mem_body_spans : ∀ {body : Body}, a ∈ body.explicitIds → a.span ∈ body.spans
  | .empty, h => by cases h
  | .children _, h => explicitIdsOf_mem_spansOf h
  | .content _, h => by cases h

/-- An explicit id of nodes is an attribute in them. -/
lemma explicitIdsOf_mem_spansOf : ∀ {nodes : List Node}, a ∈ explicitIdsOf nodes →
    a.span ∈ spansOf nodes
  | [], h => by cases h
  | _ :: _, h => by
    rw [explicitIdsOf] at h
    rcases List.mem_append.mp h with hnode | hnodes
    · exact List.mem_append_left _ (explicitIds_mem_spans hnode)
    · exact List.mem_append_right _ (explicitIdsOf_mem_spansOf hnodes)

end

end Spans

/-! ### Attributes -/

section Faults

variable {ids : IdSource} {node : Node} {nodes : List Node} {a : Attribute} {fault : CompileFault}

/-- A repeated id is an attribute that gives it. -/
lemma reserveAll_eq_error {as : List Attribute} (h : reserveAll ids as = .error fault) :
    ∃ a ∈ as, fault.span = a.span := by
  induction as generalizing ids with
  | nil => cases h
  | cons a as ih =>
    rw [reserveAll] at h
    split at h
    · obtain ⟨a', ha', hspan⟩ := ih h
      exact ⟨a', List.mem_cons_of_mem a ha', hspan⟩
    · obtain rfl := Except.error.inj h
      exact ⟨a, List.mem_cons_self, rfl⟩

/-- A value that is no JSON is reported at its attribute. -/
lemma entriesOf_eq_error {key : String} (h : entriesOf key a = .error fault) :
    fault.span = a.span := by
  unfold entriesOf at h
  split at h
  · cases h
  · obtain rfl := Except.error.inj h
    rfl

/-- A width that does not fit a document is reported at its attribute. -/
lemma setDocumentField_eq_error {d : Document} (h : setDocumentField d a = .error fault) :
    fault.span = a.span := by
  unfold setDocumentField at h
  simp only at h
  split at h <;> try cases h
  -- what is left is a width
  split at h
  · cases h
  · obtain rfl := Except.error.inj h
    rfl

/-- A fault in an attribute of a block is reported there. -/
lemma setBlockField_eq_error {block : Block} (h : setBlockField block a = .error fault) :
    fault.span = a.span := by
  unfold setBlockField at h
  split at h
  · cases h
  split at h
  · cases h
  split at h
  · cases h
  · rcases bind_eq_error.mp h with h | ⟨entries, -, h⟩
    · exact entriesOf_eq_error h
    · cases h

/-- A fault in an attribute of a column is reported there. -/
lemma setColumnField_eq_error {acc : Column × Option ℕ} (h : setColumnField acc a = .error fault) :
    fault.span = a.span := by
  unfold setColumnField at h
  simp only at h
  split at h
  · cases h
  split at h
  · split at h
    · cases h
    · obtain rfl := Except.error.inj h
      rfl
  · rcases bind_eq_error.mp h with h | ⟨entries, -, h⟩
    · exact entriesOf_eq_error h
    · cases h

/-- A fault in an attribute of a row is reported there. -/
lemma setRowField_eq_error {row : Row} (h : setRowField row a = .error fault) :
    fault.span = a.span := by
  unfold setRowField at h
  split at h
  · cases h
  split at h
  · cases h
  split at h
  · rcases bind_eq_error.mp h with h | ⟨entries, -, h⟩
    · exact entriesOf_eq_error h
    · cases h
  · rcases bind_eq_error.mp h with h | ⟨entries, -, h⟩
    · exact entriesOf_eq_error h
    · cases h

/-- A fault in the attributes of a node is one of its spans, if each step reports its own. -/
lemma foldlM_mem_spans {β : Type} {set : β → Attribute → Except CompileFault β} {start : β}
    (hset : ∀ {b a}, set b a = .error fault → fault.span = a.span)
    (h : node.attributes.foldlM set start = .error fault) : fault.span ∈ node.spans := by
  obtain ⟨a, ha, b, hb⟩ := exists_of_foldlM_eq_error h
  exact hset hb ▸ attribute_mem_spans node ha

/-! ### Nodes -/

/-- An element that holds a text in place of elements is reported itself. -/
lemma members_eq_error (h : node.members = .error fault) : fault.span ∈ node.spans := by
  unfold Node.members at h
  split at h
  · cases h
  · cases h
  · obtain rfl := Except.error.inj h
    exact span_mem_spans node

/-- A fault in nodes is in one of them. -/
lemma compileAll_eq_error {β : Type} {one : IdSource → Node → Except CompileFault (β × IdSource)}
    (hone : ∀ {ids node}, one ids node = .error fault → fault.span ∈ node.spans)
    (h : compileAll one ids nodes = .error fault) : fault.span ∈ spansOf nodes := by
  induction nodes generalizing ids with
  | nil => cases h
  | cons node nodes ih =>
    rw [spansOf, List.mem_append]
    rcases bind_eq_error.mp h with h | ⟨⟨b, next⟩, -, h⟩
    · exact .inl (hone h)
    · rcases bind_eq_error.mp h with h | ⟨found, -, h⟩
      · exact .inr (ih h)
      · cases h

/-- A fault in a block is one of its spans. -/
lemma compileBlock_eq_error (h : compileBlock ids node = .error fault) :
    fault.span ∈ node.spans := by
  unfold compileBlock at h
  split at h
  · simp only at h
    rcases bind_eq_error.mp h with h | ⟨block, -, h⟩
    · exact foldlM_mem_spans setBlockField_eq_error h
    · split at h
      · cases h
      · cases h
      · obtain rfl := Except.error.inj h
        exact span_mem_spans node
  · obtain rfl := Except.error.inj h
    exact span_mem_spans node

/-- A fault in a column is one of its spans. -/
lemma compileColumn_eq_error (h : compileColumn ids node = .error fault) :
    fault.span ∈ node.spans := by
  unfold compileColumn at h
  by_cases hcolumn : node.element = .column
  swap
  · simp only [hcolumn, ne_eq, not_false_eq_true, if_true, throw_bind] at h
    obtain rfl := Except.error.inj h
    exact span_mem_spans node
  simp only [hcolumn, ne_eq, not_true_eq_false, if_false] at h
  rcases bind_eq_error.mp h with h | ⟨⟨column, width⟩, -, h⟩
  · exact foldlM_mem_spans setColumnField_eq_error h
  rcases bind_eq_error.mp h with h | ⟨members, hmembers, h⟩
  · exact members_eq_error h
  rcases bind_eq_error.mp h with h | ⟨blocks, -, h⟩
  · rw [compileBlocks_eq] at h
    exact members_mem_spans hmembers (compileAll_eq_error compileBlock_eq_error h)
  · cases h

/-- A fault in a row is one of its spans. -/
lemma compileRow_eq_error (h : compileRow ids node = .error fault) : fault.span ∈ node.spans := by
  unfold compileRow at h
  by_cases hrow : node.element = .row
  swap
  · simp only [hrow, ne_eq, not_false_eq_true, if_true, throw_bind] at h
    obtain rfl := Except.error.inj h
    exact span_mem_spans node
  simp only [hrow, ne_eq, not_true_eq_false, if_false] at h
  rcases bind_eq_error.mp h with h | ⟨row, -, h⟩
  · exact foldlM_mem_spans setRowField_eq_error h
  rcases bind_eq_error.mp h with h | ⟨members, hmembers, h⟩
  · exact members_eq_error h
  split at h
  · obtain rfl := Except.error.inj h
    exact span_mem_spans node
  rcases bind_eq_error.mp h with h | ⟨columns, -, h⟩
  · rw [compileColumns_eq] at h
    exact members_mem_spans hmembers (compileAll_eq_error compileColumn_eq_error h)
  · split at h
    · cases h
    · cases h

/-- A fault at the top level behind the root is one of the spans of the nodes there. -/
lemma compileTop_eq_error {d : Document} (h : compileTop d ids nodes = .error fault) :
    fault.span ∈ spansOf nodes := by
  induction nodes generalizing d ids with
  | nil => cases h
  | cons node nodes ih =>
    rw [spansOf, List.mem_append]
    rw [compileTop] at h
    split at h
    · rcases bind_eq_error.mp h with h | ⟨⟨row, next⟩, -, h⟩
      · exact .inl (compileRow_eq_error h)
      · exact .inr (ih h)
    · obtain rfl := Except.error.inj h
      exact .inl (span_mem_spans node)
    · obtain rfl := Except.error.inj h
      exact .inl (span_mem_spans node)

/-- A fault at the top level is one of the spans of the nodes there. -/
lemma compileNodes_eq_error {d : Document} (h : compileNodes d ids nodes = .error fault) :
    fault.span ∈ spansOf nodes := by
  cases nodes with
  | nil => cases h
  | cons node nodes =>
    rw [compileNodes] at h
    split at h
    · rw [spansOf, List.mem_append]
      rcases bind_eq_error.mp h with h | ⟨found, -, h⟩
      · exact .inl (foldlM_mem_spans setDocumentField_eq_error h)
      rcases bind_eq_error.mp h with h | ⟨members, hmembers, h⟩
      · exact .inl (members_eq_error h)
      rcases bind_eq_error.mp h with h | ⟨⟨rows, next⟩, -, h⟩
      · rw [compileRows_eq] at h
        exact .inl (members_mem_spans hmembers (compileAll_eq_error compileRow_eq_error h))
      · exact .inr (compileTop_eq_error h)
    · exact compileTop_eq_error h

/-- A fault at the root is one of the spans of the nodes at the top level, or the whole source if
there are none. -/
lemma checkRoot_eq_error {source : List Char} {tree : Tree}
    (h : checkRoot source tree = .error fault) :
    fault.span ∈ spansOf tree.nodes ∨
      tree.form = .tag ∧ fault = ⟨.missingRoot, ⟨0, Text.utf8Size source⟩⟩ := by
  unfold checkRoot at h
  split at h
  · cases h
  · next hform _ => exact .inr ⟨hform, (Except.error.inj h).symm⟩
  · next node _ hnodes =>
    split at h
    · cases h
    · obtain rfl := Except.error.inj h
      exact .inl (mem_spansOf.mpr ⟨node, by simp [hnodes], span_mem_spans node⟩)
  · next node more _ _ hnodes =>
    obtain rfl := Except.error.inj h
    exact .inl (mem_spansOf.mpr ⟨node, by simp [hnodes], span_mem_spans node⟩)

/-- A fault of compilation carries the span of a node or an attribute, unless there is no node: a
script in the tag form without nodes is faulty from its start to its end. -/
theorem compile_eq_error {source : List Char} {defaults : Defaults} {tree : Tree}
    (h : tree.compile source defaults = .error fault) :
    fault.span ∈ spansOf tree.nodes ∨
      tree.form = .tag ∧ fault = ⟨.missingRoot, ⟨0, Text.utf8Size source⟩⟩ := by
  unfold Tree.compile at h
  rcases bind_eq_error.mp h with h | ⟨ids, -, h⟩
  · obtain ⟨a, ha, hspan⟩ := reserveAll_eq_error h
    exact .inl (hspan ▸ explicitIdsOf_mem_spansOf ha)
  rcases bind_eq_error.mp h with h | ⟨_, -, h⟩
  · exact checkRoot_eq_error h
  · exact .inl (compileNodes_eq_error h)

end Faults

end MailTemplate.Script
