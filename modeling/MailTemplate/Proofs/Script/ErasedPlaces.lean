import MailTemplate.Proofs.Script.CompiledIds
import MailTemplate.Proofs.Script.Grammar

/-!
# Places have no part in compiled documents

The places in a tree are for errors only: each step of the compilation has the same outcome for
nodes with their places left out, but for the place of a fault (`placeless`).

Main result: nodes without their places compile to the same document, or to a fault with the same
cause, whatever the source is in which the places are (`placeless_compileTree_erase`).
-/

namespace MailTemplate.Script

/-! ### Outcomes without places -/

/-- The outcome of a compilation, without the place of a fault. -/
def placeless {α : Type} (x : Except CompileFault α) : Except Cause α :=
  x.mapError CompileFault.cause

/-- Sequences have the same outcome without places if their parts do. -/
lemma placeless_bind_congr {α β : Type} {x y : Except CompileFault α}
    {f g : α → Except CompileFault β} (h : placeless x = placeless y)
    (hfg : ∀ a, placeless (f a) = placeless (g a)) : placeless (x >>= f) = placeless (y >>= g) := by
  cases x with
  | error e =>
    cases y with
    | error e' => exact congrArg Except.error (Except.error.inj h)
    | ok b => cases h
  | ok a =>
    cases y with
    | error e' => cases h
    | ok b =>
      obtain rfl := Except.ok.inj h
      exact hfg a

/-- Compilations with the same outcome without places have the same value. -/
lemma toOption_of_placeless {α : Type} {x y : Except CompileFault α}
    (h : placeless x = placeless y) : x.toOption = y.toOption := by
  cases x with
  | error e =>
    cases y with
    | error e' => rfl
    | ok b => cases h
  | ok a =>
    cases y with
    | error e' => cases h
    | ok b => exact congrArg some (Except.ok.inj h)

/-! ### Parts of nodes -/

/-- A node keeps its element without its places. -/
@[simp] lemma element_erase (node : Node) : node.erase.element = node.element := by
  cases node
  rfl

/-- A node keeps its attributes without its places, up to theirs. -/
@[simp] lemma attributes_erase (node : Node) :
    node.erase.attributes = node.attributes.map Attribute.erase := by
  cases node
  rfl

/-- A node keeps its body without its places, up to those in it. -/
@[simp] lemma body_erase (node : Node) : node.erase.body = node.body.erase := by
  cases node
  rfl

/-- The first attribute with a key is the same without places, up to its own. -/
lemma attribute?_erase (node : Node) (key : String) :
    node.erase.attribute? key = (node.attribute? key).map Attribute.erase := by
  unfold Node.attribute?
  rw [attributes_erase, List.find?_map]
  rfl

/-- A node takes the same id without its places. -/
lemma takeId_erase (node : Node) (stem : String) (ids : IdSource) :
    node.erase.takeId stem ids = node.takeId stem ids := by
  unfold Node.takeId
  rw [attribute?_erase]
  cases node.attribute? "id" with
  | none => rfl
  | some a => rfl

mutual

/-- The explicit ids of a node are the same without places, up to theirs. -/
lemma explicitIds_erase : ∀ node : Node,
    node.erase.explicitIds = node.explicitIds.map Attribute.erase
  | .mk element attributes body span => by
    have hid : (Node.mk element attributes body span).erase.explicitId? =
        (Node.mk element attributes body span).explicitId?.map Attribute.erase := by
      unfold Node.explicitId?
      rw [element_erase, attribute?_erase]
      split
      · rfl
      · rfl
    rw [explicitIds_eq, hid, body_erase, Node.body, explicitIds_body_erase body, explicitIds_eq,
      List.map_append, Option.toList_map]
    rfl

/-- The explicit ids in a body are the same without places, up to theirs. -/
lemma explicitIds_body_erase : ∀ body : Body,
    body.erase.explicitIds = body.explicitIds.map Attribute.erase
  | .empty => rfl
  | .children nodes => explicitIdsOf_eraseAll nodes
  | .content _ => rfl

/-- The explicit ids of nodes are the same without places, up to theirs. -/
lemma explicitIdsOf_eraseAll : ∀ nodes : List Node,
    explicitIdsOf (eraseAll nodes) = (explicitIdsOf nodes).map Attribute.erase
  | [] => rfl
  | node :: nodes => by
    rw [eraseAll, explicitIdsOf, explicitIdsOf, explicitIds_erase node,
      explicitIdsOf_eraseAll nodes, List.map_append]

end

/-! ### Attributes -/

/-- An attribute keeps its key without its place. -/
@[simp] lemma key_erase (a : Attribute) : a.erase.key = a.key := rfl

/-- An attribute keeps its value without its place. -/
@[simp] lemma value_erase (a : Attribute) : a.erase.value = a.value := rfl

/-- Steps that give the same outcome for attributes without places do so one after the other. -/
lemma placeless_foldlM_erase {β : Type} {f : β → Attribute → Except CompileFault β}
    (hf : ∀ b a, placeless (f b a.erase) = placeless (f b a)) (attributes : List Attribute)
    (b : β) : placeless ((attributes.map Attribute.erase).foldlM f b) =
      placeless (attributes.foldlM f b) := by
  induction attributes generalizing b with
  | nil => rfl
  | cons a attributes ih =>
    rw [List.map_cons, List.foldlM_cons, List.foldlM_cons]
    exact placeless_bind_congr (hf b a) ih

/-- An attribute has the entries that its raw value is converted to. -/
lemma toOption_entriesOf (key : String) (a : Attribute) :
    (entriesOf key a).toOption = (convert key a.value).toOption := by
  unfold entriesOf
  cases convert key a.value with
  | error e => rfl
  | ok entries => rfl

/-- An attribute has the same entries without its place. -/
lemma placeless_entriesOf_erase (key : String) (a : Attribute) :
    placeless (entriesOf key a.erase) = placeless (entriesOf key a) := by
  unfold entriesOf
  rw [value_erase]
  cases convert key a.value with
  | error e => rfl
  | ok entries => rfl

/-- An attribute of the root counts the same without its place. -/
lemma placeless_setDocumentField_erase (d : Document) (a : Attribute) :
    placeless (setDocumentField d a.erase) = placeless (setDocumentField d a) := by
  unfold setDocumentField
  simp only [key_erase, value_erase]
  split
  case h_6 =>
    split
    · rfl
    · rfl
  all_goals rfl

/-- An attribute of a block counts the same without its place. -/
lemma placeless_setBlockField_erase (block : Block) (a : Attribute) :
    placeless (setBlockField block a.erase) = placeless (setBlockField block a) := by
  obtain ⟨key, value, span⟩ := a
  change placeless (setBlockField block ⟨key, value, default⟩) = _
  unfold setBlockField
  simp only
  by_cases hid : key = "id"
  · rw [if_pos hid, if_pos hid]
  rw [if_neg hid, if_neg hid]
  by_cases hcontent : key = "content"
  · rw [if_pos hcontent, if_pos hcontent]
  rw [if_neg hcontent, if_neg hcontent]
  by_cases hlevel : key = "level" ∧ block.kind = .heading
  · rw [if_pos hlevel, if_pos hlevel]
  rw [if_neg hlevel, if_neg hlevel]
  exact placeless_bind_congr (placeless_entriesOf_erase key ⟨key, value, span⟩) fun _ => rfl

/-- An attribute of a column counts the same without its place. -/
lemma placeless_setColumnField_erase (acc : Column × Option ℕ) (a : Attribute) :
    placeless (setColumnField acc a.erase) = placeless (setColumnField acc a) := by
  obtain ⟨key, value, span⟩ := a
  change placeless (setColumnField acc ⟨key, value, default⟩) = _
  unfold setColumnField
  simp only
  by_cases hid : key = "id"
  · rw [if_pos hid, if_pos hid]
  rw [if_neg hid, if_neg hid]
  by_cases hwidth : key = "width"
  · rw [if_pos hwidth, if_pos hwidth]
    cases columnWidth? value.text with
    | none => rfl
    | some units => rfl
  rw [if_neg hwidth, if_neg hwidth]
  exact placeless_bind_congr (placeless_entriesOf_erase key ⟨key, value, span⟩) fun _ => rfl

/-- An attribute of a row counts the same without its place. -/
lemma placeless_setRowField_erase (row : Row) (a : Attribute) :
    placeless (setRowField row a.erase) = placeless (setRowField row a) := by
  obtain ⟨key, value, span⟩ := a
  change placeless (setRowField row ⟨key, value, default⟩) = _
  unfold setRowField
  simp only
  by_cases hid : key = "id"
  · rw [if_pos hid, if_pos hid]
  rw [if_neg hid, if_neg hid]
  by_cases htype : key = "type"
  · rw [if_pos htype, if_pos htype]
  rw [if_neg htype, if_neg htype]
  cases containerKey? key with
  | some inner =>
    exact placeless_bind_congr (placeless_entriesOf_erase inner ⟨key, value, span⟩) fun _ => rfl
  | none =>
    exact placeless_bind_congr (placeless_entriesOf_erase key ⟨key, value, span⟩) fun _ => rfl

/-! ### Nodes -/

/-- A block is compiled to the same without places. -/
lemma placeless_compileBlock_erase (ids : IdSource) (node : Node) :
    placeless (compileBlock ids node.erase) = placeless (compileBlock ids node) := by
  unfold compileBlock
  rw [element_erase]
  cases node.element with
  | block kind =>
    simp only [takeId_erase, attributes_erase, body_erase]
    refine placeless_bind_congr (placeless_foldlM_erase placeless_setBlockField_erase _ _)
      fun b => ?_
    cases node.body with
    | empty => rfl
    | children nodes => rfl
    | content text => rfl
  | email => rfl
  | row => rfl
  | column => rfl

/-- Nodes that are compiled to the same without places are so one after the other. -/
lemma placeless_compileAll_erase {β : Type}
    {one : IdSource → Node → Except CompileFault (β × IdSource)}
    (h : ∀ ids node, placeless (one ids node.erase) = placeless (one ids node)) (ids : IdSource)
    (nodes : List Node) :
    placeless (compileAll one ids (nodes.map Node.erase)) =
      placeless (compileAll one ids nodes) := by
  induction nodes generalizing ids with
  | nil => rfl
  | cons node nodes ih =>
    rw [List.map_cons, compileAll, compileAll]
    refine placeless_bind_congr (h ids node) fun first => ?_
    exact placeless_bind_congr (ih first.2) fun _ => rfl

/-- The nodes in an element go the same way without places. -/
lemma placeless_members_bind {α : Type} (node : Node) {f g : List Node → Except CompileFault α}
    (h : ∀ nodes, placeless (f (nodes.map Node.erase)) = placeless (g nodes)) :
    placeless (node.erase.members >>= f) = placeless (node.members >>= g) := by
  unfold Node.members
  rw [body_erase, element_erase]
  cases node.body with
  | empty => exact h []
  | children nodes =>
    rw [Body.erase, eraseAll_eq_map]
    exact h nodes
  | content text => rfl

/-- A column is compiled to the same without places. -/
lemma placeless_compileColumn_erase (ids : IdSource) (node : Node) :
    placeless (compileColumn ids node.erase) = placeless (compileColumn ids node) := by
  unfold compileColumn
  simp only [element_erase, takeId_erase, attributes_erase]
  split
  · rfl
  · refine placeless_bind_congr (placeless_foldlM_erase placeless_setColumnField_erase _ _)
      fun found => ?_
    refine placeless_members_bind node fun nodes => ?_
    rw [compileBlocks_eq, compileBlocks_eq]
    exact placeless_bind_congr (placeless_compileAll_erase placeless_compileBlock_erase _ nodes)
      fun _ => rfl

/-- A row is compiled to the same without places. -/
lemma placeless_compileRow_erase (ids : IdSource) (node : Node) :
    placeless (compileRow ids node.erase) = placeless (compileRow ids node) := by
  unfold compileRow
  simp only [element_erase, takeId_erase, attributes_erase]
  split
  · rfl
  · refine placeless_bind_congr (placeless_foldlM_erase placeless_setRowField_erase _ _)
      fun found => ?_
    refine placeless_members_bind node fun nodes => ?_
    simp only [List.length_map]
    split
    · rfl
    · rw [compileColumns_eq, compileColumns_eq]
      exact placeless_bind_congr (placeless_compileAll_erase placeless_compileColumn_erase _ nodes)
        fun _ => rfl

/-- Rows beside the root are compiled to the same without places. -/
lemma placeless_compileTop_erase (d : Document) (ids : IdSource) (nodes : List Node) :
    placeless (compileTop d ids (nodes.map Node.erase)) = placeless (compileTop d ids nodes) := by
  induction nodes generalizing d ids with
  | nil => rfl
  | cons node nodes ih =>
    rw [List.map_cons, compileTop, compileTop, element_erase]
    cases node.element with
    | row =>
      exact placeless_bind_congr (placeless_compileRow_erase ids node) fun first => ih _ first.2
    | email => rfl
    | column => rfl
    | block kind => rfl

/-- Nodes at the top level are compiled to the same without places. -/
lemma placeless_compileNodes_erase (d : Document) (ids : IdSource) (nodes : List Node) :
    placeless (compileNodes d ids (nodes.map Node.erase)) =
      placeless (compileNodes d ids nodes) := by
  cases nodes with
  | nil => rfl
  | cons node nodes =>
    rw [List.map_cons, compileNodes, compileNodes, element_erase, attributes_erase]
    split
    · refine placeless_bind_congr (placeless_foldlM_erase placeless_setDocumentField_erase _ _)
        fun found => ?_
      refine placeless_members_bind node fun members => ?_
      rw [compileRows_eq, compileRows_eq]
      refine placeless_bind_congr
        (placeless_compileAll_erase placeless_compileRow_erase ids members) fun rows => ?_
      exact placeless_compileTop_erase _ rows.2 nodes
    · exact placeless_compileTop_erase d ids (node :: nodes)

/-- Ids are reserved the same without places. -/
lemma placeless_reserveAll_erase (ids : IdSource) (attributes : List Attribute) :
    placeless (reserveAll ids (attributes.map Attribute.erase)) =
      placeless (reserveAll ids attributes) := by
  induction attributes generalizing ids with
  | nil => rfl
  | cons a attributes ih =>
    rw [List.map_cons, reserveAll, reserveAll, value_erase]
    split
    · next next _ => exact ih next
    · rfl

/-- The root is checked the same without places, in any source. -/
lemma placeless_checkRoot_erase (source source' : List Char) (form : Form) (nodes : List Node) :
    placeless (checkRoot source ⟨form, nodes.map Node.erase⟩) =
      placeless (checkRoot source' ⟨form, nodes⟩) := by
  unfold checkRoot
  cases form with
  | brace => rfl
  | tag =>
    match nodes with
    | [] => rfl
    | [node] =>
      simp only [List.map_cons, List.map_nil, element_erase]
      split
      · rfl
      · rfl
    | node :: next :: nodes => rfl

/-- A tree is compiled to the same without the places in it, in any source. -/
theorem placeless_compileTree_erase (source source' : List Char) (defaults : Defaults) (form : Form)
    (nodes : List Node) :
    placeless (Tree.compile source defaults ⟨form, nodes.map Node.erase⟩) =
      placeless (Tree.compile source' defaults ⟨form, nodes⟩) := by
  have hids : placeless (reserveAll {} (explicitIdsOf (nodes.map Node.erase))) =
      placeless (reserveAll {} (explicitIdsOf nodes)) := by
    rw [← eraseAll_eq_map, explicitIdsOf_eraseAll, placeless_reserveAll_erase]
  unfold Tree.compile
  refine placeless_bind_congr hids fun ids => ?_
  refine placeless_bind_congr (placeless_checkRoot_erase source source' form nodes) fun _ => ?_
  exact placeless_compileNodes_erase _ ids nodes

end MailTemplate.Script
