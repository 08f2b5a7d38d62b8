import MailTemplate.Proofs.FreshIds
import MailTemplate.Proofs.Script.CompileStep

/-!
# Ids of compiled nodes

The explicit ids of a script are reserved before any id is handed out, so that the ids of the
compiled nodes are the explicit ones and ids that were free (`Issues`).  Nodes take their ids in
document order; each kind of node adds its own (`compileRows_issues`).
-/

namespace MailTemplate.Script

open IdSource (Hands)

/-! ### Explicit ids -/

/-- The texts of the explicit ids of a node and of all nodes in it. -/
def Node.idTexts (node : Node) : List String := node.explicitIds.map fun a => a.value.text

/-- The texts of the explicit ids of nodes and of all nodes in them. -/
def idTextsOf (nodes : List Node) : List String :=
  (explicitIdsOf nodes).map fun a => a.value.text

/-- A list without nodes has no explicit ids. -/
@[simp] lemma idTextsOf_nil : idTextsOf [] = [] := rfl

/-- The explicit ids of a list of nodes are those of each node in turn. -/
@[simp] lemma idTextsOf_cons (node : Node) (nodes : List Node) :
    idTextsOf (node :: nodes) = node.idTexts ++ idTextsOf nodes := by
  simp [idTextsOf, Node.idTexts, explicitIdsOf]

/-- The explicit ids of a list of nodes are those of its parts. -/
lemma idTextsOf_append (nodes nodes' : List Node) :
    idTextsOf (nodes ++ nodes') = idTextsOf nodes ++ idTextsOf nodes' := by
  induction nodes with
  | nil => rfl
  | cons node nodes ih =>
    rw [List.cons_append, idTextsOf_cons, idTextsOf_cons, ih, List.append_assoc]

/-- The explicit ids of a node are its own and those of its body. -/
lemma explicitIds_eq (node : Node) :
    node.explicitIds = node.explicitId?.toList ++ node.body.explicitIds := by
  cases node
  rfl

/-- The explicit ids of an element that holds others are its own and those of its members. -/
lemma idTexts_of_members {node : Node} {members : List Node} (h : node.members = .ok members) :
    node.idTexts = (node.explicitId?.toList.map fun a => a.value.text) ++ idTextsOf members := by
  have hbody : node.body.explicitIds = explicitIdsOf members := by
    rcases members_eq_ok.mp h with hbody | ⟨hbody, rfl⟩
    · rw [hbody]
      rfl
    · rw [hbody]
      rfl
  rw [Node.idTexts, explicitIds_eq, List.map_append, hbody]
  rfl

/-- The root has no id among the nodes. -/
lemma idTexts_of_email {node : Node} {members : List Node} (helement : node.element = .email)
    (h : node.members = .ok members) : node.idTexts = idTextsOf members := by
  rw [idTexts_of_members h, Node.explicitId?, if_pos helement]
  rfl

/-! ### Reserved and generated ids -/

/-- The ids found are explicit ones and ids that the source has handed out. -/
def Issues (ids : IdSource) (explicit found : List String) (ids' : IdSource) : Prop :=
  ∃ given, Hands ids given ids' ∧ found.Perm (explicit ++ given)

/-- Nothing is issued without a node. -/
lemma Issues.refl (ids : IdSource) : Issues ids [] [] ids :=
  ⟨[], Hands.refl ids, List.Perm.refl _⟩

/-- What is issued first and what follows are issued together. -/
lemma Issues.append {ids ids' ids'' : IdSource} {explicit found explicit' found' : List String}
    (h : Issues ids explicit found ids') (h' : Issues ids' explicit' found' ids'') :
    Issues ids (explicit ++ explicit') (found ++ found') ids'' := by
  obtain ⟨given, hands, hperm⟩ := h
  obtain ⟨given', hands', hperm'⟩ := h'
  refine ⟨given ++ given', hands.append hands', (hperm.append hperm').trans ?_⟩
  rw [List.append_assoc, List.append_assoc]
  refine List.Perm.append_left explicit ?_
  rw [← List.append_assoc, ← List.append_assoc]
  exact List.perm_append_comm.append_right given'

/-- A node takes its explicit id or one that is handed out. -/
lemma takeId_issues (node : Node) (h : node.element ≠ .email) (stem : String) (ids : IdSource) :
    Issues ids (node.explicitId?.toList.map fun a => a.value.text) [(node.takeId stem ids).1]
      (node.takeId stem ids).2 := by
  unfold Node.takeId Node.explicitId?
  rw [if_neg h]
  cases node.attribute? "id" with
  | some a => exact ⟨[], Hands.refl ids, List.Perm.refl _⟩
  | none => exact ⟨_, IdSource.hands_next ids stem, List.Perm.refl _⟩

/-- Reserved ids are distinct, and from then on taken. -/
lemma reserveAll_hands {ids ids' : IdSource} {attributes : List Attribute}
    (h : reserveAll ids attributes = .ok ids') :
    Hands ids (attributes.map fun a => a.value.text) ids' := by
  induction attributes generalizing ids with
  | nil =>
    cases h
    exact Hands.refl _
  | cons a attributes ih =>
    unfold reserveAll at h
    split at h
    · next next hreserve =>
      obtain ⟨hfree, rfl⟩ := Prod.mk.inj hreserve
      have hfirst : Hands ids [a.value.text] { ids with taken := a.value.text :: ids.taken } := by
        refine ⟨List.nodup_singleton _, ?_, List.Perm.refl _⟩
        intro id hid
        rw [List.mem_singleton] at hid
        rw [hid]
        simpa [IdSource.isTaken] using hfree
      exact hfirst.append (ih h)
    · cases h

/-- Distinct ids can all be reserved. -/
lemma exists_reserveAll {attributes : List Attribute} {ids : IdSource}
    (h : (attributes.map fun a => a.value.text).Nodup)
    (hfree : ∀ a ∈ attributes, a.value.text ∉ ids.taken) :
    ∃ ids', reserveAll ids attributes = .ok ids' := by
  induction attributes generalizing ids with
  | nil => exact ⟨ids, rfl⟩
  | cons a attributes ih =>
    rw [List.map_cons, List.nodup_cons] at h
    have hreserve : ids.reserve a.value.text =
        (true, { ids with taken := a.value.text :: ids.taken }) := by
      have hfirst := hfree a List.mem_cons_self
      simp [IdSource.reserve, IdSource.isTaken, hfirst]
    rw [reserveAll, hreserve]
    refine ih h.2 fun b hb hmem => ?_
    rcases List.mem_cons.mp hmem with heq | hmem
    · exact h.1 (List.mem_map.mpr ⟨b, hb, heq⟩)
    · exact hfree b (List.mem_cons_of_mem a hb) hmem

/-! ### Attributes keep ids -/

/-- An attribute leaves the id of a block as it is. -/
lemma id_setBlockField {block block' : Block} {a : Attribute}
    (h : setBlockField block a = .ok block') : block'.id = block.id := by
  unfold setBlockField at h
  split at h
  · cases h; rfl
  · split at h
    · cases h; rfl
    · split at h
      · cases h; rfl
      · obtain ⟨entries, -, hblock⟩ := bind_eq_ok.mp h
        rw [pure_eq_ok] at hblock
        rw [← hblock]

/-- An attribute leaves the id of a column as it is. -/
lemma id_setColumnField {acc acc' : Column × Option ℕ} {a : Attribute}
    (h : setColumnField acc a = .ok acc') : acc'.1.id = acc.1.id := by
  obtain ⟨column, width⟩ := acc
  unfold setColumnField at h
  simp only at h
  split at h
  · cases h; rfl
  · split at h
    · split at h
      · cases h; rfl
      · cases h
    · obtain ⟨entries, -, hcolumn⟩ := bind_eq_ok.mp h
      rw [pure_eq_ok] at hcolumn
      rw [← hcolumn]

/-- An attribute leaves the id of a row as it is. -/
lemma id_setRowField {row row' : Row} {a : Attribute} (h : setRowField row a = .ok row') :
    row'.id = row.id := by
  unfold setRowField at h
  split at h
  · cases h; rfl
  · split at h
    · cases h; rfl
    · split at h
      · obtain ⟨entries, -, hrow⟩ := bind_eq_ok.mp h
        rw [pure_eq_ok] at hrow
        rw [← hrow]
      · obtain ⟨entries, -, hrow⟩ := bind_eq_ok.mp h
        rw [pure_eq_ok] at hrow
        rw [← hrow]

/-! ### Compiled nodes -/

section Compiled

variable {ids ids' : IdSource} {node : Node} {nodes : List Node}

/-- A compiled block has the id that its node takes. -/
lemma compileBlock_issues {block : Block} (h : compileBlock ids node = .ok (block, ids')) :
    Issues ids node.idTexts [block.id] ids' := by
  obtain ⟨kind, found, helement, hfound, hfill, rfl⟩ := compileBlock_eq_ok.mp h
  have hid : found.id = (node.takeId "block" ids).1 :=
    foldlM_induction (p := fun b => b.id = (node.takeId "block" ids).1) hfound rfl
      fun a _ b b' hb hset => (id_setBlockField hset).trans hb
  -- the body of a block has no explicit ids, and its text leaves the id as it is
  have hbody : node.body.explicitIds = [] ∧ block.id = found.id := by
    cases hcase : node.body with
    | empty =>
      rw [hcase] at hfill
      cases hfill
      exact ⟨rfl, rfl⟩
    | content text =>
      rw [hcase] at hfill
      cases hfill
      refine ⟨rfl, ?_⟩
      split <;> rfl
    | children nodes =>
      rw [hcase] at hfill
      cases hfill
  rw [Node.idTexts, explicitIds_eq, hbody.1, List.append_nil, hbody.2, hid]
  exact takeId_issues node (by rw [helement]; simp) "block" ids

/-- Compiled blocks have the ids that their nodes take. -/
lemma compileBlocks_issues {blocks : List Block}
    (h : compileBlocks ids nodes = .ok (blocks, ids')) :
    Issues ids (idTextsOf nodes) (blocks.map Block.id) ids' := by
  induction nodes generalizing ids blocks with
  | nil =>
    cases h
    exact Issues.refl _
  | cons node nodes ih =>
    simp only [compileBlocks, bind_eq_ok, Prod.exists, pure_eq_ok, Prod.mk.injEq] at h
    obtain ⟨block, next, hblock, blocks, _, hblocks, rfl, rfl⟩ := h
    rw [idTextsOf_cons]
    exact (compileBlock_issues hblock).append (ih hblocks)

/-- A compiled column and its blocks have the ids that their nodes take. -/
lemma compileColumn_issues {column : Column} {width : Option ℕ}
    (h : compileColumn ids node = .ok ((column, width), ids')) :
    Issues ids node.idTexts column.ids ids' := by
  obtain ⟨found, members, blocks, helement, hfound, hmembers, hblocks, rfl⟩ :=
    compileColumn_eq_ok.mp h
  have hid : found.id = (node.takeId "column" ids).1 :=
    foldlM_induction (p := fun acc => acc.1.id = (node.takeId "column" ids).1) hfound rfl
      fun a _ b b' hb hset => (id_setColumnField hset).trans hb
  rw [idTexts_of_members hmembers]
  have hown := takeId_issues node (by rw [helement]; simp) "column" ids
  rw [← hid] at hown
  exact hown.append (compileBlocks_issues hblocks)

/-- Compiled columns and their blocks have the ids that their nodes take. -/
lemma compileColumns_issues {declared : List (Column × Option ℕ)}
    (h : compileColumns ids nodes = .ok (declared, ids')) :
    Issues ids (idTextsOf nodes) (declared.flatMap fun c => c.1.ids) ids' := by
  induction nodes generalizing ids declared with
  | nil =>
    cases h
    exact Issues.refl _
  | cons node nodes ih =>
    simp only [compileColumns, bind_eq_ok, Prod.exists, pure_eq_ok, Prod.mk.injEq] at h
    obtain ⟨column, width, next, hcolumn, declared, _, hdeclared, rfl, rfl⟩ := h
    rw [idTextsOf_cons]
    exact (compileColumn_issues hcolumn).append (ih hdeclared)

end Compiled

end MailTemplate.Script
