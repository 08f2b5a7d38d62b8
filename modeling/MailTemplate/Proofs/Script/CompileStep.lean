import Mathlib.Tactic
import MailTemplate.Proofs.Success
import MailTemplate.Script.Compile

/-!
# What compiling a node takes

For each kind of node, what a successful compilation found on its way: the attributes that it read,
the nodes inside and what they compiled to.  All that is proved of compiled nodes starts from these
statements.
-/

namespace MailTemplate.Script

/-- The block that a body makes of one without content; none if there are elements in it. -/
def Body.fill (block : Block) : Body → Option Block
  | .empty => some block
  | .content text => some (if text = "" then block else { block with content := some text })
  | .children _ => none

/-! ### Nodes one after the other -/

/-- What nodes are compiled to, one after the other. -/
def compileAll {β : Type} (one : IdSource → Node → Except CompileFault (β × IdSource))
    (ids : IdSource) : List Node → Except CompileFault (List β × IdSource)
  | [] => .ok ([], ids)
  | node :: nodes => do
    let (b, ids) ← one ids node
    let (bs, ids) ← compileAll one ids nodes
    return (b :: bs, ids)

/-- Blocks are compiled one after the other. -/
lemma compileBlocks_eq (ids : IdSource) (nodes : List Node) :
    compileBlocks ids nodes = compileAll compileBlock ids nodes := by
  induction nodes generalizing ids with
  | nil => rfl
  | cons node nodes ih => simp only [compileBlocks, compileAll, ih]

/-- Columns are compiled one after the other. -/
lemma compileColumns_eq (ids : IdSource) (nodes : List Node) :
    compileColumns ids nodes = compileAll compileColumn ids nodes := by
  induction nodes generalizing ids with
  | nil => rfl
  | cons node nodes ih => simp only [compileColumns, compileAll, ih]

/-- Rows are compiled one after the other. -/
lemma compileRows_eq (ids : IdSource) (nodes : List Node) :
    compileRows ids nodes = compileAll compileRow ids nodes := by
  induction nodes generalizing ids with
  | nil => rfl
  | cons node nodes ih => simp only [compileRows, compileAll, ih]

/-- Nodes compile one after the other exactly if each of them does, from whatever ids. -/
lemma exists_compileAll {β : Type} {one : IdSource → Node → Except CompileFault (β × IdSource)}
    {q : Node → Prop} {nodes : List Node}
    (h : ∀ ids, ∀ node ∈ nodes, (∃ result, one ids node = .ok result) ↔ q node) (ids : IdSource) :
    (∃ result, compileAll one ids nodes = .ok result) ↔ ∀ node ∈ nodes, q node := by
  induction nodes generalizing ids with
  | nil => exact iff_of_true ⟨_, rfl⟩ (List.forall_mem_nil _)
  | cons node nodes ih =>
    have hrest := ih fun ids n hn => h ids n (List.mem_cons_of_mem node hn)
    rw [List.forall_mem_cons, ← h ids node List.mem_cons_self]
    simp only [compileAll, bind_eq_ok, pure_eq_ok, Prod.exists]
    constructor
    · rintro ⟨_, _, b, next, hb, bs, last, hbs, -⟩
      exact ⟨⟨b, next, hb⟩, (hrest next).mp ⟨_, hbs⟩⟩
    · rintro ⟨⟨b, next, hb⟩, hall⟩
      obtain ⟨⟨bs, last⟩, hbs⟩ := (hrest next).mpr hall
      exact ⟨b :: bs, last, b, next, hb, bs, last, hbs, rfl⟩

/-- Nodes are compiled to as many values in the same order, each related to its node. -/
lemma forall₂_compileAll {β : Type} {one : IdSource → Node → Except CompileFault (β × IdSource)}
    {R : β → Node → Prop} {nodes : List Node} {ids ids' : IdSource} {bs : List β}
    (hone : ∀ node ∈ nodes, ∀ ids b ids', one ids node = .ok (b, ids') → R b node)
    (h : compileAll one ids nodes = .ok (bs, ids')) : List.Forall₂ R bs nodes := by
  induction nodes generalizing ids bs with
  | nil =>
    obtain ⟨rfl, -⟩ := Prod.mk.inj (Except.ok.inj h)
    exact .nil
  | cons node nodes ih =>
    obtain ⟨⟨b, next⟩, hb, hrest⟩ := bind_eq_ok.mp h
    obtain ⟨⟨more, last⟩, hmore, heq⟩ := bind_eq_ok.mp hrest
    obtain ⟨rfl, rfl⟩ := Prod.mk.inj (pure_eq_ok.mp heq)
    exact .cons (hone node List.mem_cons_self ids b next hb)
      (ih (fun n hn => hone n (List.mem_cons_of_mem node hn)) hmore)

/-! ### Single nodes -/

variable {ids ids' : IdSource} {node : Node}

/-- The nodes in an element are its children, if it has any. -/
lemma members_eq_ok {members : List Node} :
    node.members = .ok members ↔
      node.body = .children members ∨ node.body = .empty ∧ members = [] := by
  unfold Node.members
  cases node.body with
  | empty => simp [eq_comm]
  | children nodes => simp
  | content text => simp

/-- A compiled block has the attributes of its node, and its text if it has one. -/
theorem compileBlock_eq_ok {block : Block} :
    compileBlock ids node = .ok (block, ids') ↔
      ∃ kind found, node.element = .block kind ∧
        node.attributes.foldlM setBlockField { id := (node.takeId "block" ids).1, kind } =
          .ok found ∧
        node.body.fill found = some block ∧ (node.takeId "block" ids).2 = ids' := by
  unfold compileBlock
  cases node.element with
  | block kind =>
    simp only [bind_eq_ok, Element.block.injEq, exists_and_left, exists_eq_left']
    refine exists_congr fun found => and_congr_right fun _ => ?_
    cases node.body with
    | empty => simp [Body.fill]
    | content text => simp [Body.fill]
    | children nodes => simp [Body.fill]
  | email => simp
  | row => simp
  | column => simp

/-- A compiled column has the attributes of its node, and the blocks of its members. -/
theorem compileColumn_eq_ok {column : Column} {width : Option ℕ} :
    compileColumn ids node = .ok ((column, width), ids') ↔
      ∃ found members blocks, node.element = .column ∧
        node.attributes.foldlM setColumnField
          ({ id := (node.takeId "column" ids).1, units := gridUnits }, none) = .ok (found, width) ∧
        node.members = .ok members ∧
        compileBlocks (node.takeId "column" ids).2 members = .ok (blocks, ids') ∧
        { found with blocks } = column := by
  unfold compileColumn
  by_cases h : node.element = .column
  · simp only [h, ne_eq, not_true_eq_false, if_false, bind_eq_ok, pure_eq_ok]
    constructor
    · rintro ⟨⟨found, w⟩, hfound, members, hmembers, ⟨blocks, next⟩, hblocks, heq⟩
      simp only [Prod.mk.injEq] at heq
      obtain ⟨⟨rfl, rfl⟩, rfl⟩ := heq
      exact ⟨found, members, blocks, trivial, hfound, hmembers, hblocks, rfl⟩
    · rintro ⟨found, members, blocks, -, hfound, hmembers, hblocks, rfl⟩
      exact ⟨(found, width), hfound, members, hmembers, (blocks, ids'), hblocks, rfl⟩
  · simp [h]

/-- A compiled row has the attributes of its node, and the columns of its members, or an empty one
without any. -/
theorem compileRow_eq_ok {row : Row} :
    compileRow ids node = .ok (row, ids') ↔
      ∃ found members declared next, node.element = .row ∧
        node.attributes.foldlM setRowField { id := (node.takeId "row" ids).1 } = .ok found ∧
        node.members = .ok members ∧ members.length ≤ gridUnits ∧
        compileColumns (node.takeId "row" ids).2 members = .ok (declared, next) ∧
        (declared = [] ∧ ids' = (next.next "column").2 ∧
            { found with columns := [{ id := (next.next "column").1, units := gridUnits }] } = row ∨
          declared ≠ [] ∧ ids' = next ∧ { found with columns := fitColumns declared } = row) := by
  unfold compileRow
  by_cases h : node.element = .row
  · simp only [h, ne_eq, not_true_eq_false, if_false, bind_eq_ok]
    constructor
    · rintro ⟨found, hfound, members, hmembers, hrest⟩
      split at hrest
      · simp at hrest
      · next hcount =>
        obtain ⟨⟨declared, next⟩, hdeclared, hrow⟩ := bind_eq_ok.mp hrest
        refine ⟨found, members, declared, next, trivial, hfound, hmembers, not_lt.mp hcount,
          hdeclared, ?_⟩
        simp only at hrow
        split at hrow
        · next hnil =>
          simp only [pure_eq_ok, Prod.mk.injEq] at hrow
          exact .inl ⟨List.isEmpty_iff.mp hnil, hrow.2.symm, hrow.1⟩
        · next hne =>
          simp only [pure_eq_ok, Prod.mk.injEq] at hrow
          exact .inr ⟨fun hnil => hne (List.isEmpty_iff.mpr hnil), hrow.2.symm, hrow.1⟩
    · rintro ⟨found, members, declared, next, -, hfound, hmembers, hcount, hdeclared, hrow⟩
      refine ⟨found, hfound, members, hmembers, ?_⟩
      rw [if_neg (not_lt.mpr hcount), bind_eq_ok]
      refine ⟨(declared, next), hdeclared, ?_⟩
      rcases hrow with ⟨rfl, rfl, rfl⟩ | ⟨hne, rfl, rfl⟩
      · rfl
      · rw [if_neg (by simpa using hne)]
        rfl
  · simp [h]

/-- The document compiled from the nodes at the top level has the rows of the root, if there is one,
and those beside it. -/
theorem compileNodes_cons_email {d d' : Document} {nodes : List Node}
    (h : node.element = .email) :
    compileNodes d ids (node :: nodes) = .ok d' ↔
      ∃ found members rows next, node.attributes.foldlM setDocumentField d = .ok found ∧
        node.members = .ok members ∧ compileRows ids members = .ok (rows, next) ∧
        compileTop { found with rows := found.rows ++ rows } next nodes = .ok d' := by
  unfold compileNodes
  simp only [h, if_true, bind_eq_ok, Prod.exists]
  constructor
  · rintro ⟨found, hfound, members, hmembers, rows, next, hrows, htop⟩
    exact ⟨found, members, rows, next, hfound, hmembers, hrows, htop⟩
  · rintro ⟨found, members, rows, next, hfound, hmembers, hrows, htop⟩
    exact ⟨found, hfound, members, hmembers, rows, next, hrows, htop⟩

/-- The nodes at the top level after the first are compiled to rows, one after the other. -/
theorem compileTop_cons_eq_ok {d d' : Document} {nodes : List Node} :
    compileTop d ids (node :: nodes) = .ok d' ↔
      ∃ row next, node.element = .row ∧ compileRow ids node = .ok (row, next) ∧
        compileTop { d with rows := d.rows ++ [row] } next nodes = .ok d' := by
  rw [compileTop]
  cases node.element with
  | row => simp [bind_eq_ok]
  | email => simp
  | column => simp
  | block kind => simp

end MailTemplate.Script
