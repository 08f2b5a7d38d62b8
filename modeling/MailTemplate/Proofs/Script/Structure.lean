import MailTemplate.Proofs.Script.Compiled
import MailTemplate.Proofs.Script.Fields

/-!
# Which trees are documents, and what the documents hold

A tree is well placed if its explicit ids are distinct, its elements stand in each other as they
should and their attributes fit (`Tree.WellPlaced`).  These are conditions on each node alone, since
neither the ids that nodes take nor the fields that they are read into can make a compilation fail.

A document mirrors a tree if it has a row, a column and a block for each node of their kind, in the
same order and nesting, with all that their nodes say (`Document.Mirrors`).  A row without columns
has one of full width that stands for no node.

Main result: exactly the well-placed trees compile, and to documents that mirror them
(`compile_iff_wellPlaced`).
-/

namespace MailTemplate

namespace Script

/-! ### Nodes in their places -/

/-- The nodes in a node. -/
def Node.inner (node : Node) : List Node :=
  match node.body with
  | .children nodes => nodes
  | _ => []

/-- The attributes of a node can all be read at an element. -/
def Node.FitsAs (e : Element) (node : Node) : Prop := ∀ a ∈ node.attributes, a.Fits e

/-- A node of an element that holds others, and no text. -/
structure Node.Holds (e : Element) (member : Node → Prop) (node : Node) : Prop where
  element : node.element = e
  attributes : node.FitsAs e
  noText : ∀ text, node.body ≠ .content text
  inner : ∀ n ∈ node.inner, member n

/-- A block holds text or nothing, and not even an empty list of nodes. -/
structure Node.IsBlock (kind : BlockKind) (node : Node) : Prop where
  element : node.element = .block kind
  attributes : node.FitsAs (.block kind)
  noNodes : ∀ nodes, node.body ≠ .children nodes

/-- A column holds blocks. -/
def Node.IsColumn : Node → Prop := Node.Holds .column fun node => ∃ kind, node.IsBlock kind

/-- A row holds columns, at most as many as fit the grid. -/
def Node.IsRow (node : Node) : Prop :=
  Node.Holds .row Node.IsColumn node ∧ node.inner.length ≤ gridUnits

/-- A root holds rows. -/
def Node.IsRoot : Node → Prop := Node.Holds .email Node.IsRow

/-- A tree with distinct explicit ids and rows at the top level, in the brace form after at most one
root; the tag form has the root alone. -/
structure Tree.WellPlaced (tree : Tree) : Prop where
  ids : (idTextsOf tree.nodes).Nodup
  top :
    match tree.form with
    | .tag => ∃ root, tree.nodes = [root] ∧ root.IsRoot
    | .brace => (∀ node ∈ tree.nodes, node.IsRow) ∨
        ∃ root nodes, tree.nodes = root :: nodes ∧ root.IsRoot ∧ ∀ node ∈ nodes, node.IsRow

/-! ### What nodes say -/

/-- The text of a block: what stands between its tags, or else its last `content` attribute. -/
def Node.content? (node : Node) : Option String :=
  match node.body with
  | .content text => if text = "" then lastText? "content" node.attributes else some text
  | _ => lastText? "content" node.attributes

/-- The width that a column declares in units. -/
def Node.declaredWidth? (node : Node) : Option ℕ :=
  (lastText? "width" node.attributes).bind columnWidth?

/-- The nodes of rows in a tree: those in the root, and those beside it. -/
def Tree.rowNodes (tree : Tree) : List Node :=
  tree.nodes.flatMap fun node => if node.element = .email then node.inner else [node]

end Script

open Script (Node Tree lastText?)

/-- An id is the one that a node gives itself, if it does. -/
def Script.Node.Names (node : Node) (id : String) : Prop :=
  ∀ a ∈ node.attribute? "id", id = a.value.text

/-- The block holds what its node says. -/
structure Block.Mirrors (block : Block) (node : Node) : Prop where
  element : node.element = .block block.kind
  id : node.Names block.id
  content : block.content = node.content?
  attributes : block.attributes =
    .ofList (node.attributes.flatMap (Script.blockEntries block.kind))

/-- The column holds what its node says, and a block for each node in it. -/
structure Column.Mirrors (column : Column) (node : Node) : Prop where
  element : node.element = .column
  id : node.Names column.id
  attributes : column.attributes = .ofList (node.attributes.flatMap Script.columnEntries)
  blocks : List.Forall₂ Block.Mirrors column.blocks node.inner

/-- The row holds what its node says, and a column for each node in it; without any, an empty column
of full width. -/
structure Row.Mirrors (row : Row) (node : Node) : Prop where
  element : node.element = .row
  id : node.Names row.id
  role : row.role = (lastText? "type" node.attributes).map RowRole.ofName
  attributes : row.attributes = .ofList (node.attributes.flatMap Script.rowEntries)
  container : row.container = .ofList (node.attributes.flatMap Script.containerEntries)
  columns : node.inner ≠ [] → List.Forall₂ Column.Mirrors row.columns node.inner
  units : node.inner ≠ [] →
    row.columns.map Column.units = Grid.assign (node.inner.map Node.declaredWidth?)
  fullWidth : node.inner = [] → ∃ id, row.columns = [{ id, units := gridUnits }]

/-- The document has a row for each node of one. -/
def Document.Mirrors (d : Document) (tree : Tree) : Prop :=
  List.Forall₂ Row.Mirrors d.rows tree.rowNodes

namespace Script

variable {ids ids' : IdSource} {node : Node}

/-! ### Single nodes -/

/-- The nodes in an element are found if it holds no text. -/
lemma members_eq_ok_inner {members : List Node} :
    node.members = .ok members ↔ (∀ text, node.body ≠ .content text) ∧ members = node.inner := by
  unfold Node.members Node.inner
  cases node.body with
  | empty => simp [eq_comm]
  | children nodes => simp [eq_comm]
  | content text => simp

/-- A node that names itself takes its own id. -/
lemma names_takeId (node : Node) (stem : String) (ids : IdSource) :
    node.Names (node.takeId stem ids).1 := by
  intro a ha
  unfold Node.takeId
  rw [Option.mem_def.mp ha]

/-- The body of a node fills a block unless it holds nodes. -/
lemma fill_eq_some {block filled : Block}
    (h : block.content = lastText? "content" node.attributes) :
    node.body.fill block = some filled ↔
      (∀ nodes, node.body ≠ .children nodes) ∧
        filled = { block with content := node.content? } := by
  unfold Node.content?
  rw [← h]
  cases node.body with
  | empty =>
    simp only [Body.fill, Option.some.injEq, ne_eq, reduceCtorEq, not_false_eq_true, implies_true,
      true_and]
    exact eq_comm
  | children nodes => simp [Body.fill]
  | content text =>
    simp only [Body.fill, Option.some.injEq, ne_eq, reduceCtorEq, not_false_eq_true, implies_true,
      true_and]
    by_cases htext : text = ""
    · simp only [htext, if_true]
      exact eq_comm
    · simp only [htext, if_false]
      exact eq_comm

/-- A node compiles to a block exactly if it is one in its place, and then to what it says. -/
lemma compileBlock_eq_ok_node {block : Block} :
    compileBlock ids node = .ok (block, ids') ↔
      ∃ kind, node.IsBlock kind ∧
        block = { id := (node.takeId "block" ids).1, kind, content := node.content?
                  attributes := .ofList (node.attributes.flatMap (blockEntries kind)) } ∧
        ids' = (node.takeId "block" ids).2 := by
  rw [compileBlock_eq_ok]
  refine exists_congr fun kind => ?_
  simp only [foldlM_setBlockField_eq_ok]
  constructor
  · rintro ⟨_, helement, ⟨hfits, rfl⟩, hfill, rfl⟩
    obtain ⟨hnodes, rfl⟩ := (fill_eq_some rfl).mp hfill
    exact ⟨⟨helement, hfits, hnodes⟩, rfl, rfl⟩
  · rintro ⟨hblock, rfl, rfl⟩
    exact ⟨_, hblock.element, ⟨hblock.attributes, rfl⟩,
      (fill_eq_some rfl).mpr ⟨hblock.noNodes, rfl⟩, rfl⟩

/-- A node compiles to a column exactly if it is one and its members compile to blocks. -/
lemma compileColumn_eq_ok_node {column : Column} {width : Option ℕ} :
    compileColumn ids node = .ok ((column, width), ids') ↔
      ∃ blocks, node.element = .column ∧ node.FitsAs .column ∧
        (∀ text, node.body ≠ .content text) ∧
        compileAll compileBlock (node.takeId "column" ids).2 node.inner = .ok (blocks, ids') ∧
        column = { id := (node.takeId "column" ids).1, units := gridUnits
                   attributes := .ofList (node.attributes.flatMap columnEntries), blocks } ∧
        width = node.declaredWidth? := by
  rw [compileColumn_eq_ok]
  simp only [foldlM_setColumnField_eq_ok, members_eq_ok_inner, compileBlocks_eq]
  constructor
  · rintro ⟨_, _, blocks, helement, ⟨hfits, rfl, hwidth⟩, ⟨htext, rfl⟩, hblocks, rfl⟩
    exact ⟨blocks, helement, hfits, htext, hblocks, rfl, hwidth⟩
  · rintro ⟨blocks, helement, hfits, htext, hblocks, rfl, hwidth⟩
    exact ⟨_, _, blocks, helement, ⟨hfits, rfl, hwidth⟩, ⟨htext, rfl⟩, hblocks, rfl⟩

/-- The row of a node, under an id and with columns. -/
def Node.toRow (node : Node) (id : String) (columns : List Column) : Row where
  id := id
  role := (lastText? "type" node.attributes).map RowRole.ofName
  attributes := .ofList (node.attributes.flatMap rowEntries)
  container := .ofList (node.attributes.flatMap containerEntries)
  columns := columns

/-- A node compiles to a row exactly if it is one and its members compile to columns. -/
lemma compileRow_eq_ok_node {row : Row} :
    compileRow ids node = .ok (row, ids') ↔
      ∃ declared next, node.element = .row ∧ node.FitsAs .row ∧
        (∀ text, node.body ≠ .content text) ∧ node.inner.length ≤ gridUnits ∧
        compileAll compileColumn (node.takeId "row" ids).2 node.inner = .ok (declared, next) ∧
        (declared = [] ∧ ids' = (next.next "column").2 ∧
            row = node.toRow (node.takeId "row" ids).1
              [{ id := (next.next "column").1, units := gridUnits }] ∨
          declared ≠ [] ∧ ids' = next ∧
            row = node.toRow (node.takeId "row" ids).1 (fitColumns declared)) := by
  rw [compileRow_eq_ok]
  simp only [foldlM_setRowField_eq_ok, members_eq_ok_inner, compileColumns_eq]
  constructor
  · rintro ⟨_, _, declared, next, helement, ⟨hfits, rfl⟩, ⟨htext, rfl⟩, hcount, hcolumns, hrow⟩
    refine ⟨declared, next, helement, hfits, htext, hcount, hcolumns, ?_⟩
    rcases hrow with ⟨hnil, hids, rfl⟩ | ⟨hne, hids, rfl⟩
    · exact .inl ⟨hnil, hids, rfl⟩
    · exact .inr ⟨hne, hids, rfl⟩
  · rintro ⟨declared, next, helement, hfits, htext, hcount, hcolumns, hrow⟩
    refine ⟨_, _, declared, next, helement, ⟨hfits, rfl⟩, ⟨htext, rfl⟩, hcount, hcolumns, ?_⟩
    rcases hrow with ⟨hnil, hids, rfl⟩ | ⟨hne, hids, rfl⟩
    · exact .inl ⟨hnil, hids, rfl⟩
    · exact .inr ⟨hne, hids, rfl⟩

/-! ### Success -/

/-- A node compiles to a block exactly if it is one in its place. -/
lemma exists_compileBlock (ids : IdSource) (node : Node) :
    (∃ result, compileBlock ids node = .ok result) ↔ ∃ kind, node.IsBlock kind := by
  simp only [Prod.exists, compileBlock_eq_ok_node]
  constructor
  · rintro ⟨_, _, kind, hblock, -⟩
    exact ⟨kind, hblock⟩
  · rintro ⟨kind, hblock⟩
    exact ⟨_, _, kind, hblock, rfl, rfl⟩

/-- A node compiles to a column exactly if it is one in its place. -/
lemma exists_compileColumn (ids : IdSource) (node : Node) :
    (∃ result, compileColumn ids node = .ok result) ↔ node.IsColumn := by
  have hinner := exists_compileAll fun ids n (_ : n ∈ node.inner) => exists_compileBlock ids n
  simp only [Prod.exists, compileColumn_eq_ok_node]
  constructor
  · rintro ⟨_, _, _, blocks, helement, hfits, htext, hblocks, -⟩
    exact ⟨helement, hfits, htext, (hinner _).mp ⟨_, hblocks⟩⟩
  · intro h
    obtain ⟨⟨blocks, last⟩, hblocks⟩ := (hinner (node.takeId "column" ids).2).mpr h.inner
    exact ⟨_, _, last, blocks, h.element, h.attributes, h.noText, hblocks, rfl, rfl⟩

/-- A node compiles to a row exactly if it is one in its place. -/
lemma exists_compileRow (ids : IdSource) (node : Node) :
    (∃ result, compileRow ids node = .ok result) ↔ node.IsRow := by
  have hinner := exists_compileAll fun ids n (_ : n ∈ node.inner) => exists_compileColumn ids n
  simp only [Prod.exists, compileRow_eq_ok_node]
  constructor
  · rintro ⟨_, _, declared, next, helement, hfits, htext, hcount, hcolumns, -⟩
    exact ⟨⟨helement, hfits, htext, (hinner _).mp ⟨_, hcolumns⟩⟩, hcount⟩
  · rintro ⟨h, hcount⟩
    obtain ⟨⟨declared, next⟩, hcolumns⟩ := (hinner (node.takeId "row" ids).2).mpr h.inner
    by_cases hnil : declared = []
    · exact ⟨_, _, declared, next, h.element, h.attributes, h.noText, hcount, hcolumns,
        .inl ⟨hnil, rfl, rfl⟩⟩
    · exact ⟨_, _, declared, next, h.element, h.attributes, h.noText, hcount, hcolumns,
        .inr ⟨hnil, rfl, rfl⟩⟩

/-- Nodes at the top level after the first compile like the rows of a root. -/
lemma compileTop_eq_ok {d d' : Document} {nodes : List Node} :
    compileTop d ids nodes = .ok d' ↔
      ∃ rows next, compileAll compileRow ids nodes = .ok (rows, next) ∧
        d' = { d with rows := d.rows ++ rows } := by
  constructor
  · intro h
    obtain ⟨rows, next, hrows, hd⟩ := compileTop_spec h
    exact ⟨rows, next, compileRows_eq ids nodes ▸ hrows, hd⟩
  · rintro ⟨rows, next, hrows, rfl⟩
    induction nodes generalizing d ids rows with
    | nil =>
      obtain ⟨rfl, -⟩ := Prod.mk.inj (Except.ok.inj hrows)
      rw [List.append_nil]
      rfl
    | cons node nodes ih =>
      simp only [compileAll, bind_eq_ok, Prod.exists, pure_eq_ok, Prod.mk.injEq] at hrows
      obtain ⟨row, middle, hrow, rows, _, hrows, rfl, rfl⟩ := hrows
      obtain ⟨-, -, helement, -⟩ := compileRow_eq_ok_node.mp hrow
      refine compileTop_cons_eq_ok.mpr ⟨row, middle, helement, hrow, ?_⟩
      have hrest := ih (d := { d with rows := d.rows ++ [row] }) rows hrows
      simp only [List.append_assoc, List.singleton_append] at hrest
      exact hrest

/-- Nodes at the top level after the first compile exactly if they are rows in their place. -/
lemma exists_compileTop (d : Document) (ids : IdSource) (nodes : List Node) :
    (∃ d', compileTop d ids nodes = .ok d') ↔ ∀ node ∈ nodes, node.IsRow := by
  rw [← exists_compileAll (fun ids n _ => exists_compileRow ids n) ids]
  simp only [compileTop_eq_ok, Prod.exists]
  constructor
  · rintro ⟨_, rows, next, hrows, -⟩
    exact ⟨rows, next, hrows⟩
  · rintro ⟨rows, next, hrows⟩
    exact ⟨_, rows, next, hrows, rfl⟩

/-- A root and the nodes after it compile exactly if they are in their place. -/
lemma exists_compileNodes_email (d : Document) (ids : IdSource) {nodes : List Node}
    (h : node.element = .email) :
    (∃ d', compileNodes d ids (node :: nodes) = .ok d') ↔
      node.IsRoot ∧ ∀ n ∈ nodes, n.IsRow := by
  have hinner := exists_compileAll fun ids n (_ : n ∈ node.inner) => exists_compileRow ids n
  have hfields : (∃ found, node.attributes.foldlM setDocumentField d = .ok found) ↔
      node.FitsAs .email := exists_foldlM exists_setDocumentField
  simp only [compileNodes_cons_email h, members_eq_ok_inner, compileRows_eq]
  constructor
  · rintro ⟨d', found, _, rows, next, hfound, ⟨htext, rfl⟩, hrows, htop⟩
    exact ⟨⟨h, hfields.mp ⟨found, hfound⟩, htext, (hinner ids).mp ⟨_, hrows⟩⟩,
      (exists_compileTop _ next nodes).mp ⟨d', htop⟩⟩
  · rintro ⟨hroot, hnodes⟩
    obtain ⟨found, hfound⟩ := hfields.mpr hroot.attributes
    obtain ⟨⟨rows, next⟩, hrows⟩ := (hinner ids).mpr hroot.inner
    obtain ⟨d', htop⟩ :=
      (exists_compileTop { found with rows := found.rows ++ rows } next nodes).mpr hnodes
    exact ⟨d', found, _, rows, next, hfound, ⟨hroot.noText, rfl⟩, hrows, htop⟩

/-- The nodes at the top level compile exactly if they are rows in their place, after at most one
root. -/
lemma exists_compileNodes (d : Document) (ids : IdSource) (nodes : List Node) :
    (∃ d', compileNodes d ids nodes = .ok d') ↔
      (∀ node ∈ nodes, node.IsRow) ∨
        ∃ root rest, nodes = root :: rest ∧ root.IsRoot ∧ ∀ node ∈ rest, node.IsRow := by
  cases nodes with
  | nil => exact iff_of_true ⟨d, rfl⟩ (.inl (List.forall_mem_nil _))
  | cons node nodes =>
    by_cases h : node.element = .email
    · rw [exists_compileNodes_email d ids h]
      constructor
      · rintro ⟨hroot, hnodes⟩
        exact .inr ⟨node, nodes, rfl, hroot, hnodes⟩
      · rintro (hall | ⟨_, _, heq, hroot, hnodes⟩)
        · have hrow : node.element = .row := (hall node List.mem_cons_self).1.element
          rw [h] at hrow
          cases hrow
        · obtain ⟨rfl, rfl⟩ := List.cons.inj heq
          exact ⟨hroot, hnodes⟩
    · have htop : compileNodes d ids (node :: nodes) = compileTop d ids (node :: nodes) := by
        rw [compileNodes, if_neg h]
      rw [htop, exists_compileTop]
      constructor
      · exact .inl
      · rintro (hall | ⟨_, _, heq, hroot, -⟩)
        · exact hall
        · obtain ⟨rfl, rfl⟩ := List.cons.inj heq
          exact absurd hroot.element h

/-- The tag form has a single root, and the brace form anything. -/
lemma checkRoot_eq_ok {source : List Char} {tree : Tree} :
    checkRoot source tree = .ok () ↔
      (tree.form = .tag → ∃ root, tree.nodes = [root] ∧ root.element = .email) := by
  obtain ⟨form, nodes⟩ := tree
  cases form with
  | brace => simp [checkRoot]
  | tag =>
    match nodes with
    | [] => simp [checkRoot]
    | [node] => simp [checkRoot]
    | node :: other :: nodes => simp [checkRoot]

/-- Ids can be reserved exactly if they are distinct. -/
lemma exists_reserveAll_iff (attributes : List Attribute) :
    (∃ ids, reserveAll {} attributes = .ok ids) ↔
      (attributes.map fun a => a.value.text).Nodup := by
  constructor
  · rintro ⟨ids, hids⟩
    exact (reserveAll_hands hids).nodup
  · exact fun h => exists_reserveAll h fun _ _ => List.not_mem_nil

/-- Exactly the well-placed trees compile, under whatever defaults. -/
theorem exists_compile (source : List Char) (defaults : Defaults) (tree : Tree) :
    (∃ d, tree.compile source defaults = .ok d) ↔ tree.WellPlaced := by
  unfold Tree.compile
  simp only [bind_eq_ok]
  constructor
  · rintro ⟨d, ids, hids, _, hroot, hnodes⟩
    have htop := (exists_compileNodes defaults.document ids tree.nodes).mp ⟨d, hnodes⟩
    refine ⟨(exists_reserveAll_iff _).mp ⟨ids, hids⟩, ?_⟩
    cases hform : tree.form with
    | brace => exact htop
    | tag =>
      obtain ⟨root, hsingle, hemail⟩ := checkRoot_eq_ok.mp hroot hform
      rw [hsingle] at htop
      -- between tags the one node at the top is the document, so it is not one of the rows
      rcases htop with hall | ⟨_, _, heq, hplaced, -⟩
      · have hrow : root.element = .row := (hall root List.mem_cons_self).1.element
        rw [hemail] at hrow
        cases hrow
      · obtain ⟨rfl, -⟩ := List.cons.inj heq
        exact ⟨root, hsingle, hplaced⟩
  · rintro ⟨hids, htop⟩
    obtain ⟨ids, hids⟩ := (exists_reserveAll_iff (explicitIdsOf tree.nodes)).mpr hids
    have hplaced : (∀ node ∈ tree.nodes, node.IsRow) ∨
        ∃ root rest, tree.nodes = root :: rest ∧ root.IsRoot ∧ ∀ node ∈ rest, node.IsRow := by
      cases hform : tree.form with
      | brace =>
        rw [hform] at htop
        exact htop
      | tag =>
        rw [hform] at htop
        obtain ⟨root, hsingle, hroot⟩ := htop
        exact .inr ⟨root, [], hsingle, hroot, List.forall_mem_nil _⟩
    have hroot : checkRoot source tree = .ok () := by
      refine checkRoot_eq_ok.mpr fun hform => ?_
      rw [hform] at htop
      obtain ⟨root, hsingle, hroot⟩ := htop
      exact ⟨root, hsingle, hroot.element⟩
    obtain ⟨d, hnodes⟩ := (exists_compileNodes defaults.document ids tree.nodes).mpr hplaced
    exact ⟨d, ids, hids, (), hroot, hnodes⟩

/-! ### What nodes become -/

/-- A compiled block holds what its node says. -/
lemma mirrors_compileBlock {block : Block} (h : compileBlock ids node = .ok (block, ids')) :
    block.Mirrors node := by
  obtain ⟨kind, hblock, rfl, -⟩ := compileBlock_eq_ok_node.mp h
  exact ⟨hblock.element, names_takeId node "block" ids, rfl, rfl⟩

/-- A compiled column holds what its node says, beside its declared width. -/
lemma mirrors_compileColumn {column : Column} {width : Option ℕ}
    (h : compileColumn ids node = .ok ((column, width), ids')) :
    column.Mirrors node ∧ width = node.declaredWidth? := by
  obtain ⟨blocks, helement, -, -, hblocks, rfl, hwidth⟩ := compileColumn_eq_ok_node.mp h
  exact ⟨⟨helement, names_takeId node "column" ids, rfl,
    forall₂_compileAll (fun _ _ _ _ _ h => mirrors_compileBlock h) hblocks⟩, hwidth⟩

/-- A column holds what its node says whatever its width. -/
lemma mirrors_units {column : Column} (units : ℕ) :
    ({ column with units } : Column).Mirrors node ↔ column.Mirrors node :=
  ⟨fun h => ⟨h.element, h.id, h.attributes, h.blocks⟩,
    fun h => ⟨h.element, h.id, h.attributes, h.blocks⟩⟩

/-- A compiled row holds what its node says. -/
lemma mirrors_compileRow {row : Row} (h : compileRow ids node = .ok (row, ids')) :
    row.Mirrors node := by
  obtain ⟨declared, next, helement, -, -, hcount, hcolumns, hrow⟩ := compileRow_eq_ok_node.mp h
  have hall : List.Forall₂
      (fun (c : Column × Option ℕ) n => c.1.Mirrors n ∧ c.2 = n.declaredWidth?)
      declared node.inner :=
    forall₂_compileAll (fun _ _ _ _ _ h => mirrors_compileColumn h) hcolumns
  rcases hrow with ⟨rfl, -, rfl⟩ | ⟨hne, -, rfl⟩
  · have hnil : node.inner = [] := List.forall₂_nil_left_iff.mp hall
    exact ⟨helement, names_takeId node "row" ids, rfl, rfl, rfl, fun h => absurd hnil h,
      fun h => absurd hnil h, fun _ => ⟨_, rfl⟩⟩
  · obtain ⟨hlength, -⟩ := assign_compileColumns (compileColumns_eq _ _ ▸ hcolumns) hne hcount
    have hwidths : declared.map Prod.snd = node.inner.map Node.declaredWidth? := by
      rw [← List.forall₂_eq_eq_eq, List.forall₂_map_left_iff, List.forall₂_map_right_iff]
      exact hall.imp fun _ _ h => h.2
    -- columns are compared without their widths, which fitting changes
    have hfit := map_fitColumns (g := fun column => { column with units := 0 }) (fun _ _ => rfl)
      hlength
    have hmirrors : List.Forall₂ Column.Mirrors (fitColumns declared) node.inner := by
      have hblank : List.Forall₂ Column.Mirrors
          ((fitColumns declared).map fun column => { column with units := 0 }) node.inner := by
        rw [hfit, List.forall₂_map_left_iff]
        exact hall.imp fun _ _ h => (mirrors_units 0).mpr h.1
      exact (List.forall₂_map_left_iff.mp hblank).imp fun _ _ h => (mirrors_units 0).mp h
    refine ⟨helement, names_takeId node "row" ids, rfl, rfl, rfl, fun _ => hmirrors, fun _ => ?_,
      fun hnil => ?_⟩
    · rw [← hwidths]
      exact units_fitColumns hlength
    · rw [hnil, List.forall₂_nil_right_iff] at hall
      exact absurd hall hne

/-- Without a root among them, nodes are the nodes of rows at the top level. -/
lemma flatMap_rowNodes {nodes : List Node} {rows : List Row}
    (h : List.Forall₂ Row.Mirrors rows nodes) :
    (nodes.flatMap fun node => if node.element = .email then node.inner else [node]) = nodes := by
  induction h with
  | nil => rfl
  | @cons row node rows nodes hrow _ ih =>
    have helement : node.element ≠ .email := by
      rw [hrow.element]
      decide
    rw [List.flatMap_cons, if_neg helement, ih]
    rfl

/-- Compiled rows hold what their nodes say. -/
lemma mirrors_compileRows {nodes : List Node} {rows : List Row}
    (h : compileAll compileRow ids nodes = .ok (rows, ids')) :
    List.Forall₂ Row.Mirrors rows nodes :=
  forall₂_compileAll (fun _ _ _ _ _ h => mirrors_compileRow h) h

/-- A compiled document has a row for each node of one. -/
lemma mirrors_compileNodes {d d' : Document} {nodes : List Node} (hd : d.rows = [])
    (h : compileNodes d ids nodes = .ok d') :
    List.Forall₂ Row.Mirrors d'.rows
      (nodes.flatMap fun node => if node.element = .email then node.inner else [node]) := by
  cases nodes with
  | nil =>
    cases h
    rw [hd]
    exact .nil
  | cons node nodes =>
    by_cases helement : node.element = .email
    · obtain ⟨found, members, rows, next, hfound, hmembers, hrows, htop⟩ :=
        (compileNodes_cons_email helement).mp h
      obtain ⟨-, rfl⟩ := members_eq_ok_inner.mp hmembers
      rw [compileRows_eq] at hrows
      obtain ⟨rows', last, hrows', rfl⟩ := compileTop_eq_ok.mp htop
      have hstart : found.rows = [] :=
        foldlM_induction (p := fun d => d.rows = []) hfound hd fun _ _ _ _ hb hset =>
          (rows_setDocumentField hset).trans hb
      have hrest := mirrors_compileRows hrows'
      rw [List.flatMap_cons, if_pos helement, flatMap_rowNodes hrest]
      change List.Forall₂ Row.Mirrors (found.rows ++ rows ++ rows') (node.inner ++ nodes)
      rw [hstart, List.nil_append]
      exact List.rel_append (mirrors_compileRows hrows) hrest
    · rw [compileNodes, if_neg helement] at h
      obtain ⟨rows, next, hrows, rfl⟩ := compileTop_eq_ok.mp h
      have hmirrors := mirrors_compileRows hrows
      rw [flatMap_rowNodes hmirrors]
      change List.Forall₂ Row.Mirrors (d.rows ++ rows) (node :: nodes)
      rwa [hd, List.nil_append]

/-- Exactly the trees compile whose explicit ids are distinct, whose elements are in their places
and whose attributes fit, and their documents hold what the trees say. -/
theorem compile_iff_wellPlaced (source : List Char) (defaults : Defaults) (tree : Tree) :
    ((∃ d, tree.compile source defaults = .ok d) ↔ tree.WellPlaced) ∧
      ∀ d, tree.compile source defaults = .ok d → d.Mirrors tree := by
  refine ⟨exists_compile source defaults tree, fun d h => ?_⟩
  unfold Tree.compile at h
  simp only [bind_eq_ok] at h
  obtain ⟨ids, -, _, -, hnodes⟩ := h
  exact mirrors_compileNodes rfl hnodes

/-- A root with a row of two columns, of which the first declares its width and holds a heading, and
a row without columns. -/
def headingTree : Tree where
  form := .brace
  nodes := [
    .mk .email [⟨"width", .bare "640px", ⟨6, 17⟩⟩] (.children [
      .mk .row [⟨"type", .bare "hero", ⟨24, 33⟩⟩, ⟨"containerAlign", .bare "left", ⟨34, 53⟩⟩]
        (.children [
          .mk .column [⟨"width", .bare "50%", ⟨63, 72⟩⟩] (.children [
            .mk (.block .heading)
              [⟨"id", .bare "title", ⟨83, 91⟩⟩, ⟨"level", .bare "1", ⟨92, 99⟩⟩,
                ⟨"padding", .bare "8,16", ⟨100, 112⟩⟩] .empty ⟨75, 112⟩]) ⟨56, 114⟩,
          .mk .column [] .empty ⟨115, 121⟩]) ⟨20, 123⟩,
      .mk .row [] .empty ⟨124, 127⟩]) ⟨0, 129⟩]

/-- That tree is well placed, and its document holds what it says. -/
theorem compile_iff_wellPlaced_headingTree :
    headingTree.WellPlaced ∧
      ∃ d, headingTree.compile [] {} = .ok d ∧ d.Mirrors headingTree := by
  obtain ⟨d, hd⟩ : ∃ d, headingTree.compile [] {} = .ok d :=
    exists_eq_ok_of_isSome (by decide +kernel)
  obtain ⟨hiff, hmirrors⟩ := compile_iff_wellPlaced [] {} headingTree
  exact ⟨hiff.mp ⟨d, hd⟩, d, hd, hmirrors d hd⟩

/-- A row without columns. -/
def emptyRowTree : Tree where
  form := .brace
  nodes := [.mk .row [] (.children []) ⟨0, 7⟩]

/-- A root whose width has its unit twice. -/
def repeatedUnitTree : Tree where
  form := .brace
  nodes := [.mk .email [⟨"width", .bare "600pxpx", ⟨6, 19⟩⟩] (.children []) ⟨0, 23⟩]

/-- A row without columns compiles to one with a column that no node stands for, and a width of the
document may have its unit more than once. -/
theorem exists_column_without_node :
    (∃ d, emptyRowTree.compile [] {} = .ok d ∧
        d.rows.map (fun row => row.columns.length) = [1] ∧
        emptyRowTree.rowNodes.map (fun node => node.inner.length) = [0]) ∧
      (∃ d, repeatedUnitTree.compile [] {} = .ok d) ∧
      ∀ core n, "600pxpx".toList = core ∨ "600pxpx".toList = core ++ ['p', 'x'] →
        Text.wholeNumber? (2 ^ 32 - 1) core ≠ some n := by
  refine ⟨?_, exists_eq_ok_of_isSome (by decide +kernel), ?_⟩
  · obtain ⟨d, hd, hcolumns⟩ : ∃ d, emptyRowTree.compile [] {} = .ok d ∧
        (d.rows.map (fun row => row.columns.length) == [1]) = true :=
      exists_eq_ok_of_any (by decide +kernel)
    exact ⟨d, hd, beq_iff_eq.mp hcolumns, rfl⟩
  · intro core n hcore hn
    obtain ⟨⟨ds, htext, -, hdigits, -⟩, -⟩ := Text.wholeNumber?_eq_some.mp hn
    -- a unit is left in the number either way
    have hmem : 'x' ∈ core := by
      rcases hcore with rfl | heq
      · decide
      · have hunit : core = "600px".toList :=
          List.append_cancel_right (heq.symm.trans (by decide : _ = "600px".toList ++ ['p', 'x']))
        rw [hunit]
        decide
    have hdigit : 'x' ∈ ds := by
      rcases htext with rfl | rfl
      · exact hmem
      · exact List.mem_of_ne_of_mem (by decide) hmem
    exact absurd (hdigits 'x' hdigit) (by decide)

end Script

end MailTemplate
