import MailTemplate.Proofs.FreshIds
import MailTemplate.Proofs.Nodes

/-!
# What becomes of the nodes under an edit

An edit removes certain nodes (`removed`), changes what at most one node holds (`retouch`), and
creates nodes that hold certain things (`created`).  `Traces` says that the nodes of the document
afterwards are exactly the former ones but for those removed, each under its id, and the created
ones, each under a fresh id.

Main statement: on a document whose ids are distinct every step is traced so (`Step.traces`).
-/

namespace MailTemplate

open Document (Payload Node)

namespace Document

/-- The payload with changed attributes. -/
def Payload.mapAttributes (f : Attributes → Attributes) : Payload → Payload
  | row role attributes container => row role (f attributes) container
  | column attributes => column (f attributes)
  | block kind content attributes => block kind content (f attributes)

/-- The payload of a block with other content. -/
def Payload.withContent (content : Option String) : Payload → Payload
  | block kind _ attributes => block kind content attributes
  | payload => payload

/-- The payload of a row with another role. -/
def Payload.withRole (role : Option RowRole) : Payload → Payload
  | row _ attributes container => row role attributes container
  | payload => payload

/-- The node with a changed payload if it has the id. -/
def Node.retouch (id : String) (f : Payload → Payload) (node : Node) : Node :=
  if node.id = id then { node with payload := f node.payload } else node

end Document

namespace Edit

/-- The ids of the nodes that an edit removes. -/
def removed (d : Document) : Edit → List String
  | deleteRow rowId => ((d.row? rowId).map Row.ids).getD []
  | deleteColumn columnId =>
    ((d.columns.find? fun c => c.id == columnId).map Column.ids).getD []
  | deleteBlock blockId => [blockId]
  | _ => []

/-- The change that an edit makes to what the nodes hold. -/
def retouch : Edit → Node → Node
  | setBlockAttribute blockId key value =>
    Node.retouch blockId (Payload.mapAttributes fun bag => bag.set key value)
  | removeBlockAttribute blockId key =>
    Node.retouch blockId (Payload.mapAttributes fun bag => bag.erase key)
  | setBlockContent blockId content => Node.retouch blockId (Payload.withContent content)
  | setRowAttribute rowId key value =>
    Node.retouch rowId (Payload.mapAttributes fun bag => bag.set key value)
  | setRowRole rowId role => Node.retouch rowId (Payload.withRole role)
  | _ => id

/-- What the nodes hold that an edit creates, in document order. -/
def created (d : Document) : Edit → List Payload
  | moveBlock (.new kind) _ _ => [.block kind none {}]
  | duplicateRow rowId => ((d.row? rowId).map fun row => row.nodes.map Node.payload).getD []
  | duplicateBlock blockId =>
    ((d.block? blockId).map fun (_, block) => [block.node.payload]).getD []
  | addColumn _ => [.column {}]
  | addRow widths _ => .row none {} {} :: List.replicate widths.length (.column {})
  | insertRow row _ =>
    .row row.role row.attributes row.container ::
      if row.columns.isEmpty then [.column {}]
      else row.columns.flatMap fun column => column.nodes.map Node.payload
  | _ => []

/-- The nodes afterwards are the former ones but for those removed, each under its id, and the
created ones, each under a fresh id. -/
structure Traces (e : Edit) (d d' : Document) (new : List Node) : Prop where
  /-- No other node goes, and no other comes. -/
  nodes_perm : d'.nodes.Perm
    ((d.nodes.filter fun node => node.id ∉ e.removed d).map e.retouch ++ new)
  /-- The new nodes hold what the edit creates. -/
  payloads : new.map Node.payload = e.created d
  /-- No two new nodes have the same id. -/
  nodup : (new.map Node.id).Nodup
  /-- No new node has the id of a former one. -/
  fresh : ∀ id ∈ new.map Node.id, id ∉ d.ids

/-! ### Ids after a traced edit -/

/-- Changing what nodes hold keeps their ids. -/
lemma id_retouch (e : Edit) (node : Node) : (e.retouch node).id = node.id := by
  have hone : ∀ id f, (Node.retouch id f node).id = node.id := by
    intro id f
    unfold Node.retouch
    split <;> rfl
  cases e with
  | setBlockAttribute blockId key value => exact hone blockId _
  | removeBlockAttribute blockId key => exact hone blockId _
  | setBlockContent blockId content => exact hone blockId _
  | setRowAttribute rowId key value => exact hone rowId _
  | setRowRole rowId role => exact hone rowId _
  | _ => rfl

section Traces

variable {e : Edit} {d d' : Document} {new : List Node}

/-- The ids afterwards are some of the former ones and those of the new nodes. -/
lemma Traces.ids_perm (h : Traces e d d' new) :
    d'.ids.Perm (d.ids.filter (· ∉ e.removed d) ++ new.map Node.id) := by
  have hperm := h.nodes_perm.map Node.id
  have hkept : ((d.nodes.filter fun node => node.id ∉ e.removed d).map e.retouch).map Node.id =
      d.ids.filter (· ∉ e.removed d) := by
    rw [List.map_map, ← Document.map_id_nodes, List.filter_map]
    exact List.map_congr_left fun node _ => id_retouch e node
  rw [List.map_append, hkept, Document.map_id_nodes] at hperm
  exact hperm

/-- Distinct ids stay distinct. -/
lemma Traces.ids_nodup (h : Traces e d d' new) (hd : d.ids.Nodup) : d'.ids.Nodup := by
  rw [h.ids_perm.nodup_iff]
  refine List.Nodup.append (hd.filter _) h.nodup ?_
  intro id hid hnew
  exact h.fresh id hnew (List.mem_of_mem_filter hid)

/-- An id that was not there before belongs to a new node. -/
lemma Traces.mem_new (h : Traces e d d' new) {id : String} (hid : id ∈ d'.ids)
    (hnot : id ∉ d.ids) : id ∈ new.map Node.id := by
  rw [h.ids_perm.mem_iff, List.mem_append] at hid
  rcases hid with hid | hid
  · exact absurd (List.mem_of_mem_filter hid) hnot
  · exact hid

/-! ### The three ways of being traced -/

/-- An edit that removes nothing keeps all nodes. -/
lemma filter_not_mem_removed (hremoved : e.removed d = []) :
    (d.nodes.filter fun node => node.id ∉ e.removed d) = d.nodes := by
  rw [hremoved]
  simp

/-- An edit that only adds nodes under ids that a source hands out is traced. -/
lemma traces_of_created {ids' : IdSource} (hremoved : e.removed d = []) (hretouch : e.retouch = id)
    (hperm : d'.nodes.Perm (new ++ d.nodes)) (hpayloads : new.map Node.payload = e.created d)
    (hands : IdSource.Hands (IdSource.ofDocument d) (new.map Node.id) ids') :
    Traces e d d' new := by
  refine ⟨?_, hpayloads, hands.nodup, hands.fresh⟩
  have hall := filter_not_mem_removed hremoved
  rw [hall, hretouch, List.map_id]
  exact hperm.trans List.perm_append_comm

/-- An edit that leaves the nodes as they are up to their order is traced. -/
lemma traces_of_perm (hremoved : e.removed d = []) (hretouch : e.retouch = id)
    (hcreated : e.created d = []) (hperm : d'.nodes.Perm d.nodes) : Traces e d d' [] :=
  traces_of_created hremoved hretouch hperm hcreated.symm (IdSource.Hands.refl _)

/-- An edit that only takes out the nodes of one part is traced. -/
lemma traces_of_removed (hd : d.ids.Nodup) {part others : List Node}
    (hparts : d.nodes.Perm (part ++ others)) (hremoved : e.removed d = part.map Node.id)
    (hretouch : e.retouch = id) (hcreated : e.created d = []) (hperm : d'.nodes.Perm others) :
    Traces e d d' [] := by
  refine ⟨?_, hcreated.symm, List.nodup_nil, fun _ h => absurd h List.not_mem_nil⟩
  have hnodup : ((part ++ others).map Node.id).Nodup := by
    rw [← (hparts.map Node.id).nodup_iff, Document.map_id_nodes]
    exact hd
  rw [List.map_append, List.nodup_append'] at hnodup
  obtain ⟨-, -, hdisjoint⟩ := hnodup
  have hpart : (part.filter fun node => node.id ∉ e.removed d) = [] := by
    refine List.filter_eq_nil_iff.mpr fun node hnode => ?_
    rw [hremoved]
    simpa using List.mem_map_of_mem hnode
  have hothers : (others.filter fun node => node.id ∉ e.removed d) = others := by
    refine List.filter_eq_self.mpr fun node hnode => ?_
    rw [hremoved, decide_eq_true_eq]
    exact fun hmem => hdisjoint hmem (List.mem_map_of_mem hnode)
  have hfilter := hparts.filter fun node => node.id ∉ e.removed d
  rw [List.filter_append, hpart, hothers, List.nil_append] at hfilter
  rw [hretouch, List.map_id, List.append_nil]
  exact hperm.trans hfilter.symm

/-- An edit that only changes what one node holds is traced. -/
lemma traces_of_retouch (hd : d.ids.Nodup) {node : Node} {others : List Node}
    {f : Payload → Payload} (hparts : d.nodes.Perm (node :: others)) (hremoved : e.removed d = [])
    (hretouch : e.retouch = Node.retouch node.id f) (hcreated : e.created d = [])
    (hperm : d'.nodes.Perm (⟨node.id, f node.payload⟩ :: others)) : Traces e d d' [] := by
  refine ⟨?_, hcreated.symm, List.nodup_nil, fun _ h => absurd h List.not_mem_nil⟩
  have hnodup : ((node :: others).map Node.id).Nodup := by
    rw [← (hparts.map Node.id).nodup_iff, Document.map_id_nodes]
    exact hd
  rw [List.map_cons, List.nodup_cons] at hnodup
  have hall := filter_not_mem_removed hremoved
  have hnode : Node.retouch node.id f node = ⟨node.id, f node.payload⟩ := if_pos rfl
  have hothers : others.map (Node.retouch node.id f) = others := by
    calc others.map (Node.retouch node.id f)
      _ = others.map id := List.map_congr_left fun other hother =>
          if_neg fun hid : other.id = node.id => hnodup.1 (hid ▸ List.mem_map_of_mem hother)
      _ = others := List.map_id others
  rw [hall, hretouch, List.append_nil]
  refine hperm.trans ?_
  have hmap := hparts.map (Node.retouch node.id f)
  rw [List.map_cons, hnode, hothers] at hmap
  exact hmap.symm

end Traces

end Edit

/-! ### Nodes of copies -/

/-- A copied column holds what the column holds. -/
lemma Column.payloads_copy (column : Column) (ids : IdSource) :
    (column.copy ids).1.nodes.map Node.payload = column.nodes.map Node.payload := by
  have hblocks := IdSource.map_makeAll Block.copy (fun b => b.node.payload)
    (fun b => b.node.payload) (fun _ _ => rfl) column.blocks (ids.next "column").2
  unfold Column.nodes
  rw [List.map_cons, List.map_cons, List.map_map, List.map_map]
  exact congrArg _ hblocks

/-- The columns of a copied row hold what the columns of the row hold. -/
lemma Row.payloads_columns_copy (row : Row) (ids : IdSource) :
    ((row.copy ids).1.columns.flatMap fun column => column.nodes.map Node.payload) =
      row.columns.flatMap fun column => column.nodes.map Node.payload := by
  rw [List.flatMap_def, List.flatMap_def]
  exact congrArg _ (IdSource.map_makeAll Column.copy _ _ Column.payloads_copy row.columns _)

/-- A row holds what it holds itself and what its columns hold. -/
lemma Row.payloads_eq (row : Row) :
    row.nodes.map Node.payload = .row row.role row.attributes row.container ::
      row.columns.flatMap fun column => column.nodes.map Node.payload := by
  rw [Row.nodes, List.map_cons, List.map_flatMap]

/-- A copied row holds what the row holds. -/
lemma Row.payloads_copy (row : Row) (ids : IdSource) :
    (row.copy ids).1.nodes.map Node.payload = row.nodes.map Node.payload := by
  rw [Row.payloads_eq, Row.payloads_eq, Row.payloads_columns_copy]
  rfl

/-- New widths leave the columns of a row in place, with all that they hold. -/
lemma Row.map_columns_withUnits {γ : Type} {g : Column → γ}
    (hg : ∀ (c : Column) (u : ℕ), g { c with units := u } = g c) {row : Row} {units : List ℕ}
    (h : row.columns.length ≤ units.length) :
    (row.withUnits units).columns.map g = row.columns.map g := by
  unfold withUnits
  simp only
  generalize row.columns = columns at h ⊢
  induction columns generalizing units with
  | nil => simp
  | cons c columns ih =>
    cases units with
    | nil => simp at h
    | cons u units =>
      have hrest : columns.length ≤ units.length := by simpa using h
      simp [hg, ih hrest]

/-- New widths leave the nodes of a row as they are. -/
lemma Row.nodes_withUnits (row : Row) (units : List ℕ) (h : row.columns.length ≤ units.length) :
    (row.withUnits units).nodes = row.nodes := by
  have hcolumns := Row.map_columns_withUnits (g := Column.nodes) (fun _ _ => rfl) h
  unfold Row.nodes
  rw [List.flatMap_def, List.flatMap_def, hcolumns]
  rfl

end MailTemplate
