import Mathlib.Data.List.InsertIdx
import MailTemplate.Edit.Apply
import MailTemplate.Proofs.Places

/-!
# What an edit keeps of a node

An edit names some nodes by their ids (`named`), and may move one of them (`moved`).  `KeepsBlock`,
`KeepsColumn` and `KeepsRow` say what a block, a column and a row have after an edit of what they
had before: all but what the edit says that it sets.

`KeepsNodes` says so of all rows and columns of a document, under ids that leave the document and
ids that leave their place.  It holds of a document with one row or one column changed if it holds
there (`keepsNodes_modifyRow`, `keepsNodes_modifyBlocks`), and it composes (`KeepsNodes.trans`).
-/

namespace MailTemplate

/-- A column apart from its blocks. -/
def Column.frame (column : Column) : Column := { column with blocks := [] }

/-- The id that a source names. -/
def BlockSource.named : BlockSource → List String
  | existing id => [id]
  | new _ => []

/-- The id that a target names. -/
def DropTarget.named : DropTarget → String
  | block id => id
  | column id => id

namespace Edit

/-- The ids that an edit names. -/
def named : Edit → List String
  | moveRow dragId hoverId => [dragId, hoverId]
  | moveBlock source target _ => target.named :: source.named
  | duplicateRow rowId => [rowId]
  | duplicateBlock blockId => [blockId]
  | deleteRow rowId => [rowId]
  | deleteBlock blockId => [blockId]
  | resizeColumns rowId leftColumnId _ => [rowId, leftColumnId]
  | addColumn rowId => [rowId]
  | deleteColumn columnId => [columnId]
  | addRow _ _ => []
  | insertRow _ _ => []
  | setBlockAttribute blockId _ _ => [blockId]
  | removeBlockAttribute blockId _ => [blockId]
  | setBlockContent blockId _ => [blockId]
  | setRowAttribute rowId _ _ => [rowId]
  | setRowRole rowId _ => [rowId]
  | setVariant _ => []
  | setTheme _ => []

/-- The id of the node that an edit moves to another place. -/
def moved : Edit → List String
  | moveRow dragId _ => [dragId]
  | moveBlock source _ _ => source.named
  | _ => []

/-- The edit changes which columns a row has, or how wide they are. -/
def Reshapes (row : Row) : Edit → Prop
  | resizeColumns rowId _ _ => row.id = rowId
  | addColumn rowId => row.id = rowId
  | deleteColumn columnId => columnId ∈ row.columns.map Column.id
  | _ => False

/-! ### Blocks, columns and rows -/

/-- A block afterwards is the block before, but for the content or the attribute that the edit
sets or removes. -/
structure KeepsBlock (e : Edit) (b b' : Block) : Prop where
  id : b'.id = b.id
  kind : b'.kind = b.kind
  content : (∀ content, e ≠ .setBlockContent b.id content) → b'.content = b.content
  attributes : (∀ key value, e ≠ .setBlockAttribute b.id key value) →
    (∀ key, e ≠ .removeBlockAttribute b.id key) → b'.attributes = b.attributes
  otherAttributes : ∀ key, (∀ value, e ≠ .setBlockAttribute b.id key value) →
    e ≠ .removeBlockAttribute b.id key → b'.attributes.get? key = b.attributes.get? key

/-- A column afterwards has the id and the attributes of the column before, and its blocks in their
order but for those that leave it. -/
structure KeepsColumn (leaving : List String) (c c' : Column) : Prop where
  id : c'.id = c.id
  attributes : c'.attributes = c.attributes
  blockOrder : ((c.blocks.map Block.id).filter (· ∉ leaving)).Sublist (c'.blocks.map Block.id)

/-- A row afterwards is the row before, but for the role or the attribute that the edit sets; it has
the same columns of the same widths, unless the edit changes them; and nothing of it changes if the
edit names none of its nodes. -/
structure KeepsRow (e : Edit) (r r' : Row) : Prop where
  id : r'.id = r.id
  role : (∀ role, e ≠ .setRowRole r.id role) → r'.role = r.role
  attributes : (∀ key value, e ≠ .setRowAttribute r.id key value) → r'.attributes = r.attributes
  otherAttributes : ∀ key, (∀ value, e ≠ .setRowAttribute r.id key value) →
    r'.attributes.get? key = r.attributes.get? key
  container : r'.container = r.container
  columns : ¬ e.Reshapes r → r'.columns.map Column.frame = r.columns.map Column.frame
  unnamed : (∀ id ∈ r.ids, id ∉ e.named) → r' = r

/-- A block that is not touched is kept. -/
lemma KeepsBlock.refl (e : Edit) (b : Block) : KeepsBlock e b b :=
  ⟨rfl, rfl, fun _ => rfl, fun _ _ => rfl, fun _ _ _ => rfl⟩

/-- A column that is not touched is kept. -/
lemma KeepsColumn.refl (leaving : List String) (c : Column) : KeepsColumn leaving c c :=
  ⟨rfl, rfl, List.filter_sublist⟩

/-- A column is kept by a change that keeps it and one after it that lets no block go. -/
lemma KeepsColumn.trans {leaving : List String} {c c' c'' : Column} (h : KeepsColumn leaving c c')
    (h' : KeepsColumn [] c' c'') : KeepsColumn leaving c c'' := by
  refine ⟨h'.id.trans h.id, h'.attributes.trans h.attributes, h.blockOrder.trans ?_⟩
  have hall : (c'.blocks.map Block.id).filter (· ∉ ([] : List String)) =
      c'.blocks.map Block.id := by
    simp
  exact hall ▸ h'.blockOrder

/-- A column keeps its blocks when others come in. -/
lemma keepsColumn_of_sublist (leaving : List String) {c : Column} {blocks : List Block}
    (h : c.blocks.Sublist blocks) : KeepsColumn leaving c { c with blocks } :=
  ⟨rfl, rfl, List.filter_sublist.trans (h.map Block.id)⟩

/-- A column keeps its other blocks when one goes. -/
lemma keepsColumn_eraseIdx {leaving : List String} {c : Column} {i : ℕ} {b : Block}
    (hb : c.blocks[i]? = some b) (hleaves : b.id ∈ leaving) :
    KeepsColumn leaving c { c with blocks := c.blocks.eraseIdx i } := by
  refine ⟨rfl, rfl, ?_⟩
  have hid : (c.blocks.map Block.id)[i]? = some b.id := by
    rw [List.getElem?_map, hb, Option.map_some]
  have herase := filter_sublist_eraseIdx (p := (· ∉ leaving)) hid (by simpa using hleaves)
  rwa [List.eraseIdx_map] at herase

/-- A column keeps its blocks when one is changed under its id. -/
lemma keepsColumn_modify (leaving : List String) (c : Column) (i : ℕ) {f : Block → Block}
    (hid : ∀ b, (f b).id = b.id) :
    KeepsColumn leaving c { c with blocks := c.blocks.modify i f } := by
  refine ⟨rfl, rfl, ?_⟩
  rw [map_modify_of_eq hid]
  exact List.filter_sublist

/-- Rows of the same id and the same column ids are reshaped by the same edits. -/
lemma reshapes_congr (e : Edit) {r r' : Row} (hid : r'.id = r.id)
    (hids : r'.columns.map Column.id = r.columns.map Column.id) :
    e.Reshapes r' ↔ e.Reshapes r := by
  unfold Reshapes
  rw [hid, hids]

/-- A row that is not touched is kept. -/
lemma KeepsRow.refl (e : Edit) (r : Row) : KeepsRow e r r :=
  ⟨rfl, fun _ => rfl, fun _ => rfl, fun _ _ => rfl, rfl, fun _ => rfl, fun _ => rfl⟩

/-- A row is kept by two changes one after the other if it is kept by both. -/
lemma KeepsRow.trans {e : Edit} {r r' r'' : Row} (h : KeepsRow e r r') (h' : KeepsRow e r' r'') :
    KeepsRow e r r'' where
  id := h'.id.trans h.id
  role hrole := (h'.role (h.id ▸ hrole)).trans (h.role hrole)
  attributes hset := (h'.attributes (h.id ▸ hset)).trans (h.attributes hset)
  otherAttributes key hset :=
    (h'.otherAttributes key (h.id ▸ hset)).trans (h.otherAttributes key hset)
  container := h'.container.trans h.container
  columns hshape := by
    have hframes := h.columns hshape
    have hids : r'.columns.map Column.id = r.columns.map Column.id := by
      simpa [Column.frame, Function.comp_def] using congrArg (List.map Column.id) hframes
    exact (h'.columns ((reshapes_congr e h.id hids).not.mpr hshape)).trans hframes
  unnamed hnamed := by
    obtain rfl := h.unnamed hnamed
    exact h'.unnamed hnamed

/-! ### Rows and columns of a document -/

/-- Of a document, an edit keeps every row and every column but for those removed, and the rows keep
their order but for those that leave it. -/
structure KeepsNodes (e : Edit) (removed leaving : List String) (d d' : Document) : Prop where
  columns : ∀ c ∈ d.columns, c.id ∉ removed → ∃ c' ∈ d'.columns, KeepsColumn leaving c c'
  rows : ∀ r ∈ d.rows, r.id ∉ removed → ∃ r' ∈ d'.rows, KeepsRow e r r'
  rowOrder : ((d.rows.map Row.id).filter (· ∉ leaving)).Sublist (d'.rows.map Row.id)

variable {e : Edit} {d d' : Document} {removed leaving : List String}

/-- Two changes one after the other keep the nodes that both keep. -/
lemma KeepsNodes.trans {m : Document} (h : KeepsNodes e [] leaving d m)
    (h' : KeepsNodes e [] [] m d') : KeepsNodes e [] leaving d d' := by
  refine ⟨?_, ?_, ?_⟩
  · intro c hc hnot
    obtain ⟨c', hc', hkeeps⟩ := h.columns c hc hnot
    obtain ⟨c'', hc'', hkeeps'⟩ := h'.columns c' hc' List.not_mem_nil
    exact ⟨c'', hc'', hkeeps.trans hkeeps'⟩
  · intro r hr hnot
    obtain ⟨r', hr', hkeeps⟩ := h.rows r hr hnot
    obtain ⟨r'', hr'', hkeeps'⟩ := h'.rows r' hr' List.not_mem_nil
    exact ⟨r'', hr'', hkeeps.trans hkeeps'⟩
  · have hall : (m.rows.map Row.id).filter (· ∉ ([] : List String)) = m.rows.map Row.id := by simp
    exact h.rowOrder.trans (hall ▸ h'.rowOrder)

/-- A document whose rows are left as they are, but for rows removed with all that is in them, keeps
its nodes. -/
lemma keepsNodes_of_rows
    (hrows : ∀ r ∈ d.rows, r ∈ d'.rows ∨ ∀ id ∈ r.ids, id ∈ removed)
    (horder : ((d.rows.map Row.id).filter (· ∉ leaving)).Sublist (d'.rows.map Row.id)) :
    KeepsNodes e removed leaving d d' := by
  refine ⟨?_, ?_, horder⟩
  · intro c hc hnot
    obtain ⟨r, hr, hc⟩ := List.mem_flatMap.mp hc
    rcases hrows r hr with hkept | hremoved
    · exact ⟨c, List.mem_flatMap.mpr ⟨r, hkept, hc⟩, .refl leaving c⟩
    · exact absurd (hremoved c.id (Row.mem_ids_of_column hc)) hnot
  · intro r hr hnot
    rcases hrows r hr with hkept | hremoved
    · exact ⟨r, hkept, .refl e r⟩
    · exact absurd (hremoved r.id List.mem_cons_self) hnot

/-- A document with the same rows keeps its nodes. -/
lemma keepsNodes_of_rows_eq (h : d'.rows = d.rows) : KeepsNodes e removed leaving d d' := by
  refine keepsNodes_of_rows ?_ (h ▸ List.filter_sublist)
  intro r hr
  exact .inl (h ▸ hr)

/-- A document keeps its nodes when a row comes in. -/
lemma keepsNodes_insertIdx (index : ℕ) (row : Row) :
    KeepsNodes e removed leaving d { d with rows := d.rows.insertIdx index row } := by
  have hsub : d.rows.Sublist (d.rows.insertIdx index row) := List.sublist_insertIdx _ _ _
  refine keepsNodes_of_rows ?_ (List.filter_sublist.trans (hsub.map Row.id))
  intro r hr
  exact .inl (hsub.subset hr)

/-- The rows keep their order when one that leaves its place is taken out. -/
lemma rowOrder_eraseIdx {index : ℕ} {row : Row} (hrow : d.rows[index]? = some row)
    (hleaves : row.id ∈ leaving) :
    ((d.rows.map Row.id).filter (· ∉ leaving)).Sublist ((d.rows.eraseIdx index).map Row.id) := by
  have hid : (d.rows.map Row.id)[index]? = some row.id := by
    rw [List.getElem?_map, hrow, Option.map_some]
  have herase := filter_sublist_eraseIdx (p := (· ∉ leaving)) hid (by simpa using hleaves)
  rwa [List.eraseIdx_map] at herase

/-- A document with one row changed keeps its nodes if that row is kept with its columns. -/
lemma keepsNodes_modifyRow {index : ℕ} {row : Row} {f : Row → Row}
    (hrow : d.rows[index]? = some row) (hkeeps : KeepsRow e row (f row))
    (hcolumns : ∀ c ∈ row.columns, c.id ∉ removed →
      ∃ c' ∈ (f row).columns, KeepsColumn leaving c c') :
    KeepsNodes e removed leaving d (d.modifyRow index f) := by
  have hat : ∀ r, d.rows[index]? = some r → r = row := by
    intro r hr
    exact Option.some.inj (hr.symm.trans hrow)
  refine ⟨?_, ?_, ?_⟩
  · intro c hc hnot
    obtain ⟨r, hr, hc⟩ := List.mem_flatMap.mp hc
    have hcounterpart : ∃ r' ∈ d.rows.modify index f, ∀ c ∈ r.columns, c.id ∉ removed →
        ∃ c' ∈ r'.columns, KeepsColumn leaving c c' := by
      refine exists_mem_modify (R := fun r r' => ∀ c ∈ r.columns, c.id ∉ removed →
        ∃ c' ∈ r'.columns, KeepsColumn leaving c c') ?_ ?_ r hr
      · exact fun r c hc _ => ⟨c, hc, .refl leaving c⟩
      · intro r hr
        rw [hat r hr]
        exact hcolumns
    obtain ⟨r', hr', hkept⟩ := hcounterpart
    obtain ⟨c', hc', hkeeps'⟩ := hkept c hc hnot
    exact ⟨c', List.mem_flatMap.mpr ⟨r', hr', hc'⟩, hkeeps'⟩
  · intro r hr _
    exact exists_mem_modify (KeepsRow.refl e) (fun r hr => by rw [hat r hr]; exact hkeeps) r hr
  · have hids : (d.modifyRow index f).rows.map Row.id = d.rows.map Row.id := by
      have hmodify : (d.rows.modify index f).map Row.id = (d.rows.map Row.id).modify index id := by
        refine map_modify_at fun r hr => ?_
        rw [hat r hr]
        exact hkeeps.id
      rwa [List.modify_id] at hmodify
    rw [hids]
    exact List.filter_sublist

/-- A document with the blocks of one column changed keeps its nodes if that column is kept, and if
the edit names a node in its row. -/
lemma keepsNodes_modifyBlocks {place : ColumnPlace} {row : Row} {column : Column}
    {g : List Block → List Block} (hrow : d.rows[place.row]? = some row)
    (hcolumn : row.columns[place.column]? = some column)
    (hkeeps : KeepsColumn leaving column { column with blocks := g column.blocks })
    (hnamed : ∃ id ∈ row.ids, id ∈ e.named) :
    KeepsNodes e removed leaving d (d.modifyBlocks place g) := by
  refine keepsNodes_modifyRow hrow ?_ ?_
  · refine ⟨rfl, fun _ => rfl, fun _ => rfl, fun _ _ => rfl, rfl, ?_, ?_⟩
    · intro _
      exact map_modify_of_eq (f := fun c : Column => { c with blocks := g c.blocks })
        (fun _ => rfl) _ _
    · intro hunnamed
      obtain ⟨id, hid, hmem⟩ := hnamed
      exact absurd hmem (hunnamed id hid)
  · intro c hc _
    refine exists_mem_modify (KeepsColumn.refl leaving) ?_ c hc
    intro c' hc'
    obtain rfl : column = c' := Option.some.inj (hcolumn.symm.trans hc')
    exact hkeeps

/-- A document with a change beside or at a block that the edit names keeps its nodes if the column
of the block is kept. -/
lemma keepsNodes_atBlock {id : String} {place : BlockPlace} {g : List Block → List Block}
    (hplace : d.blockPlace? id = some place) (hnamed : id ∈ e.named)
    (hkeeps : ∀ (c : Column) (b : Block), c.blocks[place.block]? = some b → b.id = id →
      KeepsColumn leaving c { c with blocks := g c.blocks }) :
    KeepsNodes e removed leaving d (d.modifyBlocks ⟨place.row, place.column⟩ g) := by
  obtain ⟨row, column, block, hrow, hcolumn, hblock, rfl⟩ := Document.blockPlace?_spec hplace
  have hmem : block.id ∈ row.ids :=
    Row.mem_ids_of_block (List.mem_of_getElem? hcolumn) (List.mem_of_getElem? hblock)
  exact keepsNodes_modifyBlocks hrow hcolumn (hkeeps column block hblock rfl)
    ⟨block.id, hmem, hnamed⟩

end Edit

end MailTemplate
