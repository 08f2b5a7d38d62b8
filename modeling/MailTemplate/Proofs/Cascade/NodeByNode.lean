import MailTemplate.Cascade.Resolve
import Mathlib.Data.List.Nodup

/-!
# A resolved document, node by node

A whole document is resolved with the place of each column in its row at hand; a single block looks
its column up by its own id.  Where no two blocks of a row share an id, the column that is found is
the one that holds the block (`findIdx?_of_mem`), so that both ways give the same attributes.

Main result: a resolved document is the document with the attributes that each of its nodes resolves
to alone, every node in its place (`rows_resolve_eq_nodewise`).
-/

namespace MailTemplate

/-! ### Nodes resolved alone -/

/-- No two blocks of a row share an id. -/
def Row.DistinctBlocks (row : Row) : Prop :=
  (row.columns.flatMap fun column => column.blocks.map Block.id).Nodup

namespace Cascade

variable (view : View) (d : Document)

/-- A block with the attributes that it resolves to alone. -/
def blockAlone (r : Row) (b : Block) : ResolvedBlock where
  id := b.id
  kind := b.kind
  content := b.content
  attributes := block view d r b

/-- A column with the attributes that it and its blocks resolve to alone. -/
def columnAlone (r : Row) (c : Column) : ResolvedColumn where
  id := c.id
  units := c.units
  width := c.widthText
  attributes := column view d r c
  blocks := c.blocks.map (blockAlone view d r)

/-- A row with the attributes that it, its container and its nodes resolve to alone. -/
def rowAlone (r : Row) : ResolvedRow where
  id := r.id
  role := r.role.map RowRole.name
  attributes := row view d r
  container := container view d r
  columns := r.columns.map (columnAlone view d r)

variable {view d}

/-! ### The column of a block -/

/-- The first column with a block of the given id is the one that holds the block, if no two blocks
of the row share an id. -/
lemma findIdx?_of_mem {r : Row} (h : r.DistinctBlocks) {place : ℕ} {c : Column}
    (hc : r.columns[place]? = some c) {b : Block} (hb : b ∈ c.blocks) :
    (r.columns.findIdx? fun c => c.blocks.any fun x => x.id == b.id) = some place := by
  obtain ⟨hplace, rfl⟩ := List.getElem?_eq_some_iff.mp hc
  rw [List.findIdx?_eq_some_iff_getElem]
  refine ⟨hplace, List.any_eq_true.mpr ⟨b, hb, beq_self_eq_true _⟩, fun earlier hlt hany => ?_⟩
  obtain ⟨x, hx, hid⟩ := List.any_eq_true.mp hany
  rw [beq_iff_eq] at hid
  -- an earlier column with that id would share it with the block
  have hapart := List.pairwise_iff_getElem.mp (List.nodup_flatMap.mp h).2 earlier place
    (Nat.lt_trans hlt hplace) hplace hlt
  exact hapart (List.mem_map_of_mem hx) (hid ▸ List.mem_map_of_mem hb)

/-- A block resolves in its place as it does alone. -/
lemma resolveBlock_eq_blockAlone {r : Row} (h : r.DistinctBlocks) {place : ℕ} {c : Column}
    (hc : r.columns[place]? = some c) {b : Block} (hb : b ∈ c.blocks) :
    resolveBlock view ⟨d, r, some place, paletteOf d, view.mobile⟩ b = blockAlone view d r b := by
  have hblock : blockIn view ⟨d, r, some place, paletteOf d, view.mobile⟩ b = block view d r b := by
    unfold block
    rw [findIdx?_of_mem h hc hb]
  unfold resolveBlock blockAlone
  rw [hblock]

/-- A column resolves in its place as it does alone. -/
lemma resolveColumn_eq_columnAlone {r : Row} (h : r.DistinctBlocks) {place : ℕ} {c : Column}
    (hc : r.columns[place]? = some c) :
    resolveColumn view d (paletteOf d) r place c = columnAlone view d r c := by
  have hblocks : c.blocks.map (resolveBlock view ⟨d, r, some place, paletteOf d, view.mobile⟩) =
      c.blocks.map (blockAlone view d r) :=
    List.map_congr_left fun b hb => resolveBlock_eq_blockAlone h hc hb
  unfold resolveColumn columnAlone
  rw [hblocks]

/-- A row resolves with all its nodes as it does alone. -/
lemma resolveRow_eq_rowAlone {r : Row} (h : r.DistinctBlocks) :
    resolveRow view d (paletteOf d) r = rowAlone view d r := by
  have hcolumns : (r.columns.zipIdx.map fun p => resolveColumn view d (paletteOf d) r p.2 p.1) =
      r.columns.map (columnAlone view d r) := by
    have hplaces : ∀ p ∈ r.columns.zipIdx,
        resolveColumn view d (paletteOf d) r p.2 p.1 = columnAlone view d r p.1 := by
      intro p hp
      exact resolveColumn_eq_columnAlone h (List.mem_zipIdx_iff_getElem?.mp hp)
    calc (r.columns.zipIdx.map fun p => resolveColumn view d (paletteOf d) r p.2 p.1)
        = r.columns.zipIdx.map (columnAlone view d r ∘ Prod.fst) := List.map_congr_left hplaces
      _ = (r.columns.zipIdx.map Prod.fst).map (columnAlone view d r) := List.map_map.symm
      _ = r.columns.map (columnAlone view d r) := by rw [List.zipIdx_map_fst]
  unfold resolveRow rowAlone
  rw [hcolumns]
  rfl

/-- A document in whose rows no two blocks share an id resolves to its own rows, columns and blocks
in their order, each with the attributes that it resolves to alone. -/
theorem rows_resolve_eq_nodewise (view : View) (d : Document)
    (h : ∀ r ∈ d.rows, r.DistinctBlocks) :
    (resolve view d).rows = d.rows.map (rowAlone view d) :=
  List.map_congr_left fun r hr => resolveRow_eq_rowAlone (h r hr)

/-- A header with two columns, the second of which stands aside. -/
def asideDocument : Document where
  id := "e"
  theme := some "#3B82F6"
  rows := [{
    id := "r"
    role := some .header
    columns := [
      { id := "c", units := 6, blocks := [{ id := "b", kind := .image }] },
      { id := "c'", units := 6
        blocks := [{ id := "b'", kind := .text }, { id := "x", kind := .link }] }] }]

/-- The blocks of the header have ids of their own, so that the two ways agree on it. -/
theorem rows_resolve_eq_nodewise_asideDocument :
    (∀ r ∈ asideDocument.rows, r.DistinctBlocks) ∧
      (resolve { mobile := true } asideDocument).rows =
        asideDocument.rows.map (rowAlone { mobile := true } asideDocument) := by
  have hdistinct : ∀ r ∈ asideDocument.rows, r.DistinctBlocks := by
    unfold Row.DistinctBlocks
    decide
  exact ⟨hdistinct, rows_resolve_eq_nodewise _ asideDocument hdistinct⟩

end Cascade

end MailTemplate
