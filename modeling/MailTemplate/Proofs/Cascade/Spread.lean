import MailTemplate.Proofs.Cascade.Layers
import MailTemplate.Proofs.Script.Writable

/-!
# Resolving what a script holds of a document

A script holds only the keys that can be written in it, and the sides of a box in the place of each
shorthand.  No layer of the cascade takes notice: shorthands are spread in the order of the keys
either way, and the keys that are left out are accepted nowhere.

Main result: a document resolves in every view as the document does that its script holds
(`resolve_spread`).
-/

namespace MailTemplate

/-! ### What a script holds -/

/-- The bag of the entries with kept keys, box shorthands spread over their sides. -/
def Attributes.spread (keep : String → Bool) (bag : Attributes) : Attributes :=
  .ofList ((bag.entries.filter fun e => keep e.1).flatMap fun e => Cascade.ownEntries e.1 e.2)

/-- The block as a script holds it. -/
def Block.spread (block : Block) : Block :=
  { block with
    attributes := block.attributes.spread fun key => decide (IsPlainKey ["id", "content"] key) }

/-- The column as a script holds it. -/
def Column.spread (column : Column) : Column :=
  { column with
    attributes := column.attributes.spread fun key => decide (IsPlainKey ["id", "width"] key)
    blocks := column.blocks.map Block.spread }

/-- The row as a script holds it. -/
def Row.spread (row : Row) : Row :=
  { row with
    attributes := row.attributes.spread fun key => decide (IsPlainKey ["id", "type"] key)
    container := row.container.spread fun key => Script.isScriptKey key.toList
    columns := row.columns.map Column.spread }

/-- The document as a script holds it. -/
def Document.spread (d : Document) : Document := { d with rows := d.rows.map Row.spread }

namespace Cascade

/-! ### Bags -/

section Bags

variable {keep accepted : String → Bool}

/-- What is kept is all that is accepted, and all that is spread or set aside. -/
structure Admits (keep accepted : String → Bool) : Prop where
  boxes : ∀ key ∈ boxKeys, keep key = true
  mobile : keep mobileKey = true
  not_accepted : accepted mobileKey = false
  of_accepted : ∀ key, accepted key = true → keep key = true

/-- Entries that fail a test of their keys bring nothing that is accepted, if none of these takes a
box shorthand or is accepted. -/
lemma filter_flatMap_ownEntries {p : String → Bool}
    (hbox : ∀ key ∈ boxKeys, p key = true) (haccepted : ∀ key, accepted key = true → p key = true)
    (entries : List (String × AttributeValue)) :
    (((entries.filter fun e => p e.1).flatMap fun e => ownEntries e.1 e.2).filter fun e =>
        accepted e.1) =
      (entries.flatMap fun e => ownEntries e.1 e.2).filter fun e => accepted e.1 := by
  induction entries with
  | nil => rfl
  | cons e entries ih =>
    rw [List.filter_cons, List.flatMap_cons, List.filter_append]
    split_ifs with hp
    · rw [List.flatMap_cons, List.filter_append, ih]
    · have hown : ownEntries e.1 e.2 = [e] :=
        ownEntries_of_not_mem (fun hkey => hp (hbox e.1 hkey)) e.2
      have hnot : ¬accepted e.1 = true := fun hkey => hp (haccepted e.1 hkey)
      rw [hown, List.filter_cons, if_neg hnot, ih]
      rfl

/-- What is accepted of a spread bag. -/
lemma filterKeys_spread (hbox : ∀ key ∈ boxKeys, keep key = true)
    (haccepted : ∀ key, accepted key = true → keep key = true) (bag : Attributes) :
    (bag.spread keep).filterKeys accepted =
      .ofList ((bag.entries.flatMap fun e => ownEntries e.1 e.2).filter fun e => accepted e.1) := by
  unfold Attributes.spread
  rw [Attributes.filterKeys_ofList, filter_flatMap_ownEntries hbox haccepted]

/-- What is accepted of a node's own attributes. -/
lemma filterKeys_ownLayer (hmobile : accepted mobileKey = false) (bag : Attributes) :
    (ownLayer bag).filterKeys accepted =
      .ofList ((bag.entries.flatMap fun e => ownEntries e.1 e.2).filter fun e => accepted e.1) := by
  have hbox : ∀ key ∈ boxKeys, (key != mobileKey) = true := by decide
  have haccepted : ∀ key, accepted key = true → (key != mobileKey) = true := by
    intro key hkey
    rw [bne_iff_ne]
    rintro rfl
    rw [hmobile] at hkey
    cases hkey
  unfold ownLayer Cascade.bag
  rw [Attributes.filterKeys_ofList, filter_flatMap_ownEntries hbox haccepted]

/-- The entries of a spread bag are not spread again. -/
lemma flatMap_ownEntries_spread (bag : Attributes) :
    ((bag.spread keep).entries.flatMap fun e => ownEntries e.1 e.2) =
      (bag.spread keep).entries := by
  have hall : ∀ e ∈ (bag.spread keep).entries, ownEntries e.1 e.2 = [e] := by
    refine Attributes.forall_setAll (List.forall_mem_nil _) fun e he => ?_
    obtain ⟨a, -, ha⟩ := List.mem_flatMap.mp he
    exact ownEntries_of_mem e ha
  rw [List.flatMap_congr hall, List.flatMap_singleton']

/-- A spread bag brings what the bag brings. -/
lemma ownLayer_spread (h : Admits keep accepted) (bag : Attributes) :
    (ownLayer (bag.spread keep)).filterKeys accepted = (ownLayer bag).filterKeys accepted := by
  rw [filterKeys_ownLayer h.not_accepted, filterKeys_ownLayer h.not_accepted,
    flatMap_ownEntries_spread, ← Attributes.filterKeys_ofList, Attributes.ofList_entries,
    filterKeys_spread h.boxes h.of_accepted]

/-- Under a kept key that takes no part in boxes, a spread bag has the value of the bag. -/
lemma get?_spread (hboxes : ∀ key ∈ boxKeys, keep key = true) {key : String}
    (hkeep : keep key = true) (hbox : key ∉ boxKeys) (hside : key ∉ sideKeys) (bag : Attributes) :
    (bag.spread keep).get? key = bag.get? key := by
  have honly : ∀ k, (k == key) = true → keep k = true := by
    intro k hk
    rw [beq_iff_eq] at hk
    rwa [hk]
  have hentries : (bag.entries.flatMap fun e => ownEntries e.1 e.2).filter (fun e => e.1 == key) =
      bag.entries.filter fun e => e.1 == key := by
    induction bag.entries with
    | nil => rfl
    | cons e entries ih =>
      rw [List.flatMap_cons, List.filter_append, filter_ownEntries hbox hside, ih,
        ← List.filter_append]
      rfl
  have hsame : (bag.spread keep).filterKeys (· == key) = bag.filterKeys (· == key) := by
    rw [filterKeys_spread hboxes honly, hentries,
      ← Attributes.filterKeys_ofList (· == key) bag.entries, Attributes.ofList_entries]
  rw [← Attributes.get?_filterKeys (· == key) _ (beq_self_eq_true key), hsame,
    Attributes.get?_filterKeys (· == key) _ (beq_self_eq_true key)]

/-- A spread bag brings the overrides for the mobile view that the bag brings. -/
lemma overrideLayer_spread (h : Admits keep accepted) (bag : Attributes) :
    overrideLayer (bag.spread keep) = overrideLayer bag := by
  unfold overrideLayer
  rw [get?_spread h.boxes h.mobile (by decide) (by decide)]

/-- A spread bag brings the layers that the bag brings, as far as they are accepted. -/
lemma ownLayers_spread (h : Admits keep accepted) (mobile : Bool) (bag : Attributes) :
    ((ownLayers mobile (bag.spread keep)).map fun layer => layer.filterKeys accepted) =
      (ownLayers mobile bag).map fun layer => layer.filterKeys accepted := by
  unfold ownLayers
  rw [List.map_cons, List.map_cons, ownLayer_spread h, overrideLayer_spread h]

/-- Layers of which the uppermost are a bag's own make the same accepted attributes from a spread
bag. -/
lemma overlay_spread (h : Admits keep accepted) (mobile : Bool) (base : List Attributes)
    (bag : Attributes) :
    (overlay (base ++ ownLayers mobile (bag.spread keep))).filterKeys accepted =
      (overlay (base ++ ownLayers mobile bag)).filterKeys accepted := by
  refine overlay_congr ?_
  rw [List.map_append, List.map_append, ownLayers_spread h]

end Bags

/-! ### Nodes -/

/-- The accepted keys of a list, and the rules by which a script keeps keys. -/
lemma admits_contains {keep : String → Bool} {keys : List String}
    (hboxes : ∀ key ∈ boxKeys, keep key = true) (hmobile : keep mobileKey = true)
    (hnot : mobileKey ∉ keys) (hkeys : ∀ key ∈ keys, keep key = true) :
    Admits keep keys.contains where
  boxes := hboxes
  mobile := hmobile
  not_accepted := by
    rw [List.contains_eq_mem, decide_eq_false_iff_not]
    exact hnot
  of_accepted := fun key hkey => hkeys key (List.contains_iff_mem.mp hkey)

/-- A script keeps what a block accepts. -/
lemma admits_block (kind : BlockKind) :
    Admits (fun key => decide (IsPlainKey ["id", "content"] key)) kind.accepts := by
  have hall : ∀ kind : BlockKind, ∀ key ∈ commonKeys ++ kind.ownKeys,
      decide (IsPlainKey ["id", "content"] key) = true := by
    intro kind
    cases kind <;> decide
  refine ⟨by decide, by decide, ?_, fun key hkey => hall kind key ?_⟩
  · cases kind <;> decide
  · unfold BlockKind.accepts at hkey
    rw [Bool.or_eq_true, List.contains_iff_mem, List.contains_iff_mem] at hkey
    exact List.mem_append.mpr hkey

/-- A script keeps what a row accepts. -/
lemma admits_row : Admits (fun key => decide (IsPlainKey ["id", "type"] key)) rowKeys.contains :=
  admits_contains (by decide) (by decide) (by decide) (by decide)

/-- A script keeps what a container accepts. -/
lemma admits_container :
    Admits (fun key => Script.isScriptKey key.toList) containerKeys.contains :=
  admits_contains (by decide) (by decide) (by decide) (by decide)

/-- A script keeps what a column accepts. -/
lemma admits_column :
    Admits (fun key => decide (IsPlainKey ["id", "width"] key)) columnKeys.contains :=
  admits_contains (by decide) (by decide) (by decide) (by decide)

/-- A block as a script holds it is the same heading. -/
lemma headingLevel_spread (block : Block) : headingLevel block.spread = headingLevel block := by
  have hlevel : block.spread.attributes.get? "level" = block.attributes.get? "level" :=
    get?_spread (by decide) (by decide) (by decide) (by decide) block.attributes
  unfold headingLevel Attributes.text?
  rw [hlevel]

variable (view : View)

/-- A block as a script holds it resolves as the block, in matching scopes. -/
lemma resolveBlock_spread {scope other : Scope} (h : scope.Matches other) (block : Block) :
    resolveBlock view other block.spread = resolveBlock view scope block := by
  have hbase : baseLayers other block.spread = baseLayers scope block :=
    baseLayers_eq_of_matches h rfl (headingLevel_spread block)
  have hlayers : (overlay (blockLayers other block.spread)).filterKeys block.kind.accepts =
      (overlay (blockLayers scope block)).filterKeys block.kind.accepts := by
    rw [blockLayers_eq, blockLayers_eq, hbase, h.mobile]
    exact overlay_spread (admits_block block.kind) scope.mobile _ block.attributes
  have hattributes : blockIn view other block.spread = blockIn view scope block :=
    congrArg Attributes.withLengths (filterKeys_withLogo hlayers)
  unfold resolveBlock
  rw [hattributes]
  rfl

/-- A column as a script holds it resolves as the column, in the row as a script holds it. -/
lemma resolveColumn_spread (d : Document) (palette : Option Palette) (row : Row) (place : ℕ)
    (column : Column) :
    resolveColumn view d.spread palette row.spread place column.spread =
      resolveColumn view d palette row place column := by
  have hmatches : ∀ (at? : Option ℕ) (palette : Option Palette),
      Scope.Matches ⟨d, row, at?, palette, view.mobile⟩
        ⟨d.spread, row.spread, at?, palette, view.mobile⟩ :=
    fun at? palette => ⟨rfl, rfl, List.length_map _, rfl, rfl, rfl⟩
  have hbase : columnBase
        ⟨d.spread, row.spread, row.spread.columnIndex? column.spread.id, none, view.mobile⟩ =
      columnBase ⟨d, row, row.columnIndex? column.id, none, view.mobile⟩ := by
    have hindex : row.spread.columnIndex? column.spread.id = row.columnIndex? column.id :=
      List.findIdx?_map
    have hvalue : row.spread.attributes.get? "verticalAlign" =
        row.attributes.get? "verticalAlign" :=
      get?_spread (by decide) (by decide) (by decide) (by decide) row.attributes
    have hvertical : row.spread.attributes.text? "verticalAlign" =
        row.attributes.text? "verticalAlign" := by
      unfold Attributes.text?
      rw [hvalue]
    exact columnBase_congr rfl (List.length_map _) hindex hvertical
  have hattributes : Cascade.column view d.spread row.spread column.spread =
      Cascade.column view d row column := by
    rw [column_eq, column_eq, hbase]
    exact congrArg Attributes.withLengths
      (overlay_spread admits_column view.mobile [_] column.attributes)
  have hblocks : column.spread.blocks.map (resolveBlock view
      ⟨d.spread, row.spread, some place, palette, view.mobile⟩) =
      column.blocks.map (resolveBlock view ⟨d, row, some place, palette, view.mobile⟩) := by
    unfold Column.spread
    rw [List.map_map]
    exact List.map_congr_left fun block _ => resolveBlock_spread view (hmatches _ palette) block
  unfold resolveColumn
  rw [hattributes, hblocks]
  rfl

/-- A row as a script holds it resolves as the row. -/
lemma resolveRow_spread (d : Document) (palette : Option Palette) (row : Row) :
    resolveRow view d.spread palette row.spread = resolveRow view d palette row := by
  have hattributes : rowIn view d.spread palette row.spread = rowIn view d palette row := by
    unfold rowIn finish
    have hbase : rowBaseLayers view d.spread palette row.spread =
        rowBaseLayers view d palette row := rowBaseLayers_congr view d _ palette rfl
    rw [rowLayers_eq, rowLayers_eq, hbase]
    exact congrArg Attributes.withLengths (overlay_spread admits_row view.mobile _ row.attributes)
  have hcontainer : container view d.spread row.spread = container view d row := by
    rw [container_eq, container_eq]
    exact congrArg Attributes.withLengths
      (overlay_spread admits_container view.mobile [containerBase d] row.container)
  have hcolumns : (row.spread.columns.zipIdx.map fun p =>
        resolveColumn view d.spread palette row.spread p.2 p.1) =
      row.columns.zipIdx.map fun p => resolveColumn view d palette row p.2 p.1 := by
    have hzip : row.spread.columns.zipIdx = row.columns.zipIdx.map (Prod.map Column.spread id) :=
      List.zipIdx_map
    rw [hzip, List.map_map]
    exact List.map_congr_left fun p _ => resolveColumn_spread view d palette row p.2 p.1
  unfold resolveRow
  rw [ResolvedRow.mk.injEq]
  exact ⟨rfl, rfl, hattributes, hcontainer, hcolumns⟩

/-- A document resolves in every view as the document does that its script holds. -/
theorem resolve_spread (d : Document) : resolve view d.spread = resolve view d := by
  have hrows : d.spread.rows.map (resolveRow view d.spread (paletteOf d.spread)) =
      d.rows.map (resolveRow view d (paletteOf d)) := by
    unfold Document.spread
    rw [List.map_map]
    exact List.map_congr_left fun row _ => resolveRow_spread view d (paletteOf d) row
  unfold resolve
  rw [hrows]
  rfl

end Cascade

end MailTemplate
