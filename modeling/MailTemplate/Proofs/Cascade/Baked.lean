import MailTemplate.Proofs.Cascade.Locality
import MailTemplate.Proofs.Cascade.Precedence

/-!
# Baked styles

The attributes in effect at a node may be written back as the node's own attributes, so that the
styles are baked into it.  Such a node resolves to what it resolved to before.

Attributes in effect are *plain*: they have neither overrides for the mobile view nor box shorthands
(`Plain`), so that as own attributes they are taken as they are.  A key for which they have no value
has none in the layers below either, and values that were brought into their final form once are in
it already.  One lemma draws the conclusion for all kinds of nodes (`get?_overlay_baked`).  The
layers below a heading depend on its level, which overrides for the mobile view may change, but
their keys do not (`overlay_baseLayers_eq_none`).

Main result: baking the styles of a block, a row, a container or a column a second time changes
nothing, and a document with one block baked in its place resolves as before (`bake_idempotent`).
-/

namespace MailTemplate

/-- The block with the attributes in effect as its own. -/
def Block.baked (b : Block) (view : View) (d : Document) (r : Row) : Block :=
  { b with attributes := Cascade.block view d r b }

/-- The column with the attributes in effect as its own. -/
def Column.baked (c : Column) (view : View) (d : Document) (r : Row) : Column :=
  { c with attributes := Cascade.column view d r c }

/-- The row with the attributes in effect as its own. -/
def Row.baked (r : Row) (view : View) (d : Document) : Row :=
  { r with attributes := Cascade.row view d r }

/-- The row with the attributes in effect at its container as those of the container. -/
def Row.bakedContainer (r : Row) (view : View) (d : Document) : Row :=
  { r with container := Cascade.container view d r }

/-- A document with a block changed by nothing is the document. -/
lemma modifyBlock_id (d : Document) (place : BlockPlace) : d.modifyBlock place id = d := by
  unfold Document.modifyBlock Document.modifyBlocks Document.modifyColumn Document.modifyRow
  simp only [List.modify_id]
  change { d with rows := d.rows.modify place.row fun r =>
    { r with columns := r.columns.modify place.column id } } = d
  simp only [List.modify_id]
  change { d with rows := d.rows.modify place.row id } = d
  rw [List.modify_id]

/-- A length in pixels stays as it is. -/
lemma lengthValue_lengthValue (key : String) (v : AttributeValue) :
    lengthValue key (lengthValue key v) = lengthValue key v := by
  cases hkey : isLengthKey key with
  | false => rw [lengthValue_eq_self hkey, lengthValue_eq_self hkey]
  | true =>
    cases v with
    | number x => simp only [lengthValue, hkey, if_true]
    | bool x => rfl
    | text s => rfl
    | json j => rfl

namespace Cascade

/-! ### Plain bags -/

/-- The bag has neither overrides for the mobile view nor box shorthands. -/
def Plain (bag : Attributes) : Prop := ∀ key ∈ mobileKey :: boxKeys, bag.get? key = none

lemma plain_empty : Plain {} := fun _ _ => rfl

/-- As own attributes, a plain bag is taken as it is. -/
lemma Plain.ownValue?_eq {bag : Attributes} (h : Plain bag) (key : String) :
    ownValue? bag key = bag.get? key := by
  have hspread : ∀ box ∈ boxKeys, spread? bag box = none := by
    intro box hbox
    unfold spread?
    rw [h box (List.mem_cons_of_mem _ hbox)]
    rfl
  have hside : sideValue? bag key = none := by
    refine List.findSome?_eq_none_iff.mpr fun box hbox => ?_
    rw [hspread box hbox]
    rfl
  unfold ownValue?
  split_ifs with hkey
  · rcases hkey with rfl | ⟨hbox, hsome⟩
    · exact (h mobileKey List.mem_cons_self).symm
    · rw [hspread key hbox] at hsome
      cases hsome
  · rw [hside, Option.or_none]

/-- A plain bag overrides nothing in the mobile view. -/
lemma Plain.ownValue?_overrides {bag : Attributes} (h : Plain bag) (key : String) :
    ownValue? (overrides bag) key = none := by
  have hnone : overrides bag = {} := by
    unfold overrides
    rw [h mobileKey List.mem_cons_self]
  rw [hnone, plain_empty.ownValue?_eq]
  rfl

/-! ### Layers with baked attributes on top -/

/-- No layer has a value under a key under which the layers have none together. -/
lemma get?_overlay_eq_none {layers : List Attributes} {key : String} :
    (overlay layers).get? key = none ↔ ∀ layer ∈ layers, layer.get? key = none := by
  rw [get?_overlay]
  unfold highest?
  rw [List.findSome?_eq_none_iff]
  simp

/-- With a node's own layers on top, its overrides count most, then its own attributes, and then the
layers below. -/
lemma get?_overlay_ownLayers (mobile : Bool) (base : List Attributes) (bag : Attributes)
    (key : String) :
    (overlay (base ++ ownLayers mobile bag)).get? key =
      (if mobile then ownValue? (overrides bag) key else none).or
        ((ownValue? bag key).or ((overlay base).get? key)) := by
  rw [get?_overlay, highest?_ownLayers, get?_overlay]
  unfold highest?
  rw [List.findSome?_cons, List.findSome?_cons]
  cases hover : (if mobile then ownValue? (overrides bag) key else none) with
  | some v => rfl
  | none =>
    cases ownValue? bag key with
    | some v => rfl
    | none => rfl

/-- The accepted keys of layers, in their final form, make the same attributes again when they are a
node's own: above layers that have no values where the former ones had none. -/
lemma get?_overlay_baked {accepted : String → Bool}
    (final : String → AttributeValue → AttributeValue)
    (hplain : ∀ key ∈ mobileKey :: boxKeys, accepted key = false)
    (hfinal : ∀ key v, final key (final key v) = final key v) {mobile : Bool}
    {base other : List Attributes} {bag baked : Attributes}
    (hbase : ∀ key, (overlay base).get? key = none → (overlay other).get? key = none)
    (hbaked : ∀ key, baked.get? key =
      if accepted key then ((overlay (base ++ ownLayers mobile bag)).get? key).map (final key)
      else none) (key : String) :
    (if accepted key then ((overlay (other ++ ownLayers mobile baked)).get? key).map (final key)
      else none) = baked.get? key := by
  have hbag : Plain baked := by
    intro key hkey
    rw [hbaked, hplain key hkey]
    rfl
  rw [get?_overlay_ownLayers, hbag.ownValue?_overrides, ite_self, Option.none_or,
    hbag.ownValue?_eq, hbaked]
  cases haccepted : accepted key with
  | false => rfl
  | true =>
    simp only [if_true]
    cases hvalue : (overlay (base ++ ownLayers mobile bag)).get? key with
    | some v => simp only [Option.map_some, Option.some_or, hfinal]
    | none =>
      -- the layers below were silent too, so that they add nothing
      have hsilent : (overlay base).get? key = none := by
        rw [get?_overlay_eq_none] at hvalue ⊢
        exact fun layer hlayer => hvalue layer (List.mem_append_left _ hlayer)
      rw [hbase key hsilent]
      rfl

/-- Finished attributes are finished again to the same when they are a node's own. -/
lemma finish_baked {accepted : List String} (hplain : ∀ key ∈ mobileKey :: boxKeys, key ∉ accepted)
    (mobile : Bool) (base : List Attributes) (bag : Attributes) :
    finish accepted (base ++ ownLayers mobile (finish accepted (base ++ ownLayers mobile bag))) =
      finish accepted (base ++ ownLayers mobile bag) := by
  have hget : ∀ layers key, (finish accepted layers).get? key =
      if accepted.contains key then ((overlay layers).get? key).map (lengthValue key) else none :=
    fun layers key => get?_accepted _ _ key
  refine Attributes.ext_get? fun key => ?_
  rw [hget]
  refine get?_overlay_baked lengthValue ?_ lengthValue_lengthValue (fun _ h => h) (hget _) key
  intro key hkey
  rw [List.contains_eq_mem, decide_eq_false_iff_not]
  exact hplain key hkey

/-! ### Rows, containers and columns -/

section Nodes

variable (view : View) (d : Document) (r : Row)

/-- A baked row resolves to what it did. -/
theorem row_baked : row view d (r.baked view d) = row view d r := by
  have hrow : ∀ r' : Row, r'.role = r.role → row view d r' =
      finish rowKeys (rowBaseLayers view d (paletteOf d) r ++
        ownLayers view.mobile r'.attributes) := by
    intro r' hrole
    unfold row rowIn
    rw [rowLayers_eq, rowBaseLayers_eq view rfl rfl rfl _ hrole]
  have hbaked : row view d (r.baked view d) =
      finish rowKeys (rowBaseLayers view d (paletteOf d) r ++
        ownLayers view.mobile (row view d r)) := hrow (r.baked view d) rfl
  rw [hbaked, hrow r rfl]
  exact finish_baked (by decide) view.mobile _ r.attributes

/-- A row with a baked container has the container that it had. -/
theorem container_baked : container view d (r.bakedContainer view d) = container view d r :=
  finish_baked (by decide) view.mobile [containerBase d] r.container

/-- A baked column resolves to what it did. -/
theorem column_baked (c : Column) : column view d r (c.baked view d r) = column view d r c :=
  finish_baked (by decide) view.mobile [columnBase _] c.attributes

end Nodes

/-! ### Blocks -/

/-- Entries with the same keys make bags with the same keys. -/
lemma get?_bag_eq_none_congr {entries others : List (String × AttributeValue)}
    (h : entries.map Prod.fst = others.map Prod.fst) (key : String) :
    (bag entries).get? key = none ↔ (bag others).get? key = none := by
  unfold Cascade.bag
  rw [Attributes.get?_ofList_eq_none, Attributes.get?_ofList_eq_none, h]

variable {b b' : Block}

/-- Blocks of one kind bring the same keys with them. -/
lemma kindDefaults_eq_none_congr (hkind : b'.kind = b.kind) (d : Document) (key : String) :
    (kindDefaults d b').get? key = none ↔ (kindDefaults d b).get? key = none := by
  unfold kindDefaults
  rw [hkind]
  cases b.kind with
  | heading => exact get?_bag_eq_none_congr (by simp [typography]) key
  | _ => rfl

/-- Blocks of one kind change the same keys on narrow screens. -/
lemma kindMobile_eq_none_congr (hkind : b'.kind = b.kind) (key : String) :
    (kindMobile b').get? key = none ↔ (kindMobile b).get? key = none := by
  unfold kindMobile
  rw [hkind]
  cases b.kind with
  | heading => exact get?_bag_eq_none_congr (by simp) key
  | _ => rfl

/-- Below their own attributes, blocks of one kind have values under the same keys, whatever their
heading levels. -/
lemma overlay_baseLayers_eq_none (scope : Scope) (hkind : b'.kind = b.kind) (key : String)
    (h : (overlay (baseLayers scope b)).get? key = none) :
    (overlay (baseLayers scope b')).get? key = none := by
  rw [get?_overlay_eq_none] at h ⊢
  unfold baseLayers onMobile at h ⊢
  rw [hkind]
  cases hmobile : scope.mobile with
  | false =>
    simpa [hmobile, kindDefaults_eq_none_congr hkind] using h
  | true =>
    simpa [hmobile, kindDefaults_eq_none_congr hkind, kindMobile_eq_none_congr hkind] using h

/-- The logo stands for the source that names it; where it has that name itself, it still does. -/
lemma logoValue_logoValue (view : View) (kind : BlockKind) (key : String) (v : AttributeValue) :
    logoValue view kind key (logoValue view kind key v) = logoValue view kind key v := by
  cases v with
  | text s =>
    simp only [logoValue]
    split_ifs with hlogo
    · simp only
      split_ifs with hagain
      · cases hurl : view.logoUrl with
        | none => rfl
        | some url => rfl
      · rfl
    · simp only [hlogo, if_false]
  | bool x => rfl
  | number x => rfl
  | json j => rfl

/-- The final form of a value at a block: the logo in place of its name, lengths in pixels. -/
def finalValue (view : View) (kind : BlockKind) (key : String) (v : AttributeValue) :
    AttributeValue :=
  lengthValue key (logoValue view kind key v)

/-- A value in its final form stays as it is. -/
lemma finalValue_finalValue (view : View) (kind : BlockKind) (key : String) (v : AttributeValue) :
    finalValue view kind key (finalValue view kind key v) = finalValue view kind key v := by
  unfold finalValue
  by_cases hsrc : key = "src"
  · -- sources are no lengths
    have hplain : ∀ w, lengthValue key w = w := by
      rw [hsrc]
      exact lengthValue_eq_self (by decide)
    rw [hplain, hplain, logoValue_logoValue]
  · have hself : ∀ w, logoValue view kind key w = w :=
      fun w => logoValue_eq_self fun h => hsrc h.1
    rw [hself, hself, lengthValue_lengthValue]

/-- A block with the attributes in effect in a scope resolves to them again. -/
lemma blockIn_baked (view : View) (scope : Scope) (b : Block) :
    blockIn view scope { b with attributes := blockIn view scope b } = blockIn view scope b := by
  have hget : ∀ (b : Block) key, (blockIn view scope b).get? key =
      if b.kind.accepts key then
        ((overlay (baseLayers scope b ++ ownLayers scope.mobile b.attributes)).get? key).map
          (finalValue view b.kind key)
      else none := by
    intro b key
    unfold blockIn
    rw [get?_accepted, get?_withLogo, blockLayers_eq, Option.map_map]
    rfl
  have hplain : ∀ key ∈ mobileKey :: boxKeys, b.kind.accepts key = false := by
    cases b.kind <;> decide
  have hkind : ({ b with attributes := blockIn view scope b } : Block).kind = b.kind := rfl
  have hbase := overlay_baseLayers_eq_none scope hkind
  refine Attributes.ext_get? fun key => ?_
  rw [hget]
  exact get?_overlay_baked (finalValue view b.kind) hplain (finalValue_finalValue view b.kind)
    hbase (hget b) key

/-- A baked block resolves to what it did. -/
theorem block_baked (view : View) (d : Document) (r : Row) (b : Block) :
    block view d r (b.baked view d r) = block view d r b := by
  have hblock : ∀ b, block view d r b = blockIn view (blockScope view d r b) b := fun _ => rfl
  have hscope : blockScope view d r (b.baked view d r) = blockScope view d r b := rfl
  rw [hblock, hblock b, hscope]
  unfold Block.baked
  rw [hblock]
  exact blockIn_baked view (blockScope view d r b) b

/-- A document with one block baked in its place resolves as it did, if no two blocks of the row
share an id. -/
theorem resolve_modifyBlock_baked (view : View) {d : Document} {place : BlockPlace} {r : Row}
    {b : Block} (hat : d.blockAt? place = some (r, b)) (hr : r.DistinctBlocks) :
    resolve view (d.modifyBlock place fun b => b.baked view d r) = resolve view d := by
  obtain ⟨row, hrow, h⟩ := Option.bind_eq_some_iff.mp hat
  obtain ⟨column, hcolumn, h⟩ := Option.bind_eq_some_iff.mp h
  obtain ⟨found, hblock, h⟩ := Option.bind_eq_some_iff.mp h
  obtain ⟨rfl, rfl⟩ : row = r ∧ found = b := by simpa using h
  have hscope : ⟨d, row, some place.column, paletteOf d, view.mobile⟩ =
      blockScope view d row found := by
    unfold blockScope
    rw [findIdx?_of_mem hr hcolumn (List.mem_of_getElem? hblock)]
  have hresolved : resolveBlock view ⟨d, row, some place.column, paletteOf d, view.mobile⟩
        (found.baked view d row) =
      resolveBlock view ⟨d, row, some place.column, paletteOf d, view.mobile⟩ found := by
    have hattributes : blockIn view ⟨d, row, some place.column, paletteOf d, view.mobile⟩
        (found.baked view d row) =
        blockIn view ⟨d, row, some place.column, paletteOf d, view.mobile⟩ found := by
      rw [hscope]
      exact block_baked view d row found
    unfold resolveBlock
    rw [hattributes]
    rfl
  calc resolve view (d.modifyBlock place fun b => b.baked view d row)
      = (resolve view d).replaceBlock place (resolveBlock view
          ⟨d, row, some place.column, paletteOf d, view.mobile⟩ (found.baked view d row)) :=
        resolve_modifyBlock hrow hcolumn hblock _
    _ = (resolve view d).replaceBlock place (resolveBlock view
          ⟨d, row, some place.column, paletteOf d, view.mobile⟩ (id found)) := by
        rw [hresolved, id]
    _ = resolve view (d.modifyBlock place id) :=
        (resolve_modifyBlock hrow hcolumn hblock id).symm
    _ = resolve view d := by rw [modifyBlock_id]

/-- Baking styles is idempotent, node by node.  Under any view, a block, a row, the container of a
row and a column that have the attributes in effect as their own resolve to these attributes again,
in the same row and document.  A document with one of its blocks baked in its place resolves as a
whole as it did, if no two blocks of the row share an id. -/
theorem bake_idempotent (view : View) (d : Document) :
    (∀ r b, block view d r (b.baked view d r) = block view d r b) ∧
      (∀ r, row view d (r.baked view d) = row view d r) ∧
      (∀ r, container view d (r.bakedContainer view d) = container view d r) ∧
      (∀ r c, column view d r (c.baked view d r) = column view d r c) ∧
      ∀ place r b, d.blockAt? place = some (r, b) → r.DistinctBlocks →
        resolve view (d.modifyBlock place fun b => b.baked view d r) = resolve view d := by
  refine ⟨block_baked view d, row_baked view d, container_baked view d, column_baked view d, ?_⟩
  intro place r b hat hr
  exact resolve_modifyBlock_baked view hat hr

/-- A heading of the first level, of the fourth one in the mobile view. -/
def shrunkHeading : Block where
  id := "b"
  kind := .heading
  content := some "Hi"
  attributes := .ofList [("level", .text "h1"), ("padding", .text "8 16"),
    ("mobile", .json (.object [("level", .text "h4")]))]

/-- A discount row with that heading. -/
def discountRow : Row where
  id := "r"
  role := some .discount
  columns := [{ id := "c", units := 12, blocks := [shrunkHeading] }]

/-- A document with that row. -/
def discountDocument : Document where
  id := "e"
  rows := [discountRow]

/-- With the heading baked in the mobile view, where it is of another level, the document resolves
as before. -/
theorem bake_idempotent_discountDocument :
    discountDocument.blockAt? ⟨0, 0, 0⟩ = some (discountRow, shrunkHeading) ∧
      discountRow.DistinctBlocks ∧
      resolve { mobile := true } (discountDocument.modifyBlock ⟨0, 0, 0⟩ fun b =>
        b.baked { mobile := true } discountDocument discountRow) =
          resolve { mobile := true } discountDocument := by
  have hat : discountDocument.blockAt? ⟨0, 0, 0⟩ = some (discountRow, shrunkHeading) := rfl
  have hr : discountRow.DistinctBlocks := by
    unfold Row.DistinctBlocks
    decide
  obtain ⟨-, -, -, -, hplace⟩ := bake_idempotent { mobile := true } discountDocument
  exact ⟨hat, hr, hplace ⟨0, 0, 0⟩ discountRow shrunkHeading hat hr⟩

end Cascade

end MailTemplate
