import MailTemplate.Proofs.Cascade.Layers

/-!
# Precedence in the cascade

Under each key, the attributes in effect at a node hold the value of the highest source that defines
it (`highest?`), if the node accepts the key.  The sources are listed from the top: the overrides of
the mobile view, the node's own attributes, and the defaults that theme, variant, role and kind
bring.

A box shorthand among own attributes or overrides counts for its four sides, and a side that is
written beside it counts more (`get?_ownLayer`): a shorthand comes before its sides in the order of
keys.

Main result: the value under every key at blocks, rows, containers and columns, and that overrides
for the mobile view change nothing elsewhere (`get?_effective`).
-/

namespace MailTemplate

/-- The keys of the four sides of a box. -/
def sidesOf (box : String) : List String :=
  [box ++ "Top", box ++ "Right", box ++ "Bottom", box ++ "Left"]

/-- The two box shorthands. -/
lemma mem_boxKeys {key : String} : key ∈ boxKeys ↔ key = "padding" ∨ key = "margin" := by
  simp [boxKeys]

/-- A box shorthand comes before its sides, which belong to no other box. -/
lemma side_spec : ∀ box ∈ boxKeys, ∀ key ∈ sidesOf box,
    box ≤ key ∧ key ∉ boxKeys ∧ key ≠ mobileKey ∧
      ∀ other ∈ boxKeys, key ∈ sidesOf other → other = box := by
  decide

/-- Under a key of no side there is no side. -/
lemma Sides.lookup_eq_none {α : Type} {sides : Sides α} {box key : String} (h : key ∉ sidesOf box) :
    (sides.entries box).lookup key = none := by
  refine List.lookup_eq_none_iff.mpr fun e he => ?_
  rw [bne_iff_ne]
  rintro rfl
  have hkeys : (sides.entries box).map Prod.fst = sidesOf box := rfl
  exact h (hkeys ▸ List.mem_map_of_mem he)

namespace Cascade

/-! ### What a node's own attributes say -/

/-- The sides that a bag spreads a box shorthand over, if it holds one to four numbers under its
key. -/
def spread? (bag : Attributes) (box : String) : Option (Sides Binary64) :=
  ((bag.get? box).bind boxNumbers?).bind Sides.ofList?

/-- The number that a box shorthand of a bag gives a side. -/
def sideValue? (bag : Attributes) (key : String) : Option AttributeValue :=
  boxKeys.findSome? fun box =>
    (spread? bag box).bind fun sides => ((sides.entries box).lookup key).map .number

/-- What own attributes say under a key: what is written there, or else the side of a shorthand.
The overrides for the mobile view are set aside, and a shorthand counts for its sides only. -/
def ownValue? (bag : Attributes) (key : String) : Option AttributeValue :=
  if key = mobileKey ∨ key ∈ boxKeys ∧ (spread? bag key).isSome then none
  else (bag.get? key).or (sideValue? bag key)

/-- The overrides for the mobile view in a bag: the entries of the object under their key. -/
def overrides (bag : Attributes) : Attributes :=
  match bag.get? mobileKey with
  | some (.json (.object fields)) =>
    Cascade.bag (fields.map fun f => (f.1, AttributeValue.ofJson f.2))
  | _ => {}

/-- The sides that an entry is spread over, if it is a box shorthand. -/
def spreadSides? (e : String × AttributeValue) : Option (Sides Binary64) :=
  if e.1 ∈ boxKeys then (boxNumbers? e.2).bind Sides.ofList? else none

/-- What an entry says under a key. -/
lemma lookup_ownEntries (e : String × AttributeValue) (key : String) :
    (ownEntries e.1 e.2).reverse.lookup key =
      match spreadSides? e with
      | some sides => ((sides.entries e.1).lookup key).map .number
      | none => if key = e.1 then some e.2 else none := by
  obtain ⟨box, v⟩ := e
  have hsingle : ([(box, v)].lookup key) = if key = box then some v else none := by
    rw [List.lookup_cons]
    by_cases hkey : key = box
    · simp [hkey]
    · rw [beq_eq_false_iff_ne.mpr hkey, if_neg hkey]
      rfl
  by_cases hbox : box ∈ boxKeys
  · simp only [ownEntries, spreadSides?, List.contains_iff_mem.mpr hbox, if_pos, hbox]
    cases (boxNumbers? v).bind Sides.ofList? with
    | none => exact hsingle
    | some sides =>
      -- The sides of a box have four different keys.
      rcases mem_boxKeys.mp hbox with rfl | rfl
      · simp [Sides.entries, List.lookup_cons]
        grind
      · simp [Sides.entries, List.lookup_cons]
        grind
  · rw [ownEntries_of_not_mem hbox]
    simp only [spreadSides?, if_neg hbox]
    exact hsingle

/-- A bag gives a side the number of the one box that it belongs to. -/
lemma sideValue?_of_mem (bag : Attributes) {box key : String} (hbox : box ∈ boxKeys)
    (hkey : key ∈ sidesOf box) :
    sideValue? bag key =
      (spread? bag box).bind fun sides => ((sides.entries box).lookup key).map .number := by
  have hother : ∀ other ∈ boxKeys, other ≠ box →
      ((spread? bag other).bind fun sides => ((sides.entries other).lookup key).map
        AttributeValue.number) = none := by
    intro other hmem hne
    have hside : key ∉ sidesOf other :=
      fun hmine => hne ((side_spec box hbox key hkey).2.2.2 other hmem hmine)
    cases spread? bag other with
    | none => rfl
    | some sides => simp [Sides.lookup_eq_none hside]
  unfold sideValue? boxKeys
  rw [List.findSome?_cons, List.findSome?_singleton]
  rcases mem_boxKeys.mp hbox with rfl | rfl
  · rw [hother "margin" (by decide) (by decide)]
    split
    · next heq => exact heq.symm
    · next heq => exact heq.symm
  · rw [hother "padding" (by decide) (by decide)]

/-- A bag gives a number to sides only. -/
lemma sideValue?_eq_none (bag : Attributes) {key : String}
    (h : ∀ box ∈ boxKeys, key ∉ sidesOf box) : sideValue? bag key = none := by
  refine List.findSome?_eq_none_iff.mpr fun box hbox => ?_
  cases spread? bag box with
  | none => rfl
  | some sides => simp [Sides.lookup_eq_none (h box hbox)]

/-- Under a key that has no part in box shorthands, own attributes say what is written there. -/
lemma ownValue?_eq_get? (bag : Attributes) {key : String} (hmobile : key ≠ mobileKey)
    (hbox : key ∉ boxKeys) (hside : ∀ box ∈ boxKeys, key ∉ sidesOf box) :
    ownValue? bag key = bag.get? key := by
  unfold ownValue?
  rw [if_neg (not_or.mpr ⟨hmobile, fun h => hbox h.1⟩), sideValue?_eq_none bag hside,
    Option.or_none]

/-- What an entry says under its own key: nothing, if it is spread. -/
lemma lookup_ownEntries_self (key : String) (v : AttributeValue) :
    (ownEntries key v).reverse.lookup key =
      if key ∈ boxKeys ∧ ((boxNumbers? v).bind Sides.ofList?).isSome then none else some v := by
  rw [lookup_ownEntries (key, v)]
  unfold spreadSides?
  by_cases hbox : key ∈ boxKeys
  · have hnot : key ∉ sidesOf key := fun hside => (side_spec key hbox key hside).2.1 hbox
    simp only [hbox, true_and]
    cases (boxNumbers? v).bind Sides.ofList? with
    | none => simp
    | some sides => simp [Sides.lookup_eq_none hnot]
  · simp [hbox]

/-- An entry says nothing under another key that is no side of its box. -/
lemma lookup_ownEntries_of_ne {e : String × AttributeValue} {key : String} (hne : e.1 ≠ key)
    (hside : e.1 ∈ boxKeys → key ∉ sidesOf e.1) :
    (ownEntries e.1 e.2).reverse.lookup key = none := by
  rw [lookup_ownEntries]
  unfold spreadSides?
  by_cases hbox : e.1 ∈ boxKeys
  · rw [if_pos hbox]
    cases (boxNumbers? e.2).bind Sides.ofList? with
    | none => exact if_neg hne.symm
    | some sides => simp [Sides.lookup_eq_none (hside hbox)]
  · rw [if_neg hbox]
    exact if_neg hne.symm

/-- In the layer of own attributes, a key has the value that these say. -/
theorem get?_ownLayer (bag : Attributes) (key : String) :
    (ownLayer bag).get? key = ownValue? bag key := by
  set kept := bag.filterKeys (· != mobileKey) with hkept
  have hlayer : (ownLayer bag).get? key =
      kept.entries.reverse.findSome? fun e => (ownEntries e.1 e.2).reverse.lookup key := by
    unfold ownLayer Cascade.bag
    rw [Attributes.get?_ofList, Keyed.lookup_reverse_flatMap]
    rfl
  have hget : ∀ k, k ≠ mobileKey → kept.entries.lookup k = bag.get? k := fun k hk =>
    Attributes.get?_filterKeys _ bag (bne_iff_ne.mpr hk)
  rw [hlayer]
  -- two entries can give a side: its own, and the box that it is a side of, which comes first
  by_cases hside : ∃ box ∈ boxKeys, key ∈ sidesOf box
  · obtain ⟨box, hbox, hkey⟩ := hside
    obtain ⟨hle, hnot, hmobile, hunique⟩ := side_spec box hbox key hkey
    have hboxMobile : box ≠ mobileKey := by
      have hall : ∀ box ∈ boxKeys, box ≠ mobileKey := by decide
      exact hall box hbox
    have hself : ∀ v, (ownEntries key v).reverse.lookup key = some v := fun v => by
      rw [lookup_ownEntries_self, if_neg fun h => hnot h.1]
    have hfrom : ((bag.get? box).bind fun v => (ownEntries box v).reverse.lookup key) =
        sideValue? bag key := by
      rw [sideValue?_of_mem bag hbox hkey]
      unfold spread?
      cases bag.get? box with
      | none => rfl
      | some v =>
        rw [Option.bind_some, Option.bind_some, lookup_ownEntries (box, v)]
        unfold spreadSides?
        rw [if_pos hbox]
        cases (boxNumbers? v).bind Sides.ofList? with
        | none => exact if_neg fun heq : key = box => hnot (heq ▸ hbox)
        | some sides => rfl
    rw [Keyed.findSome?_reverse kept.ordered hle fun e _ hne hlow =>
        lookup_ownEntries_of_ne hne fun hmem hin => hlow (hunique e.1 hmem hin),
      hget key hmobile, hget box hboxMobile, hfrom]
    simp only [hself, Option.bind_fun_some]
    unfold ownValue?
    rw [if_neg (by simp [hmobile, hnot])]
  · have hno : ∀ box ∈ boxKeys, key ∉ sidesOf box := fun box hbox hkey =>
      hside ⟨box, hbox, hkey⟩
    rw [Keyed.findSome?_reverse kept.ordered (String.le_refl key) fun e _ hne _ =>
        lookup_ownEntries_of_ne hne (hno e.1), Option.or_self]
    unfold ownValue?
    rw [sideValue?_eq_none bag hno, Option.or_none]
    by_cases hmobile : key = mobileKey
    · have hnone : kept.entries.lookup key = none :=
        Attributes.get?_filterKeys_of_not _ bag (by simp [hmobile])
      rw [hnone, if_pos (.inl hmobile)]
      rfl
    · rw [hget key hmobile]
      unfold spread?
      cases bag.get? key with
      | none => simp
      | some v =>
        rw [Option.bind_some, Option.bind_some, lookup_ownEntries_self]
        simp [hmobile]

/-- A side that is written beside a shorthand counts more than the shorthand. -/
example :
    let bag := Attributes.ofList [("paddingTop", .text "1px"), ("padding", .text "8,16")]
    ["paddingTop", "paddingLeft", "padding"].map (fun key =>
      (ownValue? bag key).map AttributeValue.css) = [some "1px", some "16", none] := by
  decide +kernel

/-- In the layer of overrides for the mobile view, a key has the value that these say. -/
lemma get?_overrideLayer (bag : Attributes) (key : String) :
    (overrideLayer bag).get? key = ownValue? (overrides bag) key := by
  have hlayer : overrideLayer bag = ownLayer (overrides bag) := by
    unfold overrideLayer overrides
    cases bag.get? mobileKey with
    | none => rfl
    | some v =>
      cases v with
      | json j => cases j <;> rfl
      | bool x => rfl
      | number x => rfl
      | text s => rfl
  rw [hlayer, get?_ownLayer]

/-! ### The highest source -/

/-- What the first source says that says anything, of sources that are listed from the top. -/
def highest? (sources : List (Option AttributeValue)) : Option AttributeValue :=
  sources.findSome? id

/-- The first source says what it says, or else the sources after it do. -/
lemma highest?_cons (v : Option AttributeValue) (sources : List (Option AttributeValue)) :
    highest? (v :: sources) = v.or (highest? sources) := by
  cases v with
  | none => rfl
  | some v => rfl

/-- In layers put on top of each other, a key has the value of the highest layer that has one. -/
lemma get?_overlay (layers : List Attributes) (key : String) :
    (overlay layers).get? key = highest? (layers.reverse.map fun layer => layer.get? key) := by
  have hfold : ∀ base : Attributes, (layers.foldl Attributes.merge base).get? key =
      (highest? (layers.reverse.map fun layer => layer.get? key)).or (base.get? key) := by
    induction layers with
    | nil => exact fun _ => rfl
    | cons layer layers ih =>
      intro base
      rw [List.foldl_cons, ih, Attributes.get?_merge, ← Option.or_assoc]
      unfold highest?
      rw [List.reverse_cons, List.map_append, List.findSome?_append, List.map_singleton,
        List.findSome?_singleton]
      rfl
  exact (hfold {}).trans Option.or_none

/-- Of a bag, the accepted keys have their values, lengths in pixels. -/
lemma get?_accepted (accepted : String → Bool) (bag : Attributes) (key : String) :
    (bag.filterKeys accepted).withLengths.get? key =
      if accepted key then (bag.get? key).map (lengthValue key) else none := by
  unfold Attributes.withLengths
  rw [Attributes.get?_mapValues]
  split_ifs with hkey
  · rw [Attributes.get?_filterKeys _ _ hkey]
  · rw [Attributes.get?_filterKeys_of_not _ _ (Bool.not_eq_true _ ▸ hkey)]
    rfl

/-- The accepted keys of layers have the values of the highest layers, lengths in pixels. -/
lemma get?_finish (accepted : List String) (layers : List Attributes) (key : String) :
    (finish accepted layers).get? key =
      if key ∈ accepted then
        (highest? (layers.reverse.map fun layer => layer.get? key)).map (lengthValue key)
      else none := by
  unfold finish
  rw [get?_accepted, get?_overlay]
  simp only [List.contains_iff_mem]

/-- A layer that only the mobile view has, between others. -/
lemma highest?_onMobile (mobile : Bool) (above : List (Option AttributeValue))
    (layer below : Attributes) (key : String) :
    highest? (above ++ ((below :: onMobile mobile layer).reverse.map fun layer => layer.get? key)) =
      highest? (above ++ [if mobile then layer.get? key else none, below.get? key]) := by
  unfold highest?
  rw [List.findSome?_append, List.findSome?_append]
  cases mobile
  · rfl
  · rfl

/-- A node's own attributes, and in the mobile view its overrides, come before all layers below
them. -/
lemma highest?_ownLayers (mobile : Bool) (base : List Attributes) (bag : Attributes)
    (key : String) :
    highest? ((base ++ ownLayers mobile bag).reverse.map fun layer => layer.get? key) =
      highest? ((if mobile then ownValue? (overrides bag) key else none) :: ownValue? bag key ::
        base.reverse.map fun layer => layer.get? key) := by
  unfold ownLayers onMobile
  rw [List.reverse_append, ← get?_overrideLayer, ← get?_ownLayer]
  cases mobile
  · rfl
  · rfl

/-- The logo's address in place of the source that stands for it, on blocks that show an image. -/
def logoValue (view : View) (kind : BlockKind) (key : String) : AttributeValue → AttributeValue
  | .text s =>
    if key = "src" ∧ s = logoSource ∧ (kind = .image ∨ kind = .icon) then
      .text (view.logoUrl.getD s)
    else .text s
  | v => v

section Logo

variable {view : View} {kind : BlockKind} {key : String} {v : AttributeValue}

/-- Blocks that show an image have the logo in place of the source that names it. -/
lemma logoValue_src (hkind : kind = .image ∨ kind = .icon) (hv : v.text? = some logoSource)
    {url : String} (hurl : view.logoUrl = some url) :
    logoValue view kind "src" v = .text url := by
  cases v with
  | text s =>
    obtain rfl : s = logoSource := Option.some.inj hv
    unfold logoValue
    simp only [hkind, hurl, and_self, if_true, Option.getD_some]
  | bool x => cases hv
  | number x => cases hv
  | json j => cases hv

/-- Any other value stays as it is. -/
lemma logoValue_eq_self (h : ¬(key = "src" ∧ v.text? = some logoSource ∧
    (kind = .image ∨ kind = .icon) ∧ view.logoUrl.isSome)) : logoValue view kind key v = v := by
  cases v with
  | text s =>
    simp only [logoValue]
    split_ifs with hlogo
    · obtain ⟨hkey, rfl, hkind⟩ := hlogo
      cases hurl : view.logoUrl with
      | none => rfl
      | some url => exact absurd ⟨hkey, rfl, hkind, by rw [hurl]; rfl⟩ h
    · rfl
  | bool x => rfl
  | number x => rfl
  | json j => rfl

variable (view kind) in
/-- The logo stands for the source that names it, and nothing else is changed. -/
lemma get?_withLogo (bag : Attributes) (key : String) :
    (withLogo view kind bag).get? key = (bag.get? key).map (logoValue view kind key) := by
  have hself : (∀ v, bag.get? key = some v → logoValue view kind key v = v) →
      bag.get? key = (bag.get? key).map (logoValue view kind key) := by
    intro h
    cases hv : bag.get? key with
    | none => rfl
    | some v => rw [Option.map_some, h v hv]
  unfold withLogo
  cases hurl : view.logoUrl with
  | none => exact hself fun v _ => logoValue_eq_self (by simp [hurl])
  | some url =>
    by_cases hlogo : (kind = .image ∨ kind = .icon) ∧ bag.text? "src" = some logoSource
    · obtain ⟨hkind, hsrc⟩ := hlogo
      obtain ⟨v, hv, htext⟩ := Option.bind_eq_some_iff.mp hsrc
      simp only [Bool.and_eq_true, Bool.or_eq_true, beq_iff_eq, hkind, hsrc, and_self, if_true]
      rw [Attributes.get?_set]
      split_ifs with hkey
      · subst hkey
        rw [hv, Option.map_some, logoValue_src hkind htext hurl]
      · exact hself fun v _ => logoValue_eq_self fun h => hkey h.1
    · simp only [Bool.and_eq_true, Bool.or_eq_true, beq_iff_eq]
      rw [if_neg hlogo]
      refine hself fun v hv => logoValue_eq_self ?_
      rintro ⟨rfl, htext, hkind, -⟩
      exact hlogo ⟨hkind, Option.bind_eq_some_iff.mpr ⟨v, hv, htext⟩⟩

end Logo

/-! ### What is in effect at the nodes -/

variable (view : View) (d : Document) (r : Row)

/-- Where a block stands in its row: its column is the first that holds a block with its id. -/
def blockScope (b : Block) : Scope where
  document := d
  row := r
  column := r.columns.findIdx? fun c => c.blocks.any fun x => x.id == b.id
  palette := paletteOf d
  mobile := view.mobile

/-- What says something of a block, from the top. -/
def blockSources (b : Block) (key : String) : List (Option AttributeValue) :=
  let scope := blockScope view d r b
  [if view.mobile then ownValue? (overrides b.attributes) key else none,
   ownValue? b.attributes key,
   (themeDefaults scope b.kind).get? key,
   (variantDefaults scope b.kind).get? key,
   (roleDefaults scope b.kind).get? key,
   if view.mobile then (kindMobile b).get? key else none,
   (kindDefaults d b).get? key]

/-- What says something of a row, from the top. -/
def rowSources (key : String) : List (Option AttributeValue) :=
  [if view.mobile then ownValue? (overrides r.attributes) key else none,
   ownValue? r.attributes key,
   (rowThemeDefaults (paletteOf d) r).get? key,
   (rowVariantDefaults d r).get? key,
   (rowRoleDefaults r).get? key,
   if view.mobile then rowMobile.get? key else none,
   (rowBase d).get? key]

/-- What says something of the container of a row, from the top. -/
def containerSources (key : String) : List (Option AttributeValue) :=
  [if view.mobile then ownValue? (overrides r.container) key else none,
   ownValue? r.container key,
   (containerBase d).get? key]

/-- What says something of a column, from the top. -/
def columnSources (c : Column) (key : String) : List (Option AttributeValue) :=
  [if view.mobile then ownValue? (overrides c.attributes) key else none,
   ownValue? c.attributes key,
   (columnBase ⟨d, r, r.columnIndex? c.id, none, view.mobile⟩).get? key]

/-- A block is resolved in the scope in which it stands. -/
lemma block_eq (b : Block) :
    block view d r b =
      ((withLogo view b.kind (overlay (blockLayers (blockScope view d r b) b))).filterKeys
        b.kind.accepts).withLengths := rfl

/-- At a block, the accepted keys have the values of the highest sources. -/
lemma get?_block (b : Block) (key : String) :
    (block view d r b).get? key =
      if b.kind.accepts key then
        (highest? (blockSources view d r b key)).map fun v =>
          lengthValue key (logoValue view b.kind key v)
      else none := by
  have hlayers : highest? ((blockLayers (blockScope view d r b) b).reverse.map
      fun layer => layer.get? key) = highest? (blockSources view d r b key) := by
    rw [blockLayers_eq, highest?_ownLayers]
    unfold baseLayers
    rw [List.reverse_append, List.map_append]
    exact highest?_onMobile view.mobile [_, _, _, _, _] _ _ key
  rw [block_eq, get?_accepted, get?_withLogo, get?_overlay, hlayers, Option.map_map]
  rfl

/-- At a row, the accepted keys have the values of the highest sources. -/
lemma get?_row (key : String) :
    (row view d r).get? key =
      if key ∈ rowKeys then (highest? (rowSources view d r key)).map (lengthValue key)
      else none := by
  have hlayers : highest? ((rowLayers view d (paletteOf d) r).reverse.map
      fun layer => layer.get? key) = highest? (rowSources view d r key) := by
    rw [rowLayers_eq, highest?_ownLayers]
    unfold rowBaseLayers
    rw [List.reverse_append, List.map_append]
    exact highest?_onMobile view.mobile [_, _, _, _, _] _ _ key
  unfold row rowIn
  rw [get?_finish, hlayers]

/-- At the container of a row, the accepted keys have the values of the highest sources. -/
lemma get?_container (key : String) :
    (container view d r).get? key =
      if key ∈ containerKeys then
        (highest? (containerSources view d r key)).map (lengthValue key)
      else none := by
  rw [container_eq, get?_finish]
  exact congrArg (fun v => if key ∈ containerKeys then Option.map (lengthValue key) v else none)
    (highest?_ownLayers view.mobile [containerBase d] r.container key)

/-- At a column, the accepted keys have the values of the highest sources. -/
lemma get?_column (c : Column) (key : String) :
    (column view d r c).get? key =
      if key ∈ columnKeys then (highest? (columnSources view d r c key)).map (lengthValue key)
      else none := by
  rw [column_eq, get?_finish]
  exact congrArg (fun v => if key ∈ columnKeys then Option.map (lengthValue key) v else none)
    (highest?_ownLayers view.mobile [columnBase _] c.attributes key)

end Cascade

/-! ### Overrides set aside -/

/-- The block without overrides for the mobile view. -/
def Block.withoutOverrides (b : Block) : Block :=
  { b with attributes := b.attributes.erase mobileKey }

/-- The column without overrides for the mobile view, at itself or its blocks. -/
def Column.withoutOverrides (c : Column) : Column :=
  { c with
    attributes := c.attributes.erase mobileKey
    blocks := c.blocks.map Block.withoutOverrides }

/-- The row without overrides for the mobile view, at itself or its nodes. -/
def Row.withoutOverrides (r : Row) : Row :=
  { r with
    attributes := r.attributes.erase mobileKey
    container := r.container.erase mobileKey
    columns := r.columns.map Column.withoutOverrides }

/-- The document without overrides for the mobile view. -/
def Document.withoutOverrides (d : Document) : Document :=
  { d with rows := d.rows.map Row.withoutOverrides }

namespace Cascade

/-- Own attributes count without the overrides for the mobile view. -/
lemma ownLayers_erase (bag : Attributes) :
    ownLayers false (bag.erase mobileKey) = ownLayers false bag := by
  have hentries : (bag.erase mobileKey).entries.filter (fun e => e.1 != mobileKey) =
      bag.entries.filter fun e => e.1 != mobileKey := by
    change (bag.entries.filter _).filter _ = _
    rw [List.filter_filter]
    simp only [Bool.and_self]
  unfold ownLayers ownLayer
  rw [hentries]
  rfl

/-- Under any key but their own, overrides for the mobile view leave the text. -/
lemma text?_erase (bag : Attributes) {key : String} (h : key ≠ mobileKey) :
    (bag.erase mobileKey).text? key = bag.text? key := by
  unfold Attributes.text?
  rw [Attributes.get?_erase, if_neg h]

variable {view : View} (hview : view.mobile = false) (d : Document) (r : Row)

include hview

/-- On a wide screen, a block is the same without overrides for the mobile view. -/
lemma block_withoutOverrides (b : Block) :
    block view d.withoutOverrides r.withoutOverrides b.withoutOverrides = block view d r b := by
  have hcolumn : (r.withoutOverrides.columns.findIdx? fun c =>
        c.blocks.any fun x => x.id == b.withoutOverrides.id) =
      r.columns.findIdx? fun c => c.blocks.any fun x => x.id == b.id := by
    unfold Row.withoutOverrides
    rw [List.findIdx?_map]
    congr 1
    funext c
    exact List.any_map
  have hmatches : (blockScope view d r b).Matches
      (blockScope view d.withoutOverrides r.withoutOverrides b.withoutOverrides) :=
    ⟨rfl, rfl, List.length_map _, hcolumn, rfl, rfl⟩
  have hlevel : headingLevel b.withoutOverrides = headingLevel b := by
    unfold headingLevel Block.withoutOverrides
    rw [text?_erase b.attributes (by decide)]
  have hlayers : blockLayers (blockScope view d.withoutOverrides r.withoutOverrides
      b.withoutOverrides) b.withoutOverrides = blockLayers (blockScope view d r b) b := by
    have hmobile : (blockScope view d r b).mobile = false := hview
    have hown : ownLayers false b.withoutOverrides.attributes = ownLayers false b.attributes :=
      ownLayers_erase b.attributes
    have hbase : baseLayers (blockScope view d.withoutOverrides r.withoutOverrides
        b.withoutOverrides) b.withoutOverrides = baseLayers (blockScope view d r b) b :=
      baseLayers_eq_of_matches hmatches rfl hlevel
    rw [blockLayers_eq, blockLayers_eq, hbase, hmatches.mobile, hmobile, hown]
  rw [block_eq, block_eq, hlayers]
  rfl

/-- On a wide screen, a row is the same without overrides for the mobile view. -/
lemma row_withoutOverrides :
    row view d.withoutOverrides r.withoutOverrides = row view d r := by
  have hbase : rowBaseLayers view d.withoutOverrides (paletteOf d) r.withoutOverrides =
      rowBaseLayers view d (paletteOf d) r := rowBaseLayers_congr view d _ _ rfl
  have hlayers : rowLayers view d.withoutOverrides (paletteOf d) r.withoutOverrides =
      rowLayers view d (paletteOf d) r := by
    rw [rowLayers_eq, rowLayers_eq, hbase, hview]
    unfold Row.withoutOverrides
    rw [ownLayers_erase]
  exact congrArg (finish rowKeys) hlayers

/-- On a wide screen, a container is the same without overrides for the mobile view. -/
lemma container_withoutOverrides :
    container view d.withoutOverrides r.withoutOverrides = container view d r := by
  rw [container_eq, container_eq, hview]
  unfold Row.withoutOverrides
  rw [ownLayers_erase]
  rfl

/-- On a wide screen, a column is the same without overrides for the mobile view. -/
lemma column_withoutOverrides (c : Column) :
    column view d.withoutOverrides r.withoutOverrides c.withoutOverrides = column view d r c := by
  have hindex : r.withoutOverrides.columnIndex? c.withoutOverrides.id = r.columnIndex? c.id :=
    List.findIdx?_map
  have hvertical : r.withoutOverrides.attributes.text? "verticalAlign" =
      r.attributes.text? "verticalAlign" := text?_erase r.attributes (by decide)
  have hbase : columnBase ⟨d.withoutOverrides, r.withoutOverrides,
        r.withoutOverrides.columnIndex? c.withoutOverrides.id, none, view.mobile⟩ =
      columnBase ⟨d, r, r.columnIndex? c.id, none, view.mobile⟩ :=
    columnBase_congr rfl (List.length_map _) hindex hvertical
  have hown : ownLayers false c.withoutOverrides.attributes = ownLayers false c.attributes :=
    ownLayers_erase c.attributes
  rw [column_eq, column_eq, hbase, hview, hown]

omit hview

/-- The attributes in effect at a block, a row, a container and a column hold, under each key that
the node accepts, the value of the highest source that has one: lengths in pixels, and at images the
logo in place of the source that stands for it.  Overrides for the mobile view are never among the
keys, and on a wide screen they change nothing. -/
theorem get?_effective (view : View) (d : Document) (r : Row) (b : Block) (c : Column) :
    (∀ key, (block view d r b).get? key =
        if b.kind.accepts key then
          (highest? (blockSources view d r b key)).map fun v =>
            lengthValue key (logoValue view b.kind key v)
        else none) ∧
      (∀ key, (row view d r).get? key =
        if key ∈ rowKeys then (highest? (rowSources view d r key)).map (lengthValue key)
        else none) ∧
      (∀ key, (container view d r).get? key =
        if key ∈ containerKeys then
          (highest? (containerSources view d r key)).map (lengthValue key)
        else none) ∧
      (∀ key, (column view d r c).get? key =
        if key ∈ columnKeys then (highest? (columnSources view d r c key)).map (lengthValue key)
        else none) ∧
      ((block view d r b).get? mobileKey = none ∧ (row view d r).get? mobileKey = none ∧
        (container view d r).get? mobileKey = none ∧
        (column view d r c).get? mobileKey = none) ∧
      (let wide : View := { view with mobile := false }
       block wide d.withoutOverrides r.withoutOverrides b.withoutOverrides = block wide d r b ∧
        row wide d.withoutOverrides r.withoutOverrides = row wide d r ∧
        container wide d.withoutOverrides r.withoutOverrides = container wide d r ∧
        column wide d.withoutOverrides r.withoutOverrides c.withoutOverrides =
          column wide d r c) := by
  have hkind : b.kind.accepts mobileKey = false := by
    cases b.kind <;> decide
  refine ⟨get?_block view d r b, get?_row view d r, get?_container view d r,
    get?_column view d r c, ⟨?_, ?_, ?_, ?_⟩, ?_⟩
  · rw [get?_block, hkind]
    rfl
  · rw [get?_row, if_neg (by decide)]
  · rw [get?_container, if_neg (by decide)]
  · rw [get?_column, if_neg (by decide)]
  · exact ⟨block_withoutOverrides rfl d r b, row_withoutOverrides rfl d r,
      container_withoutOverrides rfl d r, column_withoutOverrides rfl d r c⟩

end Cascade

end MailTemplate
