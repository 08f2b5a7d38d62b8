import MailTemplate.Proofs.Cascade.Alike

/-!
# Documents that are the same resolve to the same

All that the cascade does with layers keeps bags alike: layers put on top of each other, shorthands
spread over their sides, overrides for the mobile view, the logo put in.  The layers below a node's
own attributes are the same for the same document.

Main result: documents that are the same resolve to the same in every view (`same_resolve`).
-/

namespace MailTemplate

/-! ### Equality of resolved documents -/

/-- Equality of resolved blocks, attribute numbers compared by value. -/
def ResolvedBlock.same (a b : ResolvedBlock) : Bool :=
  a.id == b.id && a.kind == b.kind && a.content == b.content && a.attributes.same b.attributes

/-- Equality of resolved columns, attribute numbers compared by value. -/
def ResolvedColumn.same (a b : ResolvedColumn) : Bool :=
  a.id == b.id && a.units == b.units && a.width == b.width && a.attributes.same b.attributes &&
    sameList ResolvedBlock.same a.blocks b.blocks

/-- Equality of resolved rows, attribute numbers compared by value. -/
def ResolvedRow.same (a b : ResolvedRow) : Bool :=
  a.id == b.id && a.role == b.role && a.attributes.same b.attributes &&
    a.container.same b.container && sameList ResolvedColumn.same a.columns b.columns

/-- Equality of resolved documents, attribute numbers compared by value. -/
def ResolvedDocument.same (a b : ResolvedDocument) : Bool :=
  a.id == b.id && a.name == b.name && a.previewText == b.previewText &&
    a.fontFamily == b.fontFamily && a.width == b.width && a.color == b.color &&
    a.backgroundColor == b.backgroundColor && a.linkColor == b.linkColor &&
    a.mobile == b.mobile && a.palette == b.palette && sameList ResolvedRow.same a.rows b.rows

/-- Lists are the same when they are so member by member. -/
lemma sameList_iff_forall₂ {α : Type} {same : α → α → Bool} {items others : List α} :
    sameList same items others = true ↔
      List.Forall₂ (fun a b => same a b = true) items others := by
  induction items generalizing others with
  | nil =>
    cases others with
    | nil => exact ⟨fun _ => .nil, fun _ => rfl⟩
    | cons b others => exact ⟨fun h => (by cases h), fun h => (by cases h)⟩
  | cons a items ih =>
    cases others with
    | nil => exact ⟨fun h => (by cases h), fun h => (by cases h)⟩
    | cons b others => rw [sameList, Bool.and_eq_true, List.forall₂_cons, ih]

/-- Members that are related stay so with their places. -/
lemma forall₂_zipIdx {α β : Type} {R : α → β → Prop} {items : List α} {others : List β}
    (h : List.Forall₂ R items others) (start : ℕ) :
    List.Forall₂ (fun a b => R a.1 b.1 ∧ a.2 = b.2) (items.zipIdx start) (others.zipIdx start) := by
  induction h generalizing start with
  | nil => exact .nil
  | cons hab _ ih => exact .cons ⟨hab, rfl⟩ (ih (start + 1))

namespace Cascade

/-! ### Own attributes -/

/-- Numbers that are the same are alike under the keys of sides, where they are lengths. -/
lemma alikeEntry_number {key : String} (hkey : key ∈ sideKeys) {x y : Binary64}
    (h : numberText x = numberText y) : AlikeEntry (key, .number x) (key, .number y) := by
  refine ⟨rfl, ?_⟩
  unfold lengthValue
  simp only [isLengthKey_of_sideKeys hkey, if_true]
  rw [h]
  exact beq_self_eq_true _

/-- Values that are the same bring alike entries under a key. -/
lemma forall₂_ownEntries {key : String} {v w : AttributeValue} (h : v.same w = true) :
    List.Forall₂ AlikeEntry (ownEntries key v) (ownEntries key w) := by
  have hkept : ownEntries key v = [(key, v)] → ownEntries key w = [(key, w)] →
      List.Forall₂ AlikeEntry (ownEntries key v) (ownEntries key w) := by
    intro hv hw
    rw [hv, hw]
    exact .cons ⟨rfl, AttributeValue.same_lengthValue h⟩ .nil
  rcases AttributeValue.same_cases h with
    ⟨b, rfl, rfl⟩ | ⟨s, rfl, rfl⟩ | ⟨x, y, rfl, rfl, hxy⟩ | ⟨a, b, rfl, rfl, -⟩
  · exact hkept (ownEntries_of_boxNumbers?_eq_none rfl key)
      (ownEntries_of_boxNumbers?_eq_none rfl key)
  · rcases ownEntries_cases key (.text s) with hown | ⟨-, hsides⟩
    · exact hkept hown hown
    · refine List.forall₂_same.mpr fun e he => ?_
      obtain ⟨hside, x, hx⟩ := hsides e he
      obtain ⟨k, v⟩ := e
      obtain rfl : v = .number x := hx
      exact alikeEntry_number hside rfl
  · by_cases hkey : key ∈ boxKeys
    · have htext := numberText_congr hxy
      have hside : ∀ side ∈ Sides.entries key (⟨x, x, x, x⟩ : Sides Binary64), side.1 ∈ sideKeys :=
        Sides.mem_sideKeys hkey
      unfold Sides.entries at hside
      simp only [List.forall_mem_cons] at hside
      rw [ownEntries_number hkey, ownEntries_number hkey]
      exact .cons (alikeEntry_number hside.1 htext) (.cons (alikeEntry_number hside.2.1 htext)
        (.cons (alikeEntry_number hside.2.2.1 htext)
          (.cons (alikeEntry_number hside.2.2.2.1 htext) .nil)))
    · exact hkept (ownEntries_of_not_mem hkey _) (ownEntries_of_not_mem hkey _)
  · exact hkept (ownEntries_of_boxNumbers?_eq_none rfl key)
      (ownEntries_of_boxNumbers?_eq_none rfl key)

/-- Entries that are the same bring alike layers. -/
lemma alike_ownLayer {a b : Attributes} (h : List.Forall₂ SameEntry a.entries b.entries) :
    (ownLayer a).Alike (ownLayer b) := by
  refine Attributes.alike_empty.setAll ?_
  have hkept := Keyed.forall₂_filter h (· != mobileKey)
  generalize (a.entries.filter fun e => e.1 != mobileKey) = entries,
    (b.entries.filter fun e => e.1 != mobileKey) = others at hkept ⊢
  induction hkept with
  | nil => exact .nil
  | cons he _ ih =>
    rw [List.flatMap_cons, List.flatMap_cons, ← he.1]
    exact List.rel_append (forall₂_ownEntries he.2) ih

/-- Fields that are the same stand for entries that are. -/
lemma forall₂_ofJson {fields others : List (String × Json)}
    (h : Json.sameFields fields others = true) :
    List.Forall₂ SameEntry (fields.map fun f => (f.1, AttributeValue.ofJson f.2))
      (others.map fun f => (f.1, AttributeValue.ofJson f.2)) := by
  induction fields generalizing others with
  | nil =>
    cases others with
    | nil => exact .nil
    | cons f others => cases h
  | cons f fields ih =>
    cases others with
    | nil => cases h
    | cons f' others =>
      rw [Json.sameFields, Bool.and_eq_true, Bool.and_eq_true, beq_iff_eq] at h
      exact .cons ⟨h.1.1, AttributeValue.same_ofJson h.1.2⟩ (ih h.2)

/-- The fields of an object; none of any other value. -/
def objectFields : Json → List (String × Json)
  | .object fields => fields
  | _ => []

/-- Values that are the same have fields that are. -/
lemma sameFields_objectFields {v w : Json} (h : v.same w = true) :
    Json.sameFields (objectFields v) (objectFields w) = true := by
  cases v with
  | object fields =>
    cases w with
    | object others => exact h
    | _ => cases h
  | _ =>
    cases w with
    | object others => cases h
    | _ => rfl

/-- The fields that override a node's attributes for the mobile view. -/
def overrideFields (attributes : Attributes) : List (String × Json) :=
  ((attributes.get? mobileKey).bind AttributeValue.json?).elim [] objectFields

/-- The overrides for the mobile view are the own attributes that their fields stand for. -/
lemma overrideLayer_eq (attributes : Attributes) :
    overrideLayer attributes = ownLayer (bag ((overrideFields attributes).map fun f =>
      (f.1, AttributeValue.ofJson f.2))) := by
  unfold overrideLayer overrideFields
  split
  · next hget =>
    rw [hget]
    rfl
  · next hother =>
    cases hget : attributes.get? mobileKey with
    | none => rfl
    | some v =>
      cases v with
      | json v =>
        cases v with
        | object fields => exact absurd hget (hother fields)
        | _ => rfl
      | _ => rfl

/-- Bags that are the same have fields for the mobile view that are. -/
lemma sameFields_overrideFields {a b : Attributes} (h : a.same b = true) :
    Json.sameFields (overrideFields a) (overrideFields b) = true := by
  unfold overrideFields Attributes.get?
  rcases Keyed.lookup_of_forall₂ (Attributes.forall₂_of_same h) mobileKey with
    ⟨ha, hb⟩ | ⟨v, w, ha, hb, hvw⟩
  · rw [ha, hb]
    rfl
  · rw [ha, hb]
    rcases AttributeValue.same_cases hvw with
      ⟨x, rfl, rfl⟩ | ⟨s, rfl, rfl⟩ | ⟨x, y, rfl, rfl, -⟩ | ⟨x, y, rfl, rfl, hxy⟩
    · rfl
    · rfl
    · rfl
    · exact sameFields_objectFields hxy

/-- Bags that are the same bring alike overrides for the mobile view. -/
lemma alike_overrideLayer {a b : Attributes} (h : a.same b = true) :
    (overrideLayer a).Alike (overrideLayer b) := by
  have hfields := forall₂_ofJson (sameFields_overrideFields h)
  rw [overrideLayer_eq, overrideLayer_eq]
  refine alike_ownLayer ?_
  unfold bag Attributes.ofList
  rw [Attributes.entries_setAll, Attributes.entries_setAll]
  exact Keyed.forall₂_foldl_insert .nil hfields

/-- Bags that are the same bring alike layers. -/
lemma alike_ownLayers {a b : Attributes} (h : a.same b = true) (mobile : Bool) :
    List.Forall₂ Attributes.Alike (ownLayers mobile a) (ownLayers mobile b) := by
  refine .cons (alike_ownLayer (Attributes.forall₂_of_same h)) ?_
  cases mobile with
  | false => exact .nil
  | true => exact .cons (alike_overrideLayer h) .nil

/-! ### Layers put on top of each other -/

/-- Alike layers put on top of each other are alike. -/
lemma alike_overlay {layers others : List Attributes}
    (h : List.Forall₂ Attributes.Alike layers others) :
    (overlay layers).Alike (overlay others) := by
  have hfold : ∀ {a b : Attributes}, a.Alike b →
      (layers.foldl Attributes.merge a).Alike (others.foldl Attributes.merge b) := by
    induction h with
    | nil => exact fun hab => hab
    | cons hlayer _ ih => exact fun hab => ih (hab.setAll hlayer)
  exact hfold Attributes.alike_empty

/-- Bags that are the same, on top of steady layers, make alike attributes. -/
lemma alike_overlay_ownLayers {base : List Attributes} (hbase : ∀ layer ∈ base, layer.Steady)
    {a b : Attributes} (h : a.same b = true) (mobile : Bool) :
    (overlay (base ++ ownLayers mobile a)).Alike (overlay (base ++ ownLayers mobile b)) := by
  refine alike_overlay (List.rel_append ?_ (alike_ownLayers h mobile))
  exact List.forall₂_same.mpr fun layer hlayer => (hbase layer hlayer).alike

/-- Alike attributes with the logo put in are alike. -/
lemma alike_withLogo {a b : Attributes} (h : a.Alike b) (view : View) (kind : BlockKind) :
    (withLogo view kind a).Alike (withLogo view kind b) := by
  have htext : a.text? "src" = b.text? "src" := h.text?_eq (by decide)
  unfold withLogo
  cases view.logoUrl with
  | none => exact h
  | some url =>
    simp only [htext]
    split_ifs
    · exact Keyed.forall₂_insert h (beq_self_eq_true _)
    · exact h

/-! ### Steady layers -/

/-- Steady entries make a steady bag. -/
lemma steady_bag {entries : List (String × AttributeValue)}
    (h : ∀ e ∈ entries, e.2.same e.2 = true) : (bag entries).Steady :=
  Attributes.forall_setAll (List.forall_mem_nil _) h

/-- The bag without entries is steady. -/
lemma steady_empty : Attributes.Steady {} := List.forall_mem_nil _

@[simp] lemma same_txt (s : String) : (txt s).same (txt s) = true := beq_self_eq_true _

@[simp] lemma same_hue (c : Color) : (hue c).same (hue c) = true := beq_self_eq_true _

@[simp] lemma same_bool (b : Bool) : (AttributeValue.bool b).same (.bool b) = true :=
  beq_self_eq_true _

@[simp] lemma same_num (n : ℕ) : (num n).same (num n) = true :=
  Binary64.same_self (Binary64.ofQuotient_ne_nan _ _ _)

@[simp] lemma same_tenths_twelve : (tenths 12).same (tenths 12) = true := by decide +kernel

@[simp] lemma same_tenths_fifteen : (tenths 15).same (tenths 15) = true := by decide +kernel

/-- What a kind of block brings with it is steady. -/
lemma steady_kindDefaults (d : Document) (block : Block) : (kindDefaults d block).Steady := by
  unfold kindDefaults
  split
  all_goals
    refine steady_bag ?_
    simp [typography, borderColor]

/-- What a kind of block changes on narrow screens is steady. -/
lemma steady_kindMobile (block : Block) : (kindMobile block).Steady := by
  unfold kindMobile
  split
  · exact steady_bag (by simp)
  · exact steady_bag (by simp)
  · exact steady_bag (by simp)
  · exact steady_empty

/-- What the role of a row brings to a block in it is steady. -/
lemma steady_roleDefaults (scope : Scope) (kind : BlockKind) :
    (roleDefaults scope kind).Steady := by
  have hrole : ∀ role, ∀ e ∈ roleEntries role kind, e.2.same e.2 = true := by
    intro role
    unfold roleEntries
    split
    all_goals simp [mutedText]
  unfold roleDefaults
  refine steady_bag (List.forall_mem_append.mpr ⟨?_, ?_⟩)
  · cases scope.row.role with
    | none => exact List.forall_mem_nil _
    | some role => exact hrole role
  · split_ifs
    · simp
    · exact List.forall_mem_nil _

/-- What the variant of a document brings to a block is steady. -/
lemma steady_variantDefaults (scope : Scope) (kind : BlockKind) :
    (variantDefaults scope kind).Steady := by
  have hcolor : ∀ s, (bag [("color", txt s)]).Steady := fun s => steady_bag (by simp)
  unfold variantDefaults
  simp only
  split
  · split_ifs
    · exact steady_empty
    · exact hcolor _
  · split_ifs
    · exact steady_empty
    · exact hcolor _
  · split_ifs
    · exact steady_empty
    · exact hcolor _
  · split_ifs
    · exact steady_empty
    · exact hcolor _
  · exact steady_bag (by simp)
  · exact steady_bag (by simp)
  · exact steady_empty

/-- What the theme of a document brings to a block is steady. -/
lemma steady_themeDefaults (scope : Scope) (kind : BlockKind) :
    (themeDefaults scope kind).Steady := by
  unfold themeDefaults
  split
  · exact steady_empty
  · next palette hpalette =>
    refine steady_bag (List.forall_mem_append.mpr ⟨?_, ?_⟩)
    · unfold paletteEntries
      split
      all_goals simp
    · split_ifs
      · simp
      · exact List.forall_mem_nil _

/-- A layer that only the mobile view has is steady if it is. -/
lemma forall_mem_onMobile {p : Attributes → Prop} {layer : Attributes} (h : p layer)
    (mobile : Bool) : ∀ l ∈ onMobile mobile layer, p l := by
  cases mobile with
  | false => exact List.forall_mem_nil _
  | true => exact List.forall_mem_singleton.mpr h

/-- The layers of a block below its own attributes are steady. -/
lemma steady_baseLayers (scope : Scope) (block : Block) :
    ∀ layer ∈ baseLayers scope block, layer.Steady := by
  unfold baseLayers
  simp only [List.forall_mem_append, List.forall_mem_cons]
  exact ⟨⟨⟨steady_kindDefaults _ _, List.forall_mem_nil _⟩,
      forall_mem_onMobile (steady_kindMobile block) _⟩,
    steady_roleDefaults _ _, steady_variantDefaults _ _, steady_themeDefaults _ _,
    List.forall_mem_nil _⟩

/-- The layers of a row below its own attributes are steady. -/
lemma steady_rowBaseLayers (view : View) (d : Document) (palette : Option Palette) (row : Row) :
    ∀ layer ∈ rowBaseLayers view d palette row, layer.Steady := by
  have hrole : (rowRoleDefaults row).Steady := by
    unfold rowRoleDefaults
    split
    · exact steady_bag (by simp)
    · exact steady_bag (by simp [mutedText])
    · exact steady_bag (by simp)
    · exact steady_bag (by simp)
    · exact steady_bag (by simp)
    · exact steady_bag (by simp [borderColor])
    · exact steady_bag (by simp)
    · exact steady_empty
  have hvariant : (rowVariantDefaults d row).Steady := by
    unfold rowVariantDefaults
    split
    · split_ifs
      · exact steady_bag (by simp)
      · exact steady_empty
    · split_ifs
      · exact steady_empty
      · exact steady_bag (by simp [borderColor])
    · exact steady_bag (by simp)
    · exact steady_bag (by simp)
  have htheme : (rowThemeDefaults palette row).Steady := by
    unfold rowThemeDefaults
    split
    · exact steady_bag (by simp)
    · exact steady_bag (by simp)
    · exact steady_bag (by simp)
    · exact steady_bag (by simp)
    · exact steady_empty
  unfold rowBaseLayers
  simp only [List.forall_mem_append, List.forall_mem_cons]
  exact ⟨⟨⟨steady_bag (by simp), List.forall_mem_nil _⟩,
      forall_mem_onMobile (steady_bag (by simp)) _⟩,
    hrole, hvariant, htheme, List.forall_mem_nil _⟩

/-- What every container has is steady. -/
lemma steady_containerBase (d : Document) : (containerBase d).Steady := by
  unfold containerBase
  split
  · exact steady_bag (by simp)
  · exact steady_bag (by simp)

/-- What every column has is steady. -/
lemma steady_columnBase (scope : Scope) : (columnBase scope).Steady :=
  steady_bag (by simp)

/-! ### Nodes -/

variable (view : View)

/-- Layers of which the uppermost are own attributes that are the same make the same. -/
lemma same_finish {base : List Attributes} (hbase : ∀ layer ∈ base, layer.Steady)
    {a b : Attributes} (h : a.same b = true) (mobile : Bool) (keys : List String) :
    (finish keys (base ++ ownLayers mobile a)).same (finish keys (base ++ ownLayers mobile b)) =
      true :=
  ((alike_overlay_ownLayers hbase h mobile).filterKeys keys.contains).same_withLengths

/-- Blocks that are the same resolve to the same in matching scopes. -/
lemma same_resolveBlock {scope other : Scope} (h : scope.Matches other) {a b : Block}
    (hab : a.same b = true) :
    (resolveBlock view scope a).same (resolveBlock view other b) = true := by
  simp only [Block.same, Bool.and_eq_true, beq_iff_eq] at hab
  obtain ⟨⟨⟨hid, hkind⟩, hcontent⟩, hsame⟩ := hab
  have hlevel : headingLevel b = headingLevel a := by
    unfold headingLevel
    rw [Attributes.text?_of_same hsame]
  have hbase : baseLayers other b = baseLayers scope a :=
    baseLayers_eq_of_matches h hkind.symm hlevel
  have hlayers : (overlay (blockLayers scope a)).Alike (overlay (blockLayers other b)) := by
    rw [blockLayers_eq, blockLayers_eq, hbase, h.mobile]
    exact alike_overlay_ownLayers (steady_baseLayers scope a) hsame scope.mobile
  have hattributes : (blockIn view scope a).same (blockIn view other b) = true := by
    unfold blockIn
    rw [← hkind]
    exact ((alike_withLogo hlayers view a.kind).filterKeys a.kind.accepts).same_withLengths
  simp only [ResolvedBlock.same, resolveBlock, Bool.and_eq_true, beq_iff_eq]
  exact ⟨⟨⟨hid, hkind⟩, hcontent⟩, hattributes⟩

section Rows

variable (d : Document) (rows : List Row) {a b : Row} (h : a.same b = true)

include h

/-- The columns of rows that are the same are the same one by one. -/
lemma forall₂_columns_of_same :
    List.Forall₂ (fun c c' => Column.same c c' = true) a.columns b.columns := by
  rw [Row.same, Bool.and_eq_true] at h
  exact sameList_iff_forall₂.mp h.2

/-- Rows that are the same make matching scopes. -/
lemma matches_of_same (column : Option ℕ) (palette : Option Palette) :
    Scope.Matches ⟨d, a, column, palette, view.mobile⟩
      ⟨{ d with rows }, b, column, palette, view.mobile⟩ := by
  have hcount := (forall₂_columns_of_same h).length_eq
  simp only [Row.same, Bool.and_eq_true, beq_iff_eq] at h
  exact ⟨rfl, h.1.1.1.2.symm, hcount.symm, rfl, rfl, rfl⟩

/-- Rows that are the same have their columns at the same places. -/
lemma columnIndex?_of_same (id : String) : b.columnIndex? id = a.columnIndex? id := by
  have hindex : ∀ row : Row,
      row.columnIndex? id = (row.columns.map Column.id).findIdx? (· == id) := by
    intro row
    rw [List.findIdx?_map]
    rfl
  have hids : b.columns.map Column.id = a.columns.map Column.id := by
    have hcolumns := forall₂_columns_of_same h
    generalize a.columns = columns, b.columns = others at hcolumns ⊢
    induction hcolumns with
    | nil => rfl
    | cons hc _ ih =>
      simp only [Column.same, Bool.and_eq_true, beq_iff_eq] at hc
      rw [List.map_cons, List.map_cons, hc.1.1.1, ih]
  rw [hindex, hindex, hids]

/-- Columns that are the same resolve to the same in rows that are. -/
lemma same_resolveColumn (palette : Option Palette) (place : ℕ) {c c' : Column}
    (hc : c.same c' = true) :
    (resolveColumn view d palette a place c).same
      (resolveColumn view { d with rows } palette b place c') = true := by
  have hmatches := matches_of_same view d rows h
  have hrow := h
  simp only [Row.same, Bool.and_eq_true, beq_iff_eq] at hrow
  simp only [Column.same, Bool.and_eq_true, beq_iff_eq] at hc
  obtain ⟨⟨⟨hid, hunits⟩, hsame⟩, hblocks⟩ := hc
  have hbase : columnBase ⟨{ d with rows }, b, b.columnIndex? c'.id, none, view.mobile⟩ =
      columnBase ⟨d, a, a.columnIndex? c.id, none, view.mobile⟩ := by
    have hvertical : b.attributes.text? "verticalAlign" = a.attributes.text? "verticalAlign" :=
      (Attributes.text?_of_same hrow.1.1.2 _).symm
    have hindex : b.columnIndex? c'.id = a.columnIndex? c.id := by
      rw [columnIndex?_of_same h, ← hid]
    exact columnBase_congr (hmatches none none).role (hmatches none none).count hindex hvertical
  have hattributes : (Cascade.column view d a c).same
      (Cascade.column view { d with rows } b c') = true := by
    rw [column_eq, column_eq, hbase]
    exact same_finish (List.forall_mem_singleton.mpr (steady_columnBase _)) hsame view.mobile _
  have hresolved : sameList ResolvedBlock.same
      (c.blocks.map (resolveBlock view ⟨d, a, some place, palette, view.mobile⟩))
      (c'.blocks.map (resolveBlock view ⟨{ d with rows }, b, some place, palette, view.mobile⟩)) =
        true := by
    rw [sameList_iff_forall₂, List.forall₂_map_left_iff, List.forall₂_map_right_iff]
    exact (sameList_iff_forall₂.mp hblocks).imp fun _ _ hblock =>
      same_resolveBlock view (hmatches (some place) palette) hblock
  have hwidth : c.widthText = c'.widthText := by
    unfold Column.widthText
    rw [hunits]
  simp only [ResolvedColumn.same, resolveColumn, Bool.and_eq_true, beq_iff_eq]
  exact ⟨⟨⟨⟨hid, hunits⟩, hwidth⟩, hattributes⟩, hresolved⟩

end Rows

/-- Rows that are the same resolve to the same. -/
lemma same_resolveRow (d : Document) (rows : List Row) (palette : Option Palette) {a b : Row}
    (h : a.same b = true) :
    (resolveRow view d palette a).same (resolveRow view { d with rows } palette b) = true := by
  have hcolumns : sameList ResolvedColumn.same
      (a.columns.zipIdx.map fun p => resolveColumn view d palette a p.2 p.1)
      (b.columns.zipIdx.map fun p => resolveColumn view { d with rows } palette b p.2 p.1) =
        true := by
    rw [sameList_iff_forall₂, List.forall₂_map_left_iff, List.forall₂_map_right_iff]
    refine (forall₂_zipIdx (forall₂_columns_of_same h) 0).imp fun p p' hp => ?_
    obtain ⟨hsame, hplace⟩ := hp
    rw [← hplace]
    exact same_resolveColumn view d rows h palette p.2 hsame
  simp only [Row.same, Bool.and_eq_true, beq_iff_eq] at h
  obtain ⟨⟨⟨⟨hid, hrole⟩, hsame⟩, hsame'⟩, -⟩ := h
  have hattributes :
      (rowIn view d palette a).same (rowIn view { d with rows } palette b) = true := by
    unfold rowIn
    rw [rowLayers_eq, rowLayers_eq, rowBaseLayers_congr view d rows palette hrole.symm]
    exact same_finish (steady_rowBaseLayers view d palette a) hsame view.mobile _
  have hcontainer : (container view d a).same (container view { d with rows } b) = true := by
    rw [container_eq, container_eq]
    exact same_finish (List.forall_mem_singleton.mpr (steady_containerBase d)) hsame' view.mobile _
  simp only [ResolvedRow.same, resolveRow, Bool.and_eq_true, beq_iff_eq]
  exact ⟨⟨⟨⟨hid, congrArg _ hrole⟩, hattributes⟩, hcontainer⟩, hcolumns⟩

/-- Documents that are the same resolve to the same in every view. -/
theorem same_resolve {a b : Document} (h : a.same b = true) :
    (resolve view a).same (resolve view b) = true := by
  simp only [Document.same, Bool.and_eq_true, beq_iff_eq] at h
  obtain ⟨⟨⟨⟨⟨⟨⟨⟨⟨⟨⟨hid, hname⟩, hpreview⟩, hfont⟩, hwidth⟩, hcolor⟩, hback⟩, hrowBack⟩, hlink⟩,
    hvariant⟩, htheme⟩, hrows⟩ := h
  have hdocument : b = { a with rows := b.rows } := by
    rw [hid, hname, hpreview, hfont, hwidth, hcolor, hback, hrowBack, hlink, hvariant, htheme]
  rw [hdocument]
  have hresolved : sameList ResolvedRow.same (a.rows.map (resolveRow view a (paletteOf a)))
      (b.rows.map (resolveRow view { a with rows := b.rows } (paletteOf a))) = true := by
    rw [sameList_iff_forall₂, List.forall₂_map_left_iff, List.forall₂_map_right_iff]
    exact (sameList_iff_forall₂.mp hrows).imp fun _ _ hrow =>
      same_resolveRow view a b.rows (paletteOf a) hrow
  have hpalette : paletteOf { a with rows := b.rows } = paletteOf a := rfl
  simp only [ResolvedDocument.same, resolve, hpalette, beq_self_eq_true, Bool.true_and]
  exact hresolved

end Cascade

end MailTemplate
