import MailTemplate.Cascade.Resolve
import MailTemplate.Proofs.Bags

/-!
# Layers of the cascade, and what of them counts

Only the accepted keys of each layer count, so layers with the same accepted keys make the same
attributes (`overlay_congr`).  The layers below a node's own attributes depend on the document and
on the row only through a few of their own fields, and on a block through its kind and its heading
level (`Scope.Agrees.baseLayers`, `rowBaseLayers_eq`, `columnBase_congr`).
-/

namespace MailTemplate.Cascade

variable {accepted : String → Bool}

/-! ### Overlays -/

/-- The accepted keys of layers put on top of each other are those of each layer, put on top of each
other. -/
lemma filterKeys_overlay (accepted : String → Bool) (layers : List Attributes) :
    (overlay layers).filterKeys accepted =
      overlay (layers.map fun layer => layer.filterKeys accepted) := by
  unfold overlay
  have hfold : ∀ base : Attributes, (layers.foldl Attributes.merge base).filterKeys accepted =
      (layers.map fun layer => layer.filterKeys accepted).foldl Attributes.merge
        (base.filterKeys accepted) := by
    induction layers with
    | nil => exact fun _ => rfl
    | cons layer layers ih =>
      intro base
      rw [List.foldl_cons, ih, Attributes.filterKeys_merge]
      rfl
  exact hfold {}

/-- Layers with the same accepted keys make the same accepted attributes. -/
lemma overlay_congr {layers others : List Attributes}
    (h : (layers.map fun layer => layer.filterKeys accepted) =
      others.map fun layer => layer.filterKeys accepted) :
    (overlay layers).filterKeys accepted = (overlay others).filterKeys accepted := by
  rw [filterKeys_overlay, filterKeys_overlay, h]

/-! ### Logos -/

/-- The logo stands for the source in what is accepted as it does in all attributes, if the source
is accepted wherever an image is shown. -/
lemma filterKeys_withLogo {view : View} {kind : BlockKind} {a b : Attributes}
    (h : a.filterKeys kind.accepts = b.filterKeys kind.accepts) :
    (withLogo view kind a).filterKeys kind.accepts =
      (withLogo view kind b).filterKeys kind.accepts := by
  unfold withLogo
  cases view.logoUrl with
  | none => exact h
  | some url =>
    by_cases hshows : (kind == .image || kind == .icon) = true
    · have hsrc : kind.accepts "src" = true := by
        rw [Bool.or_eq_true, beq_iff_eq, beq_iff_eq] at hshows
        rcases hshows with rfl | rfl
        · decide
        · decide
      have htext : a.text? "src" = b.text? "src" := by
        unfold Attributes.text?
        rw [← Attributes.get?_filterKeys kind.accepts a hsrc, h,
          Attributes.get?_filterKeys kind.accepts b hsrc]
      simp only [hshows, htext]
      split_ifs
      · rw [Attributes.filterKeys_set _ _ hsrc, Attributes.filterKeys_set _ _ hsrc, h]
      · exact h
    · simp only [hshows]
      exact h

/-! ### Entries spread over sides -/

/-- An entry that takes no box shorthand is kept as it is. -/
lemma ownEntries_of_not_mem {key : String} (h : key ∉ boxKeys) (v : AttributeValue) :
    ownEntries key v = [(key, v)] := by
  have hcontains : boxKeys.contains key = false := by
    rw [List.contains_eq_mem, decide_eq_false_iff_not]
    exact h
  unfold ownEntries
  rw [hcontains]
  rfl

/-- A value without numbers for a box is kept as it is. -/
lemma ownEntries_of_boxNumbers?_eq_none {v : AttributeValue} (h : boxNumbers? v = none)
    (key : String) : ownEntries key v = [(key, v)] := by
  unfold ownEntries
  rw [h, Option.bind_none, ite_self]

/-- A number is spread over all sides of a box. -/
lemma ownEntries_number {key : String} (hkey : key ∈ boxKeys) (x : Binary64) :
    ownEntries key (.number x) =
      (Sides.entries key ⟨x, x, x, x⟩).map fun (k, x) => (k, .number x) := by
  unfold ownEntries
  rw [List.contains_iff_mem.mpr hkey]
  rfl

/-- An entry is kept as it is, or brings numbers under keys of sides. -/
lemma ownEntries_cases (key : String) (v : AttributeValue) :
    ownEntries key v = [(key, v)] ∨
      key ∈ boxKeys ∧ ∀ e ∈ ownEntries key v, e.1 ∈ sideKeys ∧ ∃ x, e.2 = .number x := by
  by_cases hkey : key ∈ boxKeys
  · unfold ownEntries
    rw [List.contains_iff_mem.mpr hkey, if_pos rfl]
    cases (boxNumbers? v).bind Sides.ofList? with
    | none => exact .inl rfl
    | some sides =>
      refine .inr ⟨hkey, fun e he => ?_⟩
      obtain ⟨⟨k, x⟩, hentry, rfl⟩ := List.mem_map.mp he
      exact ⟨Sides.mem_sideKeys hkey (k, x) hentry, x, rfl⟩
  · exact .inl (ownEntries_of_not_mem hkey v)

/-- Entries that were spread are not spread again. -/
lemma ownEntries_of_mem {key : String} {v : AttributeValue} :
    ∀ e ∈ ownEntries key v, ownEntries e.1 e.2 = [e] := by
  intro e he
  rcases ownEntries_cases key v with hown | ⟨-, hsides⟩
  · rw [hown] at he
    obtain rfl := List.mem_singleton.mp he
    exact hown
  · exact ownEntries_of_not_mem (not_mem_boxKeys_of_sideKeys (hsides e he).1) _

/-- Under a key that takes no part in boxes, spread entries are as they were. -/
lemma filter_ownEntries {key : String} (hbox : key ∉ boxKeys) (hside : key ∉ sideKeys)
    (e : String × AttributeValue) :
    (ownEntries e.1 e.2).filter (fun e => e.1 == key) = [e].filter fun e => e.1 == key := by
  rcases ownEntries_cases e.1 e.2 with hown | ⟨hkey, hsides⟩
  · rw [hown]
  · have hnone : [e].filter (fun e => e.1 == key) = [] := by
      have hne : e.1 ≠ key := fun heq => hbox (heq ▸ hkey)
      rw [List.filter_singleton, beq_eq_false_iff_ne.mpr hne]
      rfl
    rw [hnone, List.filter_eq_nil_iff]
    intro a ha heq
    rw [beq_iff_eq] at heq
    exact hside (heq ▸ (hsides a ha).1)

/-! ### The layers below a node's own attributes -/

/-- Scopes that bring the same layers to a node, its own attributes aside. -/
structure Scope.Matches (scope other : Scope) : Prop where
  document : other.document = { scope.document with rows := other.document.rows }
  role : other.row.role = scope.row.role
  count : other.row.columns.length = scope.row.columns.length
  column : other.column = scope.column
  palette : other.palette = scope.palette
  mobile : other.mobile = scope.mobile

/-- The layers of a block below its own attributes. -/
def baseLayers (scope : Scope) (block : Block) : List Attributes :=
  [kindDefaults scope.document block] ++ onMobile scope.mobile (kindMobile block) ++
    [roleDefaults scope block.kind, variantDefaults scope block.kind,
      themeDefaults scope block.kind]

/-- The layers of a node's own attributes. -/
def ownLayers (mobile : Bool) (attributes : Attributes) : List Attributes :=
  ownLayer attributes :: onMobile mobile (overrideLayer attributes)

/-- A block has layers of its own on top of the others. -/
lemma blockLayers_eq (scope : Scope) (block : Block) :
    blockLayers scope block =
      baseLayers scope block ++ ownLayers scope.mobile block.attributes := by
  unfold blockLayers baseLayers ownLayers
  simp only [List.append_assoc, List.cons_append, List.nil_append]

/-- The layers of a row below its own attributes. -/
def rowBaseLayers (view : View) (d : Document) (palette : Option Palette) (row : Row) :
    List Attributes :=
  [rowBase d] ++ onMobile view.mobile rowMobile ++
    [rowRoleDefaults row, rowVariantDefaults d row, rowThemeDefaults palette row]

/-- A row has layers of its own on top of the others. -/
lemma rowLayers_eq (view : View) (d : Document) (palette : Option Palette) (row : Row) :
    rowLayers view d palette row =
      rowBaseLayers view d palette row ++ ownLayers view.mobile row.attributes := by
  unfold rowLayers rowBaseLayers ownLayers
  simp only [List.append_assoc, List.cons_append, List.nil_append]

/-- A container has layers of its own on top of what every container has. -/
lemma container_eq (view : View) (d : Document) (row : Row) :
    container view d row =
      finish containerKeys (containerBase d :: ownLayers view.mobile row.container) := rfl

/-- A column has layers of its own on top of what every column has. -/
lemma column_eq (view : View) (d : Document) (row : Row) (column : Column) :
    Cascade.column view d row column =
      finish columnKeys
        (columnBase ⟨d, row, row.columnIndex? column.id, none, view.mobile⟩ ::
          ownLayers view.mobile column.attributes) := rfl

/-- Scopes that agree on all that the layers below a block's own attributes read. -/
structure Scope.Agrees (scope other : Scope) : Prop where
  fontFamily : other.document.fontFamily = scope.document.fontFamily
  color : other.document.color = scope.document.color
  linkColor : other.document.linkColor = scope.document.linkColor
  variant : other.document.variant = scope.document.variant
  role : other.row.role = scope.row.role
  count : other.row.columns.length = scope.row.columns.length
  column : other.column = scope.column
  palette : other.palette = scope.palette
  mobile : other.mobile = scope.mobile

/-- Matching scopes agree, since documents that differ in their rows agree on all else. -/
lemma Scope.Matches.agrees {scope other : Scope} (h : scope.Matches other) :
    scope.Agrees other where
  fontFamily := by rw [h.document]
  color := by rw [h.document]
  linkColor := by rw [h.document]
  variant := by rw [h.document]
  role := h.role
  count := h.count
  column := h.column
  palette := h.palette
  mobile := h.mobile

/-- Scopes that agree on the row and the place of a column agree on whether it stands aside in a
header. -/
lemma isHeaderAside_congr {scope other : Scope} (hrole : other.row.role = scope.row.role)
    (hcount : other.row.columns.length = scope.row.columns.length)
    (hcolumn : other.column = scope.column) : other.isHeaderAside = scope.isHeaderAside := by
  unfold Scope.isHeaderAside
  rw [hrole, hcount, hcolumn]

/-- Documents of the same variant have the same variant in effect. -/
lemma effectiveVariant_congr {d other : Document} (h : other.variant = d.variant) :
    other.effectiveVariant = d.effectiveVariant := by
  unfold Document.effectiveVariant
  rw [h]

/-- In scopes that agree, blocks of the same kind and heading level bring the same layer with
them. -/
lemma Scope.Agrees.kindDefaults {scope other : Scope} (h : scope.Agrees other)
    {block block' : Block} (hkind : block'.kind = block.kind)
    (hlevel : headingLevel block' = headingLevel block) :
    kindDefaults other.document block' = kindDefaults scope.document block := by
  unfold Cascade.kindDefaults typography
  rw [hkind, hlevel, h.fontFamily, h.color, h.linkColor]

/-- In scopes that agree, blocks of the same kind and heading level have the same layers below their
own attributes. -/
lemma Scope.Agrees.baseLayers {scope other : Scope} (h : scope.Agrees other)
    {block block' : Block} (hkind : block'.kind = block.kind)
    (hlevel : headingLevel block' = headingLevel block) :
    baseLayers other block' = baseLayers scope block := by
  have hmobile : kindMobile block' = kindMobile block := by
    unfold kindMobile
    rw [hkind, hlevel]
  have hrole : roleDefaults other block'.kind = roleDefaults scope block.kind := by
    unfold roleDefaults
    rw [h.role, isHeaderAside_congr h.role h.count h.column, hkind]
  have hvariant : variantDefaults other block'.kind = variantDefaults scope block.kind := by
    unfold variantDefaults isFrameRow
    rw [effectiveVariant_congr h.variant, h.role, hkind]
  have htheme : themeDefaults other block'.kind = themeDefaults scope block.kind := by
    unfold themeDefaults
    rw [h.palette, h.role, hkind]
  unfold Cascade.baseLayers
  rw [h.kindDefaults hkind hlevel, hmobile, h.mobile, hrole, hvariant, htheme]

/-- In matching scopes, blocks of the same kind and heading level have the same layers below their
own attributes. -/
lemma baseLayers_eq_of_matches {scope other : Scope} (h : scope.Matches other)
    {block block' : Block} (hkind : block'.kind = block.kind)
    (hlevel : headingLevel block' = headingLevel block) :
    baseLayers other block' = baseLayers scope block :=
  h.agrees.baseLayers hkind hlevel

/-- Rows of the same role have the same layers below their own attributes, in documents that agree
on the variant and on the colours of backgrounds. -/
lemma rowBaseLayers_eq (view : View) {d other : Document}
    (hrows : other.rowBackgroundColor = d.rowBackgroundColor)
    (hbackground : other.backgroundColor = d.backgroundColor) (hvariant : other.variant = d.variant)
    (palette : Option Palette) {row row' : Row} (hrole : row'.role = row.role) :
    rowBaseLayers view other palette row' = rowBaseLayers view d palette row := by
  unfold rowBaseLayers rowBase rowRoleDefaults rowVariantDefaults rowThemeDefaults isFrameRow
  rw [hrows, hbackground, effectiveVariant_congr hvariant, hrole]

/-- Rows of the same role have the same layers below their own attributes, in documents that differ
in their rows. -/
lemma rowBaseLayers_congr (view : View) (d : Document) (rows : List Row)
    (palette : Option Palette) {row other : Row} (hrole : other.role = row.role) :
    rowBaseLayers view { d with rows } palette other = rowBaseLayers view d palette row :=
  rowBaseLayers_eq view rfl rfl rfl palette hrole

/-- Columns of rows that agree on the role, the number of columns, the place of the column and the
vertical alignment have the same layer below their own attributes. -/
lemma columnBase_congr {scope other : Scope} (hrole : other.row.role = scope.row.role)
    (hcount : other.row.columns.length = scope.row.columns.length)
    (hcolumn : other.column = scope.column)
    (halign : other.row.attributes.text? "verticalAlign" =
      scope.row.attributes.text? "verticalAlign") : columnBase other = columnBase scope := by
  unfold columnBase
  rw [isHeaderAside_congr hrole hcount hcolumn, halign]

end MailTemplate.Cascade
