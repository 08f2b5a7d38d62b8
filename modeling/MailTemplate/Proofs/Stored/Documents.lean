import MailTemplate.Proofs.Bags
import MailTemplate.Proofs.Json.RoundTrip
import MailTemplate.Proofs.Success
import MailTemplate.Document.Codec

/-!
# Documents read from their JSON forms

What a document has to be so that its JSON form holds it (`Document.Storable`): numbers are finite,
embedded JSON is null, an array or an object, roles of rows have the name that they are read from,
and widths are in the range of their type.  The fields of such a form, put in order as a reader of
texts does, give back the document (`Document.ofJson?_sorted`).
-/

namespace MailTemplate

-- powers are those of the core library, whatever else is imported
attribute [local instance (high)] instPowNat

/-! ### Values that a JSON form holds -/

/-- A number is finite; embedded JSON is proper, and null, an array or an object. -/
def AttributeValue.Storable : AttributeValue → Prop
  | .number x => x.isFinite = true
  | .json v => (v = .null ∨ v.isContainer = true) ∧ v.Proper
  | _ => True

/-- All values of a bag can be stored. -/
def Attributes.Storable (bag : Attributes) : Prop := ∀ e ∈ bag.entries, e.2.Storable

/-- A column whose width is in range, and whose values can be stored. -/
structure Column.Storable (column : Column) : Prop where
  units : column.units ≤ maxUnits
  attributes : column.attributes.Storable
  blocks : ∀ block ∈ column.blocks, block.attributes.Storable

/-- A row whose role is read from its name, and whose values and columns can be stored. -/
structure Row.Storable (row : Row) : Prop where
  role : ∀ role ∈ row.role, role.Canonical
  attributes : row.attributes.Storable
  container : row.container.Storable
  columns : ∀ column ∈ row.columns, column.Storable

/-- A document whose width is in range, and whose rows can be stored. -/
structure Document.Storable (d : Document) : Prop where
  width : d.width ≤ maxWidth
  rows : ∀ row ∈ d.rows, row.Storable

namespace AttributeValue

variable {value : AttributeValue}

lemma Storable.legible (h : value.Storable) : value.toJson.Legible := by
  cases value with
  | bool b => trivial
  | number x => exact h
  | text s => trivial
  | json v => exact h.2.legible

/-- A stored value is read as itself: no kind of value takes the JSON of another. -/
lemma ofJson_sorted (h : value.Storable) : ofJson value.toJson.sorted = value := by
  cases value with
  | bool b => rfl
  | number x => rfl
  | text s => rfl
  | json v =>
    obtain ⟨hkind, hproper⟩ := h
    rw [toJson, hproper.sorted_eq]
    cases v with
    | null => rfl
    | array items => rfl
    | object fields => rfl
    | bool b => simp [Json.isContainer] at hkind
    | int n => simp [Json.isContainer] at hkind
    | float x => simp [Json.isContainer] at hkind
    | text s => simp [Json.isContainer] at hkind

end AttributeValue

namespace Attributes

variable {bag : Attributes}

lemma Storable.legible (h : bag.Storable) : bag.toJson.Legible := by
  rw [toJson, Json.Legible, Json.legibleFields_iff]
  intro f hf
  obtain ⟨e, he, rfl⟩ := List.mem_map.mp hf
  exact (h e he).legible

/-- A stored bag is read as itself. -/
lemma ofJson?_sorted (h : bag.Storable) : ofJson? bag.toJson.sorted = some bag := by
  have hordered : Keyed.Ordered (bag.entries.map fun e => (e.1, e.2.toJson.sorted)) :=
    bag.ordered.mapValues fun _ value => value.toJson.sorted
  have hsorted : bag.toJson.sorted =
      .object (bag.entries.map fun e => (e.1, e.2.toJson.sorted)) := by
    rw [toJson, Json.sorted, Json.sortedFields_eq, List.map_map, Json.ofFields]
    exact congrArg Json.object (Keyed.ofList_of_ordered hordered)
  have hentries : ((bag.entries.map fun e => (e.1, e.2.toJson.sorted)).map
      fun f => (f.1, AttributeValue.ofJson f.2)) = bag.entries := by
    rw [List.map_map]
    conv_rhs => rw [← List.map_id bag.entries]
    refine List.map_congr_left fun e he => ?_
    exact Prod.ext rfl (AttributeValue.ofJson_sorted (h e he))
  rw [hsorted, ofJson?, hentries, ofList_entries]

end Attributes

/-! ### Records -/

/-- Under its key, an optional field is found if there is one. -/
@[simp] lemma lookup_optionalField {α : Type} (key k : String) (write : α → Json) (o : Option α) :
    (optionalField key write o).lookup k = if k = key then o.map write else none := by
  cases o with
  | none => simp [optionalField]
  | some a =>
    rw [optionalField, List.lookup_cons]
    by_cases hk : k = key
    · rw [beq_iff_eq.mpr hk, if_pos hk]
      rfl
    · rw [beq_eq_false_iff_ne.mpr hk, if_neg hk]
      rfl

/-- The list of stored nodes is read if each of them is. -/
lemma list?_sorted {α : Type} {read : Json → Option α} {write : α → Json} {items : List α}
    (h : ∀ a ∈ items, read (write a).sorted = some a) :
    Json.list? read (Json.array (items.map write)).sorted = some items := by
  rw [Json.sorted, Json.sortedItems_eq, Json.list?, List.map_map, mapM_eq_some_iff,
    List.forall₂_map_left_iff]
  exact List.forall₂_same.mpr h

/-- A required field of an object is read from its fields put in order. -/
lemma field?_sorted {α : Type} {fs : List (String × Json)} (hkeys : (fs.map Prod.fst).Nodup)
    {key : String} {v : Json} (hv : (key, v) ∈ fs) {read : Json → Option α} {a : α}
    (hread : read v.sorted = some a) : (Json.sorted (.object fs)).field? key read = some a := by
  rw [Json.field?, Json.get?_sorted hkeys, Keyed.lookup_of_mem hkeys hv]
  exact hread

/-- A field that may be missing is read where it is there. -/
lemma fieldOr?_sorted {α : Type} {fs : List (String × Json)} (hkeys : (fs.map Prod.fst).Nodup)
    {key : String} {v : Json} (hv : (key, v) ∈ fs) {read : Json → Option α} {a : α}
    (hread : read v.sorted = some a) (default : α) :
    (Json.sorted (.object fs)).fieldOr? key read default = some a := by
  rw [Json.fieldOr?, Json.get?_sorted hkeys, Keyed.lookup_of_mem hkeys hv]
  exact hread

/-- An optional field is read as the value written, or as none if it is missing. -/
lemma optional?_sorted {α : Type} {fs : List (String × Json)} (hkeys : (fs.map Prod.fst).Nodup)
    {key : String} {o : Option α} (write : α → Json) (hv : fs.lookup key = o.map write)
    {read : Json → Option α}
    (hread : ∀ a ∈ o, (write a).sorted ≠ .null ∧ read (write a).sorted = some a) :
    (Json.sorted (.object fs)).optional? key read = some o := by
  rw [Json.optional?, Json.get?_sorted hkeys, hv]
  cases o with
  | none => rfl
  | some a =>
    obtain ⟨hnull, hvalue⟩ := hread a rfl
    simp only [Option.map_some, hvalue]

/-- The fields of a block's JSON form. -/
def Block.jsonFields (block : Block) : List (String × Json) :=
  [("id", .text block.id), ("type", .text block.kind.name)] ++
    optionalField "content" .text block.content ++ [("attributes", block.attributes.toJson)]

/-- The fields of a column's JSON form. -/
def Column.jsonFields (column : Column) : List (String × Json) :=
  [("id", .text column.id), ("units", .int column.units),
   ("attributes", column.attributes.toJson), ("blocks", .array (column.blocks.map Block.toJson))]

/-- The fields of a row's JSON form. -/
def Row.jsonFields (row : Row) : List (String × Json) :=
  [("id", .text row.id)] ++ optionalField "type" (fun role => .text role.name) row.role ++
    [("attributes", row.attributes.toJson), ("container", row.container.toJson),
     ("columns", .array (row.columns.map Column.toJson))]

/-- The fields of a document's JSON form. -/
def Document.jsonFields (d : Document) : List (String × Json) :=
  [("id", .text d.id), ("name", .text d.name), ("previewText", .text d.previewText),
   ("fontFamily", .text d.fontFamily), ("width", .int d.width), ("color", .text d.color),
   ("backgroundColor", .text d.backgroundColor),
   ("rowBackgroundColor", .text d.rowBackgroundColor), ("linkColor", .text d.linkColor)] ++
    optionalField "styleVariant" (fun v => .text v.name) d.variant ++
    optionalField "theme" .text d.theme ++ [("rows", .array (d.rows.map Row.toJson))]

lemma Block.nodup_jsonFields (block : Block) : (block.jsonFields.map Prod.fst).Nodup := by
  cases hcontent : block.content <;> simp [jsonFields, optionalField, hcontent]

lemma Column.nodup_jsonFields (column : Column) : (column.jsonFields.map Prod.fst).Nodup := by
  simp [jsonFields]

lemma Row.nodup_jsonFields (row : Row) : (row.jsonFields.map Prod.fst).Nodup := by
  cases hrole : row.role <;> simp [jsonFields, optionalField, hrole]

lemma Document.nodup_jsonFields (d : Document) : (d.jsonFields.map Prod.fst).Nodup := by
  cases hvariant : d.variant <;> cases htheme : d.theme <;>
    simp [jsonFields, optionalField, hvariant, htheme]

/-- A number in range is read as itself. -/
lemma natUpTo?_int {limit n : ℕ} (h : n ≤ limit) : Json.natUpTo? limit (.int n) = some n := by
  rw [Json.natUpTo?, if_pos ⟨Int.natCast_nonneg n, Int.ofNat_le.mpr h⟩, Int.toNat_natCast]

/-! ### What is read -/

/-- A block is read from an object exactly when each of its parts is. -/
lemma Block.ofJson?_eq_some {fs : List (String × Json)} {block : Block} :
    ofJson? (.object fs) = some block ↔
      (Json.object fs).field? "id" Json.text? = some block.id ∧
      (Json.object fs).field? "type" BlockKind.ofJson? = some block.kind ∧
      (Json.object fs).optional? "content" Json.text? = some block.content ∧
      (Json.object fs).fieldOr? "attributes" Attributes.ofJson? {} = some block.attributes := by
  constructor
  · intro h
    obtain ⟨id, hid, h⟩ := Option.bind_eq_some_iff.mp h
    obtain ⟨kind, hkind, h⟩ := Option.bind_eq_some_iff.mp h
    obtain ⟨content, hcontent, h⟩ := Option.bind_eq_some_iff.mp h
    obtain ⟨attributes, hattributes, h⟩ := Option.bind_eq_some_iff.mp h
    obtain rfl := Option.some.inj h
    exact ⟨hid, hkind, hcontent, hattributes⟩
  · rintro ⟨hid, hkind, hcontent, hattributes⟩
    exact bind_eq_some_of rfl <| bind_eq_some_of hid <| bind_eq_some_of hkind <|
      bind_eq_some_of hcontent <| bind_eq_some_of hattributes rfl

/-- A column is read from an object exactly when each of its parts is. -/
lemma Column.ofJson?_eq_some {fs : List (String × Json)} {column : Column} :
    ofJson? (.object fs) = some column ↔
      (Json.object fs).field? "id" Json.text? = some column.id ∧
      (Json.object fs).field? "units" (Json.natUpTo? maxUnits) = some column.units ∧
      (Json.object fs).fieldOr? "attributes" Attributes.ofJson? {} = some column.attributes ∧
      (Json.object fs).field? "blocks" (Json.list? Block.ofJson?) = some column.blocks := by
  constructor
  · intro h
    obtain ⟨id, hid, h⟩ := Option.bind_eq_some_iff.mp h
    obtain ⟨units, hunits, h⟩ := Option.bind_eq_some_iff.mp h
    obtain ⟨attributes, hattributes, h⟩ := Option.bind_eq_some_iff.mp h
    obtain ⟨blocks, hblocks, h⟩ := Option.bind_eq_some_iff.mp h
    obtain rfl := Option.some.inj h
    exact ⟨hid, hunits, hattributes, hblocks⟩
  · rintro ⟨hid, hunits, hattributes, hblocks⟩
    exact bind_eq_some_of rfl <| bind_eq_some_of hid <| bind_eq_some_of hunits <|
      bind_eq_some_of hattributes <| bind_eq_some_of hblocks rfl

/-- A row is read from an object exactly when each of its parts is. -/
lemma Row.ofJson?_eq_some {fs : List (String × Json)} {row : Row} :
    ofJson? (.object fs) = some row ↔
      (Json.object fs).field? "id" Json.text? = some row.id ∧
      (Json.object fs).optional? "type" RowRole.ofJson? = some row.role ∧
      (Json.object fs).fieldOr? "attributes" Attributes.ofJson? {} = some row.attributes ∧
      (Json.object fs).fieldOr? "container" Attributes.ofJson? {} = some row.container ∧
      (Json.object fs).field? "columns" (Json.list? Column.ofJson?) = some row.columns := by
  constructor
  · intro h
    obtain ⟨id, hid, h⟩ := Option.bind_eq_some_iff.mp h
    obtain ⟨role, hrole, h⟩ := Option.bind_eq_some_iff.mp h
    obtain ⟨attributes, hattributes, h⟩ := Option.bind_eq_some_iff.mp h
    obtain ⟨container, hcontainer, h⟩ := Option.bind_eq_some_iff.mp h
    obtain ⟨columns, hcolumns, h⟩ := Option.bind_eq_some_iff.mp h
    obtain rfl := Option.some.inj h
    exact ⟨hid, hrole, hattributes, hcontainer, hcolumns⟩
  · rintro ⟨hid, hrole, hattributes, hcontainer, hcolumns⟩
    exact bind_eq_some_of rfl <| bind_eq_some_of hid <| bind_eq_some_of hrole <|
      bind_eq_some_of hattributes <| bind_eq_some_of hcontainer <| bind_eq_some_of hcolumns rfl

/-- The parts of a document that its JSON form has to hold are read from an object. -/
structure Document.Required (j : Json) (d : Document) : Prop where
  id : j.field? "id" Json.text? = some d.id
  name : j.field? "name" Json.text? = some d.name
  previewText : j.field? "previewText" Json.text? = some d.previewText
  fontFamily : j.field? "fontFamily" Json.text? = some d.fontFamily
  width : j.field? "width" (Json.natUpTo? maxWidth) = some d.width
  color : j.field? "color" Json.text? = some d.color
  backgroundColor : j.field? "backgroundColor" Json.text? = some d.backgroundColor
  rowBackgroundColor : j.field? "rowBackgroundColor" Json.text? = some d.rowBackgroundColor
  linkColor : j.field? "linkColor" Json.text? = some d.linkColor
  rows : j.field? "rows" (Json.list? Row.ofJson?) = some d.rows

/-- A document is read from an object exactly when each of its parts is. -/
lemma Document.ofJson?_eq_some {fs : List (String × Json)} {d : Document} :
    ofJson? (.object fs) = some d ↔
      d.Required (.object fs) ∧
      (Json.object fs).optional? "styleVariant" StyleVariant.ofJson? = some d.variant ∧
      (Json.object fs).optional? "theme" Json.text? = some d.theme := by
  constructor
  · intro h
    obtain ⟨id, hid, h⟩ := Option.bind_eq_some_iff.mp h
    obtain ⟨name, hname, h⟩ := Option.bind_eq_some_iff.mp h
    obtain ⟨previewText, hpreview, h⟩ := Option.bind_eq_some_iff.mp h
    obtain ⟨fontFamily, hfont, h⟩ := Option.bind_eq_some_iff.mp h
    obtain ⟨width, hwidth, h⟩ := Option.bind_eq_some_iff.mp h
    obtain ⟨color, hcolor, h⟩ := Option.bind_eq_some_iff.mp h
    obtain ⟨background, hbackground, h⟩ := Option.bind_eq_some_iff.mp h
    obtain ⟨rowBackground, hrowBackground, h⟩ := Option.bind_eq_some_iff.mp h
    obtain ⟨linkColor, hlink, h⟩ := Option.bind_eq_some_iff.mp h
    obtain ⟨variant, hvariant, h⟩ := Option.bind_eq_some_iff.mp h
    obtain ⟨theme, htheme, h⟩ := Option.bind_eq_some_iff.mp h
    obtain ⟨rows, hrows, h⟩ := Option.bind_eq_some_iff.mp h
    obtain rfl := Option.some.inj h
    exact ⟨⟨hid, hname, hpreview, hfont, hwidth, hcolor, hbackground, hrowBackground, hlink,
      hrows⟩, hvariant, htheme⟩
  · rintro ⟨h, hvariant, htheme⟩
    exact bind_eq_some_of rfl <| bind_eq_some_of h.id <| bind_eq_some_of h.name <|
      bind_eq_some_of h.previewText <| bind_eq_some_of h.fontFamily <| bind_eq_some_of h.width <|
      bind_eq_some_of h.color <| bind_eq_some_of h.backgroundColor <|
      bind_eq_some_of h.rowBackgroundColor <| bind_eq_some_of h.linkColor <|
      bind_eq_some_of hvariant <| bind_eq_some_of htheme <| bind_eq_some_of h.rows rfl

/-! ### Absent fields -/

namespace Json

variable {α : Type} {fields others : List (String × Json)} {key : String}

/-- The second fields have what the first have, but under one key nothing or null. -/
structure Clears (key : String) (fields others : List (String × Json)) : Prop where
  other : ∀ k, k ≠ key → others.lookup k = fields.lookup k
  absent : others.lookup key = none ∨ others.lookup key = some .null

/-- A field that is missing or null is read as an absent value, and the rest as before. -/
def ReadsCleared (read : Json → Option α) (key : String) (clear : α → α) : Prop :=
  ∀ (fields others : List (String × Json)) (a : α), Clears key fields others →
    read (.object fields) = some a → read (.object others) = some (clear a)

/-- The cleared field is absent. -/
lemma Clears.optional? (h : Clears key fields others) (read : Json → Option α) :
    (Json.object others).optional? key read = some none := by
  rw [Json.optional?, get?]
  rcases h.absent with hnone | hnull
  · rw [hnone]
  · rw [hnull]

/-- Required fields are read as before. -/
lemma Clears.field? (h : Clears key fields others) {k : String} (hk : k ≠ key)
    (read : Json → Option α) :
    (Json.object others).field? k read = (Json.object fields).field? k read := by
  rw [Json.field?, Json.field?, get?, get?, h.other k hk]

/-- Fields with a default are read as before. -/
lemma Clears.fieldOr? (h : Clears key fields others) {k : String} (hk : k ≠ key)
    (read : Json → Option α) (default : α) :
    (Json.object others).fieldOr? k read default =
      (Json.object fields).fieldOr? k read default := by
  rw [Json.fieldOr?, Json.fieldOr?, get?, get?, h.other k hk]

/-- Other optional fields are read as before. -/
lemma Clears.optional?_other (h : Clears key fields others) {k : String} (hk : k ≠ key)
    (read : Json → Option α) :
    (Json.object others).optional? k read = (Json.object fields).optional? k read := by
  rw [Json.optional?, Json.optional?, get?, get?, h.other k hk]

end Json

/-- A block without content is read where there is no content. -/
theorem Block.readsCleared_content :
    Json.ReadsCleared ofJson? "content" fun block => { block with content := none } := by
  intro fields others block hclears h
  rw [ofJson?_eq_some] at h ⊢
  rw [hclears.field? (by decide), hclears.field? (by decide), hclears.fieldOr? (by decide)]
  exact ⟨h.1, h.2.1, hclears.optional? _, h.2.2.2⟩

/-- A row without a role is read where there is no type. -/
theorem Row.readsCleared_type :
    Json.ReadsCleared ofJson? "type" fun row => { row with role := none } := by
  intro fields others row hclears h
  rw [ofJson?_eq_some] at h ⊢
  rw [hclears.field? (by decide), hclears.fieldOr? (by decide), hclears.fieldOr? (by decide),
    hclears.field? (by decide)]
  exact ⟨h.1, hclears.optional? _, h.2.2⟩

/-- What a document has to have is read as before where one of its optional fields is cleared. -/
lemma Document.Required.clears {d : Document} {key : String}
    (hkey : key ∈ ["styleVariant", "theme"]) {fields others : List (String × Json)}
    (hclears : Json.Clears key fields others) (h : d.Required (.object fields))
    (variant : Option StyleVariant) (theme : Option String) :
    { d with variant, theme }.Required (.object others) := by
  have hne : ∀ k ∈ ["id", "name", "previewText", "fontFamily", "width", "color",
      "backgroundColor", "rowBackgroundColor", "linkColor", "rows"], k ≠ key := by
    have hall : ∀ k ∈ ["id", "name", "previewText", "fontFamily", "width", "color",
        "backgroundColor", "rowBackgroundColor", "linkColor", "rows"],
        ∀ key ∈ ["styleVariant", "theme"], k ≠ key := by decide
    exact fun k hk => hall k hk key hkey
  constructor
  · exact (hclears.field? (hne _ (by decide)) _).trans h.id
  · exact (hclears.field? (hne _ (by decide)) _).trans h.name
  · exact (hclears.field? (hne _ (by decide)) _).trans h.previewText
  · exact (hclears.field? (hne _ (by decide)) _).trans h.fontFamily
  · exact (hclears.field? (hne _ (by decide)) _).trans h.width
  · exact (hclears.field? (hne _ (by decide)) _).trans h.color
  · exact (hclears.field? (hne _ (by decide)) _).trans h.backgroundColor
  · exact (hclears.field? (hne _ (by decide)) _).trans h.rowBackgroundColor
  · exact (hclears.field? (hne _ (by decide)) _).trans h.linkColor
  · exact (hclears.field? (hne _ (by decide)) _).trans h.rows

/-- A document without a preset is read where there is no variant. -/
theorem Document.readsCleared_variant :
    Json.ReadsCleared ofJson? "styleVariant" fun d => { d with variant := none } := by
  intro fields others d hclears h
  rw [ofJson?_eq_some] at h ⊢
  obtain ⟨hrequired, -, htheme⟩ := h
  refine ⟨hrequired.clears (by decide) hclears none d.theme, hclears.optional? _, ?_⟩
  exact (hclears.optional?_other (by decide) _).trans htheme

/-- A document without a theme is read where there is no theme. -/
theorem Document.readsCleared_theme :
    Json.ReadsCleared ofJson? "theme" fun d => { d with theme := none } := by
  intro fields others d hclears h
  rw [ofJson?_eq_some] at h ⊢
  obtain ⟨hrequired, hvariant, -⟩ := h
  refine ⟨hrequired.clears (by decide) hclears d.variant none, ?_, hclears.optional? _⟩
  exact (hclears.optional?_other (by decide) _).trans hvariant

/-! ### Stored nodes -/

/-- A stored block is read as itself. -/
theorem Block.ofJson?_sorted {block : Block} (h : block.attributes.Storable) :
    ofJson? block.toJson.sorted = some block := by
  have hkeys := block.nodup_jsonFields
  refine ofJson?_eq_some.mpr ⟨?_, ?_, ?_, ?_⟩
  · exact field?_sorted hkeys (v := .text block.id) (by simp [jsonFields]) rfl
  · exact field?_sorted hkeys (v := .text block.kind.name) (by simp [jsonFields])
      (BlockKind.ofName?_name block.kind)
  · exact optional?_sorted hkeys .text
      (by simp [jsonFields, List.lookup_cons, List.lookup_append])
      fun _ _ => ⟨Json.noConfusion, rfl⟩
  · exact fieldOr?_sorted hkeys (by simp [jsonFields]) (Attributes.ofJson?_sorted h) {}

/-- A stored column is read as itself. -/
theorem Column.ofJson?_sorted {column : Column} (h : column.Storable) :
    ofJson? column.toJson.sorted = some column := by
  have hkeys := column.nodup_jsonFields
  have hblocks := list?_sorted fun block hblock => Block.ofJson?_sorted (h.blocks block hblock)
  refine ofJson?_eq_some.mpr ⟨?_, ?_, ?_, ?_⟩
  · exact field?_sorted hkeys (v := .text column.id) (by simp [jsonFields]) rfl
  · exact field?_sorted hkeys (v := .int column.units) (by simp [jsonFields]) (natUpTo?_int h.units)
  · exact fieldOr?_sorted hkeys (by simp [jsonFields]) (Attributes.ofJson?_sorted h.attributes) {}
  · exact field?_sorted hkeys (by simp [jsonFields]) hblocks

/-- A stored row is read as itself. -/
theorem Row.ofJson?_sorted {row : Row} (h : row.Storable) :
    ofJson? row.toJson.sorted = some row := by
  have hkeys := row.nodup_jsonFields
  have hcolumns := list?_sorted fun column hcolumn =>
    Column.ofJson?_sorted (h.columns column hcolumn)
  refine ofJson?_eq_some.mpr ⟨?_, ?_, ?_, ?_, ?_⟩
  · exact field?_sorted hkeys (v := .text row.id) (by simp [jsonFields]) rfl
  · exact optional?_sorted hkeys (fun role : RowRole => .text role.name)
      (by simp [jsonFields, List.lookup_cons, List.lookup_append])
      fun role hrole => ⟨Json.noConfusion, congrArg some (h.role role hrole)⟩
  · exact fieldOr?_sorted hkeys (by simp [jsonFields]) (Attributes.ofJson?_sorted h.attributes) {}
  · exact fieldOr?_sorted hkeys (by simp [jsonFields]) (Attributes.ofJson?_sorted h.container) {}
  · exact field?_sorted hkeys (by simp [jsonFields]) hcolumns

/-- A stored document is read as itself. -/
theorem Document.ofJson?_sorted {d : Document} (h : d.Storable) :
    ofJson? d.toJson.sorted = some d := by
  have hkeys := d.nodup_jsonFields
  have hrows := list?_sorted fun row hrow => Row.ofJson?_sorted (h.rows row hrow)
  -- the texts of a document are read alike, each under its key
  have htext : ∀ {key s : String}, (key, .text s) ∈ d.jsonFields →
      (Json.sorted (.object d.jsonFields)).field? key Json.text? = some s := by
    intro key s hs
    exact field?_sorted hkeys hs rfl
  have hrequired : d.Required (Json.sorted (.object d.jsonFields)) := by
    constructor
    case width =>
      exact field?_sorted hkeys (v := .int d.width) (by simp [jsonFields]) (natUpTo?_int h.width)
    case rows => exact field?_sorted hkeys (by simp [jsonFields]) hrows
    all_goals exact htext (by simp [jsonFields])
  refine ofJson?_eq_some.mpr ⟨hrequired, ?_, ?_⟩
  · exact optional?_sorted hkeys (fun variant : StyleVariant => .text variant.name)
      (by simp [jsonFields, List.lookup_cons, List.lookup_append])
      fun variant _ => ⟨Json.noConfusion, StyleVariant.ofName?_name variant⟩
  · exact optional?_sorted hkeys .text
      (by simp [jsonFields, List.lookup_cons, List.lookup_append])
      fun _ _ => ⟨Json.noConfusion, rfl⟩

/-! ### Texts of stored nodes -/

/-- The field of an optional value, if there is one, has what it has for every value. -/
lemma forall_mem_optionalField {α : Type} {p : String × Json → Prop} {key : String}
    {write : α → Json} {o : Option α} (h : ∀ a ∈ o, p (key, write a)) :
    ∀ f ∈ optionalField key write o, p f := by
  cases o with
  | none => exact List.forall_mem_nil _
  | some a => exact List.forall_mem_singleton.mpr (h a rfl)

namespace Json

lemma legible_array {α : Type} {write : α → Json} {items : List α}
    (h : ∀ a ∈ items, (write a).Legible) : (Json.array (items.map write)).Legible := by
  rw [Legible, legibleItems_iff]
  exact List.forall_mem_map.mpr h

lemma legible_object {fs : List (String × Json)} (h : ∀ f ∈ fs, f.2.Legible) :
    (Json.object fs).Legible :=
  legibleFields_iff.mpr h

/-- A number below the bound of a 64-bit integer. -/
lemma isWord_of_le {n limit : ℕ} (h : n ≤ limit) (hlimit : limit < 2 ^ 64) : IsWord n := by
  constructor
  · omega
  · omega

end Json

lemma Block.legible {block : Block} (h : block.attributes.Storable) : block.toJson.Legible := by
  apply Json.legible_object
  have hcontent : ∀ f ∈ optionalField "content" Json.text block.content, f.2.Legible :=
    forall_mem_optionalField fun _ _ => trivial
  simp only [List.forall_mem_append, List.forall_mem_cons]
  exact ⟨⟨⟨trivial, trivial, List.forall_mem_nil _⟩, hcontent⟩, h.legible, List.forall_mem_nil _⟩

lemma Column.Storable.legible {column : Column} (h : column.Storable) :
    column.toJson.Legible := by
  apply Json.legible_object
  have hunits : (Json.int column.units).Legible := Json.isWord_of_le h.units (by decide)
  have hblocks := Json.legible_array fun block hblock => Block.legible (h.blocks block hblock)
  simp only [List.forall_mem_cons]
  exact ⟨trivial, hunits, h.attributes.legible, hblocks, List.forall_mem_nil _⟩

lemma Row.Storable.legible {row : Row} (h : row.Storable) : row.toJson.Legible := by
  apply Json.legible_object
  have hrole : ∀ f ∈ optionalField "type" (fun role : RowRole => .text role.name) row.role,
      f.2.Legible :=
    forall_mem_optionalField fun _ _ => trivial
  have hcolumns := Json.legible_array fun column hcolumn => (h.columns column hcolumn).legible
  simp only [List.forall_mem_append, List.forall_mem_cons]
  exact ⟨⟨⟨trivial, List.forall_mem_nil _⟩, hrole⟩, h.attributes.legible, h.container.legible,
    hcolumns, List.forall_mem_nil _⟩

/-- The JSON form of a stored document has a text that can be read. -/
lemma Document.Storable.legible {d : Document} (h : d.Storable) : d.toJson.Legible := by
  apply Json.legible_object
  have hwidth : (Json.int d.width).Legible := Json.isWord_of_le h.width (by decide)
  have hvariant : ∀ f ∈ optionalField "styleVariant"
      (fun variant : StyleVariant => .text variant.name) d.variant, f.2.Legible :=
    forall_mem_optionalField fun _ _ => trivial
  have htheme : ∀ f ∈ optionalField "theme" Json.text d.theme, f.2.Legible :=
    forall_mem_optionalField fun _ _ => trivial
  have hrows := Json.legible_array fun row hrow => (h.rows row hrow).legible
  simp only [List.forall_mem_append, List.forall_mem_cons]
  exact ⟨⟨⟨⟨trivial, trivial, trivial, trivial, hwidth, trivial, trivial, trivial, trivial,
    List.forall_mem_nil _⟩, hvariant⟩, htheme⟩, hrows, List.forall_mem_nil _⟩

namespace Json

/-- The numbers of a value are read exactly from their texts, and it is nested no deeper than
can be read. -/
structure ReadExactly (v : Json) : Prop where
  numbers : ∀ x ∈ v.floats, rereadFloat x = some x
  depth : v.depth ≤ maxDepth

end Json

/-- A stored document is read back from both texts of its JSON form. -/
theorem Document.ofText?_written {d : Document} (h : d.Storable) (hexact : d.toJson.ReadExactly) :
    ∀ text ∈ [d.toJson.compact, d.toJson.indented], ofText? text = some d := by
  intro text htext
  have hparse := Json.parse_written h.legible hexact.numbers hexact.depth text htext
  rw [ofText?, hparse]
  exact ofJson?_sorted h

end MailTemplate
