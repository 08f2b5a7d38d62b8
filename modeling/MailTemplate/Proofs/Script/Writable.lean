import MailTemplate.Proofs.Bags
import MailTemplate.Proofs.Json.Reread
import MailTemplate.Proofs.Script.WrittenValues

/-!
# Documents that a script can hold

A script leaves out attributes whose key it cannot write, spreads box shorthands over four sides,
and brings heading levels, widths and roles of rows into their usual forms.  A writable document is
one on which none of this changes anything.  There is no condition on the characters of names, ids,
contents and text values.

`reread` is the document with its numbers replaced by what their texts read as.

Main result: the reread document is the same exactly when every binary64 number in its embedded JSON
rereads as itself (`Document.exists_same_reread_iff`).
-/

namespace MailTemplate

/-! ### Values -/

/-- The values of a bag. -/
def Attributes.values (bag : Attributes) : List AttributeValue := bag.entries.map Prod.snd

/-- The attribute values in a column. -/
def Column.values (column : Column) : List AttributeValue :=
  column.attributes.values ++ column.blocks.flatMap fun block => block.attributes.values

/-- The attribute values in a row. -/
def Row.values (row : Row) : List AttributeValue :=
  row.attributes.values ++ row.container.values ++ row.columns.flatMap Column.values

/-- The attribute values in a document. -/
def Document.values (d : Document) : List AttributeValue := d.rows.flatMap Row.values

/-! ### Writable documents -/

/-- Every entry has a key of the given kind, and a value that a script can hold and that is not
spread over four sides. -/
def Attributes.Writable (key : String → Prop) (bag : Attributes) : Prop :=
  ∀ e ∈ bag.entries, key e.1 ∧ e.2.Writable ∧
    (e.2.json? = none → Script.boxSides? e.1 e.2.css = none)

/-- A key that a script can hold, that is not reserved, and that is not one of the container. -/
def IsPlainKey (reserved : List String) (key : String) : Prop :=
  Script.isScriptKey key.toList = true ∧ key ∉ reserved ∧
    Text.startsWith "container".toList key.toList = false

instance (reserved : List String) (key : String) : Decidable (IsPlainKey reserved key) := by
  unfold IsPlainKey
  infer_instance

/-- The entries of a bag under plain keys. -/
def Attributes.plainEntries (bag : Attributes) (reserved : List String) :
    List (String × AttributeValue) :=
  bag.entries.filter fun e => decide (IsPlainKey reserved e.1)

/-- The entries of a bag under keys that a script can hold. -/
def Attributes.scriptEntries (bag : Attributes) : List (String × AttributeValue) :=
  bag.entries.filter fun e => Script.isScriptKey e.1.toList

/-- Plain entries have plain keys. -/
lemma Attributes.isPlainKey_of_mem_plainEntries (bag : Attributes) {reserved : List String}
    {e : String × AttributeValue} (he : e ∈ bag.plainEntries reserved) :
    IsPlainKey reserved e.1 :=
  of_decide_eq_true (List.mem_filter.mp he).2

/-- Entries that a script can hold have keys that it can hold. -/
lemma Attributes.isScriptKey_of_mem_scriptEntries (bag : Attributes)
    {e : String × AttributeValue} (he : e ∈ bag.scriptEntries) :
    Script.isScriptKey e.1.toList = true :=
  (List.mem_filter.mp he).2

/-- A key that a script can hold and that does not start with a capital. -/
def IsContainerKey (key : String) : Prop :=
  Script.isScriptKey key.toList = true ∧ ∀ c ∈ key.toList.head?, c.isUpper = false

/-- The levels that headings have. -/
def headingLevels : List String := ["h1", "h2", "h3", "h4", "h5"]

/-- A block that a script can hold. -/
structure Block.Writable (block : Block) : Prop where
  attributes : block.attributes.Writable (IsPlainKey ["id", "content"])
  level : block.kind = .heading → ∀ v, block.attributes.get? "level" = some v →
    ∃ s ∈ headingLevels, v = .text s

/-- A column that a script can hold. -/
structure Column.Writable (column : Column) : Prop where
  pos : 1 ≤ column.units
  le : column.units ≤ gridUnits
  attributes : column.attributes.Writable (IsPlainKey ["id", "width"])
  blocks : ∀ block ∈ column.blocks, block.Writable

/-- A row that a script can hold. -/
structure Row.Writable (row : Row) : Prop where
  role : ∀ r ∈ row.role, r.Canonical
  attributes : row.attributes.Writable (IsPlainKey ["id", "type"])
  container : row.container.Writable IsContainerKey
  nonempty : row.columns ≠ []
  count : row.columns.length ≤ gridUnits
  total : row.total = gridUnits
  columns : ∀ column ∈ row.columns, column.Writable

/-- A document that a script can hold. -/
structure Document.Writable (d : Document) : Prop where
  width_pos : 1 ≤ d.width
  width_lt : d.width < 2 ^ 32
  ids : d.ids.Nodup
  rows : ∀ row ∈ d.rows, row.Writable

/-- The blocks of a document are those in its rows. -/
lemma Document.mem_blocks (d : Document) {row : Row} (hrow : row ∈ d.rows) {column : Column}
    (hcolumn : column ∈ row.columns) {block : Block} (hblock : block ∈ column.blocks) :
    block ∈ d.blocks :=
  List.mem_flatMap.mpr ⟨column, List.mem_flatMap.mpr ⟨row, hrow, hcolumn⟩, hblock⟩

/-! ### Reread documents -/

/-- The entry with its value reread. -/
def rereadEntry (e : String × AttributeValue) : Option (String × AttributeValue) :=
  e.2.reread.map fun v => (e.1, v)

/-- The bag with its values reread; none if one is refused. -/
def Attributes.reread (bag : Attributes) : Option Attributes :=
  (bag.entries.mapM rereadEntry).map Attributes.ofList

/-- The block with its attributes reread. -/
def Block.reread (block : Block) : Option Block :=
  block.attributes.reread.map fun attributes => { block with attributes }

/-- The column with all attributes in it reread. -/
def Column.reread (column : Column) : Option Column := do
  let attributes ← column.attributes.reread
  let blocks ← column.blocks.mapM Block.reread
  return { column with attributes, blocks }

/-- The row with all attributes in it reread. -/
def Row.reread (row : Row) : Option Row := do
  let attributes ← row.attributes.reread
  let container ← row.container.reread
  let columns ← row.columns.mapM Column.reread
  return { row with attributes, container, columns }

/-- The document with all attributes in it reread. -/
def Document.reread (d : Document) : Option Document := do
  let rows ← d.rows.mapM Row.reread
  return { d with rows }

/-! ### Numbers in embedded JSON -/

/-- The binary64 numbers in a value, if it is embedded JSON. -/
def AttributeValue.jsonFloats : AttributeValue → List Binary64
  | .json v => v.floats
  | _ => []

/-- The binary64 numbers in the embedded JSON of a bag. -/
def Attributes.jsonFloats (bag : Attributes) : List Binary64 :=
  bag.entries.flatMap fun e => e.2.jsonFloats

/-- The binary64 numbers in the embedded JSON of a column. -/
def Column.jsonFloats (column : Column) : List Binary64 :=
  column.attributes.jsonFloats ++ column.blocks.flatMap fun block => block.attributes.jsonFloats

/-- The binary64 numbers in the embedded JSON of a row. -/
def Row.jsonFloats (row : Row) : List Binary64 :=
  row.attributes.jsonFloats ++ row.container.jsonFloats ++ row.columns.flatMap Column.jsonFloats

/-- The binary64 numbers in the embedded JSON of a document. -/
def Document.jsonFloats (d : Document) : List Binary64 := d.rows.flatMap Row.jsonFloats

/-! ### Equality with the reread document -/

/-- Reread members are the same, one by one, exactly when each of them is. -/
lemma exists_sameList_iff {α : Type} {f : α → Option α} {same : α → α → Bool} {p : α → Prop}
    {items : List α} (h : ∀ a ∈ items, (∃ b, f a = some b ∧ same a b = true) ↔ p a) :
    (∃ bs, items.mapM f = some bs ∧ sameList same items bs = true) ↔ ∀ a ∈ items, p a := by
  induction items with
  | nil => simp [sameList]
  | cons a items ih =>
    have hfirst := h a List.mem_cons_self
    have hmore := ih fun b hb => h b (List.mem_cons_of_mem a hb)
    rw [List.forall_mem_cons, ← hfirst, ← hmore, List.mapM_cons]
    constructor
    · rintro ⟨bs, hbs, hsame⟩
      obtain ⟨b, hb, hrest⟩ := Option.bind_eq_some_iff.mp hbs
      obtain ⟨bs', hbs', heq⟩ := Option.bind_eq_some_iff.mp hrest
      obtain rfl := Option.some.inj heq
      rw [sameList, Bool.and_eq_true] at hsame
      exact ⟨⟨b, hb, hsame.1⟩, bs', hbs', hsame.2⟩
    · rintro ⟨⟨b, hb, hsame⟩, bs, hbs, hsames⟩
      refine ⟨b :: bs, by rw [hb, hbs]; rfl, ?_⟩
      rw [sameList, Bool.and_eq_true]
      exact ⟨hsame, hsames⟩

/-- A value that a script can hold is reread as some value. -/
lemma AttributeValue.Writable.exists_reread {v : AttributeValue} (hv : v.Writable) :
    ∃ w, v.reread = some w := by
  cases v with
  | bool b => exact ⟨_, rfl⟩
  | text s => exact ⟨_, rfl⟩
  | number x =>
    obtain ⟨y, hread, -, -⟩ := Binary64.read?_numberText hv
    exact ⟨.number y, by rw [AttributeValue.reread, hread]; rfl⟩
  | json v =>
    obtain ⟨w, hw⟩ := Json.exists_reread hv.2.2
    exact ⟨.json w, by rw [AttributeValue.reread, hw]; rfl⟩

/-- A value that a script can hold rereads as the same value exactly when the binary64 numbers in
its embedded JSON do. -/
lemma AttributeValue.exists_same_reread_iff {v : AttributeValue} (hv : v.Writable) :
    (∃ w, v.reread = some w ∧ v.same w = true) ↔ ∀ x ∈ v.jsonFloats, Json.Rereads x := by
  cases v with
  | bool b => simp [reread, same, jsonFloats]
  | text s => simp [reread, same, jsonFloats]
  | number x =>
    obtain ⟨y, hread, -, hsame⟩ := Binary64.read?_numberText hv
    simp [reread, hread, same, hsame, jsonFloats]
  | json v =>
    rw [jsonFloats, ← Json.exists_same_reread_iff v]
    constructor
    · rintro ⟨w, hw, hsame⟩
      obtain ⟨u, hu, rfl⟩ := Option.map_eq_some_iff.mp hw
      exact ⟨u, hu, hsame⟩
    · rintro ⟨u, hu, hsame⟩
      exact ⟨.json u, by rw [reread, hu]; rfl, hsame⟩

/-- Rereading keeps the keys of entries. -/
lemma keys_mapM_rereadEntry {entries es : List (String × AttributeValue)}
    (h : entries.mapM rereadEntry = some es) : es.map Prod.fst = entries.map Prod.fst := by
  refine map_eq_of_mapM (fun e e' he => ?_) h
  obtain ⟨v, -, rfl⟩ := Option.map_eq_some_iff.mp he
  rfl

/-- A bag of writable values rereads as the same bag exactly when the binary64 numbers in its
embedded JSON do. -/
lemma Attributes.exists_same_reread_iff {bag : Attributes} (h : ∀ v ∈ bag.values, v.Writable) :
    (∃ b, bag.reread = some b ∧ bag.same b = true) ↔ ∀ x ∈ bag.jsonFloats, Json.Rereads x := by
  -- the reread entries are in order as they are, so the bag of them holds just these
  have hentries : (∃ b, bag.reread = some b ∧ bag.same b = true) ↔
      ∃ es, bag.entries.mapM rereadEntry = some es ∧ same.go bag.entries es = true := by
    unfold reread same
    constructor
    · rintro ⟨b, hb, hsame⟩
      obtain ⟨es, hes, rfl⟩ := Option.map_eq_some_iff.mp hb
      have hordered := bag.ordered.of_keys_eq (keys_mapM_rereadEntry hes)
      rw [Attributes.entries_ofList hordered] at hsame
      exact ⟨es, hes, hsame⟩
    · rintro ⟨es, hes, hsame⟩
      have hordered := bag.ordered.of_keys_eq (keys_mapM_rereadEntry hes)
      refine ⟨Attributes.ofList es, by rw [hes]; rfl, ?_⟩
      rwa [Attributes.entries_ofList hordered]
  rw [hentries, Attributes.jsonFloats]
  have hvalues : ∀ e ∈ bag.entries, e.2.Writable := List.forall_mem_map.mp h
  generalize bag.entries = entries at hvalues
  induction entries with
  | nil => simp [same.go]
  | cons e entries ih =>
    have hfirst := AttributeValue.exists_same_reread_iff (hvalues e List.mem_cons_self)
    have hmore : (∃ es, entries.mapM rereadEntry = some es ∧ same.go entries es = true) ↔
        ∀ x ∈ entries.flatMap fun e => e.2.jsonFloats, Json.Rereads x :=
      ih fun a ha => hvalues a (List.mem_cons_of_mem e ha)
    rw [List.flatMap_cons, List.forall_mem_append, ← hfirst, ← hmore, List.mapM_cons]
    constructor
    · rintro ⟨es, hes, hsame⟩
      obtain ⟨a, ha, hrest⟩ := Option.bind_eq_some_iff.mp hes
      obtain ⟨as, has, heq⟩ := Option.bind_eq_some_iff.mp hrest
      obtain rfl := Option.some.inj heq
      obtain ⟨w, hw, rfl⟩ := Option.map_eq_some_iff.mp ha
      simp only [same.go, Bool.and_eq_true] at hsame
      exact ⟨⟨w, hw, hsame.1.2⟩, as, has, hsame.2⟩
    · rintro ⟨⟨w, hw, hsame⟩, as, has, hsames⟩
      refine ⟨(e.1, w) :: as, by rw [rereadEntry, hw, has]; rfl, ?_⟩
      simp only [same.go, Bool.and_eq_true]
      exact ⟨⟨beq_self_eq_true e.1, hsame⟩, hsames⟩

/-- A block of writable values rereads as the same block exactly when its bag does. -/
lemma Block.exists_same_reread_iff {block : Block}
    (h : ∀ v ∈ block.attributes.values, v.Writable) :
    (∃ b, block.reread = some b ∧ block.same b = true) ↔
      ∀ x ∈ block.attributes.jsonFloats, Json.Rereads x := by
  rw [← Attributes.exists_same_reread_iff h]
  constructor
  · rintro ⟨b, hb, hsame⟩
    obtain ⟨attributes, hattributes, rfl⟩ := Option.map_eq_some_iff.mp hb
    simp only [same, Bool.and_eq_true] at hsame
    exact ⟨attributes, hattributes, hsame.2⟩
  · rintro ⟨attributes, hattributes, hsame⟩
    refine ⟨{ block with attributes }, by rw [reread, hattributes]; rfl, ?_⟩
    simp [same, hsame]

/-- A column of writable values rereads as the same column exactly when the binary64 numbers in its
embedded JSON do. -/
lemma Column.exists_same_reread_iff {column : Column} (h : ∀ v ∈ column.values, v.Writable) :
    (∃ c, column.reread = some c ∧ column.same c = true) ↔
      ∀ x ∈ column.jsonFloats, Json.Rereads x := by
  rw [values, List.forall_mem_append, List.forall_mem_flatMap] at h
  have hblocks := exists_sameList_iff fun block hblock =>
    Block.exists_same_reread_iff (h.2 block hblock)
  rw [jsonFloats, List.forall_mem_append, List.forall_mem_flatMap, ← hblocks,
    ← Attributes.exists_same_reread_iff h.1]
  constructor
  · rintro ⟨c, hc, hsame⟩
    obtain ⟨attributes, hattributes, hrest⟩ := Option.bind_eq_some_iff.mp hc
    obtain ⟨blocks, hblocks, heq⟩ := Option.bind_eq_some_iff.mp hrest
    obtain rfl := Option.some.inj heq
    simp only [same, Bool.and_eq_true] at hsame
    exact ⟨⟨attributes, hattributes, hsame.1.2⟩, blocks, hblocks, hsame.2⟩
  · rintro ⟨⟨attributes, hattributes, hsame⟩, blocks, hblocks, hsames⟩
    refine ⟨{ column with attributes, blocks }, by rw [reread, hattributes, hblocks]; rfl, ?_⟩
    simp [same, hsame, hsames]

/-- A row of writable values rereads as the same row exactly when the binary64 numbers in its
embedded JSON do. -/
lemma Row.exists_same_reread_iff {row : Row} (h : ∀ v ∈ row.values, v.Writable) :
    (∃ r, row.reread = some r ∧ row.same r = true) ↔ ∀ x ∈ row.jsonFloats, Json.Rereads x := by
  rw [values, List.forall_mem_append, List.forall_mem_append, List.forall_mem_flatMap] at h
  have hcolumns := exists_sameList_iff fun column hcolumn =>
    Column.exists_same_reread_iff (h.2 column hcolumn)
  rw [jsonFloats, List.forall_mem_append, List.forall_mem_append, List.forall_mem_flatMap,
    ← hcolumns, ← Attributes.exists_same_reread_iff h.1.1,
    ← Attributes.exists_same_reread_iff h.1.2]
  constructor
  · rintro ⟨r, hr, hsame⟩
    obtain ⟨attributes, hattributes, hrest⟩ := Option.bind_eq_some_iff.mp hr
    obtain ⟨container, hcontainer, hrest⟩ := Option.bind_eq_some_iff.mp hrest
    obtain ⟨columns, hcolumns, heq⟩ := Option.bind_eq_some_iff.mp hrest
    obtain rfl := Option.some.inj heq
    simp only [same, Bool.and_eq_true] at hsame
    exact ⟨⟨⟨attributes, hattributes, hsame.1.1.2⟩, container, hcontainer, hsame.1.2⟩,
      columns, hcolumns, hsame.2⟩
  · rintro ⟨⟨⟨attributes, hattributes, hsame⟩, container, hcontainer, hsame'⟩,
      columns, hcolumns, hsames⟩
    refine ⟨{ row with attributes, container, columns },
      by rw [reread, hattributes, hcontainer, hcolumns]; rfl, ?_⟩
    simp [same, hsame, hsame', hsames]

/-- A document of writable values rereads as the same document exactly when the binary64 numbers in
its embedded JSON do. -/
theorem Document.exists_same_reread_iff_of_values {d : Document}
    (h : ∀ v ∈ d.values, v.Writable) :
    (∃ d', d.reread = some d' ∧ d.same d' = true) ↔ ∀ x ∈ d.jsonFloats, Json.Rereads x := by
  rw [values, List.forall_mem_flatMap] at h
  have hrows := exists_sameList_iff fun row hrow => Row.exists_same_reread_iff (h row hrow)
  rw [jsonFloats, List.forall_mem_flatMap, ← hrows]
  constructor
  · rintro ⟨d', hd', hsame⟩
    obtain ⟨rows, hrows, heq⟩ := Option.bind_eq_some_iff.mp hd'
    obtain rfl := Option.some.inj heq
    simp only [same, Bool.and_eq_true] at hsame
    exact ⟨rows, hrows, hsame.2⟩
  · rintro ⟨rows, hrows, hsames⟩
    refine ⟨{ d with rows }, by rw [reread, hrows]; rfl, ?_⟩
    simp [same, hsames]

/-- The values of a writable bag are writable. -/
lemma Attributes.Writable.values {key : String → Prop} {bag : Attributes} (h : bag.Writable key) :
    ∀ v ∈ bag.values, v.Writable :=
  List.forall_mem_map.mpr fun e he => (h e he).2.1

/-- The values of a writable document are writable. -/
lemma Document.Writable.values {d : Document} (h : d.Writable) : ∀ v ∈ d.values, v.Writable := by
  rw [Document.values, List.forall_mem_flatMap]
  intro row hrow
  have hwritable := h.rows row hrow
  rw [Row.values, List.forall_mem_append, List.forall_mem_append, List.forall_mem_flatMap]
  refine ⟨⟨hwritable.attributes.values, hwritable.container.values⟩, fun column hcolumn => ?_⟩
  rw [Column.values, List.forall_mem_append, List.forall_mem_flatMap]
  exact ⟨(hwritable.columns column hcolumn).attributes.values, fun block hblock =>
    ((hwritable.columns column hcolumn).blocks block hblock).attributes.values⟩

/-- A writable document rereads as the same document exactly when the binary64 numbers in its
embedded JSON do. -/
theorem Document.exists_same_reread_iff {d : Document} (hd : d.Writable) :
    (∃ d', d.reread = some d' ∧ d.same d' = true) ↔ ∀ x ∈ d.jsonFloats, Json.Rereads x :=
  Document.exists_same_reread_iff_of_values hd.values

end MailTemplate
