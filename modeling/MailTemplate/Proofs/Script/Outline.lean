import MailTemplate.Proofs.Json.Reread
import MailTemplate.Proofs.Script.TagRoundTrip

/-!
# Scripts keep the outline of a document

The outline of a document is what is left of it without its texts and attributes: the ids, roles,
widths and kinds of its nodes, in order.  Whatever keys and values the attributes have, the script
compiles, and what it compiles to has the same outline.  Contents may be anything in the brace form;
between tags they must not hold the closing tag of their own block, since such a content ends its
block early.

Main results: scripts compile and keep the outline (`exists_compile_write_outline`), and a content
that holds a closing tag can open another block (`exists_outline_changed_by_tags`).
-/

namespace MailTemplate

/-! ### Outlines -/

/-- What is left of a column without its attributes and the texts of its blocks. -/
structure ColumnOutline where
  id : String
  units : ℕ
  /-- The id and the kind of each block. -/
  blocks : List (String × BlockKind)
  deriving DecidableEq

/-- What is left of a row without its attributes and the texts in it. -/
structure RowOutline where
  id : String
  /-- The name of the row's role. -/
  role : Option String
  columns : List ColumnOutline
  deriving DecidableEq

/-- The outline of a column. -/
def Column.outline (column : Column) : ColumnOutline where
  id := column.id
  units := column.units
  blocks := column.blocks.map fun block => (block.id, block.kind)

/-- The outline of a row. -/
def Row.outline (row : Row) : RowOutline where
  id := row.id
  role := row.role.map RowRole.name
  columns := row.columns.map Column.outline

/-- The outline of a document. -/
def Document.outline (d : Document) : List RowOutline := d.rows.map Row.outline

/-! ### Values that are read back -/

/-- Embedded JSON that can be read from its text, nested no deeper than the reader goes; any other
value can be read. -/
def AttributeValue.Readable : AttributeValue → Prop
  | .json v => v.Proper ∧ v.depth ≤ Json.maxDepth
  | _ => True

namespace Script

/-- An entry with a readable value is read back. -/
lemma exists_readEntries {e : String × AttributeValue} (h : e.2.Readable) :
    ∃ made, readEntries e = some made := by
  obtain ⟨key, v⟩ := e
  unfold readEntries
  cases v with
  | bool b => exact ⟨_, rfl⟩
  | number x => exact ⟨_, rfl⟩
  | text s =>
    unfold rawValue
    simp only
    split
    · exact ⟨_, rfl⟩
    · exact ⟨_, rfl⟩
  | json v =>
    obtain ⟨hproper, hdepth⟩ := h
    unfold rawValue
    simp only
    by_cases hcontainer : v.isContainer = true
    · obtain ⟨w, hw⟩ := Json.exists_reread hproper
      have hparse : Json.parse v.compact = .ok w :=
        eq_ok_of_toOption ((Json.parse_compact hproper hdepth).trans hw)
      rw [if_pos hcontainer, convert, hparse]
      exact ⟨_, rfl⟩
    · rw [if_neg hcontainer]
      exact ⟨_, rfl⟩

/-- An entry of a block with a readable value is read back. -/
lemma exists_readBlockEntries (kind : BlockKind) {e : String × AttributeValue}
    (h : e.2.Readable) : ∃ made, readBlockEntries kind e = some made := by
  unfold readBlockEntries
  split
  · exact ⟨_, rfl⟩
  · exact exists_readEntries h

end Script

/-- A bag is read back if each of the entries that are written is. -/
lemma Attributes.exists_gather {bag : Attributes} {p : String × AttributeValue → Bool}
    (read : String × AttributeValue → Option (List (String × AttributeValue)))
    (hread : ∀ e : String × AttributeValue, e.2.Readable → ∃ made, read e = some made)
    (h : ∀ v ∈ bag.values, v.Readable) :
    ∃ bag', Attributes.gather read (bag.entries.filter p) = some bag' := by
  have hall : ∀ e ∈ bag.entries.filter p, ∃ made, read e = some made ∧ () = () := by
    intro e he
    obtain ⟨made, hmade⟩ := hread e (h e.2 (List.mem_map_of_mem (List.mem_filter.mp he).1))
    exact ⟨made, hmade, rfl⟩
  obtain ⟨made, hmade, -⟩ := exists_mapM_keeping (g := fun _ => ()) hall
  exact ⟨.ofList made.flatten, by unfold gather; rw [hmade]; rfl⟩

/-! ### Documents read back -/

/-- A block with readable values is read back with its id and its kind. -/
lemma Block.exists_recompiled (form : Script.Form) {block : Block}
    (h : ∀ v ∈ block.attributes.values, v.Readable) :
    ∃ b, block.recompiled form = some b ∧ (b.id, b.kind) = (block.id, block.kind) := by
  obtain ⟨attributes, hattributes⟩ := Attributes.exists_gather
    (Script.readBlockEntries block.kind) (fun _ => Script.exists_readBlockEntries block.kind) h
  refine ⟨{ block with content := Script.keptContent form block.content, attributes }, ?_, rfl⟩
  unfold recompiled Attributes.plainEntries
  rw [hattributes]
  rfl

/-- A column with readable values is read back with its outline. -/
lemma Column.exists_recompiled (form : Script.Form) {column : Column}
    (h : ∀ v ∈ column.values, v.Readable) :
    ∃ c, column.recompiled form = some c ∧ c.outline = column.outline := by
  unfold values at h
  rw [List.forall_mem_append, List.forall_mem_flatMap] at h
  obtain ⟨hattributes, hblocks⟩ := h
  obtain ⟨attributes, hread⟩ := Attributes.exists_gather
    Script.readEntries (fun _ => Script.exists_readEntries) hattributes
  obtain ⟨blocks, hmapM, hkinds⟩ := exists_mapM_keeping (g := fun b : Block => (b.id, b.kind))
    fun block hblock => Block.exists_recompiled form (hblocks block hblock)
  refine ⟨{ column with attributes, blocks }, ?_, ?_⟩
  · unfold recompiled Attributes.plainEntries
    rw [hread, hmapM]
    rfl
  · unfold outline
    rw [hkinds]

/-- A row with readable values is read back with its outline. -/
lemma Row.exists_recompiled (form : Script.Form) {row : Row} (h : ∀ v ∈ row.values, v.Readable) :
    ∃ r, row.recompiled form = some r ∧ r.outline = row.outline := by
  unfold values at h
  rw [List.forall_mem_append, List.forall_mem_append, List.forall_mem_flatMap] at h
  obtain ⟨⟨hattributes, hcontainer⟩, hcolumns⟩ := h
  obtain ⟨attributes, hread⟩ := Attributes.exists_gather
    Script.readEntries (fun _ => Script.exists_readEntries) hattributes
  obtain ⟨container, hreopen⟩ := Attributes.exists_gather
    Script.readContainerEntries (fun _ he => Script.exists_readEntries he) hcontainer
  obtain ⟨columns, hmapM, houtlines⟩ := exists_mapM_keeping fun column hcolumn =>
    Column.exists_recompiled form (hcolumns column hcolumn)
  refine ⟨{ row with
    role := row.role.map fun r => RowRole.ofName r.name, attributes, container, columns }, ?_, ?_⟩
  · unfold recompiled Attributes.plainEntries Attributes.scriptEntries
    rw [hread, hreopen, hmapM]
    rfl
  · unfold outline
    rw [houtlines]
    cases row.role with
    | none => rfl
    | some r => simp only [Option.map_some, RowRole.name_ofName]

/-- A document with readable values is read back with its outline. -/
lemma Document.exists_recompiled (form : Script.Form) {d : Document}
    (h : ∀ v ∈ d.values, v.Readable) :
    ∃ d', d.recompiled form = some d' ∧ d'.outline = d.outline := by
  unfold values at h
  rw [List.forall_mem_flatMap] at h
  obtain ⟨rows, hmapM, houtlines⟩ := exists_mapM_keeping fun row hrow =>
    Row.exists_recompiled form (h row hrow)
  refine ⟨{ d with rows }, ?_, houtlines⟩
  unfold recompiled
  rw [hmapM]
  rfl

/-- The roles that rows are read back with are those that their names read as. -/
lemma Document.canonical_recompiled {form : Script.Form} {d d' : Document}
    (h : d.recompiled form = some d') : ∀ row ∈ d'.rows, ∀ r ∈ row.role, r.Canonical := by
  unfold recompiled at h
  obtain ⟨rows, hmapM, heq⟩ := Option.bind_eq_some_iff.mp h
  obtain rfl := Option.some.inj heq
  have hroles : rows.map Row.role =
      d.rows.map fun row => row.role.map fun r => RowRole.ofName r.name := by
    refine map_eq_of_mapM (fun row row' hrow => ?_) hmapM
    obtain ⟨attributes, -, hrest⟩ := Option.bind_eq_some_iff.mp hrow
    obtain ⟨container, -, hrest⟩ := Option.bind_eq_some_iff.mp hrest
    obtain ⟨columns, -, heq⟩ := Option.bind_eq_some_iff.mp hrest
    obtain rfl := Option.some.inj heq
    rfl
  intro row hrow r hr
  have hmem : row.role ∈ rows.map Row.role := List.mem_map_of_mem hrow
  rw [hroles] at hmem
  obtain ⟨source, -, hsource⟩ := List.mem_map.mp hmem
  rw [← hsource] at hr
  obtain ⟨r', -, rfl⟩ := Option.map_eq_some_iff.mp hr
  exact RowRole.canonical_ofName r'.name

namespace Script

/-! ### Compiled scripts -/

/-- The script of a document compiles to a document with the same outline, whose roles are those
that their names read as. -/
theorem exists_compile_write_outline {form : Form} {d : Document} (h : d.Shaped)
    (hvalues : ∀ v ∈ d.values, v.Readable) (hfits : ∀ block ∈ d.blocks, Fits form block) :
    ∃ d', compile (write form d) = .ok d' ∧ d'.outline = d.outline ∧
      ∀ row ∈ d'.rows, ∀ r ∈ row.role, r.Canonical := by
  obtain ⟨d', hrecompiled, houtline⟩ := Document.exists_recompiled form hvalues
  have hcompile := toOption_compile_write_shaped h hfits
  rw [hrecompiled] at hcompile
  exact ⟨d', eq_ok_of_toOption hcompile, houtline, Document.canonical_recompiled hrecompiled⟩

/-- A document with one column. -/
def columnDocument (blocks : List Block) : Document where
  id := "e"
  rows := [{ id := "r", columns := [{ id := "c", units := 12, blocks }] }]

/-- The only column fills the only row. -/
lemma shaped_columnDocument {blocks : List Block}
    (h : ("r" :: "c" :: blocks.map Block.id).Nodup) : (columnDocument blocks).Shaped := by
  have hids : (columnDocument blocks).ids = "r" :: "c" :: blocks.map Block.id := by
    simp [columnDocument, Document.ids, Row.ids, Column.ids]
  refine ⟨Nat.le_of_ble_eq_true rfl, Nat.le_of_ble_eq_true rfl, hids ▸ h, fun row hrow => ?_⟩
  obtain rfl := List.mem_singleton.mp hrow
  refine ⟨List.cons_ne_nil _ _, Nat.le_of_ble_eq_true rfl, fun column hcolumn => ?_, rfl⟩
  obtain rfl := List.mem_singleton.mp hcolumn
  exact ⟨Nat.le_of_ble_eq_true rfl, le_rfl⟩

/-- Values that no script holds as they are, and marks of the script language in a content, leave
the outline of a document as it is. -/
theorem exists_compile_write_outline_columnDocument :
    let d := columnDocument [{
      id := "b"
      kind := .text
      content := some "</COLUMN> \x7d ROW \x7b // <!-- </TEXT"
      attributes := {
        entries := [("a b", .text "x\"\x7d"), ("color", .number .nan), ("margin", .json (.int 4))]
        ordered := Keyed.ordered_iff_keys.mpr (by decide) } }]
    d.Shaped ∧ (∀ v ∈ d.values, v.Readable) ∧ (∀ block ∈ d.blocks, Fits .tag block) ∧
      ∃ d', compile (write .tag d) = .ok d' ∧ d'.outline = d.outline ∧
        ∀ row ∈ d'.rows, ∀ r ∈ row.role, r.Canonical := by
  intro d
  have hshaped : d.Shaped := shaped_columnDocument (by decide)
  have hword : Json.IsWord 4 := ⟨by decide, by decide⟩
  have hvalues : ∀ v ∈ d.values, v.Readable := by
    intro v hv
    have hmem : v ∈ [AttributeValue.text "x\"\x7d", .number .nan, .json (.int 4)] := hv
    simp only [List.mem_cons, List.not_mem_nil, or_false] at hmem
    rcases hmem with rfl | rfl | rfl
    · trivial
    · trivial
    · exact ⟨hword, Nat.zero_le _⟩
  have hfits : ∀ block ∈ d.blocks, Fits .tag block := by
    intro block hblock _ content hcontent
    obtain rfl := List.mem_singleton.mp hblock
    obtain rfl := Option.some.inj hcontent
    decide
  exact ⟨hshaped, hvalues, hfits, exists_compile_write_outline hshaped hvalues hfits⟩

/-- A content that holds the closing tag of its block and an opening tag makes a second block. -/
theorem exists_outline_changed_by_tags :
    ∃ d : Document, d.Shaped ∧ (∀ v ∈ d.values, v.Readable) ∧
      ¬∃ d', compile (write .tag d) = .ok d' ∧ d'.outline = d.outline := by
  let single := columnDocument
    [{ id := "b", kind := .text, content := some "a</TEXT>\n      <TEXT id=\"x\">b" }]
  let double := columnDocument
    [{ id := "b", kind := .text, content := some "a" },
     { id := "x", kind := .text, content := some "b" }]
  have hnone : ∀ v ∈ single.values, v.Readable := by
    intro v hv
    cases hv
  refine ⟨single, shaped_columnDocument (by decide), hnone, ?_⟩
  -- the script is also that of a document with two blocks, and compiles to these
  have hscript : write .tag single = write .tag double := congrArg String.ofList rfl
  obtain ⟨twin, htwin, houtline⟩ : ∃ d', double.recompiled .tag = some d' ∧
      d'.outline = double.outline := by
    refine Document.exists_recompiled .tag fun v hv => ?_
    cases hv
  have hfits : ∀ block ∈ double.blocks, Fits .tag block := by
    intro block hblock _ content hcontent
    rcases List.mem_pair.mp hblock with rfl | rfl
    · obtain rfl := Option.some.inj hcontent
      decide
    · obtain rfl := Option.some.inj hcontent
      decide
  have hcompile := toOption_compile_write_shaped (shaped_columnDocument (by decide)) hfits
  rintro ⟨d', hd', hsame⟩
  rw [← hscript, hd', htwin] at hcompile
  obtain rfl : d' = twin := Option.some.inj hcompile
  rw [hsame] at houtline
  revert houtline
  decide

end Script

end MailTemplate
