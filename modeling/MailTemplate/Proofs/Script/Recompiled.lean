import MailTemplate.Proofs.Script.WrittenAttributes

/-!
# What a written document is read back as

A script leaves out the entries whose keys it cannot hold, and each entry that it holds makes the
entries that its value is read back as under its key: one, or the four sides of a box shorthand.
Roles of rows are read back from their names, heading levels in their usual form, and content that
stands between tags without the blanks at its ends.

Main result: a writable document is read back with nothing changed but its numbers, which are
reread (`Document.recompiled_eq_reread`).
-/

namespace MailTemplate

namespace Script

/-- The entries that a written entry makes when it is read back. -/
def readEntries (e : String × AttributeValue) : Option (List (String × AttributeValue)) :=
  (convert e.1 (rawValue e.2)).toOption

/-- The entries that a written entry of a block makes: the level of a heading is brought into its
usual form. -/
def readBlockEntries (kind : BlockKind) (e : String × AttributeValue) :
    Option (List (String × AttributeValue)) :=
  if e.1 = "level" ∧ kind = .heading then some [("level", .text (headingLevel e.2.css))]
  else readEntries e

/-- The entries that a written entry of a container makes. -/
def readContainerEntries (e : String × AttributeValue) : Option (List (String × AttributeValue)) :=
  readEntries (reopenedKey e.1, e.2)

/-- The content that a block has after it was written in a form. -/
def keptContent (form : Form) (content : Option String) : Option String :=
  match form with
  | .brace => content
  | .tag => do
    let text := String.ofList (Text.trim (← content).toList)
    if text = "" then none else some text

end Script

/-! ### Documents read back -/

/-- The bag of all that is made of some entries, one after the other; none if one is refused. -/
def Attributes.gather (read : String × AttributeValue → Option (List (String × AttributeValue)))
    (entries : List (String × AttributeValue)) : Option Attributes :=
  (entries.mapM read).map fun made => .ofList made.flatten

/-- The block that a written block is read back as. -/
def Block.recompiled (form : Script.Form) (block : Block) : Option Block := do
  let attributes ← Attributes.gather (Script.readBlockEntries block.kind)
    (block.attributes.plainEntries ["id", "content"])
  return { block with content := Script.keptContent form block.content, attributes }

/-- The column that a written column is read back as. -/
def Column.recompiled (form : Script.Form) (column : Column) : Option Column := do
  let attributes ← Attributes.gather Script.readEntries
    (column.attributes.plainEntries ["id", "width"])
  let blocks ← column.blocks.mapM (Block.recompiled form)
  return { column with attributes, blocks }

/-- The row that a written row is read back as. -/
def Row.recompiled (form : Script.Form) (row : Row) : Option Row := do
  let attributes ← Attributes.gather Script.readEntries (row.attributes.plainEntries ["id", "type"])
  let container ← Attributes.gather Script.readContainerEntries row.container.scriptEntries
  let columns ← row.columns.mapM (Column.recompiled form)
  return { row with
    role := row.role.map fun r => RowRole.ofName r.name, attributes, container, columns }

/-- The document that a written document is read back as. -/
def Document.recompiled (form : Script.Form) (d : Document) : Option Document := do
  let rows ← d.rows.mapM (Row.recompiled form)
  return { d with rows }

/-! ### Shapes -/

/-- A row with one to twelve columns that fill the grid. -/
structure Row.Shaped (row : Row) : Prop where
  nonempty : row.columns ≠ []
  count : row.columns.length ≤ gridUnits
  units : ∀ column ∈ row.columns, 1 ≤ column.units ∧ column.units ≤ gridUnits
  total : row.total = gridUnits

/-- A document with a width, distinct ids, and rows that fill the grid. -/
structure Document.Shaped (d : Document) : Prop where
  width_pos : 1 ≤ d.width
  width_lt : d.width < 2 ^ 32
  ids : d.ids.Nodup
  rows : ∀ row ∈ d.rows, row.Shaped

/-- A writable row fills the grid. -/
lemma Row.Writable.shaped {row : Row} (h : row.Writable) : row.Shaped where
  nonempty := h.nonempty
  count := h.count
  units := fun column hcolumn => ⟨(h.columns column hcolumn).pos, (h.columns column hcolumn).le⟩
  total := h.total

/-- The rows of a writable document fill the grid. -/
lemma Document.Writable.shaped {d : Document} (h : d.Writable) : d.Shaped where
  width_pos := h.width_pos
  width_lt := h.width_lt
  ids := h.ids
  rows := fun row hrow => (h.rows row hrow).shaped

/-! ### Writable documents -/

/-- The level of a heading that has one is kept. -/
lemma Script.headingLevel_of_mem {s : String} (hs : s ∈ headingLevels) : headingLevel s = s := by
  have hall : ∀ level ∈ headingLevels, headingLevel level = level := by decide
  exact hall s hs

/-- A value that a script can hold and that is no box shorthand makes one entry, the reread one. -/
lemma Script.readEntries_of_writable {e : String × AttributeValue} (hv : e.2.Writable)
    (hbox : e.2.json? = none → boxSides? e.1 e.2.css = none) :
    readEntries e = (rereadEntry e).map fun e' => [e'] := by
  unfold readEntries rereadEntry
  rw [convert_rawValue hv hbox, Option.map_map]
  rfl

/-- Entries that each make one entry make the reread bag. -/
lemma Attributes.gather_eq_reread {bag : Attributes}
    {read : String × AttributeValue → Option (List (String × AttributeValue))}
    (h : ∀ e ∈ bag.entries, read e = (rereadEntry e).map fun e' => [e']) :
    gather read bag.entries = bag.reread := by
  have hmade : (bag.entries.mapM read).map List.flatten = bag.entries.mapM rereadEntry := by
    have hflat : List.flatten ∘ List.map (fun e : String × AttributeValue => [e]) = id :=
      funext fun es => List.flatMap_singleton' es
    rw [mapM_congr h, mapM_map_eq, Option.map_map, hflat, Option.map_id_apply]
  unfold gather reread
  rw [← hmade, Option.map_map]
  rfl

/-- A bag with plain keys only is written in full. -/
lemma Attributes.Writable.plainEntries_eq {bag : Attributes} {reserved : List String}
    (h : bag.Writable (IsPlainKey reserved)) : bag.plainEntries reserved = bag.entries :=
  List.filter_eq_self.mpr fun e he => decide_eq_true (h e he).1

/-- A bag with keys of containers only is written in full. -/
lemma Attributes.Writable.scriptEntries_eq {bag : Attributes} (h : bag.Writable IsContainerKey) :
    bag.scriptEntries = bag.entries :=
  List.filter_eq_self.mpr fun e he => (h e he).1.1

/-- A writable bag is read back as the reread bag. -/
lemma Attributes.Writable.gather_plainEntries {bag : Attributes} {reserved : List String}
    (h : bag.Writable (IsPlainKey reserved)) :
    gather Script.readEntries (bag.plainEntries reserved) = bag.reread := by
  rw [h.plainEntries_eq]
  exact gather_eq_reread fun e he =>
    Script.readEntries_of_writable (h e he).2.1 (h e he).2.2

/-- A writable container is read back as the reread container. -/
lemma Attributes.Writable.gather_scriptEntries {bag : Attributes}
    (h : bag.Writable IsContainerKey) :
    gather Script.readContainerEntries bag.scriptEntries = bag.reread := by
  rw [h.scriptEntries_eq]
  refine gather_eq_reread fun e he => ?_
  unfold Script.readContainerEntries
  rw [Script.reopenedKey_of_isContainerKey (h e he).1]
  exact Script.readEntries_of_writable (h e he).2.1 (h e he).2.2

/-- A writable block is read back as the reread block, if its content is kept. -/
lemma Block.recompiled_eq_reread {form : Script.Form} {block : Block} (h : block.Writable)
    (hcontent : Script.keptContent form block.content = block.content) :
    block.recompiled form = block.reread := by
  have hread : ∀ e ∈ block.attributes.entries,
      Script.readBlockEntries block.kind e = (rereadEntry e).map fun e' => [e'] := by
    intro e he
    obtain ⟨key, v⟩ := e
    obtain ⟨-, hvalue, hbox⟩ := h.attributes (key, v) he
    unfold Script.readBlockEntries
    by_cases hlevel : key = "level" ∧ block.kind = .heading
    · obtain ⟨rfl, hkind⟩ := hlevel
      have hget : block.attributes.get? "level" = some v :=
        block.attributes.ordered.lookup_of_mem he
      obtain ⟨level, hmem, rfl⟩ := h.level hkind v hget
      rw [if_pos ⟨rfl, hkind⟩]
      change some [("level", AttributeValue.text (Script.headingLevel level))] = _
      rw [Script.headingLevel_of_mem hmem]
      rfl
    · rw [if_neg hlevel]
      exact Script.readEntries_of_writable hvalue hbox
  unfold recompiled reread
  rw [h.attributes.plainEntries_eq, Attributes.gather_eq_reread hread, hcontent]
  cases block.attributes.reread with
  | none => rfl
  | some attributes => rfl

/-- A writable column is read back as the reread column, if its contents are kept. -/
lemma Column.recompiled_eq_reread {form : Script.Form} {column : Column} (h : column.Writable)
    (hcontent : ∀ block ∈ column.blocks, Script.keptContent form block.content = block.content) :
    column.recompiled form = column.reread := by
  have hblocks : column.blocks.mapM (Block.recompiled form) = column.blocks.mapM Block.reread :=
    mapM_congr fun block hblock =>
      Block.recompiled_eq_reread (h.blocks block hblock) (hcontent block hblock)
  unfold recompiled reread
  rw [h.attributes.gather_plainEntries, hblocks]

/-- Canonical roles are read back from their names. -/
lemma RowRole.map_ofName_name {role : Option RowRole} (h : ∀ r ∈ role, r.Canonical) :
    (role.map fun r => RowRole.ofName r.name) = role := by
  cases role with
  | none => rfl
  | some r =>
    have hcanonical : RowRole.ofName r.name = r := h r rfl
    rw [Option.map_some, hcanonical]

/-- A writable row is read back as the reread row, if its contents are kept. -/
lemma Row.recompiled_eq_reread {form : Script.Form} {row : Row} (h : row.Writable)
    (hcontent : ∀ column ∈ row.columns, ∀ block ∈ column.blocks,
      Script.keptContent form block.content = block.content) :
    row.recompiled form = row.reread := by
  have hcolumns : row.columns.mapM (Column.recompiled form) = row.columns.mapM Column.reread :=
    mapM_congr fun column hcolumn =>
      Column.recompiled_eq_reread (h.columns column hcolumn) (hcontent column hcolumn)
  have hrole := RowRole.map_ofName_name h.role
  unfold recompiled reread
  rw [h.attributes.gather_plainEntries, h.container.gather_scriptEntries, hcolumns, hrole]

/-- A writable document is read back as the reread document, if its contents are kept. -/
theorem Document.recompiled_eq_reread {form : Script.Form} {d : Document} (h : d.Writable)
    (hcontent : ∀ block ∈ d.blocks, Script.keptContent form block.content = block.content) :
    d.recompiled form = d.reread := by
  have hrows : d.rows.mapM (Row.recompiled form) = d.rows.mapM Row.reread :=
    mapM_congr fun row hrow => Row.recompiled_eq_reread (h.rows row hrow)
      fun column hcolumn block hblock => hcontent block (d.mem_blocks hrow hcolumn hblock)
  unfold recompiled reread
  rw [hrows]

end MailTemplate
