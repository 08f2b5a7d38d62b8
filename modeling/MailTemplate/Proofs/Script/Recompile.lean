import MailTemplate.Proofs.Affixes
import MailTemplate.Proofs.Blanks
import MailTemplate.Proofs.Script.Compiled
import MailTemplate.Proofs.Script.ErasedPlaces
import MailTemplate.Proofs.Script.Recompiled
import MailTemplate.Proofs.Script.WrittenTree

/-!
# Compiling written nodes

The nodes of a written document compile to the parts that it is read back as: ids are taken as they
are, widths and roles are read back, and every bag is built up again from what its entries make.

Main results: the node of a block, of a column and of a row compiles to the block, column and row
that it is read back as (`toOption_compileBlock`, `toOption_compileColumn`,
`toOption_compileRow`).
-/

namespace MailTemplate

/-! ### Widths -/

namespace Text

/-- Digits are no blanks. -/
lemma isBlank_of_isDigit {c : Char} (hc : c.isDigit = true) : isBlank c = false := by
  obtain ⟨n, hn, rfl⟩ := exists_digitChar hc
  revert n
  decide

/-- The digits of a number are read as the number. -/
lemma wholeNumber?_toDigits {limit n : ℕ} (hn : n ≤ limit) :
    wholeNumber? limit (Nat.toDigits 10 n) = some n := by
  have hplus : '+' ∉ Nat.toDigits 10 n := fun hmem => by
    have hdigit := isDigit_of_mem_toDigits hmem
    revert hdigit
    decide
  have hdigits : (Nat.toDigits 10 n).all Char.isDigit = true :=
    List.all_eq_true.mpr fun c => isDigit_of_mem_toDigits
  have hne : (Nat.toDigits 10 n).isEmpty = false := by
    rw [List.isEmpty_eq_false_iff]
    exact Nat.toDigits_ne_nil
  unfold wholeNumber?
  simp only [dropHead?_of_not_mem hplus, Option.getD_none, hne, hdigits, digitsValue_toDigits]
  simp [hn]

/-- The digits of a number have no blanks around them. -/
lemma trim_toDigits (n : ℕ) : trim (Nat.toDigits 10 n) = Nat.toDigits 10 n :=
  trim_eq_self (fun _ hc => isBlank_of_isDigit (isDigit_of_mem_toDigits (List.mem_of_mem_head? hc)))
    fun _ hc => isBlank_of_isDigit (isDigit_of_mem_toDigits (List.mem_of_mem_getLast? hc))

end Text

namespace Script

/-- The digits of a column's width are read as the width. -/
lemma columnWidth?_toString {units : ℕ} (hpos : 1 ≤ units) (hle : units ≤ gridUnits) :
    columnWidth? (toString units) = some units := by
  have htext : (toString units).toList = Nat.toDigits 10 units := Nat.toList_repr
  have hpercent : Text.dropTail? ['%'] (Nat.toDigits 10 units) = none := by
    have hnot : '%' ∉ (Nat.toDigits 10 units).reverse := fun hmem => by
      have hdigit := Text.isDigit_of_mem_toDigits (List.mem_reverse.mp hmem)
      revert hdigit
      decide
    unfold Text.dropTail?
    rw [List.reverse_singleton, Text.dropHead?_of_not_mem hnot]
    rfl
  have hlimit : units ≤ 255 := hle.trans (by decide)
  unfold columnWidth?
  rw [htext, Text.trim_toDigits]
  simp only [hpercent, Text.wholeNumber?_toDigits hlimit]
  exact if_pos ⟨hpos, hle⟩

/-- The digits of a document's width are read as the width. -/
lemma documentWidth?_toString {width : ℕ} (hpos : 1 ≤ width) (hlt : width < 2 ^ 32) :
    documentWidth? (toString width) = some width := by
  have htext : (toString width).toList = Nat.toDigits 10 width := Nat.toList_repr
  have hunit : Text.dropTails ['p', 'x'] (Nat.toDigits 10 width) = Nat.toDigits 10 width := by
    refine Text.dropTails_of_not_mem ['p'] (c := 'x') fun hmem => ?_
    have hdigit := Text.isDigit_of_mem_toDigits hmem
    revert hdigit
    decide
  have hlimit : width ≤ 2 ^ 32 - 1 := Nat.le_pred_of_lt hlt
  unfold documentWidth?
  rw [htext, Text.trim_toDigits, hunit, Text.wholeNumber?_toDigits hlimit]
  exact if_pos hpos

/-! ### Attributes -/

/-- Attributes that each add what their entry makes add all of it, one after the other. -/
lemma toOption_foldlM_entries {β : Type} {f : β → Attribute → Except CompileFault β}
    {read : String × AttributeValue → Option (List (String × AttributeValue))}
    (put : List (String × AttributeValue) → β) (key : String → String)
    {entries : List (String × AttributeValue)}
    (h : ∀ e ∈ entries, ∀ es, (f (put es) (.ofRaw ⟨key e.1, rawValue e.2⟩)).toOption =
      (read e).map fun made => put (es ++ made)) (es : List (String × AttributeValue)) :
    (((entries.map fun e => (⟨key e.1, rawValue e.2⟩ : RawAttribute)).map Attribute.ofRaw).foldlM
      f (put es)).toOption = (entries.mapM read).map fun made => put (es ++ made.flatten) := by
  induction entries generalizing es with
  | nil =>
    rw [List.mapM_nil]
    change some (put es) = some (put (es ++ []))
    rw [List.append_nil]
  | cons e entries ih =>
    have hfirst := h e List.mem_cons_self es
    have hmore := ih fun a ha => h a (List.mem_cons_of_mem e ha)
    rw [List.map_cons, List.map_cons, List.foldlM_cons, List.mapM_cons, toOption_bind, hfirst]
    cases read e with
    | none => rfl
    | some made =>
      change ((List.map Attribute.ofRaw _).foldlM f (put (es ++ made))).toOption = _
      rw [hmore]
      cases entries.mapM read with
      | none => rfl
      | some more =>
        change some (put (es ++ made ++ more.flatten)) = some (put (es ++ (made :: more).flatten))
        rw [List.append_assoc, List.flatten_cons]

/-- Bags are set from what their entries make. -/
lemma toOption_entriesOf_bind {α : Type} (key written : String) (v : AttributeValue)
    (es : List (String × AttributeValue)) (put : Attributes → α) :
    (do
      let entries ← entriesOf key (.ofRaw ⟨written, rawValue v⟩)
      return put ((Attributes.ofList es).setAll entries)).toOption =
    (readEntries (key, v)).map fun made => put (.ofList (es ++ made)) := by
  rw [toOption_bind, toOption_entriesOf]
  change (convert key (rawValue v)).toOption.bind _ = (convert key (rawValue v)).toOption.map _
  cases (convert key (rawValue v)).toOption with
  | none => rfl
  | some made =>
    rw [Option.map_some, Attributes.ofList_append]
    rfl

/-! ### Nodes -/

/-- An attribute of a block adds what its entry makes. -/
lemma toOption_setBlockField (block : Block) {e : String × AttributeValue}
    (hplain : IsPlainKey ["id", "content"] e.1) (es : List (String × AttributeValue)) :
    (setBlockField { id := block.id, kind := block.kind, attributes := .ofList es }
        (.ofRaw ⟨e.1, rawValue e.2⟩)).toOption =
      (readBlockEntries block.kind e).map fun made =>
        { id := block.id, kind := block.kind, attributes := .ofList (es ++ made) } := by
  obtain ⟨-, hreserved, -⟩ := hplain
  obtain ⟨key, v⟩ := e
  have hid : key ≠ "id" := fun heq => hreserved (by simp [heq])
  have hcontent : key ≠ "content" := fun heq => hreserved (by simp [heq])
  change (setBlockField _ ⟨key, rawValue v, default⟩).toOption = _
  unfold setBlockField readBlockEntries
  simp only
  rw [if_neg hid, if_neg hcontent]
  by_cases hlevel : key = "level" ∧ block.kind = .heading
  · have hset := Attributes.ofList_append es [("level", .text (headingLevel v.css))]
    rw [if_pos hlevel, if_pos hlevel, text_rawValue]
    exact congrArg
      (fun attributes => some ({ id := block.id, kind := block.kind, attributes } : Block))
      hset.symm
  · rw [if_neg hlevel, if_neg hlevel]
    exact toOption_entriesOf_bind key key v es fun attributes =>
      ({ id := block.id, kind := block.kind, attributes } : Block)

/-- Content is set as written. -/
lemma setBlockField_content (block : Block) (content : String) :
    setBlockField block (.ofRaw (contentAttribute content)) =
      .ok { block with content := some content } := by
  have htext : (contentAttribute content).value.text = content := by
    unfold contentAttribute
    simp only
    split
    · rfl
    · rfl
  have hset : setBlockField block (.ofRaw (contentAttribute content)) =
      .ok { block with content := some (contentAttribute content).value.text } := rfl
  rw [hset, htext]

/-- The attributes of a block, its content aside, make a block without content. -/
lemma toOption_foldlM_setBlockField (block : Block) :
    (((leadAttributes block).map Attribute.ofRaw).foldlM setBlockField
        { id := block.id, kind := block.kind }).toOption =
      (Attributes.gather (readBlockEntries block.kind)
          (block.attributes.plainEntries ["id", "content"])).map fun attributes =>
        ({ id := block.id, kind := block.kind, attributes } : Block) := by
  have hid : setBlockField { id := block.id, kind := block.kind }
      (.ofRaw (quotedAttribute "id" block.id)) = .ok { id := block.id, kind := block.kind } := rfl
  have hbag : (((bagAttributes block.attributes ["id", "content"]).map Attribute.ofRaw).foldlM
      setBlockField { id := block.id, kind := block.kind }).toOption =
      ((block.attributes.plainEntries ["id", "content"]).mapM
        (readBlockEntries block.kind)).map fun made =>
        ({ id := block.id, kind := block.kind, attributes := .ofList made.flatten } : Block) :=
    toOption_foldlM_entries
      (fun es => ({ id := block.id, kind := block.kind, attributes := .ofList es } : Block)) id
      (fun e he es => toOption_setBlockField block
        (block.attributes.isPlainKey_of_mem_plainEntries he) es) []
  unfold leadAttributes Attributes.gather
  rw [List.map_cons, List.foldlM_cons, hid, ok_bind, hbag, Option.map_map]
  rfl

/-- The node of a block in the brace form is compiled to the block that it is read back as. -/
lemma toOption_compileBlock_brace (block : Block) (ids : IdSource) :
    (compileBlock ids (blockNode .brace block)).toOption =
      (block.recompiled .brace).map fun b => (b, ids) := by
  have hcompile : compileBlock ids (blockNode .brace block) = (do
      let b ← ((blockAttributes block).map Attribute.ofRaw).foldlM setBlockField
        { id := block.id, kind := block.kind }
      return (b, ids)) := rfl
  rw [hcompile]
  unfold blockAttributes Block.recompiled
  rw [List.map_append, List.foldlM_append, toOption_bind, toOption_bind,
    toOption_foldlM_setBlockField block]
  cases Attributes.gather (readBlockEntries block.kind)
    (block.attributes.plainEntries ["id", "content"]) with
  | none => rfl
  | some attributes =>
    cases hcontent : block.content with
    | none => rfl
    | some content =>
      change (([Attribute.ofRaw (contentAttribute content)].foldlM setBlockField _).toOption).bind
        _ = _
      rw [List.foldlM_cons, setBlockField_content]
      rfl

/-- The node of a block in the tag form is compiled to the block that it is read back as. -/
lemma toOption_compileBlock_tag (block : Block) (ids : IdSource) :
    (compileBlock ids (blockNode .tag block)).toOption =
      (block.recompiled .tag).map fun b => (b, ids) := by
  have hlead := toOption_foldlM_setBlockField block
  unfold Block.recompiled
  cases hcontent : block.content with
  | none =>
    have hcompile : compileBlock ids (blockNode .tag block) = (do
        let b ← ((leadAttributes block).map Attribute.ofRaw).foldlM setBlockField
          { id := block.id, kind := block.kind }
        return (b, ids)) := by
      unfold blockNode
      rw [hcontent]
      rfl
    rw [hcompile, toOption_bind, hlead]
    cases Attributes.gather (readBlockEntries block.kind)
      (block.attributes.plainEntries ["id", "content"]) with
    | none => rfl
    | some attributes => rfl
  | some content =>
    have hcompile : compileBlock ids (blockNode .tag block) = (do
        let b ← ((leadAttributes block).map Attribute.ofRaw).foldlM setBlockField
          { id := block.id, kind := block.kind }
        let text := String.ofList (Text.trim content.toList)
        return (if text = "" then b else { b with content := some text }, ids)) := by
      unfold blockNode
      rw [hcontent]
      rfl
    rw [hcompile, toOption_bind, hlead]
    cases Attributes.gather (readBlockEntries block.kind)
      (block.attributes.plainEntries ["id", "content"]) with
    | none => rfl
    | some attributes =>
      unfold keptContent
      simp only [Option.bind_eq_bind, Option.bind_some]
      generalize String.ofList (Text.trim content.toList) = text
      by_cases hempty : text = ""
      · rw [if_pos hempty]
        simp only [if_pos hempty]
        rfl
      · rw [if_neg hempty]
        simp only [if_neg hempty]
        rfl

/-- The node of a block is compiled to the block that it is read back as. -/
lemma toOption_compileBlock (form : Form) (block : Block) (ids : IdSource) :
    (compileBlock ids (blockNode form block)).toOption =
      (block.recompiled form).map fun b => (b, ids) := by
  cases form with
  | brace => exact toOption_compileBlock_brace block ids
  | tag => exact toOption_compileBlock_tag block ids

/-- Nodes that are compiled to what things become are so one after the other, with no id taken. -/
lemma toOption_compileAll {α β : Type} {one : IdSource → Node → Except CompileFault (β × IdSource)}
    {node : α → Node} {f : α → Option β} {items : List α} {ids : IdSource}
    (h : ∀ a ∈ items, (one ids (node a)).toOption = (f a).map fun b => (b, ids)) :
    (compileAll one ids (items.map node)).toOption = (items.mapM f).map fun bs => (bs, ids) := by
  induction items with
  | nil => rfl
  | cons a items ih =>
    have hmore := ih fun b hb => h b (List.mem_cons_of_mem a hb)
    rw [List.map_cons, compileAll, List.mapM_cons, toOption_bind, h a List.mem_cons_self]
    cases f a with
    | none => rfl
    | some b =>
      change (compileAll one ids (items.map node) >>= _).toOption = _
      rw [toOption_bind, hmore]
      cases items.mapM f with
      | none => rfl
      | some bs => rfl

/-- The nodes of blocks are compiled to the blocks that they are read back as. -/
lemma toOption_compileBlocks (form : Form) (blocks : List Block) (ids : IdSource) :
    (compileBlocks ids (blocks.map (blockNode form))).toOption =
      (blocks.mapM (Block.recompiled form)).map fun bs => (bs, ids) := by
  rw [compileBlocks_eq]
  exact toOption_compileAll fun block _ => toOption_compileBlock form block ids

/-- An attribute of a column adds what its entry makes. -/
lemma toOption_setColumnField (column : Column) {e : String × AttributeValue}
    (hplain : IsPlainKey ["id", "width"] e.1) (es : List (String × AttributeValue)) :
    (setColumnField ({ id := column.id, units := gridUnits, attributes := .ofList es },
        some column.units) (.ofRaw ⟨e.1, rawValue e.2⟩)).toOption =
      (readEntries e).map fun made =>
        ({ id := column.id, units := gridUnits, attributes := .ofList (es ++ made) },
          some column.units) := by
  obtain ⟨-, hreserved, -⟩ := hplain
  obtain ⟨key, v⟩ := e
  have hid : key ≠ "id" := fun heq => hreserved (by simp [heq])
  have hwidth : key ≠ "width" := fun heq => hreserved (by simp [heq])
  change (setColumnField _ ⟨key, rawValue v, default⟩).toOption = _
  unfold setColumnField
  simp only
  rw [if_neg hid, if_neg hwidth]
  exact toOption_entriesOf_bind key key v es fun attributes =>
    (({ id := column.id, units := gridUnits, attributes } : Column), some column.units)

/-- The width of a column is declared as written. -/
lemma setColumnField_width (acc : Column × Option ℕ) {units : ℕ} (hpos : 1 ≤ units)
    (hle : units ≤ gridUnits) :
    setColumnField acc (.ofRaw (bareAttribute "width" (toString units))) =
      .ok (acc.1, some units) := by
  have hread := columnWidth?_toString hpos hle
  have hid : ¬"width" = "id" := by decide
  unfold setColumnField Attribute.ofRaw bareAttribute RawValue.text
  simp only [if_true]
  rw [if_neg hid, hread]

/-- A column as it is declared: its width is kept beside it. -/
def declare (column : Column) : Column × Option ℕ :=
  ({ column with units := gridUnits }, some column.units)

/-- The node of a column is compiled to the column that it is read back as, its width beside it. -/
lemma toOption_compileColumn (form : Form) {column : Column}
    (hunits : 1 ≤ column.units ∧ column.units ≤ gridUnits) (ids : IdSource) :
    (compileColumn ids (columnNode form column)).toOption =
      ((column.recompiled form).map declare).map fun c => (c, ids) := by
  have hfold : (((columnAttributes column).map Attribute.ofRaw).foldlM setColumnField
      ({ id := column.id, units := gridUnits }, none)).toOption =
      ((column.attributes.plainEntries ["id", "width"]).mapM readEntries).map fun made =>
        (({ id := column.id, units := gridUnits, attributes := .ofList made.flatten } : Column),
          some column.units) := by
    have hid : setColumnField ({ id := column.id, units := gridUnits }, none)
        (.ofRaw (quotedAttribute "id" column.id)) =
        .ok ({ id := column.id, units := gridUnits }, none) := rfl
    have hwidth : setColumnField ({ id := column.id, units := gridUnits }, none)
        (.ofRaw (bareAttribute "width" (toString column.units))) =
        .ok ({ id := column.id, units := gridUnits }, some column.units) :=
      setColumnField_width _ hunits.1 hunits.2
    unfold columnAttributes
    rw [List.cons_append, List.cons_append, List.nil_append, List.map_cons, List.map_cons,
      List.foldlM_cons, hid, ok_bind, List.foldlM_cons, hwidth, ok_bind]
    exact toOption_foldlM_entries
      (fun es => (({ id := column.id, units := gridUnits, attributes := .ofList es } : Column),
        some column.units)) id
      (fun e he es => toOption_setColumnField column
        (column.attributes.isPlainKey_of_mem_plainEntries he) es) []
  have hcompile : compileColumn ids (columnNode form column) = (do
      let found ← ((columnAttributes column).map Attribute.ofRaw).foldlM setColumnField
        ({ id := column.id, units := gridUnits }, none)
      let blocks ← compileBlocks ids (column.blocks.map (blockNode form))
      return (({ found.1 with blocks := blocks.1 }, found.2), blocks.2)) := rfl
  rw [hcompile, toOption_bind, hfold]
  unfold Column.recompiled Attributes.gather
  cases (column.attributes.plainEntries ["id", "width"]).mapM readEntries with
  | none => rfl
  | some made =>
    change ((compileBlocks ids (column.blocks.map (blockNode form))) >>= _).toOption = _
    rw [toOption_bind, toOption_compileBlocks]
    cases column.blocks.mapM (Block.recompiled form) with
    | none => rfl
    | some bs => rfl

/-- The nodes of columns are compiled to the columns that they are read back as, their widths beside
them. -/
lemma toOption_compileColumns (form : Form) {columns : List Column}
    (h : ∀ column ∈ columns, 1 ≤ column.units ∧ column.units ≤ gridUnits) (ids : IdSource) :
    (compileColumns ids (columns.map (columnNode form))).toOption =
      (columns.mapM (Column.recompiled form)).map fun cs => (cs.map declare, ids) := by
  have hall := toOption_compileAll fun column hcolumn =>
    toOption_compileColumn form (h column hcolumn) ids
  rw [compileColumns_eq, hall, mapM_map_eq, Option.map_map]
  rfl

/-- Columns whose declared widths fill the row get these widths. -/
lemma fitColumns_of_sum {columns : List Column}
    (h : (columns.map Column.units).sum = gridUnits) :
    fitColumns (columns.map declare) = columns := by
  have hassign : Grid.assign (columns.map fun c => some c.units) = columns.map Column.units := by
    have hgiven : (columns.map fun c => some c.units).filterMap id = columns.map Column.units := by
      rw [List.filterMap_map]
      exact congrFun List.filterMap_eq_map columns
    unfold Grid.assign
    simp only [hgiven, List.length_map, Nat.sub_self, if_true]
    exact if_pos h
  unfold fitColumns
  rw [List.map_map]
  change List.zipWith _ _ (Grid.assign (columns.map fun c => some c.units)) = _
  rw [hassign, List.zipWith_map, List.zipWith_self]
  exact List.map_id columns

/-- A plain key is no key of a container. -/
lemma containerKey?_of_isPlainKey {reserved : List String} {key : String}
    (h : IsPlainKey reserved key) : containerKey? key = none := by
  obtain ⟨-, -, hstart⟩ := h
  unfold Text.startsWith at hstart
  unfold containerKey?
  cases hdrop : Text.dropHead? "container".toList key.toList with
  | none => rfl
  | some rest =>
    rw [hdrop] at hstart
    cases hstart

/-- An attribute of a row adds what its entry makes. -/
lemma toOption_setRowField (id : String) (role : Option RowRole) {e : String × AttributeValue}
    (hplain : IsPlainKey ["id", "type"] e.1) (es : List (String × AttributeValue)) :
    (setRowField { id, role, attributes := .ofList es } (.ofRaw ⟨e.1, rawValue e.2⟩)).toOption =
      (readEntries e).map fun made => { id, role, attributes := .ofList (es ++ made) } := by
  obtain ⟨key, v⟩ := e
  have hid : key ≠ "id" := fun heq => hplain.2.1 (by simp [heq])
  have htype : key ≠ "type" := fun heq => hplain.2.1 (by simp [heq])
  change (setRowField _ ⟨key, rawValue v, default⟩).toOption = _
  unfold setRowField
  simp only
  rw [if_neg hid, if_neg htype, containerKey?_of_isPlainKey hplain]
  exact toOption_entriesOf_bind key key v es fun attributes => ({ id, role, attributes } : Row)

/-- A container attribute of a row adds what its entry makes to the container. -/
lemma toOption_setRowField_container (id : String) (role : Option RowRole)
    {e : String × AttributeValue} (hkey : isScriptKey e.1.toList = true) (attributes : Attributes)
    (es : List (String × AttributeValue)) :
    (setRowField { id, role, attributes, container := .ofList es }
        (.ofRaw ⟨containerKey e.1, rawValue e.2⟩)).toOption =
      (readContainerEntries e).map fun made =>
        { id, role, attributes, container := .ofList (es ++ made) } := by
  obtain ⟨key, v⟩ := e
  have hread := containerKey?_containerKey hkey
  have hne : ∀ other, containerKey? other = none → containerKey key ≠ other := by
    intro other hother heq
    rw [heq, hother] at hread
    cases hread
  change (setRowField _ ⟨containerKey key, rawValue v, default⟩).toOption = _
  unfold setRowField
  simp only
  rw [if_neg (hne "id" (by decide)), if_neg (hne "type" (by decide)), hread]
  exact toOption_entriesOf_bind (reopenedKey key) (containerKey key) v es fun container =>
    ({ id, role, attributes, container } : Row)

/-- The attributes of a row make the row without columns. -/
lemma toOption_foldlM_setRowField (row : Row) :
    (((rowAttributes row).map Attribute.ofRaw).foldlM setRowField { id := row.id }).toOption = (do
      let attributes ← Attributes.gather readEntries (row.attributes.plainEntries ["id", "type"])
      let container ← Attributes.gather readContainerEntries row.container.scriptEntries
      return { id := row.id, role := row.role.map fun r => RowRole.ofName r.name, attributes,
               container }) := by
  have hid : setRowField { id := row.id } (.ofRaw (quotedAttribute "id" row.id)) =
      .ok { id := row.id } := rfl
  have hrole : ((row.role.map fun r => quotedAttribute "type" r.name).toList.map
      Attribute.ofRaw).foldlM setRowField { id := row.id } =
      .ok { id := row.id, role := row.role.map fun r => RowRole.ofName r.name } := by
    cases row.role with
    | none => rfl
    | some r => rfl
  generalize (row.role.map fun r => RowRole.ofName r.name) = role at hrole ⊢
  have hbag : (((bagAttributes row.attributes ["id", "type"]).map Attribute.ofRaw).foldlM
      setRowField { id := row.id, role }).toOption =
      ((row.attributes.plainEntries ["id", "type"]).mapM readEntries).map fun made =>
        ({ id := row.id, role, attributes := .ofList made.flatten } : Row) :=
    toOption_foldlM_entries
      (fun es => ({ id := row.id, role, attributes := .ofList es } : Row)) id
      (fun e he es => toOption_setRowField row.id role
        (row.attributes.isPlainKey_of_mem_plainEntries he) es) []
  have hcontainer : ∀ attributes, (((containerAttributes row.container).map
      Attribute.ofRaw).foldlM setRowField { id := row.id, role, attributes }).toOption =
      (row.container.scriptEntries.mapM readContainerEntries).map fun made =>
        ({ id := row.id, role, attributes, container := .ofList made.flatten } : Row) :=
    fun attributes => toOption_foldlM_entries
      (fun es => ({ id := row.id, role, attributes, container := .ofList es } : Row))
      containerKey (fun e he es => toOption_setRowField_container row.id role
        (row.container.isScriptKey_of_mem_scriptEntries he) attributes es) []
  unfold rowAttributes Attributes.gather
  simp only [List.cons_append, List.map_cons, List.map_append, List.foldlM_cons, List.foldlM_append,
    hid, hrole, ok_bind]
  rw [toOption_bind, hbag]
  cases (row.attributes.plainEntries ["id", "type"]).mapM readEntries with
  | none => rfl
  | some made =>
    change (((containerAttributes row.container).map Attribute.ofRaw).foldlM setRowField
      { id := row.id, role, attributes := .ofList made.flatten }).toOption = _
    rw [hcontainer]
    cases row.container.scriptEntries.mapM readContainerEntries with
    | none => rfl
    | some inner => rfl

/-- A column that is read back keeps its width. -/
lemma units_recompiled {form : Form} {column c : Column} (h : column.recompiled form = some c) :
    c.units = column.units := by
  obtain ⟨attributes, -, hrest⟩ := Option.bind_eq_some_iff.mp h
  obtain ⟨blocks, -, heq⟩ := Option.bind_eq_some_iff.mp hrest
  obtain rfl := Option.some.inj heq
  rfl

/-- The node of a row is compiled to the row that it is read back as. -/
lemma toOption_compileRow (form : Form) {row : Row} (hrow : row.Shaped) (ids : IdSource) :
    (compileRow ids (rowNode form row)).toOption =
      (row.recompiled form).map fun r => (r, ids) := by
  have hmembers : (rowNode form row).members = .ok (row.columns.map (columnNode form)) := rfl
  have hcount : ¬gridUnits < (row.columns.map (columnNode form)).length := by
    rw [List.length_map]
    exact not_lt.mpr hrow.count
  change (((rowAttributes row).map Attribute.ofRaw).foldlM setRowField { id := row.id } >>=
    _).toOption = _
  rw [toOption_bind, toOption_foldlM_setRowField]
  unfold Row.recompiled
  cases Attributes.gather readEntries (row.attributes.plainEntries ["id", "type"]) with
  | none => rfl
  | some attributes =>
    cases Attributes.gather readContainerEntries row.container.scriptEntries with
    | none => rfl
    | some container =>
      simp only [Option.bind_eq_bind, Option.bind_some, Option.pure_def, hmembers, ok_bind,
        if_neg hcount]
      change (compileColumns ids (row.columns.map (columnNode form)) >>= _).toOption = _
      rw [toOption_bind, toOption_compileColumns form hrow.units]
      cases hcs : row.columns.mapM (Column.recompiled form) with
      | none => rfl
      | some cs =>
        have hunits : cs.map Column.units = row.columns.map Column.units :=
          map_eq_of_mapM (fun _ _ => units_recompiled) hcs
        have hsum : (cs.map Column.units).sum = gridUnits := by
          rw [hunits]
          exact hrow.total
        have hne : cs ≠ [] := by
          rintro rfl
          exact hrow.nonempty (List.map_eq_nil_iff.mp hunits.symm)
        rw [Option.map_some, Option.bind_some]
        simp only [fitColumns_of_sum hsum]
        rw [if_neg (by simpa using hne)]
        rfl

/-- The nodes of rows are compiled to the rows that they are read back as. -/
lemma toOption_compileRows (form : Form) {rows : List Row} (h : ∀ row ∈ rows, row.Shaped)
    (ids : IdSource) : (compileRows ids (rows.map (rowNode form))).toOption =
      (rows.mapM (Row.recompiled form)).map fun rs => (rs, ids) := by
  rw [compileRows_eq]
  exact toOption_compileAll fun row hrow => toOption_compileRow form (h row hrow) ids

end Script

end MailTemplate
