import MailTemplate.Proofs.Script.Compiled
import MailTemplate.Proofs.Script.Converted
import MailTemplate.Proofs.Script.Recompiled

/-!
# The bags of a compiled document

The keys in the bags of a compiled document are those of its script, less the ones that the nodes
take for themselves, and the values are as a script makes them.  A row keeps the keys that are not
those of its container; what stands for a key of the container is the rest of the row's key, which
need not be a key that a script can hold.

Main result: every document that is compiled has such bags, canonical roles, heading levels in their
usual form, and a shape that fills the grid (`compileWith_fromScript`, `compileWith_shaped`).
-/

namespace MailTemplate

open Script

/-! ### Bags as a script makes them -/

/-- A block as a script makes it. -/
structure Block.FromScript (block : Block) : Prop where
  keys : ∀ e ∈ block.attributes.entries,
    isScriptKey e.1.toList = true ∧ e.1 ∉ ["id", "content"]
  values : ∀ e ∈ block.attributes.entries, Converted e
  level : block.kind = .heading → ∀ e ∈ block.attributes.entries, e.1 = "level" →
    ∃ s ∈ headingLevels, e.2 = .text s

/-- A column as a script makes it. -/
structure Column.FromScript (column : Column) : Prop where
  keys : ∀ e ∈ column.attributes.entries,
    isScriptKey e.1.toList = true ∧ e.1 ∉ ["id", "width"]
  values : ∀ e ∈ column.attributes.entries, Converted e
  blocks : ∀ block ∈ column.blocks, block.FromScript

/-- What is left of a row's key that stands for a key of its container. -/
def IsReopenedKey (key : String) : Prop :=
  ∃ c cs, key.toList = c :: cs ∧ c.isUpper = false ∧ ∀ a ∈ cs, isKeyChar a = true

/-- A row as a script makes it. -/
structure Row.FromScript (row : Row) : Prop where
  role : ∀ r ∈ row.role, r.Canonical
  keys : ∀ e ∈ row.attributes.entries,
    isScriptKey e.1.toList = true ∧ e.1 ∉ ["id", "type"] ∧ containerKey? e.1 = none
  values : ∀ e ∈ row.attributes.entries, Converted e
  containerKeys : ∀ e ∈ row.container.entries, IsReopenedKey e.1
  containerValues : ∀ e ∈ row.container.entries, Converted e
  columns : ∀ column ∈ row.columns, column.FromScript

/-! ### Attributes -/

namespace Script

/-- The entries of a scanned attribute are as a script makes them. -/
lemma converted_of_entriesOf {key : String} {a : Attribute}
    {entries : List (String × AttributeValue)}
    (ha : IsScanned a.key a.value) (h : entriesOf key a = .ok entries) :
    ∀ e ∈ entries, Converted e ∧ (e.1 = key ∨ e.1 ∈ sideKeys) := by
  unfold entriesOf at h
  split at h
  · next found hfound =>
    obtain rfl := Except.ok.inj h
    exact converted_of_convert ha.2 hfound
  · cases h

/-- What a key and the keys of sides have, the keys of an attribute's entries have. -/
lemma forall_entriesOf {key : String} {a : Attribute} {entries : List (String × AttributeValue)}
    (ha : IsScanned a.key a.value) (h : entriesOf key a = .ok entries) {p : String → Prop}
    (hkey : p key) (hsides : ∀ side ∈ sideKeys, p side) : ∀ e ∈ entries, p e.1 := by
  intro e he
  rcases (converted_of_entriesOf ha h e he).2 with heq | hside
  · rw [heq]
    exact hkey
  · exact hsides e.1 hside

/-! ### Nodes -/

/-- The level of a heading is one of the levels. -/
lemma headingLevel_mem (raw : String) : headingLevel raw ∈ headingLevels := by
  unfold headingLevel
  simp only
  split
  · next n hn =>
    split
    · next hrange =>
      obtain ⟨hlow, hhigh⟩ := hrange
      interval_cases n <;> decide
    · decide
  · decide

/-- An attribute leaves a block as a script makes it. -/
lemma fromScript_setBlockField {block block' : Block} {a : Attribute} (hblock : block.FromScript)
    (ha : IsScanned a.key a.value) (h : setBlockField block a = .ok block') :
    block'.FromScript := by
  unfold setBlockField at h
  split at h
  · obtain rfl := Except.ok.inj h
    exact hblock
  next hid =>
  split at h
  · obtain rfl := Except.ok.inj h
    exact ⟨hblock.keys, hblock.values, hblock.level⟩
  next hcontent =>
  split at h
  · next hlevel =>
    obtain rfl := Except.ok.inj h
    have hlevels := headingLevel_mem a.value.text
    have hkey : isScriptKey "level".toList = true ∧ "level" ∉ ["id", "content"] := by decide
    have hbox : "level" ∉ boxKeys := by decide
    have hconverted : Converted ("level", .text (headingLevel a.value.text)) :=
      ⟨fun v hv => (by cases hv), fun _ => boxSides?_of_not_mem hbox _⟩
    have hall : ∀ {p : String × AttributeValue → Prop}, (∀ e ∈ block.attributes.entries, p e) →
        p ("level", .text (headingLevel a.value.text)) →
        ∀ e ∈ (block.attributes.set "level" (.text (headingLevel a.value.text))).entries, p e := by
      intro p hold hnew e he
      rcases Keyed.mem_insert he with rfl | hmem
      · exact hnew
      · exact hold e hmem
    exact ⟨hall hblock.keys hkey, hall hblock.values hconverted,
      fun hkind => hall (hblock.level hkind) fun _ => ⟨_, hlevels, rfl⟩⟩
  · next hlevel =>
    obtain ⟨entries, hentries, heq⟩ := bind_eq_ok.mp h
    obtain rfl := pure_eq_ok.mp heq
    have hsides : ∀ side ∈ sideKeys,
        isScriptKey side.toList = true ∧ side ∉ ["id", "content"] := by decide
    have hother : ∀ side ∈ sideKeys, side ≠ "level" := by decide
    have hkeys := forall_entriesOf ha hentries ⟨ha.1, by simp [hid, hcontent]⟩ hsides
    refine ⟨Attributes.forall_setAll hblock.keys hkeys, Attributes.forall_setAll hblock.values
      fun e he => (converted_of_entriesOf ha hentries e he).1, fun hkind => ?_⟩
    -- only an attribute of that name makes a level, and it has been dealt with
    have hnot : a.key ≠ "level" := fun heq => hlevel ⟨heq, hkind⟩
    exact Attributes.forall_setAll (hblock.level hkind) fun e he heq =>
      absurd heq (forall_entriesOf (p := (· ≠ "level")) ha hentries hnot hother e he)

variable {ids ids' : IdSource} {node : Node}

/-- A node with scanned attributes is compiled to a block as a script makes it. -/
lemma fromScript_compileBlock {block : Block} (hnode : node.All fun a => IsScanned a.key a.value)
    (h : compileBlock ids node = .ok (block, ids')) : block.FromScript := by
  obtain ⟨kind, found, -, hfound, hfill, -⟩ := compileBlock_eq_ok.mp h
  have hempty : Block.FromScript { id := (node.takeId "block" ids).1, kind } :=
    ⟨List.forall_mem_nil _, List.forall_mem_nil _, fun _ => List.forall_mem_nil _⟩
  have hmade : found.FromScript := foldlM_induction hfound hempty fun a ha _ _ hb hset =>
    fromScript_setBlockField hb (hnode.attributes a ha) hset
  unfold Body.fill at hfill
  split at hfill
  · obtain rfl := Option.some.inj hfill
    exact hmade
  · obtain rfl := Option.some.inj hfill
    split
    · exact hmade
    · exact ⟨hmade.keys, hmade.values, hmade.level⟩
  · cases hfill

/-- What nodes are compiled to one after the other, each of them is compiled to. -/
lemma forall_compileAll {β : Type} {one : IdSource → Node → Except CompileFault (β × IdSource)}
    {p : β → Prop} {nodes : List Node} {bs : List β}
    (hone : ∀ node ∈ nodes, ∀ ids b ids', one ids node = .ok (b, ids') → p b)
    (h : compileAll one ids nodes = .ok (bs, ids')) : ∀ b ∈ bs, p b := by
  have hall : List.Forall₂ (fun b _ => p b ∧ True) bs nodes :=
    forall₂_compileAll (fun node hnode ids b ids' hb => ⟨hone node hnode ids b ids' hb, trivial⟩) h
  exact ((List.forall₂_and_left bs nodes).mp hall).1

/-- An attribute leaves a column as a script makes it. -/
lemma fromScript_setColumnField {acc acc' : Column × Option ℕ} {a : Attribute}
    (hcolumn : acc.1.FromScript) (ha : IsScanned a.key a.value)
    (h : setColumnField acc a = .ok acc') : acc'.1.FromScript := by
  obtain ⟨column, width⟩ := acc
  unfold setColumnField at h
  simp only at h
  split at h
  · obtain rfl := Except.ok.inj h
    exact hcolumn
  next hid =>
  split at h
  · split at h
    · obtain rfl := Except.ok.inj h
      exact hcolumn
    · cases h
  next hwidth =>
  obtain ⟨entries, hentries, heq⟩ := bind_eq_ok.mp h
  obtain rfl := pure_eq_ok.mp heq
  have hsides : ∀ side ∈ sideKeys, isScriptKey side.toList = true ∧ side ∉ ["id", "width"] := by
    decide
  have hkeys := forall_entriesOf ha hentries ⟨ha.1, by simp [hid, hwidth]⟩ hsides
  exact ⟨Attributes.forall_setAll hcolumn.keys hkeys, Attributes.forall_setAll hcolumn.values
    fun e he => (converted_of_entriesOf ha hentries e he).1, hcolumn.blocks⟩

/-- A node with scanned attributes is compiled to a column as a script makes it. -/
lemma fromScript_compileColumn {column : Column} {width : Option ℕ}
    (hnode : node.All fun a => IsScanned a.key a.value)
    (h : compileColumn ids node = .ok ((column, width), ids')) : column.FromScript := by
  obtain ⟨found, members, blocks, -, hfound, hmembers, hblocks, rfl⟩ := compileColumn_eq_ok.mp h
  have hempty : Column.FromScript { id := (node.takeId "column" ids).1, units := gridUnits } :=
    ⟨List.forall_mem_nil _, List.forall_mem_nil _, List.forall_mem_nil _⟩
  have hmade : found.FromScript :=
    foldlM_induction (p := fun acc : Column × Option ℕ => acc.1.FromScript) hfound hempty
      fun a ha _ _ hb hset => fromScript_setColumnField hb (hnode.attributes a ha) hset
  rw [compileBlocks_eq] at hblocks
  refine ⟨hmade.keys, hmade.values,
    forall_compileAll (fun member hmember ids b ids' hb => ?_) hblocks⟩
  exact fromScript_compileBlock (hnode.members hmembers member hmember) hb

/-- What is left of a scanned key behind the word for containers is as such a rest is. -/
lemma isReopenedKey_of_containerKey? {written key : String}
    (hwritten : isScriptKey written.toList = true) (h : containerKey? written = some key) :
    IsReopenedKey key := by
  unfold containerKey? at h
  split at h
  · next c rest hdrop =>
    obtain rfl := Option.some.inj h
    have hchars := Text.dropHead?_eq_some hdrop
    have hall : ∀ a ∈ c :: rest, isKeyChar a = true := by
      intro a ha
      rw [hchars] at hwritten
      have hsplit : "container".toList ++ c :: rest = 'c' :: ("ontainer".toList ++ c :: rest) := rfl
      rw [hsplit, isScriptKey, Bool.and_eq_true, List.all_eq_true] at hwritten
      exact hwritten.2 a (List.mem_append_right _ ha)
    rw [List.forall_mem_cons] at hall
    exact ⟨c.toLower, rest, String.toList_ofList, Text.isUpper_toLower c, hall.2⟩
  · cases h

/-- An attribute leaves a row as a script makes it. -/
lemma fromScript_setRowField {row row' : Row} {a : Attribute} (hrow : row.FromScript)
    (ha : IsScanned a.key a.value) (h : setRowField row a = .ok row') : row'.FromScript := by
  unfold setRowField at h
  split at h
  · obtain rfl := Except.ok.inj h
    exact hrow
  next hid =>
  split at h
  · obtain rfl := Except.ok.inj h
    refine ⟨fun r hr => ?_, hrow.keys, hrow.values, hrow.containerKeys, hrow.containerValues,
      hrow.columns⟩
    obtain rfl := Option.some.inj hr
    exact RowRole.canonical_ofName _
  next htype =>
  split at h
  · next key hkey =>
    obtain ⟨entries, hentries, heq⟩ := bind_eq_ok.mp h
    obtain rfl := pure_eq_ok.mp heq
    have hsides : ∀ side ∈ sideKeys, IsReopenedKey side := by
      have hall : ∀ side ∈ sideKeys, isScriptKey side.toList = true ∧
          side.toList.head?.any Char.isUpper = false := by decide
      intro side hside
      obtain ⟨hscript, hupper⟩ := hall side hside
      obtain ⟨c, cs, hlist, -, hcs, -⟩ := exists_containerKey hscript
      rw [hlist] at hupper
      exact ⟨c, cs, hlist, hupper, hcs⟩
    have hkeys := forall_entriesOf ha hentries (isReopenedKey_of_containerKey? ha.1 hkey) hsides
    exact ⟨hrow.role, hrow.keys, hrow.values,
      Attributes.forall_setAll hrow.containerKeys hkeys,
      Attributes.forall_setAll hrow.containerValues
        fun e he => (converted_of_entriesOf ha hentries e he).1, hrow.columns⟩
  · next hkey =>
    obtain ⟨entries, hentries, heq⟩ := bind_eq_ok.mp h
    obtain rfl := pure_eq_ok.mp heq
    have hsides : ∀ side ∈ sideKeys, isScriptKey side.toList = true ∧ side ∉ ["id", "type"] ∧
        containerKey? side = none := by decide
    have hkeys := forall_entriesOf ha hentries ⟨ha.1, by simp [hid, htype], hkey⟩ hsides
    exact ⟨hrow.role, Attributes.forall_setAll hrow.keys hkeys,
      Attributes.forall_setAll hrow.values fun e he => (converted_of_entriesOf ha hentries e he).1,
      hrow.containerKeys, hrow.containerValues, hrow.columns⟩

/-- A column as a script makes it is one with any width. -/
lemma fromScript_units {column : Column} (h : column.FromScript) (units : ℕ) :
    Column.FromScript { column with units } :=
  ⟨h.keys, h.values, h.blocks⟩

/-- A node with scanned attributes is compiled to a row as a script makes it. -/
lemma fromScript_compileRow {row : Row} (hnode : node.All fun a => IsScanned a.key a.value)
    (h : compileRow ids node = .ok (row, ids')) : row.FromScript := by
  obtain ⟨found, members, declared, next, -, hfound, hmembers, -, hdeclared, hrow⟩ :=
    compileRow_eq_ok.mp h
  have hempty : Row.FromScript { id := (node.takeId "row" ids).1 } :=
    ⟨fun r hr => (by cases hr), List.forall_mem_nil _, List.forall_mem_nil _,
      List.forall_mem_nil _, List.forall_mem_nil _, List.forall_mem_nil _⟩
  have hmade : found.FromScript := foldlM_induction hfound hempty fun a ha _ _ hb hset =>
    fromScript_setRowField hb (hnode.attributes a ha) hset
  rw [compileColumns_eq] at hdeclared
  have hcolumns : ∀ c ∈ declared, c.1.FromScript :=
    forall_compileAll (p := fun c : Column × Option ℕ => c.1.FromScript)
      (fun member hmember ids c ids' hc =>
        fromScript_compileColumn (hnode.members hmembers member hmember) hc) hdeclared
  have hall : ∀ columns : List Column, (∀ column ∈ columns, column.FromScript) →
      Row.FromScript { found with columns } := fun columns hcolumns =>
    ⟨hmade.role, hmade.keys, hmade.values, hmade.containerKeys, hmade.containerValues, hcolumns⟩
  rcases hrow with ⟨-, -, rfl⟩ | ⟨-, -, rfl⟩
  · refine hall _ fun column hcolumn => ?_
    obtain rfl := List.mem_singleton.mp hcolumn
    exact ⟨List.forall_mem_nil _, List.forall_mem_nil _, List.forall_mem_nil _⟩
  · refine hall _ fun column hcolumn => ?_
    unfold fitColumns at hcolumn
    rw [← List.map_uncurry_zip_eq_zipWith] at hcolumn
    obtain ⟨⟨c, units⟩, hzip, rfl⟩ := List.mem_map.mp hcolumn
    obtain ⟨hc, -⟩ := List.of_mem_zip hzip
    exact fromScript_units (hcolumns c hc) units

/-! ### Documents -/

/-- Nodes at the top level with scanned attributes are compiled to rows as a script makes them. -/
lemma fromScript_compileTop {d d' : Document} {nodes : List Node}
    (hnodes : ∀ node ∈ nodes, node.All fun a => IsScanned a.key a.value)
    (hd : ∀ row ∈ d.rows, row.FromScript) (h : compileTop d ids nodes = .ok d') :
    ∀ row ∈ d'.rows, row.FromScript := by
  induction nodes generalizing d ids with
  | nil =>
    obtain rfl := Except.ok.inj h
    exact hd
  | cons node nodes ih =>
    obtain ⟨row, next, -, hrow, htop⟩ := compileTop_cons_eq_ok.mp h
    rw [List.forall_mem_cons] at hnodes
    have hmade := fromScript_compileRow hnodes.1 hrow
    refine ih hnodes.2 ?_ htop
    rw [List.forall_mem_append]
    exact ⟨hd, fun r hr => List.mem_singleton.mp hr ▸ hmade⟩

/-- The rows of a compiled document are as a script makes them. -/
theorem compileWith_fromScript {defaults : Defaults} {source : String} {d : Document}
    (h : compileWith defaults source = .ok d) : ∀ row ∈ d.rows, row.FromScript := by
  unfold compileWith at h
  obtain ⟨tree, htree, h⟩ := bind_eq_ok.mp h
  have hall := allNodes_iff.mp (all_ofSource htree)
  split at h
  · next found hcompile =>
    obtain rfl := pure_eq_ok.mp h
    obtain ⟨ids, -, hcompile⟩ := bind_eq_ok.mp hcompile
    obtain ⟨-, -, hnodes⟩ := bind_eq_ok.mp hcompile
    cases hlist : tree.nodes with
    | nil =>
      rw [hlist] at hnodes
      obtain rfl := Except.ok.inj hnodes
      exact List.forall_mem_nil _
    | cons node nodes =>
      rw [hlist] at hnodes hall
      by_cases helement : node.element = .email
      · obtain ⟨root, members, rows, next, hroot, hmembers, hrows, htop⟩ :=
          (compileNodes_cons_email helement).mp hnodes
        rw [List.forall_mem_cons] at hall
        have hnone : root.rows = [] :=
          foldlM_induction (p := fun d : Document => d.rows = []) hroot rfl
            fun a _ b b' hb hset => (rows_setDocumentField hset).trans hb
        rw [compileRows_eq] at hrows
        have hinner : ∀ row ∈ rows, row.FromScript :=
          forall_compileAll (fun member hmember ids row ids' hrow =>
            fromScript_compileRow (hall.1.members hmembers member hmember) hrow) hrows
        refine fromScript_compileTop hall.2 ?_ htop
        rw [hnone, List.nil_append]
        exact hinner
      · rw [compileNodes, if_neg helement] at hnodes
        exact fromScript_compileTop hall (List.forall_mem_nil _) hnodes
  · cases h

/-- A compiled document has a width, distinct ids, and rows that fill the grid. -/
theorem compileWith_shaped {defaults : Defaults} {source : String} {d : Document}
    (h : compileWith defaults source = .ok d) : d.Shaped := by
  obtain ⟨hids, hwidth, hrows⟩ := compileWith_spec h
  refine ⟨hwidth.1, hwidth.2, hids, fun row hrow => ?_⟩
  obtain ⟨hcount, hshare⟩ := hrows row hrow
  refine ⟨ne_nil_of_shares hshare, hcount, fun column hcolumn => ?_, hshare.sum_eq⟩
  have hmem : column.units ∈ row.columns.map Column.units := List.mem_map_of_mem hcolumn
  exact ⟨hshare.pos _ hmem, hshare.le hmem⟩

end Script

end MailTemplate
