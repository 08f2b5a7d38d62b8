import MailTemplate.Proofs.Script.Recompile

/-!
# Scripts compile to the documents that they were written from

The script of a document compiles to the document that it is read back as
(`toOption_compile_write_shaped`).  For a writable document that is the reread document, and nothing
when a number is refused.

Main result: the script of a writable document compiles to the same document exactly when every
binary64 number in its embedded JSON rereads as itself (`compile_write_brace_iff`).
-/

namespace MailTemplate.Script

/-! ### Attributes of the root -/

/-- The width of a document is set as written. -/
lemma setDocumentField_width (d : Document) {width : ℕ} (hpos : 1 ≤ width) (hlt : width < 2 ^ 32) :
    setDocumentField d (.ofRaw (bareAttribute "width" (toString width))) =
      .ok { d with width } := by
  have hread := documentWidth?_toString hpos hlt
  unfold setDocumentField Attribute.ofRaw bareAttribute RawValue.text
  simp only
  rw [hread]

/-- The preset of a document is set as written. -/
lemma setDocumentField_variant (d : Document) (v : StyleVariant) :
    setDocumentField d (.ofRaw (bareAttribute "styleVariant" v.name)) =
      .ok { d with variant := some v } := by
  have hset : setDocumentField d (.ofRaw (bareAttribute "styleVariant" v.name)) =
      .ok { d with variant := StyleVariant.ofName? v.name } := rfl
  rw [hset, StyleVariant.ofName?_name]

/-- The attributes of the root make the document without rows. -/
lemma foldlM_setDocumentField {d : Document} (h : d.Shaped) :
    ((rootAttributes d).map Attribute.ofRaw).foldlM setDocumentField (Defaults.document {}) =
      .ok { d with rows := [] } := by
  have hnames : ([quotedAttribute "id" d.id, quotedAttribute "name" d.name].map
      Attribute.ofRaw).foldlM setDocumentField (Defaults.document {}) =
      .ok { id := d.id, name := d.name } := rfl
  -- an empty preview text is not written, but the document starts with one
  have hpreview : ((if d.previewText = "" then []
      else [quotedAttribute "previewText" d.previewText]).map Attribute.ofRaw).foldlM
      setDocumentField { id := d.id, name := d.name } =
      .ok { id := d.id, name := d.name, previewText := d.previewText } := by
    by_cases hempty : d.previewText = ""
    · rw [if_pos hempty, hempty]
      rfl
    · rw [if_neg hempty]
      rfl
  have hfields : ∀ b, ([quotedAttribute "fontFamily" d.fontFamily,
      bareAttribute "width" (toString d.width), quotedAttribute "color" d.color,
      quotedAttribute "backgroundColor" d.backgroundColor,
      quotedAttribute "rowBackgroundColor" d.rowBackgroundColor,
      quotedAttribute "linkColor" d.linkColor].map Attribute.ofRaw).foldlM setDocumentField b =
      .ok { b with
        fontFamily := d.fontFamily, width := d.width, color := d.color,
        backgroundColor := d.backgroundColor, rowBackgroundColor := d.rowBackgroundColor,
        linkColor := d.linkColor } := by
    intro b
    have hfont : setDocumentField b (.ofRaw (quotedAttribute "fontFamily" d.fontFamily)) =
        .ok { b with fontFamily := d.fontFamily } := rfl
    rw [List.map_cons, List.map_cons, List.foldlM_cons, hfont, ok_bind, List.foldlM_cons,
      setDocumentField_width _ h.width_pos h.width_lt]
    rfl
  have hvariant : ∀ b : Document, b.variant = none →
      ((d.variant.map fun v => bareAttribute "styleVariant" v.name).toList.map
        Attribute.ofRaw).foldlM setDocumentField b = .ok { b with variant := d.variant } := by
    intro b hb
    cases d.variant with
    | none =>
      have hsame : b = { b with variant := none } := by rw [← hb]
      exact congrArg Except.ok hsame
    | some v =>
      rw [Option.map_some, Option.toList_some, List.map_singleton, List.foldlM_cons,
        setDocumentField_variant]
      rfl
  have htheme : ∀ b : Document, b.theme = none →
      ((d.theme.map fun t => quotedAttribute "theme" t).toList.map Attribute.ofRaw).foldlM
        setDocumentField b = .ok { b with theme := d.theme } := by
    intro b hb
    cases d.theme with
    | none =>
      have hsame : b = { b with theme := none } := by rw [← hb]
      exact congrArg Except.ok hsame
    | some t => rfl
  unfold rootAttributes
  rw [List.map_append, List.map_append, List.map_append, List.map_append, List.foldlM_append,
    List.foldlM_append, List.foldlM_append, List.foldlM_append, hnames, ok_bind, hpreview, ok_bind,
    hfields, ok_bind, hvariant _ rfl, ok_bind, htheme _ rfl]

/-! ### Ids -/

/-- The explicit ids of a node that names its id first, and of the nodes in it. -/
lemma idTexts_children {e : Element} (he : e ≠ .email) (id : String) (attributes : List Attribute)
    (nodes : List Node) (span : Span) :
    (Node.mk e (.ofRaw (quotedAttribute "id" id) :: attributes) (.children nodes) span).idTexts =
      id :: idTextsOf nodes := by
  have hid : (Node.mk e (.ofRaw (quotedAttribute "id" id) :: attributes) (.children nodes)
      span).explicitId? = some (.ofRaw (quotedAttribute "id" id)) := if_neg he
  rw [Node.idTexts, explicitIds_eq, hid]
  rfl

/-- The explicit ids of a block's node are the block's. -/
lemma idTexts_blockNode (form : Form) (block : Block) :
    (blockNode form block).idTexts = [block.id] := by
  cases form with
  | brace => rfl
  | tag =>
    unfold blockNode tagBody
    cases block.content with
    | none => rfl
    | some content => rfl

/-- The explicit ids of nodes made one by one. -/
lemma idTextsOf_map {α : Type} {node : α → Node} {f : α → List String} {items : List α}
    (h : ∀ a, (node a).idTexts = f a) : idTextsOf (items.map node) = items.flatMap f := by
  induction items with
  | nil => rfl
  | cons a items ih => rw [List.map_cons, idTextsOf_cons, h, ih, List.flatMap_cons]

/-- The explicit ids of a column's node are the column's and its blocks'. -/
lemma idTexts_columnNode (form : Form) (column : Column) :
    (columnNode form column).idTexts = column.ids := by
  have hblocks : idTextsOf (column.blocks.map (blockNode form)) = column.blocks.map Block.id := by
    rw [idTextsOf_map (idTexts_blockNode form), List.map_eq_flatMap]
  have hnode := idTexts_children (e := .column) (by decide) column.id
    ((bareAttribute "width" (toString column.units) ::
      bagAttributes column.attributes ["id", "width"]).map Attribute.ofRaw)
    (column.blocks.map (blockNode form)) default
  rw [hblocks] at hnode
  exact hnode

/-- The explicit ids of a row's node are those of the row and of all nodes in it. -/
lemma idTexts_rowNode (form : Form) (row : Row) : (rowNode form row).idTexts = row.ids := by
  have hnode := idTexts_children (e := .row) (by decide) row.id
    (((row.role.map fun r => quotedAttribute "type" r.name).toList ++
      bagAttributes row.attributes ["id", "type"] ++ containerAttributes row.container).map
      Attribute.ofRaw) (row.columns.map (columnNode form)) default
  rw [idTextsOf_map (idTexts_columnNode form)] at hnode
  exact hnode

/-! ### Documents -/

/-- The script of a document compiles to the document that it is read back as. -/
theorem toOption_compile_write_shaped {form : Form} {d : Document} (h : d.Shaped)
    (hfits : ∀ block ∈ d.blocks, Fits form block) :
    (compile (write form d)).toOption = d.recompiled form := by
  obtain ⟨node, htree, herase⟩ := exists_tree_write hfits
  have hids : idTextsOf [documentNode form d] = d.ids := by
    have hroot : (documentNode form d).idTexts = idTextsOf (d.rows.map (rowNode form)) := rfl
    rw [idTextsOf_cons, idTextsOf_nil, List.append_nil, hroot,
      idTextsOf_map (idTexts_rowNode form)]
    rfl
  have hnodup : (idTextsOf [documentNode form d]).Nodup := by
    rw [hids]
    exact h.ids
  have hfree : ∀ a ∈ explicitIdsOf [documentNode form d],
      a.value.text ∉ ({} : IdSource).taken := by
    intro a _
    exact List.not_mem_nil
  obtain ⟨ids, hreserve⟩ := exists_reserveAll hnodup hfree
  -- the tree that was written, which differs from the tree that is read in its places only
  have hcompile : (Tree.compile (write form d).toList {} ⟨form, [documentNode form d]⟩).toOption =
      d.recompiled form := by
    have hmembers : (documentNode form d).members = .ok (d.rows.map (rowNode form)) := rfl
    have helement : (documentNode form d).element = .email := rfl
    have hattributes : (documentNode form d).attributes =
        (rootAttributes d).map Attribute.ofRaw := rfl
    have hroot : checkRoot (write form d).toList ⟨form, [documentNode form d]⟩ = .ok () := by
      cases form with
      | brace => rfl
      | tag => rfl
    unfold Tree.compile compileNodes
    simp only [hreserve, hroot, ok_bind, helement, if_true, hattributes, foldlM_setDocumentField h,
      hmembers]
    rw [toOption_bind, toOption_compileRows form h.rows, Document.recompiled]
    cases d.rows.mapM (Row.recompiled form) with
    | none => rfl
    | some rows => rfl
  have hnode := toOption_of_placeless
    (placeless_compileTree_erase (write form d).toList (write form d).toList {} form [node])
  rw [List.map_singleton, herase, hcompile] at hnode
  unfold compile compileWith
  simp only [htree, ok_bind]
  rw [hnode]
  cases hresult : Tree.compile (write form d).toList {} ⟨form, [node]⟩ with
  | error fault => rfl
  | ok d' => rfl

/-- Every content can be written as an attribute. -/
lemma fits_brace (block : Block) : Fits .brace block := fun hform => by cases hform

/-- The script of a writable document compiles to the reread document. -/
theorem toOption_compile_write {d : Document} (h : d.Writable) :
    (compile (write .brace d)).toOption = d.reread := by
  rw [toOption_compile_write_shaped h.shaped fun block _ => fits_brace block]
  exact Document.recompiled_eq_reread h fun block _ => rfl

/-- The script of a writable document compiles to the same document exactly when every binary64
number in its embedded JSON rereads as itself. -/
theorem compile_write_brace_iff {d : Document} (h : d.Writable) :
    (∃ d', compile (write .brace d) = .ok d' ∧ d.same d' = true) ↔
      ∀ x ∈ d.jsonFloats, Json.Rereads x := by
  rw [← Document.exists_same_reread_iff h, ← toOption_compile_write h]
  constructor
  · rintro ⟨d', hcompile, hsame⟩
    exact ⟨d', by rw [hcompile]; rfl, hsame⟩
  · rintro ⟨d', hcompile, hsame⟩
    exact ⟨d', eq_ok_of_toOption hcompile, hsame⟩

/-- A document with one table, whose only cell is a number, and with marks of the script language
in its texts. -/
def tableDocument (x : Binary64) : Document where
  id := "e"
  name := "say \"hi\" // now"
  rows := [{
    id := "r"
    role := some (.other "note = 1")
    columns := [{
      id := "c"
      units := 12
      blocks := [{
        id := "b \\"
        kind := .table
        content := some "<b>1 < 2</b> // end"
        attributes := {
          entries := [("rows", .json (.array [.float x]))]
          ordered := List.pairwise_singleton _ _ } }] }] }]

/-- A script can hold the document with a table if the number in it is finite. -/
lemma writable_tableDocument {x : Binary64} (hx : x.isFinite = true) :
    (tableDocument x).Writable := by
  have hempty : ∀ key, Attributes.Writable key {} := fun key e he => by cases he
  have hids : ["r", "c", "b \\"].Nodup := by decide
  have hrole : (RowRole.other "note = 1").Canonical := by
    unfold RowRole.Canonical
    decide
  have hkey : IsPlainKey ["id", "content"] "rows" := ⟨by decide, by decide, by decide⟩
  have hdepth : (Json.array [.float x]).depth ≤ Json.maxDepth := Nat.le_of_ble_eq_true rfl
  refine ⟨Nat.le_of_ble_eq_true rfl, Nat.le_of_ble_eq_true rfl, hids, fun row hrow => ?_⟩
  obtain rfl := List.mem_singleton.mp hrow
  refine ⟨fun r hr => ?_, hempty _, hempty _, List.cons_ne_nil _ _, Nat.le_of_ble_eq_true rfl, rfl,
    fun column hcolumn => ?_⟩
  · obtain rfl : _ = r := Option.some.inj hr
    exact hrole
  obtain rfl := List.mem_singleton.mp hcolumn
  refine ⟨Nat.le_of_ble_eq_true rfl, le_rfl, hempty _, fun block hblock => ?_⟩
  obtain rfl := List.mem_singleton.mp hblock
  refine ⟨fun e he => ?_, fun hkind => by cases hkind⟩
  obtain rfl := List.mem_singleton.mp he
  exact ⟨hkey, ⟨rfl, hdepth, hx, trivial⟩, fun hjson => by cases hjson⟩

/-- Two and a half. -/
def twoAndHalf : Binary64 := .finite false ⟨0x4004000000000000, by decide⟩

/-- The document with two and a half in its table compiles to itself. -/
theorem compile_write_brace_iff_tableDocument :
    (tableDocument twoAndHalf).Writable ∧
      ∃ d', compile (write .brace (tableDocument twoAndHalf)) = .ok d' ∧
        (tableDocument twoAndHalf).same d' = true := by
  have hwritable : (tableDocument twoAndHalf).Writable := writable_tableDocument rfl
  have hread : Json.rereadFloat twoAndHalf = some twoAndHalf := by decide +kernel
  have hsame : twoAndHalf.same twoAndHalf = true := by decide +kernel
  refine ⟨hwritable, (compile_write_brace_iff hwritable).mpr fun y hy => ?_⟩
  obtain rfl := List.mem_singleton.mp hy
  exact ⟨twoAndHalf, hread, hsame⟩

/-- A number with sixteen digits that rereads as the number below it is changed in a table. -/
theorem exists_writable_changed_by_compile :
    ∃ d : Document, d.Writable ∧
      ¬∃ d', compile (write .brace d) = .ok d' ∧ d.same d' = true := by
  -- the text of the first is 5.401095570883857e+38, and is read as the number below it
  obtain ⟨x, y, hfinite, hread, hdiffer⟩ : ∃ x y : Binary64, x.isFinite = true ∧
      Json.rereadFloat x = some y ∧ x.same y = false :=
    ⟨.finite false ⟨5186287861944520246, by decide⟩, .finite false ⟨5186287861944520245, by decide⟩,
      rfl, by decide +kernel, by decide +kernel⟩
  have hwritable := writable_tableDocument hfinite
  refine ⟨tableDocument x, hwritable, ?_⟩
  rintro ⟨d', hcompile, hsame⟩
  have hreread := toOption_compile_write hwritable
  rw [hcompile] at hreread
  obtain ⟨y', hy', hsame'⟩ := (Document.exists_same_reread_iff hwritable).mp
    ⟨d', hreread.symm, hsame⟩ x List.mem_cons_self
  rw [hread] at hy'
  obtain rfl := Option.some.inj hy'
  rw [hdiffer] at hsame'
  cases hsame'

end MailTemplate.Script
