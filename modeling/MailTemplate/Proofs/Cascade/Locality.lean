import MailTemplate.Proofs.Cascade.Layers
import MailTemplate.Proofs.Cascade.NodeByNode
import MailTemplate.Proofs.Edit.Run
import MailTemplate.Proofs.Places

/-!
# Resolution is local

What a node resolves to depends on the node's own attributes and on a few fields of its row and of
its document, and on nothing else: neither on its siblings nor on other rows.  `BlocksAgree`,
`RowsAgree` and `ColumnsAgree` list these fields for the three kinds of nodes.

Two nodes that agree on them resolve to the same attributes, each in a document of its own
(`block_eq_of_agree`, `row_eq_of_agree`, `column_eq_of_agree`).  Thus an edit of what one block
holds replaces that block in the resolved document and leaves all other nodes as they were
(`resolve_modifyBlock`), and a moved row takes its resolved row along (`perm_rows_moveRow`).

Main result: `resolution_local`.
-/

namespace MailTemplate

/-- No two columns of a row share an id. -/
def Row.DistinctColumns (row : Row) : Prop := (row.columns.map Column.id).Nodup

/-- The block whose attributes or content an edit sets. -/
def Edit.retouchedBlock? : Edit → Option String
  | setBlockAttribute id _ _ => some id
  | removeBlockAttribute id _ => some id
  | setBlockContent id _ => some id
  | _ => none

/-- The resolved document with another block in the place of one. -/
def ResolvedDocument.replaceBlock (d : ResolvedDocument) (place : BlockPlace) (b : ResolvedBlock) :
    ResolvedDocument :=
  { d with
    rows := d.rows.modify place.row fun r => { r with
      columns := r.columns.modify place.column fun c => { c with
        blocks := c.blocks.set place.block b } } }

namespace Cascade

/-! ### What resolution reads -/

/-- Two blocks, each in a row of a document, agree on all that a block resolves from. -/
structure BlocksAgree (d d' : Document) (r r' : Row) (b b' : Block) : Prop where
  fontFamily : d'.fontFamily = d.fontFamily
  color : d'.color = d.color
  linkColor : d'.linkColor = d.linkColor
  variant : d'.variant = d.variant
  theme : d'.theme = d.theme
  role : r'.role = r.role
  count : r'.columns.length = r.columns.length
  /-- The columns of the blocks have the same place in their rows. -/
  place : ∃ (i : ℕ) (c c' : Column), (r.columns[i]? = some c ∧ b ∈ c.blocks) ∧
    r'.columns[i]? = some c' ∧ b' ∈ c'.blocks
  kind : b'.kind = b.kind
  attributes : b'.attributes = b.attributes

/-- Two rows, each of a document, agree on all that a row resolves from. -/
structure RowsAgree (d d' : Document) (r r' : Row) : Prop where
  rowBackgroundColor : d'.rowBackgroundColor = d.rowBackgroundColor
  backgroundColor : d'.backgroundColor = d.backgroundColor
  variant : d'.variant = d.variant
  theme : d'.theme = d.theme
  role : r'.role = r.role
  attributes : r'.attributes = r.attributes

/-- Two columns, each in a row, agree on all that a column resolves from. -/
structure ColumnsAgree (r r' : Row) (c c' : Column) : Prop where
  role : r'.role = r.role
  count : r'.columns.length = r.columns.length
  /-- The columns have the same place in their rows. -/
  place : ∃ i : ℕ, r.columns[i]? = some c ∧ r'.columns[i]? = some c'
  verticalAlign : r'.attributes.get? "verticalAlign" = r.attributes.get? "verticalAlign"
  attributes : c'.attributes = c.attributes

/-- Documents of the same theme have the same palette. -/
lemma paletteOf_congr {d d' : Document} (h : d'.theme = d.theme) : paletteOf d' = paletteOf d := by
  unfold paletteOf
  rw [h]

/-- The first column with the id of a column is that column, if no two columns share an id. -/
lemma columnIndex?_of_getElem? {r : Row} (h : r.DistinctColumns) {i : ℕ} {c : Column}
    (hc : r.columns[i]? = some c) : r.columnIndex? c.id = some i := by
  obtain ⟨hi, rfl⟩ := List.getElem?_eq_some_iff.mp hc
  unfold Row.columnIndex?
  rw [List.findIdx?_eq_some_iff_getElem]
  refine ⟨hi, beq_self_eq_true _, ?_⟩
  intro earlier hlt hid
  rw [beq_iff_eq] at hid
  -- an earlier column with that id would share it with the column
  have hapart := List.pairwise_iff_getElem.mp h earlier i (by simp; omega) (by simpa using hi) hlt
  rw [List.getElem_map, List.getElem_map] at hapart
  exact hapart hid

/-- Blocks of the same kind and attributes resolve alike in scopes that agree. -/
lemma blockIn_congr (view : View) {scope other : Scope} (h : scope.Agrees other) {b b' : Block}
    (hkind : b'.kind = b.kind) (hattributes : b'.attributes = b.attributes) :
    blockIn view other b' = blockIn view scope b := by
  have hlevel : headingLevel b' = headingLevel b := by
    unfold headingLevel
    rw [hattributes]
  unfold blockIn
  rw [blockLayers_eq, blockLayers_eq, h.baseLayers hkind hlevel, h.mobile, hkind, hattributes]

section Agreement

variable (view : View) {d d' : Document} {r r' : Row}

/-- Blocks resolve alike wherever they agree. -/
lemma block_eq_of_agree (hr : r.DistinctBlocks) (hr' : r'.DistinctBlocks) {b b' : Block}
    (h : BlocksAgree d d' r r' b b') : block view d' r' b' = block view d r b := by
  obtain ⟨i, c, c', ⟨hc, hb⟩, hc', hb'⟩ := h.place
  unfold block
  rw [findIdx?_of_mem hr hc hb, findIdx?_of_mem hr' hc' hb', paletteOf_congr h.theme]
  have hscope : Scope.Agrees ⟨d, r, some i, paletteOf d, view.mobile⟩
      ⟨d', r', some i, paletteOf d, view.mobile⟩ :=
    ⟨h.fontFamily, h.color, h.linkColor, h.variant, h.role, h.count, rfl, rfl, rfl⟩
  exact blockIn_congr view hscope h.kind h.attributes

/-- Rows resolve alike wherever they agree. -/
lemma row_eq_of_agree (h : RowsAgree d d' r r') : row view d' r' = row view d r := by
  unfold row rowIn
  rw [rowLayers_eq, rowLayers_eq, paletteOf_congr h.theme, h.attributes,
    rowBaseLayers_eq view h.rowBackgroundColor h.backgroundColor h.variant _ h.role]

/-- A column resolves alike in rows that have it at the same place under the same alignment. -/
lemma column_congr (hrole : r'.role = r.role) (hcount : r'.columns.length = r.columns.length)
    (halign : r'.attributes.get? "verticalAlign" = r.attributes.get? "verticalAlign")
    {c c' : Column} (hplace : r'.columnIndex? c'.id = r.columnIndex? c.id)
    (hattributes : c'.attributes = c.attributes) :
    column view d' r' c' = column view d r c := by
  have htext : r'.attributes.text? "verticalAlign" = r.attributes.text? "verticalAlign" := by
    unfold Attributes.text?
    rw [halign]
  have hbase : columnBase ⟨d', r', r'.columnIndex? c'.id, none, view.mobile⟩ =
      columnBase ⟨d, r, r.columnIndex? c.id, none, view.mobile⟩ :=
    columnBase_congr hrole hcount hplace htext
  rw [column_eq, column_eq, hbase, hattributes]

/-- Columns resolve alike wherever they agree. -/
lemma column_eq_of_agree (hr : r.DistinctColumns) (hr' : r'.DistinctColumns) {c c' : Column}
    (h : ColumnsAgree r r' c c') : column view d' r' c' = column view d r c := by
  obtain ⟨i, hc, hc'⟩ := h.place
  have hplace : r'.columnIndex? c'.id = r.columnIndex? c.id := by
    rw [columnIndex?_of_getElem? hr hc, columnIndex?_of_getElem? hr' hc']
  exact column_congr view h.role h.count h.verticalAlign hplace h.attributes

end Agreement

/-! ### Edits of one block -/

section Retouched

variable {view : View} {d : Document}

/-- A column resolves with its blocks as it does in a row that has the same columns up to their
blocks. -/
lemma resolveColumn_congr (palette : Option Palette) {r r' : Row} (hrole : r'.role = r.role)
    (hids : r'.columns.map Column.id = r.columns.map Column.id)
    (hattributes : r'.attributes = r.attributes) :
    resolveColumn view d palette r' = resolveColumn view d palette r := by
  have hcount : r'.columns.length = r.columns.length := by
    simpa using congrArg List.length hids
  have hindex : ∀ id, r'.columnIndex? id = r.columnIndex? id := by
    intro id
    have hfind : ∀ row : Row, row.columnIndex? id =
        (row.columns.map Column.id).findIdx? (· == id) := by
      intro row
      rw [List.findIdx?_map]
      rfl
    rw [hfind, hfind, hids]
  funext place c
  have hcolumn : column view d r' c = column view d r c :=
    column_congr view hrole hcount (by rw [hattributes]) (hindex c.id) rfl
  have hscope : Scope.Agrees ⟨d, r, some place, palette, view.mobile⟩
      ⟨d, r', some place, palette, view.mobile⟩ :=
    ⟨rfl, rfl, rfl, rfl, hrole, hcount, rfl, rfl, rfl⟩
  have hblocks : resolveBlock view ⟨d, r', some place, palette, view.mobile⟩ =
      resolveBlock view ⟨d, r, some place, palette, view.mobile⟩ := by
    funext b
    unfold resolveBlock
    rw [blockIn_congr view hscope rfl rfl]
  unfold resolveColumn
  rw [hcolumn, hblocks]

/-- A row with one block changed resolves with the resolved changed block in its place. -/
lemma resolveRow_modifyBlock (palette : Option Palette) {r : Row} {j k : ℕ} {c : Column}
    {b : Block} (hc : r.columns[j]? = some c) (hb : c.blocks[k]? = some b) (f : Block → Block) :
    resolveRow view d palette { r with columns := r.columns.modify j fun c =>
        { c with blocks := c.blocks.modify k f } } =
      { resolveRow view d palette r with
        columns := (resolveRow view d palette r).columns.modify j fun c => { c with
          blocks := c.blocks.set k
            (resolveBlock view ⟨d, r, some j, palette, view.mobile⟩ (f b)) } } := by
  have hids : (r.columns.modify j fun c => { c with blocks := c.blocks.modify k f }).map Column.id =
      r.columns.map Column.id :=
    map_modify_of_eq (f := fun c : Column => { c with blocks := c.blocks.modify k f })
      (fun _ => rfl) r.columns j
  have hsame : resolveColumn view d palette { r with columns := r.columns.modify j fun c =>
      { c with blocks := c.blocks.modify k f } } = resolveColumn view d palette r :=
    resolveColumn_congr palette rfl hids rfl
  unfold resolveRow
  simp only [hsame, ResolvedRow.mk.injEq, true_and]
  refine ⟨rfl, rfl, ?_⟩
  rw [zipIdx_modify]
  refine map_modify_at ?_
  rintro ⟨found, place⟩ hfound
  rw [List.getElem?_zipIdx, hc, Option.map_some, Option.some.injEq, Prod.mk.injEq, zero_add]
    at hfound
  obtain ⟨rfl, rfl⟩ := hfound
  have hblocks : (c.blocks.modify k f).map
        (resolveBlock view ⟨d, r, some j, palette, view.mobile⟩) =
      (c.blocks.map (resolveBlock view ⟨d, r, some j, palette, view.mobile⟩)).set k
        (resolveBlock view ⟨d, r, some j, palette, view.mobile⟩ (f b)) := by
    rw [List.set_eq_modify]
    refine map_modify_at ?_
    intro other hother
    obtain rfl : b = other := Option.some.inj (hb.symm.trans hother)
    rfl
  unfold resolveColumn
  rw [← hblocks]
  rfl

/-- A document with one block changed resolves with the resolved changed block in its place. -/
lemma resolve_modifyBlock {place : BlockPlace} {r : Row} {c : Column} {b : Block}
    (hr : d.rows[place.row]? = some r) (hc : r.columns[place.column]? = some c)
    (hb : c.blocks[place.block]? = some b) (f : Block → Block) :
    resolve view (d.modifyBlock place f) =
      (resolve view d).replaceBlock place
        (resolveBlock view ⟨d, r, some place.column, paletteOf d, view.mobile⟩ (f b)) := by
  have hrows : ((d.rows.modify place.row fun r => { r with
        columns := r.columns.modify place.column fun c =>
          { c with blocks := c.blocks.modify place.block f } }).map
        (resolveRow view d (paletteOf d))) =
      (d.rows.map (resolveRow view d (paletteOf d))).modify place.row fun found => { found with
        columns := found.columns.modify place.column fun c => { c with
          blocks := c.blocks.set place.block
            (resolveBlock view ⟨d, r, some place.column, paletteOf d, view.mobile⟩ (f b)) } } := by
    refine map_modify_at ?_
    intro found hfound
    obtain rfl : r = found := Option.some.inj (hr.symm.trans hfound)
    exact resolveRow_modifyBlock (paletteOf d) hc hb f
  unfold ResolvedDocument.replaceBlock resolve
  rw [← hrows]
  rfl

end Retouched

/-! ### Edits and resolved documents -/

/-- An edit of what one block holds changes the block that its id finds, under that id. -/
lemma exists_apply_eq_onBlock {e : Edit} {id : String} (he : e.retouchedBlock? = some id) :
    ∃ f : Block → Block, (∀ settings d, e.apply settings d = Edit.onBlock d id f) ∧
      ∀ b, (f b).id = b.id := by
  cases e with
  | setBlockAttribute =>
    cases he
    exact ⟨_, fun _ _ => rfl, fun _ => rfl⟩
  | removeBlockAttribute =>
    cases he
    exact ⟨_, fun _ _ => rfl, fun _ => rfl⟩
  | setBlockContent =>
    cases he
    exact ⟨_, fun _ _ => rfl, fun _ => rfl⟩
  | _ => cases he

section Edits

variable (view : View) (settings : GridSettings) {d : Document}

/-- An edit of what one block holds replaces that block in the resolved document. -/
lemma resolve_retouched {e : Edit} {id : String} (he : e.retouchedBlock? = some id)
    {place : BlockPlace} (hplace : d.blockPlace? id = some place) :
    ∃ b, b.id = id ∧
      resolve view (e.applyOrKeep settings d) = (resolve view d).replaceBlock place b := by
  obtain ⟨f, hf, hid⟩ := exists_apply_eq_onBlock he
  obtain ⟨r, c, b, hr, hc, hb, hbid⟩ := Document.blockPlace?_spec hplace
  have happly : e.apply settings d = .ok (d.modifyBlock place f) := by
    rw [hf]
    unfold Edit.onBlock
    rw [Edit.findBlock_eq_ok.mpr hplace]
    rfl
  unfold Edit.applyOrKeep
  rw [happly]
  exact ⟨_, (hid b).trans hbid, resolve_modifyBlock hr hc hb f⟩

/-- An edit of a block that is not there changes nothing. -/
lemma applyOrKeep_of_not_found {e : Edit} {id : String} (he : e.retouchedBlock? = some id)
    (hplace : d.blockPlace? id = none) : e.applyOrKeep settings d = d := by
  obtain ⟨f, hf, -⟩ := exists_apply_eq_onBlock he
  unfold Edit.applyOrKeep
  rw [hf]
  unfold Edit.onBlock Edit.findBlock
  rw [hplace]
  rfl

/-- A moved row takes its resolved row along. -/
lemma resolve_moveRow (dragId hoverId : String) :
    ∃ rows, rows.Perm (resolve view d).rows ∧
      resolve view ((Edit.moveRow dragId hoverId).applyOrKeep settings d) =
        { resolve view d with rows } := by
  rcases Edit.step_or_keep settings d (.moveRow dragId hoverId) with hstep | hkeep
  · generalize (Edit.moveRow dragId hoverId).applyOrKeep settings d = d' at hstep
    cases hstep with
    | moveRow _ _ hhovered hrow =>
      exact ⟨_, (Document.perm_rows_of_moved hrow hhovered).map _, rfl⟩
  · exact ⟨_, .refl _, by rw [hkeep]⟩

end Edits

/-! ### Locality -/

/-- Resolution is local.  Under one view, in any two documents, blocks, rows and columns that agree
on the few fields that they resolve from resolve to the same attributes, whatever else differs.  An
edit of what one block holds replaces that block in the resolved document and changes no other node,
and a moved row only changes the order of the resolved rows. -/
theorem resolution_local (view : View) :
    (∀ (d d' : Document) (r r' : Row) (b b' : Block), r.DistinctBlocks → r'.DistinctBlocks →
      BlocksAgree d d' r r' b b' → block view d' r' b' = block view d r b) ∧
    (∀ (d d' : Document) (r r' : Row), RowsAgree d d' r r' → row view d' r' = row view d r) ∧
    (∀ (d d' : Document) (r r' : Row) (c c' : Column), r.DistinctColumns → r'.DistinctColumns →
      ColumnsAgree r r' c c' → column view d' r' c' = column view d r c) ∧
    (∀ (settings : GridSettings) (d : Document) (e : Edit) (id : String),
      e.retouchedBlock? = some id →
        (d.blockPlace? id = none → e.applyOrKeep settings d = d) ∧
        ∀ place, d.blockPlace? id = some place → ∃ b, b.id = id ∧
          resolve view (e.applyOrKeep settings d) = (resolve view d).replaceBlock place b) ∧
    ∀ (settings : GridSettings) (d : Document) (dragId hoverId : String),
      ∃ rows, rows.Perm (resolve view d).rows ∧
        resolve view ((Edit.moveRow dragId hoverId).applyOrKeep settings d) =
          { resolve view d with rows } := by
  refine ⟨?_, ?_, ?_, ?_, ?_⟩
  · intro d d' r r' b b' hr hr' h
    exact block_eq_of_agree view hr hr' h
  · intro d d' r r' h
    exact row_eq_of_agree view h
  · intro d d' r r' c c' hr hr' h
    exact column_eq_of_agree view hr hr' h
  · intro settings d e id he
    refine ⟨applyOrKeep_of_not_found settings he, ?_⟩
    intro place hplace
    exact resolve_retouched view settings he hplace
  · intro settings d dragId hoverId
    exact resolve_moveRow view settings dragId hoverId

/-- A text with an attribute for the mobile view. -/
def mobileText (id : String) : Block where
  id
  kind := .text
  attributes := .ofList [("mobile", .json (.object [("fontSize", .int 12)]))]

/-- A footer of three columns with a text in the second one. -/
def footerRow (id blockId : String) (others : List Block) : Row where
  id
  role := some .footer
  attributes := .ofList [("verticalAlign", .text "bottom")]
  columns := [
    { id := "a", units := 4, blocks := others },
    { id := blockId ++ "-column", units := 4, blocks := [mobileText blockId] },
    { id := "z", units := 4 }]

/-- A themed document with such a footer. -/
def plainFooter : Document where
  id := "e"
  theme := some "#3B82F6"
  rows := [footerRow "r" "b" []]

/-- A document with the same theme, other texts and such a footer behind another row. -/
def busyFooter : Document where
  id := "other"
  name := "Another"
  previewText := "Another preview"
  width := 480
  theme := some "#3B82F6"
  rows := [{ id := "top" }, footerRow "s" "x" [{ id := "y", kind := .icon }]]

/-- The texts, the footers and the middle columns of the two documents resolve alike in the mobile
view, and an edit of the text changes that text only. -/
theorem resolution_local_footers :
    block { mobile := true } busyFooter (footerRow "s" "x" [{ id := "y", kind := .icon }])
        (mobileText "x") =
      block { mobile := true } plainFooter (footerRow "r" "b" []) (mobileText "b") ∧
    row { mobile := true } busyFooter (footerRow "s" "x" [{ id := "y", kind := .icon }]) =
      row { mobile := true } plainFooter (footerRow "r" "b" []) ∧
    column { mobile := true } busyFooter (footerRow "s" "x" [{ id := "y", kind := .icon }])
        { id := "x-column", units := 4, blocks := [mobileText "x"] } =
      column { mobile := true } plainFooter (footerRow "r" "b" [])
        { id := "b-column", units := 4, blocks := [mobileText "b"] } ∧
    ∃ b, b.id = "b" ∧
      resolve { mobile := true }
          ((Edit.setBlockContent "b" (some "hi")).applyOrKeep {} plainFooter) =
        (resolve { mobile := true } plainFooter).replaceBlock ⟨0, 1, 0⟩ b := by
  obtain ⟨hblock, hrow, hcolumn, hedit, -⟩ := resolution_local { mobile := true }
  refine ⟨?_, ?_, ?_, ?_⟩
  · refine hblock _ _ _ _ _ _ (by unfold Row.DistinctBlocks; decide)
      (by unfold Row.DistinctBlocks; decide) ⟨rfl, rfl, rfl, rfl, rfl, rfl, rfl, ?_, rfl, rfl⟩
    exact ⟨1, _, _, ⟨rfl, List.mem_cons_self⟩, rfl, List.mem_cons_self⟩
  · exact hrow _ _ _ _ ⟨rfl, rfl, rfl, rfl, rfl, rfl⟩
  · refine hcolumn plainFooter busyFooter _ _ _ _ (by unfold Row.DistinctColumns; decide)
      (by unfold Row.DistinctColumns; decide) ⟨rfl, rfl, ?_, rfl, rfl⟩
    exact ⟨1, rfl, rfl⟩
  · exact (hedit {} plainFooter (.setBlockContent "b" (some "hi")) "b" rfl).2 _ rfl

end Cascade

end MailTemplate
