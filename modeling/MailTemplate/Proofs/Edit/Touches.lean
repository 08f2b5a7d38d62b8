import MailTemplate.Proofs.Edit.Copies
import MailTemplate.Proofs.Edit.DividerPairs

/-!
# Edits node by node

An edit that sets something, moves a divider, or deletes a block or a row brings no node in and
moves none.  What such an edit makes of a block depends on the block alone, and what it makes of a
row on the row alone, wherever they stand: `Edit.touch` carries it out on every node at once.

An edit finds its node by the first place of an id, and changes the document there.  On a document
whose ids are distinct the two agree (`touches_of_isLocal`).
-/

namespace MailTemplate

namespace Edit

/-- The edits that set something, move a divider, or delete a block or a row. -/
inductive IsLocal : Edit → Prop
  | deleteRow (rowId : String) : IsLocal (.deleteRow rowId)
  | deleteBlock (blockId : String) : IsLocal (.deleteBlock blockId)
  | resizeColumns (rowId leftColumnId : String) (leftPercent : Binary64) :
      IsLocal (.resizeColumns rowId leftColumnId leftPercent)
  | setBlockAttribute (blockId key : String) (value : AttributeValue) :
      IsLocal (.setBlockAttribute blockId key value)
  | removeBlockAttribute (blockId key : String) : IsLocal (.removeBlockAttribute blockId key)
  | setBlockContent (blockId : String) (content : Option String) :
      IsLocal (.setBlockContent blockId content)
  | setRowAttribute (rowId key : String) (value : AttributeValue) :
      IsLocal (.setRowAttribute rowId key value)
  | setRowRole (rowId : String) (role : Option RowRole) : IsLocal (.setRowRole rowId role)
  | setVariant (variant : Option StyleVariant) : IsLocal (.setVariant variant)
  | setTheme (seed : Option String) : IsLocal (.setTheme seed)

/-! ### Blocks -/

/-- The edit deletes the block with this id. -/
def deletesBlock (blockId : String) : Edit → Bool
  | deleteBlock id => blockId == id
  | _ => false

/-- What an edit makes of the content of a block. -/
def touchContent (blockId : String) : Edit → Option String → Option String
  | setBlockContent id content, former => if blockId = id then content else former
  | _, former => former

/-- What an edit makes of the attributes of a block. -/
def touchBlockAttributes (blockId : String) : Edit → Attributes → Attributes
  | setBlockAttribute id key value, bag => if blockId = id then bag.set key value else bag
  | removeBlockAttribute id key, bag => if blockId = id then bag.erase key else bag
  | _, bag => bag

/-- What an edit makes of a block, if it does not delete it. -/
def touchBlock (e : Edit) (b : Block) : Option Block :=
  if e.deletesBlock b.id then none
  else some { b with
    content := e.touchContent b.id b.content
    attributes := e.touchBlockAttributes b.id b.attributes }

/-! ### Rows -/

/-- The edit deletes the row with this id. -/
def deletesRow (rowId : String) : Edit → Bool
  | deleteRow id => rowId == id
  | _ => false

/-- What an edit makes of the role of a row. -/
def touchRole (rowId : String) : Edit → Option RowRole → Option RowRole
  | setRowRole id role, former => if rowId = id then role else former
  | _, former => former

/-- What an edit makes of the attributes of a row. -/
def touchRowAttributes (rowId : String) : Edit → Attributes → Attributes
  | setRowAttribute id key value, bag => if rowId = id then bag.set key value else bag
  | _, bag => bag

/-- What an edit makes of the fields of a row and of its blocks. -/
def refill (e : Edit) (row : Row) : Row :=
  { row with
    role := e.touchRole row.id row.role
    attributes := e.touchRowAttributes row.id row.attributes
    columns := row.columns.map (Column.filterMapBlocks e.touchBlock) }

/-- What an edit makes of the widths in a row. -/
def divide (settings : GridSettings) (e : Edit) (row : Row) : Row :=
  match e with
  | resizeColumns rowId leftColumnId leftPercent =>
    if row.id = rowId then divideOrKeep settings row leftColumnId leftPercent else row
  | _ => row

/-- What an edit makes of a row, if it does not delete it. -/
def touchRow (settings : GridSettings) (e : Edit) (row : Row) : Option Row :=
  if e.deletesRow row.id then none else some (e.divide settings (e.refill row))

/-! ### Documents -/

/-- What an edit makes of the variant. -/
def touchVariant : Edit → Option StyleVariant → Option StyleVariant
  | setVariant variant, _ => variant
  | _, former => former

/-- What an edit makes of the theme. -/
def touchTheme : Edit → Option String → Option String
  | setTheme seed, _ => seed
  | _, former => former

/-- What an edit makes of a document, every node taken by itself. -/
def touch (settings : GridSettings) (e : Edit) (d : Document) : Document :=
  { d with
    variant := e.touchVariant d.variant
    theme := e.touchTheme d.theme
    rows := d.rows.filterMap (e.touchRow settings) }

/-- Why an edit cannot be carried out, read off the nodes that the document has. -/
def obstacle? (settings : GridSettings) (d : Document) : Edit → Option EditError
  | deleteRow rowId | setRowAttribute rowId _ _ | setRowRole rowId _ =>
    if rowId ∈ d.rows.map Row.id then none else some (.rowNotFound rowId)
  | deleteBlock blockId | setBlockAttribute blockId _ _ | removeBlockAttribute blockId _
  | setBlockContent blockId _ =>
    if blockId ∈ d.blocks.map Block.id then none else some (.blockNotFound blockId)
  | resizeColumns rowId leftColumnId leftPercent =>
    match d.row? rowId with
    | none => some (.rowNotFound rowId)
    | some row =>
      match row.moveDivider settings leftColumnId leftPercent with
      | .ok _ => none
      | .error error => some error
  | _ => none

/-- What comes of an edit: every node is what the edit makes of it, or there is an obstacle and
nothing that the edit would change. -/
inductive Touches (settings : GridSettings) (d : Document) (e : Edit) : Prop
  | done (happly : e.apply settings d = .ok (e.touch settings d))
      (hobstacle : e.obstacle? settings d = none)
  | refused (error : EditError) (happly : e.apply settings d = .error error)
      (hobstacle : e.obstacle? settings d = some error) (htouch : e.touch settings d = d)

section Touch

variable {settings : GridSettings} {d : Document} {e : Edit}

/-! ### Edits of blocks -/

/-- An edit of a block finds it and changes or leaves out what has its id. -/
lemma findBlock_bind_eq (hd : d.ids.Nodup) {id : String} {change : ℕ → List Block → List Block}
    {f : Block → Option Block}
    (hat : ∀ before b after, b.id = id →
      change before.length (before ++ b :: after) = before ++ ((f b).toList ++ after))
    (hother : ∀ b, b.id ≠ id → f b = some b) :
    (do let place ← findBlock d id
        return d.modifyBlocks ⟨place.row, place.column⟩ (change place.block)) =
      if id ∈ d.blocks.map Block.id then Except.ok (d.filterMapBlocks f)
      else Except.error (EditError.blockNotFound id) := by
  have hblocks : (d.blocks.map Block.id).Nodup := hd.sublist (map_id_blocks_sublist d)
  by_cases hmem : id ∈ d.blocks.map Block.id
  · obtain ⟨place, hplace⟩ := Document.exists_blockPlace?_iff.mpr hmem
    obtain ⟨row, column, block, hrow, hcolumn, hblock, rfl⟩ := Document.blockPlace?_spec hplace
    rw [← findBlock_eq_ok] at hplace
    have hchange : ∀ before after, before.length = place.block →
        change place.block (before ++ block :: after) = before ++ ((f block).toList ++ after) := by
      intro before after hlength
      rw [← hlength, hat before block after rfl]
    rw [hplace, ok_bind, if_pos hmem,
      ← Document.modifyBlocks_eq_filterMapBlocks hblocks hrow hcolumn hblock hchange hother]
    rfl
  · have hplace : d.blockPlace? id = none := by
      rw [Option.eq_none_iff_forall_ne_some]
      intro place hplace
      exact hmem (Document.exists_blockPlace?_iff.mp ⟨place, hplace⟩)
    rw [if_neg hmem]
    unfold findBlock
    rw [hplace]
    rfl

/-- An edit of blocks does to a document what it does to each block. -/
lemma touch_eq_filterMapBlocks (hvariant : e.touchVariant d.variant = d.variant)
    (htheme : e.touchTheme d.theme = d.theme)
    (hrow : ∀ row, e.touchRow settings row = some (row.filterMapBlocks e.touchBlock)) :
    e.touch settings d = d.filterMapBlocks e.touchBlock := by
  have hrows : d.rows.filterMap (e.touchRow settings) =
      d.rows.map (Row.filterMapBlocks e.touchBlock) := by
    rw [funext hrow]
    exact congrFun List.filterMap_eq_map d.rows
  unfold touch Document.filterMapBlocks
  rw [hvariant, htheme, hrows]

/-- A block that is not the one named stays. -/
lemma touchBlock_of_ne {b : Block} (hdelete : e.deletesBlock b.id = false)
    (hcontent : e.touchContent b.id b.content = b.content)
    (hattributes : e.touchBlockAttributes b.id b.attributes = b.attributes) :
    e.touchBlock b = some b := by
  unfold touchBlock
  rw [hdelete, hcontent, hattributes]
  rfl

/-- What comes of an edit of a block. -/
lemma touches_of_block (hd : d.ids.Nodup) {id : String} (change : ℕ → List Block → List Block)
    (happly : e.apply settings d = do
      let place ← findBlock d id
      return d.modifyBlocks ⟨place.row, place.column⟩ (change place.block))
    (hobstacle : e.obstacle? settings d =
      if id ∈ d.blocks.map Block.id then none else some (.blockNotFound id))
    (htouch : e.touch settings d = d.filterMapBlocks e.touchBlock)
    (hat : ∀ before b after, b.id = id →
      change before.length (before ++ b :: after) = before ++ ((e.touchBlock b).toList ++ after))
    (hother : ∀ b, b.id ≠ id → e.touchBlock b = some b) : e.Touches settings d := by
  rw [findBlock_bind_eq hd hat hother, ← htouch] at happly
  by_cases hmem : id ∈ d.blocks.map Block.id
  · rw [if_pos hmem] at happly hobstacle
    exact .done happly hobstacle
  · rw [if_neg hmem] at happly hobstacle
    refine .refused _ happly hobstacle ?_
    rw [htouch]
    refine Document.filterMapBlocks_eq_self ?_
    intro b hb
    refine hother b ?_
    rintro rfl
    exact hmem (List.mem_map_of_mem hb)

/-! ### Edits of rows -/

/-- An edit that concerns no block fills in the fields of rows. -/
lemma refill_eq (hblock : ∀ b, e.touchBlock b = some b) (row : Row) :
    e.refill row = { row with
      role := e.touchRole row.id row.role
      attributes := e.touchRowAttributes row.id row.attributes } := by
  have hcolumns : row.columns.map (Column.filterMapBlocks e.touchBlock) = row.columns :=
    map_eq_self fun c _ => Column.filterMapBlocks_eq_self fun b _ => hblock b
  unfold refill
  rw [hcolumns]

/-- A row that is not the one named stays. -/
lemma touchRow_of_ne (hblock : ∀ b, e.touchBlock b = some b) {row : Row}
    (hdelete : e.deletesRow row.id = false) (hrole : e.touchRole row.id row.role = row.role)
    (hattributes : e.touchRowAttributes row.id row.attributes = row.attributes)
    (hdivide : e.divide settings row = row) : e.touchRow settings row = some row := by
  unfold touchRow
  rw [hdelete, refill_eq hblock, hrole, hattributes]
  exact congrArg some hdivide

/-- An edit that leaves each row as it is leaves the rows. -/
lemma touch_eq_of_kept (h : ∀ r ∈ d.rows, e.touchRow settings r = some r) :
    e.touch settings d =
      { d with variant := e.touchVariant d.variant, theme := e.touchTheme d.theme } := by
  have hrows : d.rows.filterMap (e.touchRow settings) = d.rows :=
    (List.filterMap_congr h).trans List.filterMap_some
  unfold touch
  rw [hrows]

/-- An edit that does to a document what it does to one row, the row with a given id, does to each
row what it does. -/
lemma touch_eq_of_row (hd : d.ids.Nodup) (hvariant : e.touchVariant d.variant = d.variant)
    (htheme : e.touchTheme d.theme = d.theme) {before after : List Row} {row : Row}
    (hrows : d.rows = before ++ row :: after)
    (hother : ∀ r, r.id ≠ row.id → e.touchRow settings r = some r) :
    e.touch settings d =
      { d with rows := before ++ ((e.touchRow settings row).toList ++ after) } := by
  have hids : ((before ++ row :: after).map Row.id).Nodup :=
    hrows ▸ hd.sublist (map_id_rows_sublist d)
  unfold touch
  rw [hvariant, htheme, hrows, filterMap_of_key hids hother]

/-- A row that is found stands between others, and is the first one with its id. -/
lemma findRow_cases (d : Document) (id : String) :
    (id ∉ d.rows.map Row.id ∧ findRow d id = .error (.rowNotFound id)) ∨
      ∃ before row after, d.rows = before ++ row :: after ∧ row.id = id ∧
        id ∉ before.map Row.id ∧ findRow d id = .ok before.length := by
  cases hindex : d.rowIndex? id with
  | none =>
    refine .inl ⟨?_, by simp [findRow, hindex]⟩
    rw [← Document.exists_rowIndex?_iff, hindex]
    simp
  | some index =>
    obtain ⟨before, row, after, hrows, rfl, hid, hfirst⟩ := Document.rowIndex?_eq_some_iff.mp hindex
    exact .inr ⟨before, row, after, hrows, hid, hfirst, findRow_eq_ok.mpr hindex⟩

/-- What comes of an edit of a row that needs nothing but the row. -/
lemma touches_of_row (hd : d.ids.Nodup) {id : String} (change : ℕ → List Row → List Row)
    (happly : e.apply settings d = do
      let index ← findRow d id
      return { d with rows := change index d.rows })
    (hobstacle : e.obstacle? settings d =
      if id ∈ d.rows.map Row.id then none else some (.rowNotFound id))
    (hvariant : e.touchVariant d.variant = d.variant) (htheme : e.touchTheme d.theme = d.theme)
    (hat : ∀ before r after, r.id = id → change before.length (before ++ r :: after) =
      before ++ ((e.touchRow settings r).toList ++ after))
    (hother : ∀ r, r.id ≠ id → e.touchRow settings r = some r) : e.Touches settings d := by
  rcases findRow_cases d id with ⟨hnot, hfind⟩ | ⟨before, row, after, hrows, rfl, -, hfind⟩
  · rw [hfind] at happly
    rw [if_neg hnot] at hobstacle
    refine .refused _ happly hobstacle ?_
    rw [touch_eq_of_kept, hvariant, htheme]
    intro r hr
    refine hother r ?_
    rintro rfl
    exact hnot (List.mem_map_of_mem hr)
  · have hmem : row.id ∈ d.rows.map Row.id := by simp [hrows]
    rw [if_pos hmem] at hobstacle
    refine .done ?_ hobstacle
    rw [happly, hfind, ok_bind, touch_eq_of_row hd hvariant htheme hrows hother]
    change Except.ok _ = Except.ok _
    rw [hrows, hat before row after rfl]

/-- What comes of a moved divider. -/
lemma touches_resizeColumns (hd : d.ids.Nodup) (rowId leftColumnId : String)
    (leftPercent : Binary64) :
    (Edit.resizeColumns rowId leftColumnId leftPercent).Touches settings d := by
  have hblock : ∀ b, (Edit.resizeColumns rowId leftColumnId leftPercent).touchBlock b = some b :=
    fun _ => rfl
  have hother : ∀ r, r.id ≠ rowId →
      (Edit.resizeColumns rowId leftColumnId leftPercent).touchRow settings r = some r :=
    fun _ hne => touchRow_of_ne hblock rfl rfl rfl (if_neg hne)
  rcases findRow_cases d rowId with ⟨hnot, hfind⟩ | ⟨before, row, after, hrows, rfl, hfirst, hfind⟩
  · have hnone : d.row? rowId = none := by
      rw [← Document.exists_row?_iff] at hnot
      rwa [Option.eq_none_iff_forall_ne_some, ← not_exists]
    refine .refused (.rowNotFound rowId) ?_ ?_ (touch_eq_of_kept ?_)
    · simp only [apply, applyResize, hfind]
      rfl
    · simp only [obstacle?, hnone]
    · intro r hr
      refine hother r ?_
      rintro rfl
      exact hnot (List.mem_map_of_mem hr)
  · have hrow : d.row? row.id = some row :=
      Document.row?_eq_some_iff_append.mpr ⟨before, after, hrows, rfl, hfirst⟩
    have happly := apply_resizeColumns_eq settings hrows hfirst leftColumnId leftPercent
    have htouch := touch_eq_of_row hd rfl rfl hrows hother
    cases hmove : row.moveDivider settings leftColumnId leftPercent with
    | error error =>
      have hstays : (Edit.resizeColumns row.id leftColumnId leftPercent).touchRow settings row =
          some row := by
        refine touchRow_of_ne hblock rfl rfl rfl ?_
        simp [divide, divideOrKeep, hmove]
      rw [hmove] at happly
      refine .refused error happly (by simp only [obstacle?, hrow, hmove]) ?_
      rw [htouch, hstays, Option.toList_some, List.singleton_append, ← hrows]
    | ok next =>
      have hnext : (Edit.resizeColumns row.id leftColumnId leftPercent).touchRow settings row =
          some next := by
        simp [touchRow, deletesRow, refill_eq hblock, touchRole, touchRowAttributes, divide,
          divideOrKeep, hmove]
      rw [hmove] at happly
      refine .done ?_ (by simp only [obstacle?, hrow, hmove])
      rw [happly, htouch, hnext]
      rfl

/-! ### All of them -/

/-- An edit that sets something, moves a divider, or deletes a block or a row does to each node what
it does, unless a node that it names is missing or its divider does not move. -/
theorem touches_of_isLocal (settings : GridSettings) (hd : d.ids.Nodup) (he : e.IsLocal) :
    e.Touches settings d := by
  cases he with
  | deleteRow rowId =>
    refine touches_of_row hd (fun i rows => rows.eraseIdx i) rfl rfl rfl rfl ?_ ?_
    · rintro before r after rfl
      simp [touchRow, deletesRow, List.eraseIdx_append_of_length_le]
    · intro r hne
      exact touchRow_of_ne (fun _ => rfl) (by simpa [deletesRow] using hne) rfl rfl rfl
  | deleteBlock blockId =>
    refine touches_of_block hd (fun i bs => bs.eraseIdx i) rfl rfl
      (touch_eq_filterMapBlocks rfl rfl fun _ => rfl) ?_ ?_
    · rintro before b after rfl
      simp [touchBlock, deletesBlock, List.eraseIdx_append_of_length_le]
    · intro b hne
      exact touchBlock_of_ne (by simpa [deletesBlock] using hne) rfl rfl
  | resizeColumns rowId leftColumnId leftPercent =>
    exact touches_resizeColumns hd rowId leftColumnId leftPercent
  | setBlockAttribute blockId key value =>
    refine touches_of_block hd (fun i bs => bs.modify i fun b =>
      { b with attributes := b.attributes.set key value }) rfl rfl
      (touch_eq_filterMapBlocks rfl rfl fun _ => rfl) ?_ ?_
    · rintro before b after rfl
      simp [modify_length_append, touchBlock, deletesBlock, touchContent, touchBlockAttributes]
    · intro b hne
      exact touchBlock_of_ne rfl rfl (if_neg hne)
  | removeBlockAttribute blockId key =>
    refine touches_of_block hd (fun i bs => bs.modify i fun b =>
      { b with attributes := b.attributes.erase key }) rfl rfl
      (touch_eq_filterMapBlocks rfl rfl fun _ => rfl) ?_ ?_
    · rintro before b after rfl
      simp [modify_length_append, touchBlock, deletesBlock, touchContent, touchBlockAttributes]
    · intro b hne
      exact touchBlock_of_ne rfl rfl (if_neg hne)
  | setBlockContent blockId content =>
    refine touches_of_block hd (fun i bs => bs.modify i fun b =>
      { b with content }) rfl rfl (touch_eq_filterMapBlocks rfl rfl fun _ => rfl) ?_ ?_
    · rintro before b after rfl
      simp [modify_length_append, touchBlock, deletesBlock, touchContent, touchBlockAttributes]
    · intro b hne
      exact touchBlock_of_ne rfl (if_neg hne) rfl
  | setRowAttribute rowId key value =>
    have hblock : ∀ b, (Edit.setRowAttribute rowId key value).touchBlock b = some b := fun _ => rfl
    refine touches_of_row hd (fun i rows => rows.modify i fun r =>
      { r with attributes := r.attributes.set key value }) rfl rfl rfl rfl ?_ ?_
    · rintro before r after rfl
      simp [modify_length_append, touchRow, deletesRow, refill_eq hblock, touchRole,
        touchRowAttributes, divide]
    · intro r hne
      exact touchRow_of_ne hblock rfl rfl (if_neg hne) rfl
  | setRowRole rowId role =>
    have hblock : ∀ b, (Edit.setRowRole rowId role).touchBlock b = some b := fun _ => rfl
    refine touches_of_row hd (fun i rows => rows.modify i fun r =>
      { r with role }) rfl rfl rfl rfl ?_ ?_
    · rintro before r after rfl
      simp [modify_length_append, touchRow, deletesRow, refill_eq hblock, touchRole,
        touchRowAttributes, divide]
    · intro r hne
      exact touchRow_of_ne hblock rfl (if_neg hne) rfl rfl
  | setVariant variant =>
    refine .done ?_ rfl
    rw [touch_eq_of_kept fun r _ => touchRow_of_ne (fun _ => rfl) rfl rfl rfl rfl]
    rfl
  | setTheme seed =>
    refine .done ?_ rfl
    rw [touch_eq_of_kept fun r _ => touchRow_of_ne (fun _ => rfl) rfl rfl rfl rfl]
    rfl

/-- An edit of this kind does to each node what it does, or nothing at all. -/
lemma applyOrKeep_eq_touch (hd : d.ids.Nodup) (he : e.IsLocal) :
    applyOrKeep settings d e = e.touch settings d := by
  unfold applyOrKeep
  cases touches_of_isLocal settings hd he with
  | done happly _ => rw [happly]
  | refused error happly _ htouch => rw [happly, htouch]

/-- The ids stay distinct. -/
lemma nodup_ids_touch (settings : GridSettings) (hd : d.ids.Nodup) (he : e.IsLocal) :
    (e.touch settings d).ids.Nodup := by
  rw [← applyOrKeep_eq_touch hd he]
  rcases step_or_keep settings d e with hstep | hkept
  · obtain ⟨new, htraces⟩ := hstep.traces hd
    exact htraces.ids_nodup hd
  · rwa [hkept]

end Touch

end Edit

end MailTemplate
