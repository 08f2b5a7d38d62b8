import MailTemplate.Proofs.Edit.IdConservation
import MailTemplate.Proofs.Edit.Kept

/-!
# What an edit leaves as it was

On a document whose ids are distinct, an edit that is carried out touches what it names and nothing
else: `Frames` lists, field by field, what the document has afterwards of what it had before.  The
nodes of a step are kept (`Step.keepsNodes`), each block is there exactly once
(`Step.exists_keepsBlock`), and an edit of columns changes widths and one column of its row
(`Step.reshaped`).

Main result: `apply_frames`.
-/

namespace MailTemplate

open Document (Payload Node)

/-- A column apart from its width. -/
def Column.withoutUnits (column : Column) : Column := { column with units := 0 }

/-- A row apart from the widths of its columns. -/
def Row.withoutUnits (row : Row) : Row :=
  { row with columns := row.columns.map Column.withoutUnits }

/-- New widths change nothing but widths. -/
lemma Row.withoutUnits_withUnits {row : Row} {units : List ℕ}
    (h : row.columns.length ≤ units.length) :
    (row.withUnits units).withoutUnits = row.withoutUnits := by
  have hcolumns := map_columns_withUnits (g := Column.withoutUnits) (fun _ _ => rfl) h
  unfold withoutUnits
  rw [hcolumns]
  rfl

namespace Edit

/-- The ids of the nodes that an edit removes or moves to another place. -/
def leaving (d : Document) (e : Edit) : List String := e.removed d ++ e.moved

/-- What an edit of columns makes of its row, widths apart: nothing else when a divider moves, one
more column with a fresh id and nothing in it, or one column less. -/
def Reshaped (d : Document) (r r' : Row) : Edit → Prop
  | resizeColumns _ _ _ => r'.withoutUnits = r.withoutUnits
  | addColumn _ => ∃ id, id ∉ d.ids ∧ r'.withoutUnits =
      { r.withoutUnits with columns := r.withoutUnits.columns ++ [{ id, units := 0 }] }
  | deleteColumn columnId => r'.withoutUnits =
      { r.withoutUnits with columns := r.withoutUnits.columns.filter fun c => c.id ≠ columnId }
  | _ => True

/-- What a document has after an edit of what it had before. -/
structure Frames (e : Edit) (d d' : Document) : Prop where
  /-- All of the document itself stays, its variant and its theme apart. -/
  header : { d' with rows := d.rows, variant := d.variant, theme := d.theme } = d
  variant : (∀ variant, e ≠ .setVariant variant) → d'.variant = d.variant
  theme : (∀ seed, e ≠ .setTheme seed) → d'.theme = d.theme
  /-- The ids stay distinct. -/
  ids : d'.ids.Nodup
  /-- A block that is not removed is there exactly once. -/
  blocks : ∀ b ∈ d.blocks, b.id ∉ e.removed d →
    ∃ b', (d'.blocks.filter fun x => x.id == b.id) = [b'] ∧ KeepsBlock e b b'
  /-- A block that is not moved either stays in its column, before and behind the same blocks. -/
  columns : ∀ c ∈ d.columns, c.id ∉ e.removed d →
    ∃ c' ∈ d'.columns, KeepsColumn (e.leaving d) c c'
  rows : ∀ r ∈ d.rows, r.id ∉ e.removed d → ∃ r' ∈ d'.rows, KeepsRow e r r'
  rowOrder : ((d.rows.map Row.id).filter (· ∉ e.leaving d)).Sublist (d'.rows.map Row.id)
  /-- An edit of columns changes widths and one column. -/
  reshaped : ∀ r ∈ d.rows, e.Reshapes r → ∃ r' ∈ d'.rows, r'.id = r.id ∧ e.Reshaped d r r'

/-! ### Rows with other widths -/

/-- A moved divider changes widths only. -/
lemma withoutUnits_resized (left leftUnits rightUnits : ℕ) (row : Row) :
    (resized left leftUnits rightUnits row).withoutUnits = row.withoutUnits := by
  unfold Row.withoutUnits
  rw [map_columns_resized fun _ _ => rfl]
  rfl

/-- An added column leaves the others as they are, widths apart. -/
lemma withoutUnits_widened {settings : GridSettings} {row : Row} {units : List ℕ} (id : String)
    (h : Grid.addColumn settings (row.columns.map Column.units) = .ok units) :
    (widened units { id, units := settings.newColumnUnits } row).withoutUnits =
      { row.withoutUnits with columns := row.withoutUnits.columns ++ [{ id, units := 0 }] } := by
  obtain ⟨i, hi, -, rfl⟩ := Grid.addColumn_eq_ok h
  have hlen : row.columns.length ≤ ((row.columns.map Column.units).modify i
      (· - settings.newColumnUnits) ++ [settings.newColumnUnits]).length := by simp
  have hkept := Row.map_columns_withUnits (g := Column.withoutUnits) (fun _ _ => rfl) hlen
  unfold Row.withoutUnits widened
  rw [List.map_append, hkept]
  rfl

/-- A removed column leaves the others as they are, widths apart. -/
lemma withoutUnits_narrowed {row : Row} {index : ℕ} {units : List ℕ}
    (h : Grid.deleteColumn (row.columns.map Column.units) index = .ok units) :
    (narrowed index units row).withoutUnits =
      { row.withoutUnits with
        columns := (row.columns.eraseIdx index).map Column.withoutUnits } := by
  obtain ⟨hi, -, hunits⟩ := Grid.deleteColumn_eq_ok h
  have hlen : { row with columns := row.columns.eraseIdx index }.columns.length ≤
      units.length := by
    rw [hunits, List.length_modify, List.length_map, List.eraseIdx_map, List.length_map]
  exact Row.withoutUnits_withUnits hlen

/-- A column that is there afterwards, its width apart, is kept. -/
lemma exists_keepsColumn {leaving : List String} {c : Column} {columns : List Column}
    (h : c.withoutUnits ∈ columns.map Column.withoutUnits) :
    ∃ c' ∈ columns, KeepsColumn leaving c c' := by
  obtain ⟨c', hc', heq⟩ := List.mem_map.mp h
  simp only [Column.withoutUnits, Column.mk.injEq] at heq
  obtain ⟨hid, -, hattributes, hblocks⟩ := heq
  refine ⟨c', hc', hid, hattributes, ?_⟩
  rw [hblocks]
  exact List.filter_sublist

/-! ### Nodes -/

section Nodes

variable {settings : GridSettings} {e : Edit} {d d' : Document}

/-- The columns of a row have distinct ids if all nodes of the document have. -/
lemma nodup_columns_of_mem (hd : d.ids.Nodup) {row : Row} (hrow : row ∈ d.rows) :
    (row.columns.map Column.id).Nodup := by
  have hall : (d.columns.map Column.id).Nodup := hd.sublist (map_id_columns_sublist d)
  unfold Document.columns at hall
  rw [List.map_flatMap] at hall
  exact (List.nodup_flatMap.mp hall).1 row hrow

/-- A block that is taken out leaves all other nodes. -/
lemma Detaches.keepsNodes {source : BlockSource} {block : Block} (h : Detaches d source block d')
    (hnamed : ∀ id ∈ source.named, id ∈ e.named) : KeepsNodes e [] source.named d d' := by
  cases h with
  | @existing id place _ _ hplace _ =>
    refine keepsNodes_atBlock hplace (hnamed id List.mem_cons_self) ?_
    intro c b hb hid
    exact keepsColumn_eraseIdx hb (hid ▸ List.mem_cons_self)
  | new => exact keepsNodes_of_rows_eq rfl

/-- A block that lands leaves all other nodes. -/
lemma Attaches.keepsNodes {block : Block} {target : DropTarget} {side : Side}
    (h : Attaches d block target side d') (hnamed : target.named ∈ e.named) :
    KeepsNodes e [] [] d d' := by
  cases h with
  | aboveBlock hplace =>
    refine keepsNodes_atBlock hplace hnamed ?_
    intro c _ _ _
    exact keepsColumn_of_sublist [] (List.sublist_insertIdx _ _ _)
  | belowBlock hplace =>
    refine keepsNodes_atBlock hplace hnamed ?_
    intro c _ _ _
    exact keepsColumn_of_sublist [] (List.sublist_insertIdx _ _ _)
  | columnTop hplace =>
    obtain ⟨row, column, hrow, hcolumn, rfl⟩ := Document.columnPlace?_spec hplace
    exact keepsNodes_modifyBlocks hrow hcolumn
      (keepsColumn_of_sublist [] (List.sublist_cons_self _ _))
      ⟨column.id, Row.mem_ids_of_column (List.mem_of_getElem? hcolumn), hnamed⟩
  | columnBottom hplace =>
    obtain ⟨row, column, hrow, hcolumn, rfl⟩ := Document.columnPlace?_spec hplace
    exact keepsNodes_modifyBlocks hrow hcolumn
      (keepsColumn_of_sublist [] (List.sublist_append_left _ _))
      ⟨column.id, Row.mem_ids_of_column (List.mem_of_getElem? hcolumn), hnamed⟩

/-- A document with one row reshaped keeps its nodes if that row changes in its columns only, and if
the columns that are not removed are there afterwards, widths apart. -/
lemma keepsNodes_reshaped {index : ℕ} {row : Row} {f : Row → Row} {columns : List Column}
    {removed leaving : List String} (hrow : d.rows[index]? = some row) (hreshapes : e.Reshapes row)
    (hnamed : ∃ id ∈ row.ids, id ∈ e.named)
    (h : (f row).withoutUnits = { row.withoutUnits with columns })
    (hcolumns : ∀ c ∈ row.columns, c.id ∉ removed → c.withoutUnits ∈ columns) :
    KeepsNodes e removed leaving d (d.modifyRow index f) := by
  have hparts := h
  simp only [Row.withoutUnits, Row.mk.injEq] at hparts
  obtain ⟨hid, hrole, hattributes, hcontainer, hmap⟩ := hparts
  refine keepsNodes_modifyRow hrow
    ⟨hid, fun _ => hrole, fun _ => hattributes, fun _ _ => by rw [hattributes], hcontainer, ?_, ?_⟩
    ?_
  · intro hnot
    exact absurd hreshapes hnot
  · intro hunnamed
    obtain ⟨id, hmem, hmem'⟩ := hnamed
    exact absurd hmem' (hunnamed id hmem)
  · intro c hc hnot
    exact exists_keepsColumn (hmap ▸ hcolumns c hc hnot)

/-- A removed column leaves the columns of the row that have other ids, widths apart. -/
lemma withoutUnits_narrowed_eq_filter {row : Row} {column : Column} {index : ℕ} {units : List ℕ}
    (hnodup : (row.columns.map Column.id).Nodup) (hcolumn : row.columns[index]? = some column)
    (h : Grid.deleteColumn (row.columns.map Column.units) index = .ok units) :
    (narrowed index units row).withoutUnits = { row.withoutUnits with
      columns := row.withoutUnits.columns.filter fun c => c.id ≠ column.id } := by
  rw [withoutUnits_narrowed h, eraseIdx_eq_filter_key hnodup hcolumn]
  unfold Row.withoutUnits
  rw [List.filter_map]
  rfl

/-- Every step keeps the nodes that it neither removes nor moves. -/
lemma Step.keepsNodes (h : Step settings d e d') (hd : d.ids.Nodup) :
    KeepsNodes e (e.removed d) (e.leaving d) d d' := by
  cases h with
  | @moveRow dragId hoverId dragged hovered row hne hdragged hhovered hrow =>
    obtain ⟨found, hfound, hid⟩ := Document.rowIndex?_spec hdragged
    obtain rfl : row = found := Option.some.inj (hrow.symm.trans hfound)
    refine keepsNodes_of_rows ?_ ?_
    · intro r hr
      exact .inl ((Document.perm_rows_of_moved hrow hhovered).mem_iff.mpr hr)
    · refine (rowOrder_eraseIdx hrow (by simp [leaving, moved, hid])).trans ?_
      exact (List.sublist_insertIdx _ _ _).map Row.id
  | @moveBlock source target side block rest d' _ hdetach hattach =>
    -- each half keeps what is not moved, and both leave out the moved block
    refine (hdetach.keepsNodes ?_).trans (hattach.keepsNodes ?_)
    · intro id hid
      exact List.mem_cons_of_mem _ hid
    · exact List.mem_cons_self
  | duplicateRow _ _ => exact keepsNodes_insertIdx _ _
  | duplicateBlock hplace _ =>
    refine keepsNodes_atBlock hplace List.mem_cons_self ?_
    intro c _ _ _
    exact keepsColumn_of_sublist _ (List.sublist_insertIdx _ _ _)
  | @deleteRow rowId index hindex =>
    obtain ⟨row, hrow, hid⟩ := Document.rowIndex?_spec hindex
    have hremoved : (Edit.deleteRow rowId).removed d = row.ids := by
      simp only [removed, Document.row?_eq hindex, hrow]
      rfl
    refine keepsNodes_of_rows ?_ (rowOrder_eraseIdx hrow ?_)
    · intro r hr
      obtain ⟨j, hj, rfl⟩ := List.mem_iff_getElem.mp hr
      by_cases hat : j = index
      · -- the deleted row itself
        subst hat
        obtain rfl : d.rows[j] = row := (List.getElem?_eq_some_iff.mp hrow).2
        exact .inr fun id hmem => hremoved ▸ hmem
      · exact .inl (List.mem_eraseIdx_iff_getElem.mpr ⟨j, hj, hat, rfl⟩)
    · rw [leaving, hremoved]
      exact List.mem_append_left _ List.mem_cons_self
  | deleteBlock hplace =>
    refine keepsNodes_atBlock hplace List.mem_cons_self ?_
    intro c b hb hid
    exact keepsColumn_eraseIdx hb (hid ▸ List.mem_cons_self)
  | resizeColumns hindex hrow _ _ _ _ =>
    obtain ⟨found, hfound, hid⟩ := Document.rowIndex?_spec hindex
    obtain rfl := Option.some.inj (hrow.symm.trans hfound)
    refine keepsNodes_reshaped hrow hid ⟨_, List.mem_cons_self, hid ▸ List.mem_cons_self⟩
      (withoutUnits_resized _ _ _ _) ?_
    intro c hc _
    exact List.mem_map_of_mem hc
  | addColumn hindex hrow hunits =>
    obtain ⟨found, hfound, hid⟩ := Document.rowIndex?_spec hindex
    obtain rfl := Option.some.inj (hrow.symm.trans hfound)
    refine keepsNodes_reshaped hrow hid ⟨_, List.mem_cons_self, hid ▸ List.mem_cons_self⟩
      (withoutUnits_widened _ hunits) ?_
    intro c hc _
    exact List.mem_append_left _ (List.mem_map_of_mem hc)
  | @deleteColumn columnId place row units hplace hrow hunits =>
    obtain ⟨found, column, hfound, hcolumn, rfl⟩ := Document.columnPlace?_spec hplace
    obtain rfl := Option.some.inj (hrow.symm.trans hfound)
    have hremoved : (Edit.deleteColumn column.id).removed d = column.ids := by
      simp only [removed, find?_columns_eq hd hrow hcolumn rfl]
      rfl
    have hmem := List.mem_of_getElem? hcolumn
    have hnodup := nodup_columns_of_mem hd (List.mem_of_getElem? hrow)
    refine keepsNodes_reshaped hrow (List.mem_map_of_mem hmem)
      ⟨column.id, Row.mem_ids_of_column hmem, List.mem_cons_self⟩
      (withoutUnits_narrowed_eq_filter hnodup hcolumn hunits) ?_
    intro c hc hnot
    have hne : c.id ≠ column.id := by
      rintro heq
      exact hnot (hremoved ▸ heq ▸ List.mem_cons_self)
    exact List.mem_filter.mpr ⟨List.mem_map_of_mem hc, decide_eq_true hne⟩
  | addRow _ => exact keepsNodes_insertIdx _ _
  | insertRow _ => exact keepsNodes_insertIdx _ _
  | setBlockAttribute hplace =>
    refine keepsNodes_atBlock hplace List.mem_cons_self ?_
    intro c _ _ _
    exact keepsColumn_modify _ c _ fun _ => rfl
  | removeBlockAttribute hplace =>
    refine keepsNodes_atBlock hplace List.mem_cons_self ?_
    intro c _ _ _
    exact keepsColumn_modify _ c _ fun _ => rfl
  | setBlockContent hplace =>
    refine keepsNodes_atBlock hplace List.mem_cons_self ?_
    intro c _ _ _
    exact keepsColumn_modify _ c _ fun _ => rfl
  | @setRowAttribute rowId key value index hindex =>
    obtain ⟨row, hrow, rfl⟩ := Document.rowIndex?_spec hindex
    refine keepsNodes_modifyRow hrow ⟨rfl, fun _ => rfl, ?_, ?_, rfl, fun _ => rfl, ?_⟩ ?_
    · intro hset
      exact absurd rfl (hset key value)
    · intro other hset
      have hne : other ≠ key := by
        rintro rfl
        exact hset value rfl
      rw [Attributes.get?_set, if_neg hne]
    · intro hunnamed
      exact absurd List.mem_cons_self (hunnamed row.id List.mem_cons_self)
    · intro c hc _
      exact ⟨c, hc, .refl _ c⟩
  | @setRowRole rowId role index hindex =>
    obtain ⟨row, hrow, rfl⟩ := Document.rowIndex?_spec hindex
    refine keepsNodes_modifyRow hrow
      ⟨rfl, ?_, fun _ => rfl, fun _ _ => rfl, rfl, fun _ => rfl, ?_⟩ ?_
    · intro hset
      exact absurd rfl (hset role)
    · intro hunnamed
      exact absurd List.mem_cons_self (hunnamed row.id List.mem_cons_self)
    · intro c hc _
      exact ⟨c, hc, .refl _ c⟩
  | setVariant => exact keepsNodes_of_rows_eq rfl
  | setTheme => exact keepsNodes_of_rows_eq rfl

/-- No two rows share the id of a node. -/
lemma row_eq_of_mem_ids (hd : d.ids.Nodup) {r r' : Row} (hr : r ∈ d.rows) (hr' : r' ∈ d.rows)
    {id : String} (h : id ∈ r.ids) (h' : id ∈ r'.ids) : r = r' := by
  by_contra hne
  have hsymm : Std.Symm (Function.onFun List.Disjoint Row.ids) := ⟨fun _ _ hab => hab.symm⟩
  exact (List.nodup_flatMap.mp hd).2.forall hr hr' hne h h'

/-- No row shares its id with a block. -/
lemma id_ne_of_mem_rows (hd : d.ids.Nodup) {r : Row} {b : Block} (hr : r ∈ d.rows)
    (hb : b ∈ d.blocks) : b.id ≠ r.id := by
  obtain ⟨c, hc, hb⟩ := List.mem_flatMap.mp hb
  obtain ⟨r', hr', hc⟩ := List.mem_flatMap.mp hc
  intro hid
  have hmem : r.id ∈ r'.ids := hid ▸ Row.mem_ids_of_block hc hb
  obtain rfl := row_eq_of_mem_ids hd hr hr' List.mem_cons_self hmem
  have hnot := (List.nodup_cons.mp ((List.nodup_flatMap.mp hd).1 r hr)).1
  rw [← hid] at hnot
  exact hnot (List.mem_flatMap.mpr ⟨c, hc, List.mem_cons_of_mem _ (List.mem_map_of_mem hb)⟩)

/-- The changed row is one of the rows afterwards. -/
lemma mem_rows_modifyRow {index : ℕ} {row : Row} (hrow : d.rows[index]? = some row)
    (f : Row → Row) : f row ∈ (d.modifyRow index f).rows := by
  refine List.mem_of_getElem? (i := index) ?_
  unfold Document.modifyRow
  rw [List.getElem?_modify_eq, hrow]
  rfl

/-- An edit of columns makes of its row what it should. -/
lemma Step.reshaped (h : Step settings d e d') (hd : d.ids.Nodup) {r : Row} (hr : r ∈ d.rows)
    (hreshapes : e.Reshapes r) : ∃ r' ∈ d'.rows, r'.id = r.id ∧ e.Reshaped d r r' := by
  cases h with
  | resizeColumns hindex hrow _ _ _ _ =>
    obtain ⟨found, hfound, hid⟩ := Document.rowIndex?_spec hindex
    obtain rfl := Option.some.inj (hrow.symm.trans hfound)
    obtain rfl := row_eq_of_mem_ids hd hr (List.mem_of_getElem? hrow) List.mem_cons_self
      (by rw [show r.id = _ from hreshapes, ← hid]; exact List.mem_cons_self)
    exact ⟨_, mem_rows_modifyRow hrow _, rfl, withoutUnits_resized _ _ _ r⟩
  | addColumn hindex hrow hunits =>
    obtain ⟨found, hfound, hid⟩ := Document.rowIndex?_spec hindex
    obtain rfl := Option.some.inj (hrow.symm.trans hfound)
    obtain rfl := row_eq_of_mem_ids hd hr (List.mem_of_getElem? hrow) List.mem_cons_self
      (by rw [show r.id = _ from hreshapes, ← hid]; exact List.mem_cons_self)
    exact ⟨_, mem_rows_modifyRow hrow _, rfl, _, IdSource.next_not_mem _ _,
      withoutUnits_widened _ hunits⟩
  | deleteColumn hplace hrow hunits =>
    obtain ⟨found, column, hfound, hcolumn, rfl⟩ := Document.columnPlace?_spec hplace
    obtain rfl := Option.some.inj (hrow.symm.trans hfound)
    obtain ⟨c, hc, hid⟩ := List.mem_map.mp hreshapes
    obtain rfl := row_eq_of_mem_ids hd hr (List.mem_of_getElem? hrow)
      (hid ▸ Row.mem_ids_of_column hc) (Row.mem_ids_of_column (List.mem_of_getElem? hcolumn))
    exact ⟨_, mem_rows_modifyRow hrow _, rfl,
      withoutUnits_narrowed_eq_filter (nodup_columns_of_mem hd hr) hcolumn hunits⟩
  | _ => exact absurd hreshapes id

/-! ### Blocks -/

/-- The ids of the blocks are some of the ids of the document, in order. -/
lemma map_id_blocks_sublist (d : Document) : (d.blocks.map Block.id).Sublist d.ids := by
  unfold Document.blocks Document.columns Document.ids
  rw [List.flatMap_assoc, List.map_flatMap]
  refine List.Sublist.flatMap_right _ ?_
  intro row _
  refine List.Sublist.cons _ ?_
  rw [List.map_flatMap]
  refine List.Sublist.flatMap_right _ ?_
  intro column _
  exact List.sublist_cons_self _ _

/-- The node of a block is one of the nodes of the document. -/
lemma node_mem_nodes {b : Block} (hb : b ∈ d.blocks) : b.node ∈ d.nodes := by
  obtain ⟨c, hc, hb⟩ := List.mem_flatMap.mp hb
  obtain ⟨r, hr, hc⟩ := List.mem_flatMap.mp hc
  have hcolumn : b.node ∈ c.nodes := List.mem_cons_of_mem _ (List.mem_map_of_mem hb)
  exact List.mem_flatMap.mpr
    ⟨r, hr, List.mem_cons_of_mem _ (List.mem_flatMap.mpr ⟨c, hc, hcolumn⟩)⟩

/-- A node that holds what a block holds is the node of a block. -/
lemma exists_block_of_node {id : String} {kind : BlockKind} {content : Option String}
    {attributes : Attributes} (h : ⟨id, .block kind content attributes⟩ ∈ d.nodes) :
    (⟨id, kind, content, attributes⟩ : Block) ∈ d.blocks := by
  obtain ⟨r, hr, h⟩ := List.mem_flatMap.mp h
  rcases List.mem_cons.mp h with h | h
  · cases h
  obtain ⟨c, hc, h⟩ := List.mem_flatMap.mp h
  rcases List.mem_cons.mp h with h | h
  · cases h
  obtain ⟨b, hb, heq⟩ := List.mem_map.mp h
  cases heq
  exact List.mem_flatMap.mpr ⟨c, List.mem_flatMap.mpr ⟨r, hr, hc⟩, hb⟩

/-- What a step makes of the node of a block is the node of a block that keeps what the edit does
not set. -/
lemma Step.exists_retouch_node (h : Step settings d e d') (hd : d.ids.Nodup) {b : Block}
    (hb : b ∈ d.blocks) : ∃ b' : Block, e.retouch b.node = b'.node ∧ KeepsBlock e b b' := by
  have hother : ∀ id f, b.id ≠ id → Node.retouch id f b.node = b.node := fun id f hne => if_neg hne
  cases h with
  | @setBlockAttribute id key value =>
    by_cases hid : b.id = id
    · subst hid
      refine ⟨{ b with attributes := b.attributes.set key value }, if_pos rfl, rfl, rfl,
        fun _ => rfl, ?_, ?_⟩
      · intro hset _
        exact absurd rfl (hset key value)
      · intro other hset _
        have hne : other ≠ key := by
          rintro rfl
          exact hset value rfl
        rw [Attributes.get?_set, if_neg hne]
    · exact ⟨b, hother id _ hid, .refl _ b⟩
  | @removeBlockAttribute id key =>
    by_cases hid : b.id = id
    · subst hid
      refine ⟨{ b with attributes := b.attributes.erase key }, if_pos rfl, rfl, rfl,
        fun _ => rfl, ?_, ?_⟩
      · intro _ hremove
        exact absurd rfl (hremove key)
      · intro other _ hremove
        have hne : other ≠ key := by
          rintro rfl
          exact hremove rfl
        rw [Attributes.get?_erase, if_neg hne]
    · exact ⟨b, hother id _ hid, .refl _ b⟩
  | @setBlockContent id content =>
    by_cases hid : b.id = id
    · subst hid
      refine ⟨{ b with content }, if_pos rfl, rfl, rfl, ?_, fun _ _ => rfl, fun _ _ _ => rfl⟩
      intro hset
      exact absurd rfl (hset content)
    · exact ⟨b, hother id _ hid, .refl _ b⟩
  | setRowAttribute hindex =>
    obtain ⟨row, hrow, rfl⟩ := Document.rowIndex?_spec hindex
    exact ⟨b, hother _ _ (id_ne_of_mem_rows hd (List.mem_of_getElem? hrow) hb), .refl _ b⟩
  | setRowRole hindex =>
    obtain ⟨row, hrow, rfl⟩ := Document.rowIndex?_spec hindex
    exact ⟨b, hother _ _ (id_ne_of_mem_rows hd (List.mem_of_getElem? hrow) hb), .refl _ b⟩
  | _ => exact ⟨b, rfl, .refl _ b⟩

/-- Each block that is not removed is there exactly once, with all that the edit does not set. -/
lemma Step.exists_keepsBlock (h : Step settings d e d') (hd : d.ids.Nodup) {b : Block}
    (hb : b ∈ d.blocks) (hnot : b.id ∉ e.removed d) :
    ∃ b', (d'.blocks.filter fun x => x.id == b.id) = [b'] ∧ KeepsBlock e b b' := by
  obtain ⟨new, htraces⟩ := h.traces hd
  obtain ⟨b', hnode, hkeeps⟩ := h.exists_retouch_node hd hb
  have hkept : b.node ∈ d.nodes.filter fun node => node.id ∉ e.removed d :=
    List.mem_filter.mpr ⟨node_mem_nodes hb, decide_eq_true hnot⟩
  have hmem : b'.node ∈ d'.nodes := by
    rw [htraces.nodes_perm.mem_iff, ← hnode]
    exact List.mem_append_left _ (List.mem_map_of_mem hkept)
  have hd' : (d'.blocks.map Block.id).Nodup :=
    (htraces.ids_nodup hd).sublist (map_id_blocks_sublist d')
  refine ⟨b', ?_, hkeeps⟩
  rw [← hkeeps.id]
  exact filter_key_eq_singleton hd' (exists_block_of_node hmem)

end Nodes

/-! ### Frames -/

/-- A step leaves the document itself as it is, its variant and its theme apart. -/
lemma Step.header {settings : GridSettings} {e : Edit} {d d' : Document}
    (h : Step settings d e d') :
    { d' with rows := d.rows, variant := d.variant, theme := d.theme } = d ∧
      ((∀ variant, e ≠ .setVariant variant) → d'.variant = d.variant) ∧
        ((∀ seed, e ≠ .setTheme seed) → d'.theme = d.theme) := by
  cases h with
  | moveBlock _ hdetach hattach =>
    cases hdetach <;> cases hattach <;> exact ⟨rfl, fun _ => rfl, fun _ => rfl⟩
  | setVariant =>
    refine ⟨rfl, ?_, fun _ => rfl⟩
    intro hset
    exact absurd rfl (hset _)
  | setTheme =>
    refine ⟨rfl, fun _ => rfl, ?_⟩
    intro hset
    exact absurd rfl (hset _)
  | _ => exact ⟨rfl, fun _ => rfl, fun _ => rfl⟩

/-- An edit touches what it names and nothing else, and loses no block.  On a document whose ids are
distinct, what an edit that is carried out leaves as it was is all that `Frames` lists. -/
theorem apply_frames {settings : GridSettings} {e : Edit} {d d' : Document} (hd : d.ids.Nodup)
    (h : e.apply settings d = .ok d') : Frames e d d' := by
  have hstep := step_of_apply h
  obtain ⟨new, htraces⟩ := hstep.traces hd
  have hnodes := hstep.keepsNodes hd
  obtain ⟨hheader, hvariant, htheme⟩ := hstep.header
  exact {
    header := hheader
    variant := hvariant
    theme := htheme
    ids := htraces.ids_nodup hd
    blocks := fun b hb hnot => hstep.exists_keepsBlock hd hb hnot
    columns := hnodes.columns
    rows := hnodes.rows
    rowOrder := hnodes.rowOrder
    reshaped := fun r hr hreshapes => hstep.reshaped hd hr hreshapes }

/-- Two rows of two columns each. -/
def twoByTwo : Document where
  id := "e"
  rows := [
    { id := "r", role := some .header
      columns := [
        { id := "c", units := 5
          blocks :=
            [{ id := "a", kind := .text, content := some "A" }, { id := "b", kind := .icon }] },
        { id := "c'", units := 7, blocks := [{ id := "x", kind := .image }] }] },
    { id := "s"
      columns := [
        { id := "k", units := 6, blocks := [{ id := "y", kind := .spacer }] },
        { id := "k'", units := 6, attributes := .ofList [("align", .text "right")] }] }]

/-- A block moves to the other row, and a column goes with its block. -/
theorem apply_frames_twoByTwo :
    twoByTwo.ids.Nodup ∧
      (∃ d', (Edit.moveBlock (.existing "a") (.block "y") .below).apply {} twoByTwo = .ok d' ∧
        Frames (.moveBlock (.existing "a") (.block "y") .below) twoByTwo d') ∧
      ∃ d', (Edit.deleteColumn "c'").apply {} twoByTwo = .ok d' ∧
        Frames (.deleteColumn "c'") twoByTwo d' := by
  have hnodup : twoByTwo.ids.Nodup := by decide
  refine ⟨hnodup, ?_, ?_⟩
  · have hmove : (Edit.moveBlock (.existing "a") (.block "y") .below).apply {} twoByTwo = .ok _ :=
      rfl
    exact ⟨_, hmove, apply_frames hnodup hmove⟩
  · have hdelete : (Edit.deleteColumn "c'").apply {} twoByTwo = .ok _ := rfl
    exact ⟨_, hdelete, apply_frames hnodup hdelete⟩

end Edit

end MailTemplate
