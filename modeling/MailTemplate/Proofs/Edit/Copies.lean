import MailTemplate.Proofs.Edit.Moves

/-!
# Copies

A duplicated row or block stands directly behind the original, equals it when ids are ignored, and
has ids of its own (`apply_duplicate`).  To delete it again gives the document back.

Ids are ignored by setting them all to the empty text (`withoutIds`).  A copy is then the original
whatever ids its source hands out, and the ids that it does hand out are fresh; the two halves do
not depend on each other.
-/

namespace MailTemplate

/-! ### Nodes without ids -/

/-- A block apart from its id. -/
def Block.withoutId (block : Block) : Block := { block with id := "" }

/-- A column apart from its id and those of its blocks. -/
def Column.withoutIds (column : Column) : Column :=
  { column with id := "", blocks := column.blocks.map Block.withoutId }

/-- A row apart from its id and those of all nodes in it. -/
def Row.withoutIds (row : Row) : Row :=
  { row with id := "", columns := row.columns.map Column.withoutIds }

/-- A copied column differs from the column in ids only. -/
@[simp] lemma Column.withoutIds_copy (column : Column) (ids : IdSource) :
    (column.copy ids).1.withoutIds = column.withoutIds := by
  have hblocks := IdSource.map_makeAll Block.copy Block.withoutId Block.withoutId
    (fun _ _ => rfl) column.blocks (ids.next "column").2
  unfold Column.withoutIds Column.copy
  simp only
  rw [hblocks]

/-- A copied row differs from the row in ids only. -/
@[simp] lemma Row.withoutIds_copy (row : Row) (ids : IdSource) :
    (row.copy ids).1.withoutIds = row.withoutIds := by
  have hcolumns := IdSource.map_makeAll Column.copy Column.withoutIds Column.withoutIds
    Column.withoutIds_copy row.columns (ids.next "row").2
  unfold Row.withoutIds Row.copy
  simp only
  rw [hcolumns]

/-! ### Nodes put behind others -/

/-- The second document is the first one with a new row directly behind another row. -/
def Document.RowBehind (d : Document) (row new : Row) (d' : Document) : Prop :=
  ∃ before after, d.rows = before ++ row :: after ∧
    d' = { d with rows := before ++ row :: new :: after }

/-- The second document is the first one with a new block directly behind another block. -/
def Document.BlockBehind (d : Document) (block new : Block) (d' : Document) : Prop :=
  ∃ place row column before after, d.rows[place.row]? = some row ∧
    row.columns[place.column]? = some column ∧ column.blocks = before ++ block :: after ∧
      d' = d.modifyBlocks place fun _ => before ++ block :: new :: after

namespace Edit

/-- The ids of the rows are some of the ids of the document, in order. -/
lemma map_id_rows_sublist (d : Document) : (d.rows.map Row.id).Sublist d.ids := by
  unfold Document.ids
  rw [List.map_eq_flatMap]
  refine List.Sublist.flatMap_right _ ?_
  intro row _
  exact List.singleton_sublist.mpr List.mem_cons_self

section Inserted

variable (settings : GridSettings) {d : Document}

/-- A row put among others under an id of its own is what its removal takes out. -/
lemma apply_deleteRow_inserted {before after : List Row} {row : Row}
    (hrows : d.rows = before ++ after) (hfresh : row.id ∉ d.ids) :
    (Edit.deleteRow row.id).apply settings { d with rows := before ++ row :: after } = .ok d := by
  have hnot : row.id ∉ before.map Row.id := by
    intro hmem
    refine hfresh ((map_id_rows_sublist d).subset ?_)
    rw [hrows, List.map_append]
    exact List.mem_append_left _ hmem
  have hindex : { d with rows := before ++ row :: after }.rowIndex? row.id = some before.length :=
    Document.rowIndex?_eq_some_iff.mpr ⟨before, row, after, rfl, rfl, rfl, hnot⟩
  have hrest : (before ++ row :: after).eraseIdx before.length = d.rows := by
    rw [List.eraseIdx_append_of_length_le le_rfl, Nat.sub_self, hrows]
    rfl
  have hstep : Step settings _ (.deleteRow row.id) _ := .deleteRow hindex
  rw [hrest] at hstep
  exact hstep.apply_eq_ok

/-- A block put into a column under an id of its own is what its removal takes out. -/
lemma apply_deleteBlock_inserted (hd : d.ids.Nodup) {place : ColumnPlace} {row : Row}
    {column : Column} {index : ℕ} {block : Block} (hrow : d.rows[place.row]? = some row)
    (hcolumn : row.columns[place.column]? = some column) (hindex : index ≤ column.blocks.length)
    (hfresh : block.id ∉ d.ids) :
    (Edit.deleteBlock block.id).apply settings
      (d.modifyBlocks place fun bs => bs.insertIdx index block) = .ok d := by
  generalize hd' : (d.modifyBlocks place fun bs => bs.insertIdx index block) = d'
  have hnodes : d'.nodes.Perm (block.node :: d.nodes) := by
    rw [← hd']
    exact nodes_insertIdx_block hrow hcolumn hindex block
  have hids : (d'.blocks.map Block.id).Nodup := by
    have hperm := hnodes.map Document.Node.id
    rw [List.map_cons, Document.map_id_nodes, Document.map_id_nodes] at hperm
    refine List.Nodup.sublist (map_id_blocks_sublist d') (hperm.nodup_iff.mpr ?_)
    exact List.nodup_cons.mpr ⟨hfresh, hd⟩
  have hmem : block.id ∈ d'.blocks.map Block.id := by
    have hblock := exists_block_of_node (hnodes.mem_iff.mpr List.mem_cons_self)
    exact List.mem_map_of_mem (f := Block.id) hblock
  obtain ⟨place', hplace'⟩ := Document.exists_blockPlace?_iff.mpr hmem
  obtain ⟨row', column', found, hrow', hcolumn', hfound, hid⟩ := Document.blockPlace?_spec hplace'
  have hstep : Step settings d' (.deleteBlock block.id) _ := .deleteBlock hplace'
  -- without blocks of the new id, the document with the block and the one before it are the same
  rw [Document.modifyBlocks_eraseIdx hids hrow' hcolumn' hfound, hid, ← hd',
    Document.withoutBlock_modifyBlocks (fun bs => filter_insertIdx_of_neg (by simp) bs index) d
      place,
    Document.withoutBlock_eq_self fun h => hfresh ((map_id_blocks_sublist d).subset h)] at hstep
  rw [← hd']
  exact hstep.apply_eq_ok

end Inserted

/-! ### Duplicates -/

section Duplicates

variable (settings : GridSettings) {d : Document}

/-- A duplicated row is carried out, with the copy directly behind the row. -/
lemma exists_step_duplicateRow (hd : d.ids.Nodup) {row : Row} (hrow : row ∈ d.rows) :
    ∃ before after, d.rows = before ++ row :: after ∧ Step settings d (.duplicateRow row.id)
      { d with rows := before ++ row :: (row.copy (IdSource.ofDocument d)).1 :: after } := by
  obtain ⟨before, after, hrows⟩ := List.append_of_mem hrow
  have hnot : row.id ∉ before.map Row.id := by
    have hids : (d.rows.map Row.id).Nodup := hd.sublist (map_id_rows_sublist d)
    rw [hrows, List.map_append, List.nodup_append'] at hids
    intro hmem
    exact hids.2.2 hmem List.mem_cons_self
  have hindex : d.rowIndex? row.id = some before.length :=
    Document.rowIndex?_eq_some_iff.mpr ⟨before, row, after, hrows, rfl, rfl, hnot⟩
  have hstep : Step settings d (.duplicateRow row.id) _ :=
    .duplicateRow hindex (by rw [hrows, List.getElem?_append_right le_rfl, Nat.sub_self]; rfl)
  rw [hrows, insertIdx_succ_length_append] at hstep
  exact ⟨before, after, hrows, hstep⟩

/-- A duplicated block is carried out, with the copy inserted behind the block. -/
lemma exists_step_duplicateBlock (hd : d.ids.Nodup) {block : Block} (hblock : block ∈ d.blocks) :
    ∃ place row column before after, d.rows[place.row]? = some row ∧
      row.columns[place.column]? = some column ∧ column.blocks = before ++ block :: after ∧
        Step settings d (.duplicateBlock block.id) (d.modifyBlocks place fun bs =>
          bs.insertIdx (before.length + 1) (block.copy (IdSource.ofDocument d)).1) := by
  obtain ⟨place, hplace⟩ :=
    Document.exists_blockPlace?_iff.mpr (List.mem_map_of_mem (f := Block.id) hblock)
  obtain ⟨row, column, found, hrow, hcolumn, hfound, hid⟩ := Document.blockPlace?_spec hplace
  have hmem : found ∈ d.blocks := by
    refine List.mem_flatMap.mpr ⟨column, List.mem_flatMap.mpr ?_, List.mem_of_getElem? hfound⟩
    exact ⟨row, List.mem_of_getElem? hrow, List.mem_of_getElem? hcolumn⟩
  have hids : (d.blocks.map Block.id).Nodup := hd.sublist (map_id_blocks_sublist d)
  obtain rfl := List.inj_on_of_nodup_map hids hmem hblock hid
  obtain ⟨before, after, hblocks, hlength, -⟩ := exists_split_modify hfound
  have hat : d.blockAt? place = some (row, found) := by
    rw [Document.blockAt?_eq hrow hcolumn, hfound]
    rfl
  refine ⟨⟨place.row, place.column⟩, row, column, before, after, hrow, hcolumn, hblocks, ?_⟩
  rw [hlength]
  exact .duplicateBlock hplace hat

/-- Duplicates: on a document whose ids are distinct, a row or a block that is duplicated gets a
copy directly behind it.  The copy is the original when ids are ignored, its ids are distinct and
none of them was there before, and to delete the copy gives the document back. -/
theorem apply_duplicate (hd : d.ids.Nodup) :
    (∀ row ∈ d.rows, ∃ copy d', (Edit.duplicateRow row.id).apply settings d = .ok d' ∧
      d.RowBehind row copy d' ∧ copy.withoutIds = row.withoutIds ∧ copy.ids.Nodup ∧
        (∀ id ∈ copy.ids, id ∉ d.ids) ∧ (Edit.deleteRow copy.id).apply settings d' = .ok d) ∧
      ∀ block ∈ d.blocks, ∃ copy d', (Edit.duplicateBlock block.id).apply settings d = .ok d' ∧
        d.BlockBehind block copy d' ∧ copy.withoutId = block.withoutId ∧ copy.id ∉ d.ids ∧
          (Edit.deleteBlock copy.id).apply settings d' = .ok d := by
  constructor
  · intro row hrow
    obtain ⟨before, after, hrows, hstep⟩ := exists_step_duplicateRow settings hd hrow
    have hands := IdSource.hands_copyRow row (IdSource.ofDocument d)
    have hdelete := apply_deleteRow_inserted settings
      (hrows.trans (List.append_cons before row after)) (hands.fresh _ List.mem_cons_self)
    rw [List.append_assoc] at hdelete
    exact ⟨_, _, hstep.apply_eq_ok, ⟨before, after, hrows, rfl⟩, Row.withoutIds_copy _ _,
      hands.nodup, hands.fresh, hdelete⟩
  · intro block hblock
    obtain ⟨place, row, column, before, after, hrow, hcolumn, hblocks, hstep⟩ :=
      exists_step_duplicateBlock settings hd hblock
    have hfresh := IdSource.next_not_mem (IdSource.ofDocument d) "block"
    have hindex : before.length + 1 ≤ column.blocks.length := by simp [hblocks]
    refine ⟨(block.copy (IdSource.ofDocument d)).1, _, hstep.apply_eq_ok,
      ⟨place, row, column, before, after, hrow, hcolumn, hblocks, ?_⟩, rfl, hfresh,
      apply_deleteBlock_inserted settings hd hrow hcolumn hindex hfresh⟩
    refine Document.modifyBlocks_congr hrow hcolumn ?_
    rw [hblocks, insertIdx_succ_length_append]

end Duplicates

/-- The row and the block of a document whose ids look like generated ones are duplicated. -/
theorem apply_duplicate_numberedIds : numberedIds.ids.Nodup ∧
    (∀ row ∈ numberedIds.rows, ∃ copy d',
      (Edit.duplicateRow row.id).apply {} numberedIds = .ok d' ∧
        numberedIds.RowBehind row copy d' ∧ copy.withoutIds = row.withoutIds ∧ copy.ids.Nodup ∧
          (∀ id ∈ copy.ids, id ∉ numberedIds.ids) ∧
            (Edit.deleteRow copy.id).apply {} d' = .ok numberedIds) ∧
      ∃ (copy : Block) (d' : Document),
        (Edit.duplicateBlock "column-1").apply {} numberedIds = .ok d' ∧
          copy.id ∉ numberedIds.ids ∧ (Edit.deleteBlock copy.id).apply {} d' = .ok numberedIds := by
  have hnodup : numberedIds.ids.Nodup := by decide
  obtain ⟨hrows, hblocks⟩ := apply_duplicate {} hnodup
  obtain ⟨copy, d', hcopy, -, -, hfresh, hdelete⟩ := hblocks _ List.mem_cons_self
  exact ⟨hnodup, hrows, copy, d', hcopy, hfresh, hdelete⟩

end Edit

end MailTemplate
