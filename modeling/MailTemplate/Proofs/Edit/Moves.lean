import MailTemplate.Proofs.Edit.Frames

/-!
# Where moved rows and blocks land

A row that is moved stands directly before the other one afterwards, and the other rows stay in
their order (`apply_moveRow`).  A block that is moved, or a new one, stands directly beside its
target or at an end of the column that is its target, and without it the document is what its source
leaves (`apply_moveBlock`).  A move of a block is carried out exactly if its source and its target
are there and are not one block (`exists_step_moveBlock_iff`).

The block is taken out before its target is looked up, so that in both theorems the places that
count are those of the document that is left.
-/

namespace MailTemplate

/-! ### Documents with blocks changed or left out -/

/-- The column with each block changed, or left out. -/
def Column.filterMapBlocks (f : Block → Option Block) (column : Column) : Column :=
  { column with blocks := column.blocks.filterMap f }

/-- The row with each block changed, or left out. -/
def Row.filterMapBlocks (f : Block → Option Block) (row : Row) : Row :=
  { row with columns := row.columns.map (Column.filterMapBlocks f) }

/-- The document with each block changed, or left out. -/
def Document.filterMapBlocks (f : Block → Option Block) (d : Document) : Document :=
  { d with rows := d.rows.map (Row.filterMapBlocks f) }

section Blocks

variable {f : Block → Option Block}

/-- A column whose blocks all stay is the column. -/
lemma Column.filterMapBlocks_eq_self {column : Column} (h : ∀ b ∈ column.blocks, f b = some b) :
    column.filterMapBlocks f = column := by
  have hall : column.blocks.filterMap f = column.blocks :=
    (List.filterMap_congr h).trans List.filterMap_some
  unfold filterMapBlocks
  rw [hall]

/-- A row whose blocks all stay is the row. -/
lemma Row.filterMapBlocks_eq_self {row : Row}
    (h : ∀ c ∈ row.columns, ∀ b ∈ c.blocks, f b = some b) :
    row.filterMapBlocks f = row := by
  have hall : row.columns.map (Column.filterMapBlocks f) = row.columns :=
    map_eq_self fun c hc => Column.filterMapBlocks_eq_self (h c hc)
  unfold filterMapBlocks
  rw [hall]

/-- The ids of the blocks, row by row. -/
lemma Document.map_id_blocks (d : Document) : d.blocks.map Block.id =
    d.rows.flatMap fun r => r.columns.flatMap fun c => c.blocks.map Block.id := by
  unfold Document.blocks Document.columns
  rw [List.flatMap_assoc, List.map_flatMap]
  simp only [List.map_flatMap]

/-- A document whose blocks all stay is the document. -/
lemma Document.filterMapBlocks_eq_self {d : Document} (h : ∀ b ∈ d.blocks, f b = some b) :
    d.filterMapBlocks f = d := by
  have hall : d.rows.map (Row.filterMapBlocks f) = d.rows := by
    refine map_eq_self ?_
    intro r hr
    refine Row.filterMapBlocks_eq_self ?_
    intro c hc b hb
    exact h b (List.mem_flatMap.mpr ⟨c, List.mem_flatMap.mpr ⟨r, hr, hc⟩, hb⟩)
  unfold filterMapBlocks
  rw [hall]

/-- To change the blocks of one column is to change or leave out each block of the document, if the
change does to one block what is done to it, and all blocks with other ids stay. -/
lemma Document.modifyBlocks_eq_filterMapBlocks {d : Document} (hd : (d.blocks.map Block.id).Nodup)
    {place : BlockPlace} {row : Row} {column : Column} {block : Block}
    (hrow : d.rows[place.row]? = some row) (hcolumn : row.columns[place.column]? = some column)
    (hblock : column.blocks[place.block]? = some block) {g : List Block → List Block}
    (hat : ∀ before after, before.length = place.block →
      g (before ++ block :: after) = before ++ ((f block).toList ++ after))
    (hother : ∀ b, b.id ≠ block.id → f b = some b) :
    d.modifyBlocks ⟨place.row, place.column⟩ g = d.filterMapBlocks f := by
  rw [map_id_blocks] at hd
  have hrowIds := (List.nodup_flatMap.mp hd).1 row (List.mem_of_getElem? hrow)
  have hcolumnIds := (List.nodup_flatMap.mp hrowIds).1 column (List.mem_of_getElem? hcolumn)
  have hmem : block.id ∈ column.blocks.map Block.id :=
    List.mem_map_of_mem (List.mem_of_getElem? hblock)
  have hchange : g column.blocks = column.blocks.filterMap f := by
    obtain ⟨before, after, hsplit, hlength, -⟩ := exists_split_modify hblock
    rw [hsplit] at hcolumnIds
    rw [hsplit, hat before after hlength, filterMap_of_key hcolumnIds hother]
  have hstays : ∀ c : Column, block.id ∉ c.blocks.map Block.id → ∀ b ∈ c.blocks, f b = some b := by
    intro c hnot b hb
    refine hother b ?_
    intro heq
    exact hnot (heq ▸ List.mem_map_of_mem hb)
  have hcolumns : (row.columns.modify place.column fun c => { c with blocks := g c.blocks }) =
      row.columns.map (Column.filterMapBlocks f) := by
    refine modify_eq_map_of_nodup hrowIds hcolumn hmem ?_ ?_
    · unfold Column.filterMapBlocks
      rw [hchange]
    · intro c _ hnot
      exact Column.filterMapBlocks_eq_self (hstays c hnot)
  have hrows : (d.rows.modify place.row fun r => { r with
      columns := r.columns.modify place.column fun c => { c with blocks := g c.blocks } }) =
        d.rows.map (Row.filterMapBlocks f) := by
    refine modify_eq_map_of_nodup hd hrow
      (List.mem_flatMap.mpr ⟨column, List.mem_of_getElem? hcolumn, hmem⟩) ?_ ?_
    · unfold Row.filterMapBlocks
      rw [hcolumns]
    · intro r _ hnot
      refine Row.filterMapBlocks_eq_self ?_
      intro c hc
      exact hstays c fun hmem => hnot (List.mem_flatMap.mpr ⟨c, hc, hmem⟩)
  unfold modifyBlocks modifyColumn modifyRow filterMapBlocks
  rw [hrows]

end Blocks

/-! ### Documents without a block -/

/-- The column without the blocks that have a given id. -/
def Column.withoutBlock (id : String) (column : Column) : Column :=
  { column with blocks := column.blocks.filter fun b => b.id ≠ id }

/-- The row without the blocks that have a given id. -/
def Row.withoutBlock (id : String) (row : Row) : Row :=
  { row with columns := row.columns.map (Column.withoutBlock id) }

/-- The document without the blocks that have a given id. -/
def Document.withoutBlock (id : String) (d : Document) : Document :=
  { d with rows := d.rows.map (Row.withoutBlock id) }

namespace Document

/-- To leave out a block is to keep all blocks with other ids. -/
lemma withoutBlock_eq_filterMapBlocks (id : String) (d : Document) :
    d.withoutBlock id = d.filterMapBlocks fun b => if b.id = id then none else some b := by
  have hcolumn : Column.withoutBlock id =
      Column.filterMapBlocks fun b => if b.id = id then none else some b := by
    funext c
    have hblocks : (c.blocks.filter fun b => b.id ≠ id) =
        c.blocks.filterMap fun b => if b.id = id then none else some b := by
      rw [← List.filterMap_eq_filter]
      refine List.filterMap_congr ?_
      intro b _
      by_cases h : b.id = id <;> simp [Option.guard, h]
    unfold Column.withoutBlock Column.filterMapBlocks
    rw [hblocks]
  unfold withoutBlock filterMapBlocks Row.filterMapBlocks
  rw [← hcolumn]
  rfl

/-- A document without a block that it does not have is the document. -/
lemma withoutBlock_eq_self {id : String} {d : Document} (h : id ∉ d.blocks.map Block.id) :
    d.withoutBlock id = d := by
  rw [withoutBlock_eq_filterMapBlocks]
  refine filterMapBlocks_eq_self ?_
  intro b hb
  refine if_neg ?_
  rintro rfl
  exact h (List.mem_map_of_mem hb)

/-- The columns of a document without a block are its columns without the block. -/
lemma columns_withoutBlock (id : String) (d : Document) :
    (d.withoutBlock id).columns = d.columns.map (Column.withoutBlock id) := by
  unfold columns
  rw [List.map_flatMap]
  exact List.flatMap_map ..

/-- A document without a block does not have it. -/
lemma not_mem_blocks_withoutBlock (id : String) (d : Document) :
    id ∉ (d.withoutBlock id).blocks.map Block.id := by
  unfold blocks
  rw [columns_withoutBlock]
  simp [Column.withoutBlock]

/-- A change of the blocks of one column that only concerns blocks with a given id makes no
difference without these. -/
lemma withoutBlock_modifyBlocks {id : String} {f : List Block → List Block}
    (h : ∀ bs, ((f bs).filter fun b => b.id ≠ id) = bs.filter fun b => b.id ≠ id) (d : Document)
    (place : ColumnPlace) : (d.modifyBlocks place f).withoutBlock id = d.withoutBlock id := by
  have hcolumn : ∀ c : Column,
      Column.withoutBlock id { c with blocks := f c.blocks } = c.withoutBlock id := by
    intro c
    unfold Column.withoutBlock
    rw [h]
  have hrow : ∀ r : Row, Row.withoutBlock id { r with
      columns := r.columns.modify place.column fun c => { c with blocks := f c.blocks } } =
        r.withoutBlock id := by
    intro r
    unfold Row.withoutBlock
    rw [map_modify_of_eq hcolumn]
  unfold withoutBlock modifyBlocks modifyColumn modifyRow
  rw [map_modify_of_eq hrow]

/-- To take a block out of its column is to leave the document without it, if no other block has its
id. -/
lemma modifyBlocks_eraseIdx {d : Document} (hd : (d.blocks.map Block.id).Nodup) {place : BlockPlace}
    {row : Row} {column : Column} {block : Block} (hrow : d.rows[place.row]? = some row)
    (hcolumn : row.columns[place.column]? = some column)
    (hblock : column.blocks[place.block]? = some block) :
    (d.modifyBlocks ⟨place.row, place.column⟩ fun bs => bs.eraseIdx place.block) =
      d.withoutBlock block.id := by
  rw [withoutBlock_eq_filterMapBlocks]
  refine modifyBlocks_eq_filterMapBlocks hd hrow hcolumn hblock ?_ fun b hne => if_neg hne
  intro before after hlength
  simp [← hlength, List.eraseIdx_append_of_length_le]

end Document

/-! ### Sources and targets -/

/-- The column holds the target, or is it. -/
def DropTarget.Within (c : Column) : DropTarget → Prop
  | block id => id ∈ c.blocks.map Block.id
  | column id => c.id = id

/-- The target is there. -/
def DropTarget.Present (d : Document) (target : DropTarget) : Prop :=
  ∃ c ∈ d.columns, target.Within c

namespace BlockSource

/-- The block to be moved is there; a new one always is. -/
def Present (d : Document) : BlockSource → Prop
  | existing id => id ∈ d.blocks.map Block.id
  | new _ => True

/-- The block that a source stands for: one of the document's, or an empty one of the kind that has
an id of its own. -/
def Supplies (d : Document) : BlockSource → Block → Prop
  | existing id, block => block ∈ d.blocks ∧ block.id = id
  | new kind, block => ∃ id, id ∉ d.ids ∧ block = { id, kind }

/-- The document without what is on the move. -/
def leaves (d : Document) : BlockSource → Document
  | existing id => d.withoutBlock id
  | new _ => d

/-- The block is on the move, so it is not among what its source leaves. -/
lemma withoutBlock_leaves {d : Document} {source : BlockSource} {block : Block}
    (h : source.Supplies d block) : (source.leaves d).withoutBlock block.id = source.leaves d := by
  cases source with
  | existing id =>
    obtain ⟨-, rfl⟩ := h
    exact Document.withoutBlock_eq_self (Document.not_mem_blocks_withoutBlock block.id d)
  | new kind =>
    obtain ⟨id, hfresh, rfl⟩ := h
    exact Document.withoutBlock_eq_self fun hmem =>
      hfresh ((Edit.map_id_blocks_sublist d).subset hmem)

/-- A column of what a source leaves is a column of the document, and holds no other target. -/
lemma exists_column_of_leaves {d : Document} {source : BlockSource} {target : DropTarget}
    {c : Column} (hc : c ∈ (source.leaves d).columns) (hwithin : target.Within c) :
    ∃ c₀ ∈ d.columns, target.Within c₀ ∧ c.id = c₀.id := by
  cases source with
  | new kind => exact ⟨c, hc, hwithin, rfl⟩
  | existing id =>
    change c ∈ (d.withoutBlock id).columns at hc
    rw [Document.columns_withoutBlock, List.mem_map] at hc
    obtain ⟨c₀, hc₀, rfl⟩ := hc
    refine ⟨c₀, hc₀, ?_, rfl⟩
    cases target with
    | block targetId =>
      have hsub : ((c₀.withoutBlock id).blocks.map Block.id).Sublist (c₀.blocks.map Block.id) :=
        List.filter_sublist.map Block.id
      exact hsub.subset hwithin
    | column targetId => exact hwithin

end BlockSource

/-- Where a block stands in a column after it has landed. -/
def Column.Landed (block : Block) : DropTarget → Side → Column → Prop
  | .block id, .above, c => ∃ before target after, target.id = id ∧
      c.blocks = before ++ block :: target :: after
  | .block id, .below, c => ∃ before target after, target.id = id ∧
      c.blocks = before ++ target :: block :: after
  | .column id, .above, c => c.id = id ∧ ∃ rest, c.blocks = block :: rest
  | .column id, .below, c => c.id = id ∧ ∃ rest, c.blocks = rest ++ [block]

namespace Edit

section Halves

variable {settings : GridSettings} {d d' rest : Document} {source : BlockSource}
  {target : DropTarget} {side : Side} {block : Block}

/-! ### Moves that are carried out -/

/-- A block has a place exactly if some column holds it. -/
lemma present_block_iff {id : String} :
    (DropTarget.block id).Present d ↔ id ∈ d.blocks.map Block.id := by
  unfold Document.blocks
  rw [List.map_flatMap, List.mem_flatMap]
  rfl

/-- A column has a place exactly if some column has its id. -/
lemma present_column_iff {id : String} :
    (DropTarget.column id).Present d ↔ id ∈ d.columns.map Column.id :=
  List.mem_map.symm

/-- A target passes its check exactly if it is there and is not the block on the move. -/
lemma checkTarget_eq_ok_iff : checkTarget d source target = .ok () ↔
    target.Present d ∧ ∀ id, source = .existing id → target ≠ .block id := by
  cases target with
  | block targetId =>
    rw [present_block_iff, ← Document.exists_blockPlace?_iff]
    cases source with
    | existing id =>
      by_cases heq : id = targetId
      · simp [checkTarget, heq]
      · simp [checkTarget, heq, Ne.symm heq]
    | new kind => simp [checkTarget]
  | column targetId =>
    rw [present_column_iff, ← Document.exists_columnPlace?_iff]
    simp only [checkTarget, bind_eq_ok, findColumn_eq_ok, pure_eq_ok]
    simp

/-- A block is taken out exactly if it is there. -/
lemma exists_detaches_iff : (∃ block rest, Detaches d source block rest) ↔ source.Present d := by
  cases source with
  | new kind => exact iff_of_true ⟨_, _, .new⟩ trivial
  | existing id =>
    change _ ↔ id ∈ d.blocks.map Block.id
    rw [← Document.exists_blockPlace?_iff]
    constructor
    · rintro ⟨block, rest, hdetach⟩
      cases hdetach with
      | existing hplace _ => exact ⟨_, hplace⟩
    · rintro ⟨place, hplace⟩
      obtain ⟨row, column, block, hrow, hcolumn, hblock, -⟩ := Document.blockPlace?_spec hplace
      have hat : d.blockAt? place = some (row, block) := by
        rw [Document.blockAt?_eq hrow hcolumn, hblock]
        rfl
      exact ⟨block, _, .existing hplace hat⟩

/-- A block lands exactly if its target is there. -/
lemma exists_attaches_iff : (∃ d', Attaches d block target side d') ↔ target.Present d := by
  cases target with
  | block id =>
    rw [present_block_iff, ← Document.exists_blockPlace?_iff]
    constructor
    · rintro ⟨d', hattach⟩
      cases hattach with
      | aboveBlock hplace => exact ⟨_, hplace⟩
      | belowBlock hplace => exact ⟨_, hplace⟩
    · rintro ⟨place, hplace⟩
      cases side with
      | above => exact ⟨_, .aboveBlock hplace⟩
      | below => exact ⟨_, .belowBlock hplace⟩
  | column id =>
    rw [present_column_iff, ← Document.exists_columnPlace?_iff]
    constructor
    · rintro ⟨d', hattach⟩
      cases hattach with
      | columnTop hplace => exact ⟨_, hplace⟩
      | columnBottom hplace => exact ⟨_, hplace⟩
    · rintro ⟨place, hplace⟩
      cases side with
      | above => exact ⟨_, .columnTop hplace⟩
      | below => exact ⟨_, .columnBottom hplace⟩

/-- A target that is not the block on the move is still there when that is taken out. -/
lemma Detaches.present (h : Detaches d source block rest) (htarget : target.Present d)
    (hne : ∀ id, source = .existing id → target ≠ .block id) : target.Present rest := by
  cases h with
  | new => exact htarget
  | @existing id place row block hplace hblock =>
    obtain ⟨row', column, found, hrow, hcolumn, hfound, rfl⟩ := Document.blockPlace?_spec hplace
    obtain ⟨before, after, hcolumns, hmodify⟩ :=
      Document.exists_split_column ⟨place.row, place.column⟩ hrow hcolumn
    obtain ⟨c, hc, hwithin⟩ := htarget
    unfold DropTarget.Present Document.modifyBlocks
    rw [hmodify]
    rw [hcolumns] at hc
    rcases List.mem_append.mp hc with hbefore | hc
    · exact ⟨c, List.mem_append_left _ hbefore, hwithin⟩
    rcases List.mem_cons.mp hc with rfl | hafter
    · -- the column of the block: all its other blocks stay
      refine ⟨_, List.mem_append_right _ List.mem_cons_self, ?_⟩
      cases target with
      | column targetId => exact hwithin
      | block targetId =>
        have hperm := (perm_cons_eraseIdx hfound).map Block.id
        rcases List.mem_cons.mp (hperm.mem_iff.mp hwithin) with rfl | hmem
        · exact absurd rfl (hne _ rfl)
        · exact hmem
    · exact ⟨c, List.mem_append_right _ (List.mem_cons_of_mem _ hafter), hwithin⟩

/-- A move of a block is carried out exactly if its source and its target are there and are not one
block. -/
lemma exists_step_moveBlock_iff :
    (∃ d', Step settings d (.moveBlock source target side) d') ↔
      target.Present d ∧ source.Present d ∧ ∀ id, source = .existing id → target ≠ .block id := by
  constructor
  · rintro ⟨d', hstep⟩
    cases hstep with
    | moveBlock hcheck hdetach _ =>
      obtain ⟨htarget, hne⟩ := checkTarget_eq_ok_iff.mp hcheck
      exact ⟨htarget, exists_detaches_iff.mp ⟨_, _, hdetach⟩, hne⟩
  · rintro ⟨htarget, hsource, hne⟩
    obtain ⟨block, rest, hdetach⟩ := exists_detaches_iff.mpr hsource
    obtain ⟨d', hattach⟩ := exists_attaches_iff.mpr (hdetach.present htarget hne)
    exact ⟨d', .moveBlock (checkTarget_eq_ok_iff.mpr ⟨htarget, hne⟩) hdetach hattach⟩

/-! ### What a source leaves, and where a block lands -/

/-- On a document whose ids are distinct, a block on the move is the one that its source stands for,
and what is left is the document without it. -/
lemma Detaches.leaves (h : Detaches d source block rest) (hd : d.ids.Nodup) :
    source.Supplies d block ∧ rest = source.leaves d := by
  cases h with
  | new => exact ⟨⟨_, IdSource.next_not_mem _ "block", rfl⟩, rfl⟩
  | @existing id place row block hplace hblock =>
    obtain ⟨row', column, found, hrow, hcolumn, hfound, rfl⟩ := Document.blockPlace?_spec hplace
    rw [Document.blockAt?_eq hrow hcolumn, hfound] at hblock
    obtain ⟨rfl, rfl⟩ := Prod.mk.inj (Option.some.inj hblock)
    have hmem : found ∈ d.blocks := by
      refine List.mem_flatMap.mpr ⟨column, List.mem_flatMap.mpr ?_, List.mem_of_getElem? hfound⟩
      exact ⟨row', List.mem_of_getElem? hrow, List.mem_of_getElem? hcolumn⟩
    refine ⟨⟨hmem, rfl⟩, ?_⟩
    exact Document.modifyBlocks_eraseIdx (hd.sublist (map_id_blocks_sublist d)) hrow hcolumn hfound

/-- A block that lands is all that is new. -/
lemma Attaches.withoutBlock (h : Attaches d block target side d') :
    d'.withoutBlock block.id = d.withoutBlock block.id := by
  have hinsert : ∀ (i : ℕ) (bs : List Block),
      ((bs.insertIdx i block).filter fun b => b.id ≠ block.id) =
        bs.filter fun b => b.id ≠ block.id :=
    fun i bs => filter_insertIdx_of_neg (by simp) bs i
  cases h with
  | aboveBlock _ => exact Document.withoutBlock_modifyBlocks (hinsert _) d _
  | belowBlock _ => exact Document.withoutBlock_modifyBlocks (hinsert _) d _
  | columnTop _ =>
    refine Document.withoutBlock_modifyBlocks ?_ d _
    intro bs
    exact List.filter_cons_of_neg (by simp)
  | columnBottom _ =>
    refine Document.withoutBlock_modifyBlocks ?_ d _
    intro bs
    rw [List.filter_append, List.filter_cons_of_neg (by simp), List.filter_nil, List.append_nil]

/-- A block lands in the column whose blocks change. -/
lemma exists_landed {place : ColumnPlace} {row : Row} {c : Column} {f : List Block → List Block}
    (hrow : d.rows[place.row]? = some row) (hcolumn : row.columns[place.column]? = some c)
    (hwithin : target.Within c)
    (hlanded : Column.Landed block target side { c with blocks := f c.blocks }) :
    ∃ c ∈ d.columns, target.Within c ∧ ∃ c' ∈ (d.modifyBlocks place f).columns, c'.id = c.id ∧
      Column.Landed block target side c' := by
  obtain ⟨before, after, hcolumns, hmodify⟩ := Document.exists_split_column place hrow hcolumn
  unfold Document.modifyBlocks
  rw [hcolumns, hmodify]
  exact ⟨c, List.mem_append_right _ List.mem_cons_self, hwithin, _,
    List.mem_append_right _ List.mem_cons_self, rfl, hlanded⟩

/-- A block lands beside its target, or at an end of it, in the column of the target. -/
lemma Attaches.landed (h : Attaches d block target side d') :
    ∃ c ∈ d.columns, target.Within c ∧
      ∃ c' ∈ d'.columns, c'.id = c.id ∧ Column.Landed block target side c' := by
  cases h with
  | @aboveBlock id place hplace =>
    obtain ⟨row, column, found, hrow, hcolumn, hfound, rfl⟩ := Document.blockPlace?_spec hplace
    obtain ⟨before, after, hblocks, hlength, -⟩ := exists_split_modify hfound
    refine exists_landed hrow hcolumn (List.mem_map_of_mem (List.mem_of_getElem? hfound))
      ⟨before, found, after, rfl, ?_⟩
    rw [hblocks, ← hlength, insertIdx_length_append]
  | @belowBlock id place hplace =>
    obtain ⟨row, column, found, hrow, hcolumn, hfound, rfl⟩ := Document.blockPlace?_spec hplace
    obtain ⟨before, after, hblocks, hlength, -⟩ := exists_split_modify hfound
    refine exists_landed hrow hcolumn (List.mem_map_of_mem (List.mem_of_getElem? hfound))
      ⟨before, found, after, rfl, ?_⟩
    rw [hblocks, ← hlength, insertIdx_succ_length_append]
  | columnTop hplace =>
    obtain ⟨row, column, hrow, hcolumn, rfl⟩ := Document.columnPlace?_spec hplace
    exact exists_landed hrow hcolumn rfl ⟨rfl, column.blocks, rfl⟩
  | columnBottom hplace =>
    obtain ⟨row, column, hrow, hcolumn, rfl⟩ := Document.columnPlace?_spec hplace
    exact exists_landed hrow hcolumn rfl ⟨rfl, column.blocks, rfl⟩

end Halves

/-! ### Moves -/

/-- Rows on the move: on a document whose rows have distinct ids, a row that is moved before another
one is carried out; the others keep their order and the row stands directly before that one. -/
theorem apply_moveRow {settings : GridSettings} {d : Document} {dragId hoverId : String}
    (hd : (d.rows.map Row.id).Nodup) (hdrag : dragId ∈ d.rows.map Row.id)
    (hhover : hoverId ∈ d.rows.map Row.id) (hne : dragId ≠ hoverId) :
    ∃ drag ∈ d.rows, ∃ hover ∈ d.rows, ∃ before after, drag.id = dragId ∧ hover.id = hoverId ∧
      (d.rows.filter fun r => r.id ≠ dragId) = before ++ hover :: after ∧
        (Edit.moveRow dragId hoverId).apply settings d =
          .ok { d with rows := before ++ drag :: hover :: after } := by
  obtain ⟨dragged, hdragged⟩ := Document.exists_rowIndex?_iff.mpr hdrag
  obtain ⟨hovered, hhovered⟩ := Document.exists_rowIndex?_iff.mpr hhover
  obtain ⟨drag, hdragAt, rfl⟩ := Document.rowIndex?_spec hdragged
  obtain ⟨hover, hhoverAt, rfl⟩ := Document.rowIndex?_spec hhovered
  have hplaces : dragged ≠ hovered := by
    rintro rfl
    exact hne (congrArg Row.id (Option.some.inj (hdragAt.symm.trans hhoverAt)))
  -- the hover row moves up by one place when the row before it is taken out
  have hleft : (d.rows.eraseIdx dragged)[if dragged < hovered then hovered - 1 else hovered]? =
      some hover := by
    rw [List.getElem?_eraseIdx]
    split
    · next hdown => rw [if_neg (by omega), Nat.sub_add_cancel (by omega), hhoverAt]
    · next hup => rw [if_pos (by omega), hhoverAt]
  obtain ⟨before, after, hrest, hlength, -⟩ := exists_split_modify hleft
  have hstep : Step settings d (.moveRow _ _) _ := .moveRow hne hdragged hhovered hdragAt
  rw [hrest, ← hlength, insertIdx_length_append] at hstep
  refine ⟨drag, List.mem_of_getElem? hdragAt, hover, List.mem_of_getElem? hhoverAt, before, after,
    rfl, rfl, ?_, hstep.apply_eq_ok⟩
  rw [← eraseIdx_eq_filter_key hd hdragAt, hrest]

/-- A row moves up, directly before its neighbour. -/
theorem apply_moveRow_twoByTwo : (twoByTwo.rows.map Row.id).Nodup ∧
    ∃ drag ∈ twoByTwo.rows, ∃ hover ∈ twoByTwo.rows, ∃ before after,
      drag.id = "s" ∧ hover.id = "r" ∧
      (twoByTwo.rows.filter fun r => r.id ≠ "s") = before ++ hover :: after ∧
        (Edit.moveRow "s" "r").apply {} twoByTwo =
          .ok { twoByTwo with rows := before ++ drag :: hover :: after } := by
  have hnodup : (twoByTwo.rows.map Row.id).Nodup := by decide
  exact ⟨hnodup, apply_moveRow hnodup (by decide) (by decide) (by decide)⟩

/-- Blocks on the move: on a document whose ids are distinct, a block that is there or a new one is
moved to every target that is there and is not the block itself.  It lands beside its target, or at
an end of it, in the column of the target; all else is what its source leaves. -/
theorem apply_moveBlock {settings : GridSettings} {d : Document} {source : BlockSource}
    {target : DropTarget} {side : Side} (hd : d.ids.Nodup) (hsource : source.Present d)
    (htarget : target.Present d) (hne : ∀ id, source = .existing id → target ≠ .block id) :
    ∃ block d', (Edit.moveBlock source target side).apply settings d = .ok d' ∧
      source.Supplies d block ∧ d'.withoutBlock block.id = source.leaves d ∧ d'.ids.Nodup ∧
        ∃ c ∈ d.columns, target.Within c ∧
          ∃ c' ∈ d'.columns, c'.id = c.id ∧ Column.Landed block target side c' := by
  have hpossible : ∃ d', Step settings d (.moveBlock source target side) d' :=
    exists_step_moveBlock_iff.mpr ⟨htarget, hsource, hne⟩
  obtain ⟨d', hstep⟩ := hpossible
  obtain ⟨new, htraces⟩ := hstep.traces hd
  have happly := hstep.apply_eq_ok
  cases hstep with
  | @moveBlock _ _ _ block rest _ hcheck hdetach hattach =>
    obtain ⟨hsupplies, rfl⟩ := hdetach.leaves hd
    have hrest := hattach.withoutBlock
    rw [BlockSource.withoutBlock_leaves hsupplies] at hrest
    obtain ⟨c, hc, hwithin, c', hc', hid, hlanded⟩ := hattach.landed
    obtain ⟨c₀, hc₀, hwithin₀, hid₀⟩ := BlockSource.exists_column_of_leaves hc hwithin
    exact ⟨block, d', happly, hsupplies, hrest, htraces.ids_nodup hd, c₀, hc₀, hwithin₀, c', hc',
      hid.trans hid₀, hlanded⟩

/-- A block moves down, directly below its neighbour in the same column. -/
theorem apply_moveBlock_twoByTwo : twoByTwo.ids.Nodup ∧
    ∃ block d', (Edit.moveBlock (.existing "a") (.block "b") .below).apply {} twoByTwo = .ok d' ∧
      (BlockSource.existing "a").Supplies twoByTwo block ∧
        d'.withoutBlock block.id = (BlockSource.existing "a").leaves twoByTwo ∧ d'.ids.Nodup ∧
          ∃ c ∈ twoByTwo.columns, (DropTarget.block "b").Within c ∧ ∃ c' ∈ d'.columns,
            c'.id = c.id ∧ Column.Landed block (.block "b") .below c' := by
  have hnodup : twoByTwo.ids.Nodup := by decide
  have hsource : (BlockSource.existing "a").Present twoByTwo :=
    show "a" ∈ twoByTwo.blocks.map Block.id by decide
  have htarget : (DropTarget.block "b").Present twoByTwo := present_block_iff.mpr (by decide)
  exact ⟨hnodup, apply_moveBlock hnodup hsource htarget (by simp)⟩

end Edit

end MailTemplate
