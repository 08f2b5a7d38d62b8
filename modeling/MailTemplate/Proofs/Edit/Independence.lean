import MailTemplate.Proofs.Edit.Commuting

/-!
# Independent edits

Two edits that set something, move a divider, or delete a block or a row are independent if they set
different parts of the document, and neither deletes what the other is addressed to
(`Edit.Independent`).

Main result: independent edits commute.  In either order each of them is carried out, or refused for
the same reason, and the same document comes out (`apply_comm`).  It does not matter where the nodes
stand, since each edit is one change of every node by itself (`touch`), and these commute part by
part.
-/

namespace MailTemplate

namespace Edit

/-- A row or a block, by its id. -/
inductive Address where
  | row (id : String)
  | block (id : String)
  deriving DecidableEq

/-- The row or the block that an edit is addressed to. -/
def addresses : Edit → List Address
  | deleteRow rowId | resizeColumns rowId _ _ | setRowAttribute rowId _ _ | setRowRole rowId _ =>
    [.row rowId]
  | deleteBlock blockId | setBlockAttribute blockId _ _ | removeBlockAttribute blockId _
  | setBlockContent blockId _ => [.block blockId]
  | _ => []

/-- A row and the blocks in it, or a block, that an edit deletes. -/
def deleted (d : Document) : Edit → List Address
  | deleteRow rowId => (d.rows.filter fun r => r.id == rowId).flatMap fun r =>
      .row r.id :: r.columns.flatMap fun c => c.blocks.map fun b => .block b.id
  | deleteBlock blockId => (d.blocks.filter fun b => b.id == blockId).map fun b => .block b.id
  | _ => []

/-- Two edits that set different parts of a document, neither of which deletes what the other is
addressed to. -/
structure Independent (d : Document) (e e' : Edit) : Prop where
  isLocal : e.IsLocal
  isLocal' : e'.IsLocal
  slots : (e.slots d).Disjoint (e'.slots d)
  spared : (e.addresses).Disjoint (e'.deleted d)
  spared' : (e'.addresses).Disjoint (e.deleted d)

/-- Independence does not depend on which edit is named first. -/
lemma Independent.symm {d : Document} {e e' : Edit} (h : Independent d e e') :
    Independent d e' e :=
  ⟨h.isLocal', h.isLocal, h.slots.symm, h.spared', h.spared⟩

/-- Why an edit is refused, if it is. -/
def refusal? (settings : GridSettings) (d : Document) (e : Edit) : Option EditError :=
  match e.apply settings d with
  | .ok _ => none
  | .error error => some error

section Refusals

variable {settings : GridSettings} {d : Document} {e e' : Edit}

/-! ### Refusals -/

/-- The rows that are there after an edit. -/
lemma mem_rows_touch_iff {row : Row} : row ∈ (e.touch settings d).rows ↔
    ∃ r ∈ d.rows, e.deletesRow r.id = false ∧ e.divide settings (e.refill r) = row := by
  unfold touch touchRow
  simp only [List.mem_filterMap, Option.ite_none_left_eq_some, Bool.not_eq_true, Option.some.injEq]

/-- A row that an edit does not delete. -/
lemma deletesRow_eq_false {row : Row} (hrow : row ∈ d.rows)
    (h : Address.row row.id ∉ e.deleted d) : e.deletesRow row.id = false := by
  cases e with
  | deleteRow rowId =>
    refine beq_eq_false_iff_ne.mpr ?_
    rintro rfl
    exact h (List.mem_flatMap.mpr
      ⟨row, List.mem_filter.mpr ⟨hrow, beq_self_eq_true _⟩, List.mem_cons_self⟩)
  | _ => rfl

/-- A block that an edit does not delete, and that it does not delete with its row. -/
lemma deletesBlock_eq_false {row : Row} {column : Column} {block : Block} (hrow : row ∈ d.rows)
    (hcolumn : column ∈ row.columns) (hblock : block ∈ column.blocks)
    (h : Address.block block.id ∉ e.deleted d) :
    e.deletesRow row.id = false ∧ e.deletesBlock block.id = false := by
  cases e with
  | deleteRow rowId =>
    refine ⟨beq_eq_false_iff_ne.mpr ?_, rfl⟩
    rintro rfl
    refine h (List.mem_flatMap.mpr ⟨row, List.mem_filter.mpr ⟨hrow, beq_self_eq_true _⟩, ?_⟩)
    exact List.mem_cons_of_mem _
      (List.mem_flatMap.mpr ⟨column, hcolumn, List.mem_map_of_mem hblock⟩)
  | deleteBlock blockId =>
    refine ⟨rfl, beq_eq_false_iff_ne.mpr ?_⟩
    rintro rfl
    have hmem : block ∈ d.blocks :=
      List.mem_flatMap.mpr ⟨column, List.mem_flatMap.mpr ⟨row, hrow, hcolumn⟩, hblock⟩
    exact h (List.mem_map_of_mem (List.mem_filter.mpr ⟨hmem, beq_self_eq_true _⟩))
  | _ => exact ⟨rfl, rfl⟩

/-- A row is there after an edit that does not delete it exactly if it was there before. -/
lemma mem_map_id_rows_touch_iff (settings : GridSettings) {id : String}
    (h : Address.row id ∉ e.deleted d) :
    id ∈ (e.touch settings d).rows.map Row.id ↔ id ∈ d.rows.map Row.id := by
  simp only [List.mem_map, mem_rows_touch_iff]
  constructor
  · rintro ⟨_, ⟨r, hr, -, rfl⟩, rfl⟩
    exact ⟨r, hr, (id_divide (e.refill r)).symm⟩
  · rintro ⟨r, hr, rfl⟩
    exact ⟨_, ⟨r, hr, deletesRow_eq_false hr h, rfl⟩, id_divide _⟩

/-- The columns keep their blocks when a divider moves or not. -/
lemma map_blocks_divide (row : Row) :
    (e.divide settings row).columns.map Column.blocks = row.columns.map Column.blocks := by
  unfold divide
  split
  · next rowId columnId leftPercent =>
    split
    · rcases divideOrKeep_cases settings row columnId leftPercent with hkept | ⟨i, l, r, hmoved⟩
      · rw [hkept]
      · rw [hmoved, map_columns_resized fun _ _ => rfl]
    · rfl
  · rfl

/-- The blocks of a row that are there after an edit. -/
lemma mem_map_id_blocks_divide_refill {id : String} {row : Row} :
    id ∈ ((e.divide settings (e.refill row)).columns.flatMap fun c => c.blocks.map Block.id) ↔
      ∃ c ∈ row.columns, ∃ b ∈ c.blocks, e.deletesBlock b.id = false ∧ b.id = id := by
  have hblock : ∀ b : Block, (e.touchBlock b).map Block.id =
      if e.deletesBlock b.id then none else some b.id := by
    intro b
    unfold touchBlock
    cases e.deletesBlock b.id with
    | true => rfl
    | false => rfl
  have hblocks :
      ((e.divide settings (e.refill row)).columns.flatMap fun c => c.blocks.map Block.id) =
      row.columns.flatMap fun c => (c.blocks.filterMap e.touchBlock).map Block.id := by
    have hof : ∀ r : Row, (r.columns.flatMap fun c => c.blocks.map Block.id) =
        (r.columns.map Column.blocks).flatMap fun bs => bs.map Block.id := by
      intro r
      rw [List.flatMap_map]
    rw [hof, map_blocks_divide, ← hof]
    unfold refill
    rw [List.flatMap_map]
    rfl
  rw [hblocks]
  simp only [List.map_filterMap, hblock, List.mem_flatMap, List.mem_filterMap,
    Option.ite_none_left_eq_some, Bool.not_eq_true, Option.some.injEq]

/-- A block is there after an edit that does not delete it exactly if it was there before. -/
lemma mem_map_id_blocks_touch_iff {id : String} (h : Address.block id ∉ e.deleted d) :
    id ∈ (e.touch settings d).blocks.map Block.id ↔ id ∈ d.blocks.map Block.id := by
  rw [Document.map_id_blocks, Document.map_id_blocks, List.mem_flatMap, List.mem_flatMap]
  constructor
  · rintro ⟨_, hrow, hid⟩
    obtain ⟨r, hr, -, rfl⟩ := mem_rows_touch_iff.mp hrow
    obtain ⟨c, hc, b, hb, -, rfl⟩ := mem_map_id_blocks_divide_refill.mp hid
    exact ⟨r, hr, List.mem_flatMap.mpr ⟨c, hc, List.mem_map_of_mem hb⟩⟩
  · rintro ⟨r, hr, hid⟩
    obtain ⟨c, hc, hid⟩ := List.mem_flatMap.mp hid
    obtain ⟨b, hb, rfl⟩ := List.mem_map.mp hid
    obtain ⟨hrow, hblock⟩ := deletesBlock_eq_false hr hc hb h
    exact ⟨_, mem_rows_touch_iff.mpr ⟨r, hr, hrow, rfl⟩,
      mem_map_id_blocks_divide_refill.mpr ⟨c, hc, b, hb, hblock, rfl⟩⟩

/-- A divider of a row moves, or is refused, as before after an edit with no part in common. -/
lemma exists_moveDivider_divide (settings : GridSettings) {rowId columnId : String}
    {leftPercent : Binary64}
    (h : ((Edit.resizeColumns rowId columnId leftPercent).slots d).Disjoint (e'.slots d))
    {row : Row}
    (hrow : row ∈ d.rows) (hid : row.id = rowId) :
    ∃ g, (e'.divide settings row).moveDivider settings columnId leftPercent =
      (row.moveDivider settings columnId leftPercent).map g := by
  have hsame : row.moveDivider settings columnId leftPercent =
      (row.moveDivider settings columnId leftPercent).map id := by
    cases row.moveDivider settings columnId leftPercent with
    | error error => rfl
    | ok next => rfl
  unfold divide
  split
  · next rowId' columnId' leftPercent' =>
    split
    · next hid' =>
      subst hid hid'
      unfold divideOrKeep
      split
      · next hmove =>
        obtain ⟨j, _, _, l, r, hj, hleft, hright, rfl⟩ := exists_resized hmove
        have hapart := disjoint_dividerIds h hrow
        exact ⟨_, moveDivider_resized settings leftPercent hapart hj hleft hright l r⟩
      · exact ⟨id, hsame⟩
    · exact ⟨id, hsame⟩
  · exact ⟨id, hsame⟩

/-- A row is found by its id. -/
lemma row?_of_mem (hd : d.ids.Nodup) {row : Row} (hrow : row ∈ d.rows) :
    d.row? row.id = some row := by
  obtain ⟨found, hfound⟩ := Document.exists_row?_iff.mpr (List.mem_map_of_mem hrow)
  have hid : found.id = row.id := by simpa using List.find?_some hfound
  obtain rfl : found = row := row_eq_of_mem_ids hd (List.mem_of_find?_eq_some hfound) hrow
    List.mem_cons_self (hid ▸ List.mem_cons_self)
  exact hfound

/-- An edit is refused for the same reason before and after an edit from which it is independent. -/
lemma obstacle?_touch (hd : d.ids.Nodup) (h : Independent d e e') :
    e.obstacle? settings (e'.touch settings d) = e.obstacle? settings d := by
  obtain ⟨he, he', hslots, hspared, -⟩ := h
  cases he with
  | deleteRow _ | setRowAttribute _ _ _ | setRowRole _ _ =>
    simp only [obstacle?, mem_map_id_rows_touch_iff settings (hspared List.mem_cons_self)]
  | deleteBlock _ | setBlockAttribute _ _ _ | removeBlockAttribute _ _ | setBlockContent _ _ =>
    simp only [obstacle?, mem_map_id_blocks_touch_iff (hspared List.mem_cons_self)]
  | setVariant _ | setTheme _ => rfl
  | resizeColumns rowId columnId leftPercent =>
    have hrowId := mem_map_id_rows_touch_iff settings (hspared List.mem_cons_self)
    simp only [obstacle?]
    cases hfind : d.row? rowId with
    | none =>
      have hfind' : (e'.touch settings d).row? rowId = none := by
        rw [Option.eq_none_iff_forall_ne_some, ← not_exists, Document.exists_row?_iff, hrowId,
          ← Document.exists_row?_iff, hfind]
        simp
      rw [hfind']
    | some row =>
      have hrow : row ∈ d.rows := List.mem_of_find?_eq_some hfind
      have hid : row.id = rowId := by simpa using List.find?_some hfind
      have hmem : e'.divide settings (e'.refill row) ∈ (e'.touch settings d).rows :=
        mem_rows_touch_iff.mpr
          ⟨row, hrow, deletesRow_eq_false hrow (hid ▸ hspared List.mem_cons_self), rfl⟩
      have hfind' := row?_of_mem (nodup_ids_touch settings hd he') hmem
      rw [id_divide] at hfind'
      have hfind'' : (e'.touch settings d).row? rowId = some (e'.divide settings (e'.refill row)) :=
        hid ▸ hfind'
      obtain ⟨g, hmove⟩ := exists_moveDivider_divide settings hslots hrow hid
      rw [hfind'']
      simp only [divide_refill, moveDivider_refill, hmove]
      cases row.moveDivider settings columnId leftPercent with
      | error error => rfl
      | ok next => rfl

/-- An edit of this kind is refused if there is an obstacle. -/
lemma refusal?_eq (hd : d.ids.Nodup) (he : e.IsLocal) :
    refusal? settings d e = e.obstacle? settings d := by
  unfold refusal?
  cases touches_of_isLocal settings hd he with
  | done happly hobstacle => rw [happly, hobstacle]
  | refused error happly hobstacle _ => rw [happly, hobstacle]

end Refusals

/-- Independent edits commute: on a document whose ids are distinct, two edits that set different
parts of it, neither of which deletes what the other is addressed to, are carried out or refused for
the same reasons in either order, and make the same document of it. -/
theorem apply_comm {settings : GridSettings} {d : Document} {e e' : Edit} (hd : d.ids.Nodup)
    (h : Independent d e e') :
    refusal? settings (applyOrKeep settings d e') e = refusal? settings d e ∧
      refusal? settings (applyOrKeep settings d e) e' = refusal? settings d e' ∧
        applyOrKeep settings (applyOrKeep settings d e) e' =
          applyOrKeep settings (applyOrKeep settings d e') e := by
  have hkept := nodup_ids_touch settings hd h.isLocal
  have hkept' := nodup_ids_touch settings hd h.isLocal'
  rw [applyOrKeep_eq_touch hd h.isLocal, applyOrKeep_eq_touch hd h.isLocal',
    applyOrKeep_eq_touch hkept h.isLocal', applyOrKeep_eq_touch hkept' h.isLocal]
  refine ⟨?_, ?_, touch_comm h.slots⟩
  · rw [refusal?_eq hkept' h.isLocal, refusal?_eq hd h.isLocal, obstacle?_touch hd h]
  · rw [refusal?_eq hkept h.isLocal', refusal?_eq hd h.isLocal', obstacle?_touch hd h.symm]

/-- A row of four columns, the first of which holds two blocks. -/
def fourColumns : Document where
  id := "e"
  rows := [
    { id := "r"
      columns := [
        { id := "c1", units := 3
          blocks := [{ id := "a", kind := .text }, { id := "b", kind := .button }] },
        { id := "c2", units := 3 }, { id := "c3", units := 3 }, { id := "c4", units := 3 }] }]

/-- The outer dividers of a row move in either order, and so does a block change when the one above
it is deleted. -/
theorem apply_comm_fourColumns : fourColumns.ids.Nodup ∧
    (∀ leftPercent leftPercent' : Binary64,
      Independent fourColumns (.resizeColumns "r" "c1" leftPercent)
        (.resizeColumns "r" "c3" leftPercent') ∧
      applyOrKeep {} (applyOrKeep {} fourColumns (.resizeColumns "r" "c1" leftPercent))
          (.resizeColumns "r" "c3" leftPercent') =
        applyOrKeep {} (applyOrKeep {} fourColumns (.resizeColumns "r" "c3" leftPercent'))
          (.resizeColumns "r" "c1" leftPercent)) ∧
      Independent fourColumns (.deleteBlock "a") (.setBlockContent "b" (some "B")) ∧
        refusal? {} (applyOrKeep {} fourColumns (.deleteBlock "a"))
          (.setBlockContent "b" (some "B")) = none := by
  have hnodup : fourColumns.ids.Nodup := by decide
  refine ⟨hnodup, ?_, ?_⟩
  · intro leftPercent leftPercent'
    have hslots : (Edit.resizeColumns "r" "c1" leftPercent).slots fourColumns =
        [.width "c1", .width "c2"] := rfl
    have hslots' : (Edit.resizeColumns "r" "c3" leftPercent').slots fourColumns =
        [.width "c3", .width "c4"] := rfl
    have hindependent : Independent fourColumns (.resizeColumns "r" "c1" leftPercent)
        (.resizeColumns "r" "c3" leftPercent') :=
      ⟨.resizeColumns .., .resizeColumns .., by rw [hslots, hslots']; simp,
        List.disjoint_nil_right _, List.disjoint_nil_right _⟩
    exact ⟨hindependent, (apply_comm hnodup hindependent).2.2⟩
  · have hdeleted : (Edit.deleteBlock "a").deleted fourColumns = [.block "a"] := rfl
    have hindependent : Independent fourColumns (.deleteBlock "a")
        (.setBlockContent "b" (some "B")) :=
      ⟨.deleteBlock .., .setBlockContent .., List.disjoint_nil_left _,
        List.disjoint_nil_right _, by rw [hdeleted]; simp [addresses]⟩
    exact ⟨hindependent, (apply_comm hnodup hindependent).2.1⟩

end Edit

end MailTemplate
