import MailTemplate.Proofs.Bags
import MailTemplate.Proofs.Edit.Touches

/-!
# Edits that set different parts

An edit that sets something, moves a divider, or deletes a block or a row changes every node by
itself (`Edit.touch`), and each part of a node by itself.  So two such edits commute if the parts
that they set are different (`touch_comm`).
-/

namespace MailTemplate

namespace Edit

/-- A part of a document that an edit sets. -/
inductive Slot where
  | variant
  | theme
  | role (rowId : String)
  | rowAttribute (rowId key : String)
  | width (columnId : String)
  | content (blockId : String)
  | blockAttribute (blockId key : String)
  deriving DecidableEq

/-- The parts of a document that an edit sets. -/
def slots (d : Document) : Edit → List Slot
  | setVariant _ => [.variant]
  | setTheme _ => [.theme]
  | setRowRole rowId _ => [.role rowId]
  | setRowAttribute rowId key _ => [.rowAttribute rowId key]
  | resizeColumns rowId leftColumnId _ =>
    (d.rows.filter fun r => r.id == rowId).flatMap fun r => (r.dividerIds leftColumnId).map .width
  | setBlockContent blockId _ => [.content blockId]
  | setBlockAttribute blockId key _ | removeBlockAttribute blockId key =>
    [.blockAttribute blockId key]
  | _ => []

section Parts

variable {settings : GridSettings} {d : Document} {e e' : Edit}

/-! ### Part by part -/

/-- Variants set by edits with no part in common. -/
lemma touchVariant_comm (h : (e.slots d).Disjoint (e'.slots d)) (variant : Option StyleVariant) :
    e.touchVariant (e'.touchVariant variant) = e'.touchVariant (e.touchVariant variant) := by
  cases e with
  | setVariant _ =>
    cases e' with
    | setVariant _ => exact absurd List.mem_cons_self (h List.mem_cons_self)
    | _ => rfl
  | _ => rfl

/-- Themes set by edits with no part in common. -/
lemma touchTheme_comm (h : (e.slots d).Disjoint (e'.slots d)) (theme : Option String) :
    e.touchTheme (e'.touchTheme theme) = e'.touchTheme (e.touchTheme theme) := by
  cases e with
  | setTheme _ =>
    cases e' with
    | setTheme _ => exact absurd List.mem_cons_self (h List.mem_cons_self)
    | _ => rfl
  | _ => rfl

/-- Roles set by edits with no part in common. -/
lemma touchRole_comm (h : (e.slots d).Disjoint (e'.slots d)) (rowId : String)
    (role : Option RowRole) :
    e.touchRole rowId (e'.touchRole rowId role) = e'.touchRole rowId (e.touchRole rowId role) := by
  cases e with
  | setRowRole id _ =>
    cases e' with
    | setRowRole id' _ =>
      have hne : id ≠ id' := by
        rintro rfl
        exact h List.mem_cons_self List.mem_cons_self
      simp only [touchRole]
      grind
    | _ => rfl
  | _ => rfl

/-- Attributes of rows set by edits with no part in common. -/
lemma touchRowAttributes_comm (h : (e.slots d).Disjoint (e'.slots d)) (rowId : String)
    (bag : Attributes) :
    e.touchRowAttributes rowId (e'.touchRowAttributes rowId bag) =
      e'.touchRowAttributes rowId (e.touchRowAttributes rowId bag) := by
  cases e with
  | setRowAttribute id key _ =>
    cases e' with
    | setRowAttribute id' key' _ =>
      have hne : ¬(id = id' ∧ key = key') := by
        rintro ⟨rfl, rfl⟩
        exact h List.mem_cons_self List.mem_cons_self
      simp only [touchRowAttributes]
      split
      · split
        · exact bag.set_set_comm (by grind) _ _
        · rfl
      · rfl
    | _ => rfl
  | _ => rfl

/-- Contents set by edits with no part in common. -/
lemma touchContent_comm (h : (e.slots d).Disjoint (e'.slots d)) (blockId : String)
    (content : Option String) :
    e.touchContent blockId (e'.touchContent blockId content) =
      e'.touchContent blockId (e.touchContent blockId content) := by
  cases e with
  | setBlockContent id _ =>
    cases e' with
    | setBlockContent id' _ =>
      have hne : id ≠ id' := by
        rintro rfl
        exact h List.mem_cons_self List.mem_cons_self
      simp only [touchContent]
      grind
    | _ => rfl
  | _ => rfl

/-- Attributes of blocks set or removed by edits with no part in common. -/
lemma touchBlockAttributes_comm (h : (e.slots d).Disjoint (e'.slots d)) (blockId : String)
    (bag : Attributes) :
    e.touchBlockAttributes blockId (e'.touchBlockAttributes blockId bag) =
      e'.touchBlockAttributes blockId (e.touchBlockAttributes blockId bag) := by
  have hne : ∀ {id id' key key' : String},
      (Slot.blockAttribute id key ∈ e.slots d) → (Slot.blockAttribute id' key' ∈ e'.slots d) →
        ¬(id = id' ∧ key = key') := by
    rintro id _ key _ hmem hmem' ⟨rfl, rfl⟩
    exact h hmem hmem'
  cases e with
  | setBlockAttribute id key _ =>
    cases e' with
    | setBlockAttribute id' key' _ =>
      have hkey := hne List.mem_cons_self List.mem_cons_self
      simp only [touchBlockAttributes]
      split
      · split
        · exact bag.set_set_comm (by grind) _ _
        · rfl
      · rfl
    | removeBlockAttribute id' key' =>
      have hkey := hne List.mem_cons_self List.mem_cons_self
      simp only [touchBlockAttributes]
      split
      · split
        · exact (bag.set_erase_comm (by grind) _).symm
        · rfl
      · rfl
    | _ => rfl
  | removeBlockAttribute id key =>
    cases e' with
    | setBlockAttribute id' key' _ =>
      have hkey := hne List.mem_cons_self List.mem_cons_self
      simp only [touchBlockAttributes]
      split
      · split
        · exact bag.set_erase_comm (by grind) _
        · rfl
      · rfl
    | removeBlockAttribute id' key' =>
      simp only [touchBlockAttributes]
      split
      · split
        · exact bag.erase_erase_comm _ _
        · rfl
      · rfl
    | _ => rfl
  | _ => rfl

/-! ### Blocks, and the fields of rows -/

/-- What two edits make of a block one after the other. -/
lemma touchBlock_bind (b : Block) : (e.touchBlock b).bind e'.touchBlock =
    if e.deletesBlock b.id || e'.deletesBlock b.id then none
    else some { b with
      content := e'.touchContent b.id (e.touchContent b.id b.content)
      attributes := e'.touchBlockAttributes b.id (e.touchBlockAttributes b.id b.attributes) } := by
  unfold touchBlock
  cases e.deletesBlock b.id with
  | true => rfl
  | false => rfl

/-- Blocks touched by edits with no part in common. -/
lemma touchBlock_comm (h : (e.slots d).Disjoint (e'.slots d)) (b : Block) :
    (e.touchBlock b).bind e'.touchBlock = (e'.touchBlock b).bind e.touchBlock := by
  rw [touchBlock_bind, touchBlock_bind, Bool.or_comm, touchContent_comm h,
    touchBlockAttributes_comm h]

/-- Columns whose blocks are touched one after the other. -/
lemma filterMapBlocks_comm (h : (e.slots d).Disjoint (e'.slots d)) (c : Column) :
    (c.filterMapBlocks e.touchBlock).filterMapBlocks e'.touchBlock =
      (c.filterMapBlocks e'.touchBlock).filterMapBlocks e.touchBlock := by
  unfold Column.filterMapBlocks
  rw [List.filterMap_filterMap, List.filterMap_filterMap, funext (touchBlock_comm h)]

/-- Rows filled in by edits with no part in common. -/
lemma refill_comm (h : (e.slots d).Disjoint (e'.slots d)) (row : Row) :
    e'.refill (e.refill row) = e.refill (e'.refill row) := by
  unfold refill
  simp only [List.map_map]
  rw [touchRole_comm h, touchRowAttributes_comm h]
  congr 1
  exact List.map_congr_left fun c _ => filterMapBlocks_comm h c

/-! ### Dividers -/

/-- A divider moves in a row that is filled in as in the row itself. -/
lemma moveDivider_refill (row : Row) (columnId : String) (leftPercent : Binary64) :
    (e.refill row).moveDivider settings columnId leftPercent =
      (row.moveDivider settings columnId leftPercent).map e.refill := by
  have hunits : (e.refill row).units = row.units := by
    unfold Row.units refill
    rw [List.map_map]
    rfl
  refine moveDivider_of_keeps ?_ ?_
  · unfold refill
    rw [List.map_map]
    rfl
  · intro i left right _ hleft hright
    refine ⟨?_, ?_, ?_⟩
    · rw [hunits, Row.units, List.getElem?_map, hleft, Option.map_some]
    · rw [hunits, Row.units, List.getElem?_map, hright, Option.map_some]
    · intro l r
      have hwidth : ∀ (u j : ℕ) (columns : List Column),
          (columns.map (Column.filterMapBlocks e.touchBlock)).modify j
              (fun c => { c with units := u }) =
            (columns.modify j fun c => { c with units := u }).map
              (Column.filterMapBlocks e.touchBlock) := by
        intro u j columns
        exact (map_modify (f := fun c : Column => { c with units := u })
          (k := fun c : Column => { c with units := u }) (fun _ => rfl) columns j).symm
      unfold resized refill
      simp only [hwidth]

/-- A divider of a row moves whether or not the row has been filled in. -/
lemma divide_refill (row : Row) :
    e'.divide settings (e.refill row) = e.refill (e'.divide settings row) := by
  cases e' with
  | resizeColumns rowId leftColumnId leftPercent =>
    simp only [divide]
    by_cases hid : row.id = rowId
    · have hid' : (e.refill row).id = rowId := hid
      rw [if_pos hid, if_pos hid']
      unfold divideOrKeep
      rw [moveDivider_refill]
      cases row.moveDivider settings leftColumnId leftPercent with
      | error error => rfl
      | ok next => rfl
    · have hid' : (e.refill row).id ≠ rowId := hid
      rw [if_neg hid, if_neg hid']
  | _ => rfl

/-- Dividers of a row that are moved by edits with no part in common have no column in common. -/
lemma disjoint_dividerIds {columnId columnId' : String} {leftPercent leftPercent' : Binary64}
    {row : Row} (h : ((Edit.resizeColumns row.id columnId leftPercent).slots d).Disjoint
      ((Edit.resizeColumns row.id columnId' leftPercent').slots d)) (hrow : row ∈ d.rows) :
    (row.dividerIds columnId).Disjoint (row.dividerIds columnId') := by
  have hslots : ∀ {columnId id : String}, id ∈ row.dividerIds columnId → ∀ leftPercent,
      Slot.width id ∈ (Edit.resizeColumns row.id columnId leftPercent).slots d := by
    intro columnId id hmem leftPercent
    have hmem' : row ∈ d.rows.filter fun r => r.id == row.id :=
      List.mem_filter.mpr ⟨hrow, beq_self_eq_true _⟩
    exact List.mem_flatMap.mpr ⟨row, hmem', List.mem_map_of_mem hmem⟩
  intro id hmem hmem'
  exact h (hslots hmem leftPercent) (hslots hmem' leftPercent')

/-- Rows of a document whose dividers are moved by edits with no part in common. -/
lemma divide_comm (h : (e.slots d).Disjoint (e'.slots d)) {row : Row} (hrow : row ∈ d.rows) :
    e'.divide settings (e.divide settings row) = e.divide settings (e'.divide settings row) := by
  cases e with
  | resizeColumns rowId columnId leftPercent =>
    cases e' with
    | resizeColumns rowId' columnId' leftPercent' =>
      simp only [divide]
      by_cases hat : row.id = rowId
      · by_cases hat' : row.id = rowId'
        · subst hat hat'
          simp only [id_divideOrKeep, if_true]
          exact divideOrKeep_comm (disjoint_dividerIds h hrow) leftPercent leftPercent'
        · simp only [if_pos hat, if_neg hat', id_divideOrKeep]
      · simp only [if_neg hat]
        split
        · rw [id_divideOrKeep, if_neg hat]
        · rfl
    | _ => rfl
  | _ => rfl

/-! ### Rows and documents -/

/-- A row keeps its id when its widths change. -/
lemma id_divide (row : Row) : (e.divide settings row).id = row.id := by
  unfold divide
  split
  · split
    · exact id_divideOrKeep settings row _ _
    · rfl
  · rfl

/-- What two edits make of a row one after the other. -/
lemma touchRow_bind (row : Row) : (e.touchRow settings row).bind (e'.touchRow settings) =
    if e.deletesRow row.id || e'.deletesRow row.id then none
    else some (e'.refill (e.refill (e'.divide settings (e.divide settings row)))) := by
  have hid : (e.refill (e.divide settings row)).id = row.id := id_divide row
  unfold touchRow
  cases e.deletesRow row.id with
  | true => rfl
  | false =>
    simp only [Bool.false_eq_true, if_false, Option.bind_some, Bool.false_or, divide_refill, hid]

/-- Rows of a document touched by edits with no part in common. -/
lemma touchRow_comm (h : (e.slots d).Disjoint (e'.slots d)) {row : Row} (hrow : row ∈ d.rows) :
    (e.touchRow settings row).bind (e'.touchRow settings) =
      (e'.touchRow settings row).bind (e.touchRow settings) := by
  rw [touchRow_bind, touchRow_bind, Bool.or_comm, refill_comm h, divide_comm h hrow]

/-- Documents touched by edits with no part in common. -/
lemma touch_comm (h : (e.slots d).Disjoint (e'.slots d)) :
    e'.touch settings (e.touch settings d) = e.touch settings (e'.touch settings d) := by
  unfold touch
  simp only [List.filterMap_filterMap]
  rw [touchVariant_comm h, touchTheme_comm h,
    List.filterMap_congr fun row hrow => touchRow_comm h hrow]

end Parts

end Edit

end MailTemplate
