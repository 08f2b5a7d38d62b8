import MailTemplate.Proofs.DeclaredWidths
import MailTemplate.Proofs.Edit.RowUnits
import MailTemplate.Starter.Draft

/-!
# Built documents

A draft says what a document holds; building it adds the ids and the widths.  The ids are all fresh,
whatever is drafted (`hands_buildRow`).  The widths are assigned from the declared ones, and here
nothing limits what is declared: any number of columns, and any widths.

Assigned widths keep the declared ones where they add up or leave a unit to every undeclared column
(`Grid.Kept`), and a declared width of zero is kept with them.  Otherwise they share the row, as
long as there are at most twelve of them.  So the columns of a built row share it exactly if there
are at most twelve and no zero is kept (`Grid.shares_assign_iff`).

Main result: `Draft.build_wellFormed`.
-/

namespace MailTemplate

/-! ### Any declared widths -/

namespace Grid

/-- The declared widths fill the row, or leave at least a unit to every undeclared column. -/
def Kept (declared : List (Option ℕ)) : Prop :=
  none ∉ declared ∧ (declared.filterMap id).sum = gridUnits ∨
    none ∈ declared ∧ (declared.filterMap id).sum + declared.count none ≤ gridUnits

/-- Raising changes no number of widths. -/
@[simp] lemma length_raise (exact : List Binary64) (missing : ℕ) (units : List ℕ) :
    (raise exact missing units).length = units.length := by
  induction missing generalizing units with
  | zero => rfl
  | succ missing ih =>
    rw [raise]
    split
    · rw [ih, List.length_modify]
    · rfl

/-- Lowering changes no number of widths. -/
@[simp] lemma length_lower (exact : List Binary64) (surplus : ℕ) (units : List ℕ) :
    (lower exact surplus units).length = units.length := by
  induction surplus generalizing units with
  | zero => rfl
  | succ surplus ih =>
    rw [lower]
    split
    · rw [ih, List.length_modify]
    · rfl

/-- Scaling changes no number of widths. -/
@[simp] lemma length_scale (widths : List ℕ) : (scale widths).length = widths.length := by
  unfold scale
  simp only
  split
  · exact length_equalSplit _ _
  · simp only [length_lower, length_raise, List.length_map]

/-- Filling changes no number of widths. -/
@[simp] lemma length_fill (declared : List (Option ℕ)) (shares : List ℕ) :
    (fill declared shares).length = declared.length := by
  fun_induction fill declared shares with
  | case1 => rfl
  | case2 _ _ _ ih => exact congrArg (· + 1) ih
  | case3 _ _ _ ih => exact congrArg (· + 1) ih
  | case4 _ ih => exact congrArg (· + 1) ih

/-- Every column is assigned a width. -/
@[simp] lemma length_assign (declared : List (Option ℕ)) :
    (assign declared).length = declared.length := by
  have hlength := length_filterMap_add_count_none declared
  rw [assign_eq]
  split
  · split
    · omega
    · rw [length_scale]
      omega
  · split
    · exact length_equalSplit _ _
    · exact length_fill _ _

/-- Widths that share a row are at most twelve. -/
lemma Shares.length_le {units : List ℕ} (h : Shares units) : units.length ≤ gridUnits := by
  rw [← h.sum_eq]
  exact List.length_le_sum_of_one_le units h.pos

/-- Widths share a row if each takes one to twelve units and together they take twelve. -/
lemma shares_iff_bounds {units : List ℕ} :
    Shares units ↔ (∀ u ∈ units, 1 ≤ u ∧ u ≤ 12) ∧ units.sum = 12 :=
  ⟨fun h => ⟨fun u hu => ⟨h.pos u hu, h.le hu⟩, h.sum_eq⟩, fun h => ⟨fun u hu => (h.1 u hu).1, h.2⟩⟩

/-- Widths that are kept stand where they are declared. -/
lemma Kept.completes {declared : List (Option ℕ)} (h : Kept declared) :
    Completes declared (assign declared) := by
  rcases h with ⟨hall, hsum⟩ | ⟨hopen, hroom⟩
  · rw [assign_eq, if_pos (List.count_eq_zero.mpr hall), if_pos hsum]
    exact completes_of_declared hall hsum
  · have hsome : declared.count none ≠ 0 := (List.count_pos_iff.mpr hopen).ne'
    rw [assign_eq, if_neg hsome, if_neg (by omega)]
    exact completes_fill hopen (by omega)

/-- Declared widths that are not kept are replaced by ones that share the row. -/
lemma shares_assign_of_not_kept {declared : List (Option ℕ)} (hne : declared ≠ [])
    (hlen : declared.length ≤ gridUnits) (h : ¬Kept declared) : Shares (assign declared) := by
  have hlength := length_filterMap_add_count_none declared
  have hpos : 0 < declared.length := List.length_pos_iff.mpr hne
  unfold Kept at h
  rw [not_or, not_and, not_and] at h
  obtain ⟨hall, hopen⟩ := h
  rw [assign_eq]
  by_cases hnone : declared.count none = 0
  · have hsum := hall (List.count_eq_zero.mp hnone)
    rw [if_pos hnone, if_neg hsum]
    exact (scale_shares _ (by rw [← List.length_pos_iff]; omega) (by omega)).2
  · have hroom := hopen (List.count_pos_iff.mp (Nat.pos_of_ne_zero hnone))
    rw [if_neg hnone, if_pos (by omega)]
    exact equalSplit_shares hpos hlen

/-- Assigned widths share the row exactly if there are at most twelve and no declared zero is
kept. -/
lemma shares_assign_iff {declared : List (Option ℕ)} (hne : declared ≠ []) :
    Shares (assign declared) ↔
      declared.length ≤ gridUnits ∧ ¬(some 0 ∈ declared ∧ Kept declared) := by
  constructor
  · intro hshares
    refine ⟨length_assign declared ▸ hshares.length_le, ?_⟩
    rintro ⟨hzero, hkept⟩
    obtain ⟨i, hi⟩ := List.mem_iff_getElem?.mp hzero
    have hmem := List.mem_of_getElem? (hkept.completes.kept i 0 hi)
    exact absurd (hshares.pos 0 hmem) (by decide)
  · rintro ⟨hlen, hnot⟩
    by_cases hkept : Kept declared
    · refine (assign_shares declared hne hlen ?_).2
      intro u hu
      rw [Nat.one_le_iff_ne_zero]
      rintro rfl
      exact hnot ⟨hu, hkept⟩
    · exact shares_assign_of_not_kept hne hlen hkept

end Grid

/-! ### What is drafted -/

/-- The block as a draft, without its id. -/
def Block.draft (block : Block) : BlockDraft :=
  { kind := block.kind, content := block.content, attributes := block.attributes }

/-- The column as a draft, without its ids. -/
def Column.draft (column : Column) : ColumnDraft :=
  { units := some column.units, attributes := column.attributes,
    blocks := column.blocks.map Block.draft }

namespace RowDraft

/-- The columns that are drafted, or an empty one for a row without columns. -/
def filled (draft : RowDraft) : List ColumnDraft :=
  if draft.columns.isEmpty then [{}] else draft.columns

/-- The widths that the columns declare. -/
def declared (draft : RowDraft) : List (Option ℕ) := draft.filled.map ColumnDraft.units

/-- A row says what its draft says, and its columns share it unless there are too many of them or
a width of zero is kept. -/
structure Built (draft : RowDraft) (row : Row) : Prop where
  /-- Ids and columns apart, the row is as drafted. -/
  role_eq : row.role = draft.role
  attributes_eq : row.attributes = draft.attributes
  container_eq : row.container = draft.container
  /-- Ids and widths apart, so are its columns. -/
  columns_eq : row.columns.map Column.draft =
    List.zipWith (fun column u => { column with units := some u }) draft.filled row.units
  /-- It has every drafted column, and one at least. -/
  length_eq : row.columns.length = max 1 draft.columns.length
  /-- When the columns share the row. -/
  shares_iff : ((∀ u ∈ row.units, 1 ≤ u ∧ u ≤ 12) ∧ row.total = 12) ↔
    draft.columns.length ≤ 12 ∧ ¬(some 0 ∈ draft.declared ∧ Grid.Kept draft.declared)

/-- There is always a column to build. -/
lemma length_filled (draft : RowDraft) : draft.filled.length = max 1 draft.columns.length := by
  unfold filled
  split
  · next hnil =>
    rw [List.isEmpty_iff.mp hnil]
    rfl
  · next hcons =>
    have hpos : 0 < draft.columns.length := by
      rw [List.length_pos_iff]
      simpa using hcons
    omega

end RowDraft

/-! ### Building -/

section Building

open IdSource

/-- Things made one after the other are each made from their own item. -/
lemma IdSource.forall₂_makeAll {α β : Type} {make : α → IdSource → β × IdSource}
    {R : α → β → Prop} (h : ∀ a ids, R a (make a ids).1) (items : List α) (ids : IdSource) :
    List.Forall₂ R items (makeAll make items ids).1 := by
  induction items generalizing ids with
  | nil => exact List.Forall₂.nil
  | cons a items ih => exact List.Forall₂.cons (h a ids) (ih (make a ids).2)

/-- A built block has a fresh id. -/
lemma hands_buildBlock (draft : BlockDraft) (ids : IdSource) :
    Hands ids [(draft.build ids).1.id] (draft.build ids).2 :=
  hands_next ids "block"

/-- A built column and its blocks have fresh ids. -/
lemma hands_buildColumn (draft : ColumnDraft × ℕ) (ids : IdSource) :
    Hands ids (ColumnDraft.build draft ids).1.ids (ColumnDraft.build draft ids).2 := by
  have hblocks := hands_makeAll (f := fun b : Block => [b.id]) hands_buildBlock draft.1.blocks
    (ids.next "column").2
  rw [← List.map_eq_flatMap] at hblocks
  exact (hands_next ids "column").append hblocks

/-- A built row and all nodes in it have fresh ids. -/
lemma hands_buildRow (draft : RowDraft) (ids : IdSource) :
    Hands ids (draft.build ids).1.ids (draft.build ids).2 :=
  (hands_next ids "row").append (hands_makeAll hands_buildColumn _ _)

/-- A built column says what its draft says, and has the width that it gets. -/
lemma draft_buildColumn (draft : ColumnDraft × ℕ) (ids : IdSource) :
    (ColumnDraft.build draft ids).1.draft = { draft.1 with units := some draft.2 } := by
  have hblocks := map_makeAll BlockDraft.build Block.draft id (fun _ _ => rfl) draft.1.blocks
    (ids.next "column").2
  rw [List.map_id] at hblocks
  unfold Column.draft ColumnDraft.build
  simp only [hblocks]

/-- The columns of a built row are built with the assigned widths. -/
lemma columns_buildRow (draft : RowDraft) (ids : IdSource) :
    (draft.build ids).1.columns = (makeAll ColumnDraft.build
      (draft.filled.zip (Grid.assign draft.declared)) (ids.next "row").2).1 := rfl

/-- A built row has the assigned widths. -/
lemma units_buildRow (draft : RowDraft) (ids : IdSource) :
    (draft.build ids).1.units = Grid.assign draft.declared := by
  unfold Row.units
  rw [columns_buildRow, map_makeAll ColumnDraft.build Column.units Prod.snd fun _ _ => rfl]
  refine List.map_snd_zip ?_
  rw [Grid.length_assign, RowDraft.declared, List.length_map]

/-- Every row is built as drafted. -/
lemma built_buildRow (draft : RowDraft) (ids : IdSource) : draft.Built (draft.build ids).1 := by
  have hunits := units_buildRow draft ids
  have hlength : draft.declared.length = max 1 draft.columns.length := by
    rw [RowDraft.declared, List.length_map, draft.length_filled]
  have hne : draft.declared ≠ [] := by
    rw [← List.length_pos_iff]
    omega
  constructor
  case role_eq => rfl
  case attributes_eq => rfl
  case container_eq => rfl
  case columns_eq =>
    rw [hunits, columns_buildRow, map_makeAll _ _ _ draft_buildColumn, List.map_zip_eq_zipWith]
    rfl
  case length_eq => rw [← Row.length_units, hunits, Grid.length_assign, hlength]
  case shares_iff =>
    have hcount : draft.declared.length ≤ gridUnits ↔ draft.columns.length ≤ 12 := by
      unfold gridUnits
      omega
    rw [← hcount, ← Grid.shares_assign_iff hne, ← hunits]
    exact Grid.shares_iff_bounds.symm

end Building

/-- Building a draft gives a document with the frame of the draft and a row for each of its rows.
No two nodes have the same id, and none has the id of the document.  Each row says what its draft
says; it has at least one column, and its columns have one to twelve units and together twelve
exactly if there are at most twelve of them and no width of zero is kept. -/
theorem Draft.build_wellFormed (d : Draft) :
    d.build = { d.frame with rows := d.build.rows } ∧ (d.build.id :: d.build.ids).Nodup ∧
      List.Forall₂ RowDraft.Built d.rows d.build.rows := by
  have hids := IdSource.hands_makeAll hands_buildRow d.rows { taken := [d.frame.id] }
  refine ⟨rfl, List.nodup_cons.mpr ⟨?_, hids.nodup⟩, IdSource.forall₂_makeAll built_buildRow _ _⟩
  intro hmem
  exact hids.fresh _ hmem (List.mem_singleton_self _)

/-- A row of a column without a unit and one that takes them all. -/
def zeroWide : Draft where
  frame := { id := "e" }
  rows := [{ columns := [{ units := some 0 }, { units := some 12 }] }]

/-- A width of zero that is declared beside one of twelve is kept. -/
theorem exists_built_zero_units :
    ∃ d : Draft, ∃ row ∈ d.build.rows, ∃ u ∈ row.units, ¬(1 ≤ u ∧ u ≤ 12) :=
  ⟨zeroWide, _, List.mem_singleton_self _, 0, by decide, by decide⟩

end MailTemplate
