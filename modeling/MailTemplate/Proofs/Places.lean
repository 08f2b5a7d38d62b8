import MailTemplate.Edit.Apply
import MailTemplate.Proofs.Lists

/-!
# Places of nodes

A look-up by id gives the place of a node with that id: the row, the column or the block stands
there (`rowIndex?_spec`, `columnPlace?_spec`, `blockPlace?_spec`).  It gives one whenever there is
such a node (`exists_rowIndex?_iff`, `exists_columnPlace?_iff`, `exists_blockPlace?_iff`).
-/

namespace MailTemplate

/-- The first place at which something is found is a place at which it is found. -/
lemma firstPlace?_spec {α β : Type} {find : α → Option β} {items : List α} {start i : ℕ} {b : β}
    (h : firstPlace? find start items = some (i, b)) :
    ∃ j a, i = start + j ∧ items[j]? = some a ∧ find a = some b := by
  induction items generalizing start with
  | nil => cases h
  | cons a items ih =>
    rw [firstPlace?] at h
    split at h
    · next y hy =>
      cases h
      exact ⟨0, a, rfl, rfl, hy⟩
    · obtain ⟨j, c, hi, hc, hb⟩ := ih h
      exact ⟨j + 1, c, by omega, by simpa using hc, hb⟩

/-- A member found by its id stands at its index and has the id. -/
lemma getElem?_of_findIdx? {α : Type} {items : List α} {p : α → Bool} {i : ℕ}
    (h : items.findIdx? p = some i) : ∃ a, items[i]? = some a ∧ p a = true := by
  obtain ⟨hi, hp, -⟩ := List.findIdx?_eq_some_iff_getElem.mp h
  exact ⟨items[i], List.getElem?_eq_getElem hi, hp⟩

/-- A member with a property has a place exactly if there is one. -/
lemma exists_findIdx?_iff {α : Type} {items : List α} {p : α → Bool} :
    (∃ i, items.findIdx? p = some i) ↔ ∃ a ∈ items, p a = true := by
  rw [← Option.isSome_iff_exists, List.findIdx?_isSome, List.any_eq_true]

/-- Something is found at a first place exactly if it is found at some member. -/
lemma exists_firstPlace?_iff {α β : Type} {find : α → Option β} {items : List α} (start : ℕ) :
    (∃ place, firstPlace? find start items = some place) ↔ ∃ a ∈ items, ∃ b, find a = some b := by
  induction items generalizing start with
  | nil => simp [firstPlace?]
  | cons a items ih =>
    rw [firstPlace?, List.exists_mem_cons_iff]
    cases hfind : find a with
    | none => simpa using ih (start + 1)
    | some b => simp

/-- The first place at which something is found is that of the first member with it. -/
lemma find?_of_firstPlace? {α β : Type} {find : α → Option β} {items : List α} (start i : ℕ) {b : β}
    (h : firstPlace? find start items = some (start + i, b)) :
    items.find? (fun a => (find a).isSome) = items[i]? := by
  induction items generalizing start i with
  | nil => cases h
  | cons a items ih =>
    rw [firstPlace?] at h
    rw [List.find?_cons]
    split at h
    · next y hy =>
      obtain rfl : i = 0 := by
        have hplace := (Prod.mk.inj (Option.some.inj h)).1
        omega
      simp [hy]
    · next hnone =>
      obtain ⟨j, -, hj, -, -⟩ := firstPlace?_spec h
      obtain rfl : i = j + 1 := by omega
      rw [show start + (j + 1) = start + 1 + j by omega] at h
      simpa [hnone] using ih _ _ h

/-- The id of a column is one of the ids of its row. -/
lemma Row.mem_ids_of_column {row : Row} {column : Column} (h : column ∈ row.columns) :
    column.id ∈ row.ids :=
  List.mem_cons_of_mem _ (List.mem_flatMap.mpr ⟨column, h, List.mem_cons_self⟩)

/-- The id of a block is one of the ids of its row. -/
lemma Row.mem_ids_of_block {row : Row} {column : Column} {block : Block} (h : column ∈ row.columns)
    (hblock : block ∈ column.blocks) : block.id ∈ row.ids :=
  List.mem_cons_of_mem _ (List.mem_flatMap.mpr
    ⟨column, h, List.mem_cons_of_mem _ (List.mem_map_of_mem hblock)⟩)

/-- A column has a place in a row exactly if its id is the id of a column of the row. -/
lemma Row.exists_columnIndex?_iff {row : Row} {id : String} :
    (∃ index, row.columnIndex? id = some index) ↔ id ∈ row.columns.map Column.id := by
  unfold columnIndex?
  rw [exists_findIdx?_iff, List.mem_map]
  simp only [beq_iff_eq]

/-- The place of a key is that of the first member that has it. -/
lemma findIdx?_key_eq_some_iff {α β : Type} [DecidableEq β] {key : α → β} {items : List α} {k : β}
    {index : ℕ} : (items.findIdx? fun a => key a == k) = some index ↔
      ∃ before a after, items = before ++ a :: after ∧ before.length = index ∧ key a = k ∧
        k ∉ before.map key := by
  rw [List.findIdx?_eq_some_iff_getElem]
  constructor
  · rintro ⟨hlt, hkey, hbefore⟩
    obtain ⟨before, after, hitems, hlength, -⟩ :=
      exists_split_modify (List.getElem?_eq_getElem hlt)
    generalize items[index] = a at hkey hitems
    refine ⟨before, a, after, hitems, hlength, by simpa using hkey, ?_⟩
    intro hmem
    obtain ⟨other, hother, hsame⟩ := List.mem_map.mp hmem
    obtain ⟨j, hj, rfl⟩ := List.mem_iff_getElem.mp hother
    have hnot := hbefore j (hlength ▸ hj)
    simp only [hitems, List.getElem_append_left hj] at hnot
    simp [hsame] at hnot
  · rintro ⟨before, a, after, rfl, rfl, rfl, hnot⟩
    refine ⟨by simp, by simp, ?_⟩
    intro j hj
    simp only [List.getElem_append_left hj, beq_iff_eq]
    exact fun hsame => hnot (hsame ▸ List.mem_map_of_mem (List.getElem_mem hj))

/-- The place of a column in a row is that of the first column of the row with the id. -/
lemma Row.columnIndex?_eq_some_iff {row : Row} {id : String} {index : ℕ} :
    row.columnIndex? id = some index ↔ ∃ before c after, row.columns = before ++ c :: after ∧
      before.length = index ∧ c.id = id ∧ id ∉ before.map Column.id :=
  findIdx?_key_eq_some_iff

namespace Document

/-- A row is found at its place. -/
lemma rowIndex?_spec {d : Document} {id : String} {index : ℕ} (h : d.rowIndex? id = some index) :
    ∃ row, d.rows[index]? = some row ∧ row.id = id := by
  obtain ⟨row, hrow, hid⟩ := getElem?_of_findIdx? h
  exact ⟨row, hrow, by simpa using hid⟩

/-- The place of a row is that of the first row with the id. -/
lemma rowIndex?_eq_some_iff {d : Document} {id : String} {index : ℕ} :
    d.rowIndex? id = some index ↔ ∃ before row after, d.rows = before ++ row :: after ∧
      before.length = index ∧ row.id = id ∧ id ∉ before.map Row.id :=
  findIdx?_key_eq_some_iff

/-- A row has a place exactly if its id is the id of a row. -/
lemma exists_rowIndex?_iff {d : Document} {id : String} :
    (∃ index, d.rowIndex? id = some index) ↔ id ∈ d.rows.map Row.id := by
  unfold rowIndex?
  rw [exists_findIdx?_iff, List.mem_map]
  simp only [beq_iff_eq]

/-- A row taken out and put directly before another one leaves the same rows in another order. -/
lemma perm_rows_of_moved {d : Document} {dragged hovered : ℕ} {row : Row} {hoverId : String}
    (hrow : d.rows[dragged]? = some row) (hhovered : d.rowIndex? hoverId = some hovered) :
    ((d.rows.eraseIdx dragged).insertIdx (if dragged < hovered then hovered - 1 else hovered)
      row).Perm d.rows := by
  have hlt : dragged < d.rows.length := (List.getElem?_eq_some_iff.mp hrow).1
  have hlt' : hovered < d.rows.length := by
    obtain ⟨_, hget, -⟩ := rowIndex?_spec hhovered
    exact (List.getElem?_eq_some_iff.mp hget).1
  have hlen := List.length_eraseIdx_of_lt hlt
  refine (List.perm_insertIdx row _ ?_).trans (perm_cons_eraseIdx hrow).symm
  split <;> omega

/-- The row found by an id is the one at the place of the id. -/
lemma row?_eq {d : Document} {id : String} {index : ℕ} (h : d.rowIndex? id = some index) :
    d.row? id = d.rows[index]? := by
  unfold row?
  rw [List.find?_eq_bind_findIdx?_getElem?]
  unfold rowIndex? at h
  rw [h]
  rfl

/-- A row is found by an id exactly if it stands at the place of the id. -/
lemma row?_eq_some_iff {d : Document} {id : String} {row : Row} :
    d.row? id = some row ↔ ∃ index, d.rowIndex? id = some index ∧ d.rows[index]? = some row := by
  unfold row? rowIndex?
  rw [List.find?_eq_bind_findIdx?_getElem?, Option.bind_eq_some_iff]

/-- The row that is found by an id is the first one with the id. -/
lemma row?_eq_some_iff_append {d : Document} {id : String} {row : Row} :
    d.row? id = some row ↔ ∃ before after, d.rows = before ++ row :: after ∧ row.id = id ∧
      id ∉ before.map Row.id := by
  simp only [row?_eq_some_iff, rowIndex?_eq_some_iff]
  constructor
  · rintro ⟨index, ⟨before, first, after, hrows, rfl, hid, hnot⟩, hrow⟩
    obtain rfl : first = row := by simpa [hrows] using hrow
    exact ⟨before, after, hrows, hid, hnot⟩
  · rintro ⟨before, after, hrows, hid, hnot⟩
    exact ⟨before.length, ⟨before, row, after, hrows, rfl, hid, hnot⟩, by simp [hrows]⟩

/-- A row is found by an id exactly if it is the id of a row. -/
lemma exists_row?_iff {d : Document} {id : String} :
    (∃ row, d.row? id = some row) ↔ id ∈ d.rows.map Row.id := by
  unfold row?
  rw [← Option.isSome_iff_exists, List.find?_isSome, List.mem_map]
  simp only [beq_iff_eq]

/-- A column has a place exactly if its id is the id of a column. -/
lemma exists_columnPlace?_iff {d : Document} {id : String} :
    (∃ place, d.columnPlace? id = some place) ↔ id ∈ d.columns.map Column.id := by
  unfold columnPlace? columns
  rw [← Option.isSome_iff_exists, Option.isSome_map, Option.isSome_iff_exists,
    exists_firstPlace?_iff, List.map_flatMap]
  simp only [Row.exists_columnIndex?_iff, List.mem_flatMap]

/-- A block has a place exactly if its id is the id of a block. -/
lemma exists_blockPlace?_iff {d : Document} {id : String} :
    (∃ place, d.blockPlace? id = some place) ↔ id ∈ d.blocks.map Block.id := by
  have hcolumn : ∀ c : Column, (∃ index, c.blockIndex? id = some index) ↔
      id ∈ c.blocks.map Block.id := by
    intro c
    unfold Column.blockIndex?
    rw [exists_findIdx?_iff, List.mem_map]
    simp only [beq_iff_eq]
  unfold blockPlace? blocks columns
  rw [← Option.isSome_iff_exists, Option.isSome_map, Option.isSome_iff_exists,
    exists_firstPlace?_iff, List.flatMap_assoc, List.map_flatMap]
  simp only [exists_firstPlace?_iff, hcolumn, List.map_flatMap, List.mem_flatMap]

/-- A column is found at its place. -/
lemma columnPlace?_spec {d : Document} {id : String} {place : ColumnPlace}
    (h : d.columnPlace? id = some place) :
    ∃ row column, d.rows[place.row]? = some row ∧ row.columns[place.column]? = some column ∧
      column.id = id := by
  unfold columnPlace? at h
  obtain ⟨⟨i, j⟩, hfirst, rfl⟩ := Option.map_eq_some_iff.mp h
  obtain ⟨k, row, hk, hrow, hfind⟩ := firstPlace?_spec hfirst
  obtain rfl : i = k := by omega
  obtain ⟨column, hcolumn, hid⟩ := getElem?_of_findIdx? hfind
  exact ⟨row, column, hrow, hcolumn, by simpa using hid⟩

/-- There is a row that has a column with an id exactly if it is the id of a column. -/
lemma exists_find?_column_iff {d : Document} {id : String} :
    (∃ row, d.rows.find? (fun r => id ∈ r.columns.map Column.id) = some row) ↔
      id ∈ d.columns.map Column.id := by
  unfold columns
  rw [← Option.isSome_iff_exists, List.find?_isSome, List.map_flatMap, List.mem_flatMap]
  simp only [decide_eq_true_iff]

/-- The row of a column's place is the first row that has a column with the id. -/
lemma find?_of_columnPlace? {d : Document} {id : String} {place : ColumnPlace}
    (h : d.columnPlace? id = some place) :
    d.rows.find? (fun r => id ∈ r.columns.map Column.id) = d.rows[place.row]? := by
  unfold columnPlace? at h
  obtain ⟨⟨i, j⟩, hfirst, rfl⟩ := Option.map_eq_some_iff.mp h
  have hfind := find?_of_firstPlace? 0 i (by rwa [Nat.zero_add])
  rw [← hfind]
  congr 1
  funext r
  rw [Bool.eq_iff_iff, decide_eq_true_iff, Option.isSome_iff_exists, Row.exists_columnIndex?_iff]

/-- A block is found at its place. -/
lemma blockPlace?_spec {d : Document} {id : String} {place : BlockPlace}
    (h : d.blockPlace? id = some place) :
    ∃ row column block, d.rows[place.row]? = some row ∧
      row.columns[place.column]? = some column ∧ column.blocks[place.block]? = some block ∧
        block.id = id := by
  unfold blockPlace? at h
  obtain ⟨⟨i, j, k⟩, hfirst, rfl⟩ := Option.map_eq_some_iff.mp h
  obtain ⟨i', row, hi, hrow, hfind⟩ := firstPlace?_spec hfirst
  obtain rfl : i = i' := by omega
  obtain ⟨j', column, hj, hcolumn, hfind'⟩ := firstPlace?_spec hfind
  obtain rfl : j = j' := by omega
  obtain ⟨block, hblock, hid⟩ := getElem?_of_findIdx? hfind'
  exact ⟨row, column, block, hrow, hcolumn, hblock, by simpa using hid⟩

/-- The columns of a document are the one at a place between others, and a change of that column
leaves the others. -/
lemma exists_split_column {d : Document} (place : ColumnPlace) {row : Row} {column : Column}
    (hrow : d.rows[place.row]? = some row) (hcolumn : row.columns[place.column]? = some column) :
    ∃ before after, d.columns = before ++ column :: after ∧
      ∀ f, (d.modifyColumn place f).columns = before ++ f column :: after := by
  obtain ⟨rowsBefore, rowsAfter, hrows, -, hmodifyRow⟩ := exists_split_modify hrow
  obtain ⟨before, after, hcolumns, -, hmodify⟩ := exists_split_modify hcolumn
  refine ⟨rowsBefore.flatMap Row.columns ++ before, after ++ rowsAfter.flatMap Row.columns, ?_,
    fun f => ?_⟩
  · unfold columns
    rw [hrows, List.flatMap_append, List.flatMap_cons, hcolumns]
    simp only [List.append_assoc, List.cons_append]
  · unfold columns modifyColumn modifyRow
    rw [hmodifyRow, List.flatMap_append, List.flatMap_cons, hmodify]
    simp only [List.append_assoc, List.cons_append]

/-- Changes of blocks that agree on the blocks at a place are one change. -/
lemma modifyBlocks_congr {d : Document} {place : ColumnPlace} {row : Row} {column : Column}
    (hrow : d.rows[place.row]? = some row) (hcolumn : row.columns[place.column]? = some column)
    {f g : List Block → List Block} (h : f column.blocks = g column.blocks) :
    d.modifyBlocks place f = d.modifyBlocks place g := by
  obtain ⟨rowsBefore, rowsAfter, -, -, hmodifyRow⟩ := exists_split_modify hrow
  obtain ⟨before, after, -, -, hmodify⟩ := exists_split_modify hcolumn
  unfold modifyBlocks modifyColumn modifyRow
  rw [hmodifyRow, hmodifyRow, hmodify, hmodify, h]

/-- The block at a place is that of the column that stands there. -/
lemma blockAt?_eq {d : Document} {place : BlockPlace} {row : Row} {column : Column}
    (hrow : d.rows[place.row]? = some row) (hcolumn : row.columns[place.column]? = some column) :
    d.blockAt? place = (column.blocks[place.block]?).map fun block => (row, block) := by
  unfold blockAt?
  simp only [hrow, hcolumn, Option.bind_eq_bind, Option.bind_some]
  cases column.blocks[place.block]? with
  | none => rfl
  | some block => rfl

end Document

end MailTemplate
