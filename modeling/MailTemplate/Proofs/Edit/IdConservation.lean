import MailTemplate.Proofs.Edit.NodeTrace
import MailTemplate.Proofs.Edit.RowUnits
import MailTemplate.Proofs.Edit.Run

/-!
# Ids over whole runs

Every step of an edit is traced through the nodes of the document (`Step.traces`): no node changes
its id, and new nodes get ids that no node had.

Main result: a run of edits keeps the ids of all nodes distinct, and each of its successful edits is
traced (`run_ids_distinct`).
-/

namespace MailTemplate

open Document (Payload Node)

/-! ### Rows brought onto the grid -/

/-- A row of columns keeps its nodes when it is brought onto the grid. -/
lemma Row.nodes_fit {row : Row} (ids : IdSource) (hne : row.columns ≠ [])
    (hcount : row.columns.length ≤ gridUnits) : (row.fit ids).nodes = row.nodes := by
  obtain ⟨hlength, -⟩ := Grid.fitted_spec (Row.units_ne_nil hne) (by simpa using hcount)
  rw [Row.fit_of_ne_nil ids hne]
  exact Row.nodes_withUnits _ _ (by simpa using hlength.ge)

namespace Edit

/-- A copy has as many columns as the row. -/
lemma length_columns_copy (row : Row) (ids : IdSource) :
    (row.copy ids).1.columns.length = row.columns.length := by
  have h := IdSource.map_makeAll Column.copy Column.units Column.units
    (fun _ _ => rfl) row.columns (ids.next "row").2
  have hlen := congrArg List.length h
  rw [List.length_map, List.length_map] at hlen
  exact hlen

/-- A row from elsewhere comes in with what it holds, and with an empty column if it has none. -/
lemma payloads_fittedCopy (d : Document) {row : Row} (hcount : row.columns.length ≤ gridUnits) :
    (fittedCopy d row).nodes.map Node.payload =
      .row row.role row.attributes row.container ::
        if row.columns.isEmpty then [.column {}]
        else row.columns.flatMap fun column => column.nodes.map Node.payload := by
  have hlen := length_columns_copy row (IdSource.ofDocument d)
  unfold fittedCopy
  split
  · next hnil =>
    rw [List.isEmpty_iff] at hnil
    have hcopy : (row.copy (IdSource.ofDocument d)).1.columns = [] := by
      rw [← List.length_eq_zero_iff, hlen, hnil, List.length_nil]
    rw [Row.fit_of_nil _ hcopy]
    rfl
  · next hne =>
    rw [List.isEmpty_iff, ← List.length_eq_zero_iff] at hne
    rw [Row.nodes_fit _ (by rw [Ne, ← List.length_eq_zero_iff, hlen]; exact hne)
      (by rw [hlen]; exact hcount), Row.payloads_copy, Row.payloads_eq]

/-- A row from elsewhere comes in under ids that are handed out. -/
lemma exists_hands_fittedCopy (d : Document) {row : Row} (hcount : row.columns.length ≤ gridUnits) :
    ∃ ids', IdSource.Hands (IdSource.ofDocument d) (fittedCopy d row).ids ids' := by
  have hlen := length_columns_copy row (IdSource.ofDocument d)
  have hands := IdSource.hands_copyRow row (IdSource.ofDocument d)
  unfold fittedCopy
  by_cases hnil : (row.copy (IdSource.ofDocument d)).1.columns = []
  · rw [Row.fit_of_nil _ hnil]
    unfold Row.ids at hands ⊢
    rw [hnil] at hands
    exact ⟨_, hands.append (IdSource.hands_next _ "column")⟩
  · rw [← Row.map_id_nodes, Row.nodes_fit _ hnil (by rw [hlen]; exact hcount), Row.map_id_nodes]
    exact ⟨_, hands⟩

/-- A new row of columns is empty. -/
lemma payloads_emptyRow (d : Document) (units : List ℕ) :
    (emptyRow d units).nodes.map Node.payload =
      .row none {} {} :: List.replicate units.length (.column {}) := by
  rw [Row.payloads_eq, List.flatMap_def]
  have hcolumns := IdSource.map_makeAll emptyColumn
    (fun column => column.nodes.map Node.payload) (fun _ => [Payload.column {}])
    (fun _ _ => rfl) units (IdSource.ofDocument d)
  unfold emptyRow
  simp only
  rw [hcolumns, List.map_const', List.flatten_replicate_singleton]

/-! ### Moved blocks -/

/-- A block of the document that is taken out leaves the others. -/
lemma nodes_detach_existing {d rest : Document} {id : String} {block : Block}
    (h : Detaches d (.existing id) block rest) : d.nodes.Perm (block.node :: rest.nodes) := by
  cases h with
  | existing hplace hblock =>
    obtain ⟨row, column, found, hrow, hcolumn, hfound, -⟩ := Document.blockPlace?_spec hplace
    rw [Document.blockAt?_eq hrow hcolumn, hfound] at hblock
    cases hblock
    obtain ⟨others, hd, hrest, -⟩ := exists_frame_block hrow hcolumn hfound
    exact hd.trans (hrest.symm.cons _)

/-- A block that lands joins the others. -/
lemma nodes_attach {d d' : Document} {block : Block} {target : DropTarget} {side : Side}
    (h : Attaches d block target side d') : d'.nodes.Perm (block.node :: d.nodes) := by
  cases h with
  | aboveBlock hplace =>
    obtain ⟨row, column, found, hrow, hcolumn, hfound, -⟩ := Document.blockPlace?_spec hplace
    exact nodes_insertIdx_block hrow hcolumn (List.getElem?_eq_some_iff.mp hfound).1.le block
  | belowBlock hplace =>
    obtain ⟨row, column, found, hrow, hcolumn, hfound, -⟩ := Document.blockPlace?_spec hplace
    exact nodes_insertIdx_block hrow hcolumn (List.getElem?_eq_some_iff.mp hfound).1 block
  | columnTop hplace =>
    obtain ⟨row, column, hrow, hcolumn, -⟩ := Document.columnPlace?_spec hplace
    exact nodes_insertIdx_block hrow hcolumn (Nat.zero_le _) block
  | columnBottom hplace =>
    obtain ⟨row, column, hrow, hcolumn, -⟩ := Document.columnPlace?_spec hplace
    obtain ⟨others, hd, hmodify⟩ := exists_frame_blocks _ hrow hcolumn
    refine (hmodify _).trans ?_
    rw [List.map_append, List.append_assoc]
    exact List.perm_middle.trans (hd.symm.cons _)

/-! ### Changed rows -/

/-- A row keeps its nodes when a divider in it moves. -/
lemma nodes_resized (left leftUnits rightUnits : ℕ) (row : Row) :
    (resized left leftUnits rightUnits row).nodes = row.nodes := by
  unfold Row.nodes
  rw [List.flatMap_def, List.flatMap_def, map_columns_resized fun _ _ => rfl]
  rfl

/-- A row gets one more node with a new column. -/
lemma nodes_widened {settings : GridSettings} {row : Row} {units : List ℕ} (id : String)
    (h : Grid.addColumn settings (row.columns.map Column.units) = .ok units) :
    (widened units { id, units := settings.newColumnUnits } row).nodes =
      row.nodes ++ [⟨id, .column {}⟩] := by
  obtain ⟨i, hi, -, rfl⟩ := Grid.addColumn_eq_ok h
  have hkept := Row.nodes_withUnits row
    ((row.columns.map Column.units).modify i (· - settings.newColumnUnits) ++
      [settings.newColumnUnits]) (by simp)
  rw [← hkept]
  unfold widened Row.nodes
  rw [List.flatMap_append]
  rfl

/-- A row loses the nodes of a removed column. -/
lemma nodes_narrowed {row : Row} {index : ℕ} {column : Column} {units : List ℕ}
    (hcolumn : row.columns[index]? = some column)
    (h : Grid.deleteColumn (row.columns.map Column.units) index = .ok units) :
    row.nodes.Perm (column.nodes ++ (narrowed index units row).nodes) := by
  obtain ⟨hi, -, hunits⟩ := Grid.deleteColumn_eq_ok h
  have hlen : units.length = (row.columns.eraseIdx index).length := by
    rw [hunits, List.length_modify, List.length_map, List.eraseIdx_map, List.length_map]
  have hkept := Row.nodes_withUnits { row with columns := row.columns.eraseIdx index } _
    hlen.ge
  unfold narrowed
  rw [hkept]
  exact (((perm_cons_eraseIdx hcolumn).flatMap_right Column.nodes).cons _).trans
    List.perm_middle.symm

/-! ### Steps -/

section Steps

variable {d d' : Document}

/-- The ids of the columns are some of the ids of the document, in order. -/
lemma map_id_columns_sublist (d : Document) : (d.columns.map Column.id).Sublist d.ids := by
  unfold Document.columns Document.ids
  rw [List.map_flatMap]
  refine List.Sublist.flatMap_right _ fun row _ => List.Sublist.cons _ ?_
  rw [List.map_eq_flatMap]
  refine List.Sublist.flatMap_right _ fun column _ => ?_
  exact List.singleton_sublist.mpr List.mem_cons_self

/-- The column found by an id is the one at the place of the id, if the ids are distinct. -/
lemma find?_columns_eq (hd : d.ids.Nodup) {id : String} {place : ColumnPlace} {row : Row}
    {column : Column} (hrow : d.rows[place.row]? = some row)
    (hcolumn : row.columns[place.column]? = some column) (hid : column.id = id) :
    (d.columns.find? fun c => c.id == id) = some column := by
  have hmem : column ∈ d.columns :=
    List.mem_flatMap.mpr ⟨row, List.mem_of_getElem? hrow, List.mem_of_getElem? hcolumn⟩
  have hsub : (d.columns.map Column.id).Nodup := hd.sublist (map_id_columns_sublist d)
  cases hfind : d.columns.find? fun c => c.id == id with
  | none =>
    have hnot := List.find?_eq_none.mp hfind column hmem
    simp [hid] at hnot
  | some other =>
    have hother : other.id = id := by simpa using List.find?_some hfind
    have hsame : other = column :=
      List.inj_on_of_nodup_map hsub (List.mem_of_find?_eq_some hfind) hmem (hother.trans hid.symm)
    rw [hsame]

/-- An edit that only changes what a block holds is traced. -/
lemma traces_of_modifyBlock {e : Edit} (hd : d.ids.Nodup) {blockId : String} {place : BlockPlace}
    (hplace : d.blockPlace? blockId = some place) {change : Block → Block} {f : Payload → Payload}
    (hchange : ∀ block, (change block).node = ⟨block.id, f block.node.payload⟩)
    (hremoved : e.removed d = []) (hretouch : e.retouch = Node.retouch blockId f)
    (hcreated : e.created d = []) : Traces e d (d.modifyBlock place change) [] := by
  obtain ⟨row, column, block, hrow, hcolumn, hblock, rfl⟩ := Document.blockPlace?_spec hplace
  obtain ⟨others, hparts, -, hmodify⟩ := exists_frame_block hrow hcolumn hblock
  have hperm := hmodify change
  rw [hchange] at hperm
  exact traces_of_retouch hd hparts hremoved hretouch hcreated hperm

/-- Every step is traced through the nodes of a document whose ids are distinct. -/
theorem Step.traces {settings : GridSettings} {e : Edit} (h : Step settings d e d')
    (hd : d.ids.Nodup) : ∃ new, Traces e d d' new := by
  cases h with
  | @moveRow _ _ dragged hovered row _ hdragged hhovered hrow =>
    have hrows := Document.perm_rows_of_moved hrow hhovered
    exact ⟨[], traces_of_perm rfl rfl rfl (nodes_perm_of_rows hrows)⟩
  | @moveBlock source target side block rest _ _ hdetach hattach =>
    cases source with
    | existing id =>
      have hmoved := (nodes_attach hattach).trans (nodes_detach_existing hdetach).symm
      exact ⟨[], traces_of_perm rfl rfl rfl hmoved⟩
    | new kind =>
      cases hdetach with
      | new =>
        exact ⟨[_], traces_of_created rfl rfl (nodes_attach hattach) rfl
          (IdSource.hands_next _ "block")⟩
  | @duplicateRow rowId index row hindex hrow =>
    have hcreated : (row.copy (IdSource.ofDocument d)).1.nodes.map Node.payload =
        (Edit.duplicateRow rowId).created d := by
      simp only [Row.payloads_copy, created, Document.row?_eq hindex, hrow]
      rfl
    have hands := IdSource.hands_copyRow row (IdSource.ofDocument d)
    rw [← Row.map_id_nodes] at hands
    exact ⟨_, traces_of_created rfl rfl
      (nodes_insertIdx_row (List.getElem?_eq_some_iff.mp hrow).1 _) hcreated hands⟩
  | @duplicateBlock blockId place row block hplace hblock =>
    have hcreated : [(block.copy (IdSource.ofDocument d)).1.node].map Node.payload =
        (Edit.duplicateBlock blockId).created d := by
      simp only [created, Document.block?, hplace, hblock, Option.bind_some, Option.map_some]
      rfl
    obtain ⟨row', column, found, hrow, hcolumn, hfound, -⟩ := Document.blockPlace?_spec hplace
    have hindex : place.block + 1 ≤ column.blocks.length :=
      (List.getElem?_eq_some_iff.mp hfound).1
    exact ⟨_, traces_of_created rfl rfl (nodes_insertIdx_block hrow hcolumn hindex _) hcreated
      (IdSource.hands_copyBlock block _)⟩
  | @deleteRow rowId index hindex =>
    obtain ⟨row, hrow, -⟩ := Document.rowIndex?_spec hindex
    -- the frame of the row says that the nodes outside it stay as they are
    obtain ⟨others, hparts, herase, -⟩ := exists_frame_row hrow
    refine ⟨[], traces_of_removed hd hparts ?_ rfl rfl (List.Perm.of_eq herase)⟩
    simp only [removed, Document.row?_eq hindex, hrow, Row.map_id_nodes]
    rfl
  | @deleteBlock blockId place hplace =>
    obtain ⟨row, column, block, hrow, hcolumn, hblock, hid⟩ := Document.blockPlace?_spec hplace
    obtain ⟨others, hparts, herase, -⟩ := exists_frame_block hrow hcolumn hblock
    have hparts' : d.nodes.Perm ([block.node] ++ others) := hparts
    refine ⟨[], traces_of_removed hd hparts' ?_ rfl rfl herase⟩
    simp only [removed, ← hid]
    rfl
  | @resizeColumns _ _ _ _ left _ _ _ leftUnits rightUnits _ hrow =>
    obtain ⟨others, hparts, -, hmodify⟩ := exists_frame_row hrow
    have hsame := hmodify (resized left leftUnits rightUnits)
    rw [nodes_resized] at hsame
    exact ⟨[], traces_of_perm rfl rfl rfl (hsame.trans hparts.symm)⟩
  | @addColumn _ index row units _ hrow hunits =>
    obtain ⟨others, hparts, -, hmodify⟩ := exists_frame_row hrow
    have hwidened := hmodify (widened units
      { id := ((IdSource.ofDocument d).next "column").1, units := settings.newColumnUnits })
    rw [nodes_widened _ hunits, List.append_assoc] at hwidened
    have hperm := hwidened.trans (List.perm_middle.trans (hparts.symm.cons _))
    exact ⟨[_], traces_of_created rfl rfl hperm rfl (IdSource.hands_next _ "column")⟩
  | @deleteColumn columnId place row units hplace hrow hunits =>
    obtain ⟨row', column, hrow', hcolumn, hid⟩ := Document.columnPlace?_spec hplace
    obtain rfl : row = row' := by simpa [hrow] using hrow'
    obtain ⟨others, hparts, -, hmodify⟩ := exists_frame_row hrow
    have hnarrowed := hparts.trans ((nodes_narrowed hcolumn hunits).append_right others)
    rw [List.append_assoc] at hnarrowed
    refine ⟨[], traces_of_removed hd hnarrowed ?_ rfl rfl (hmodify _)⟩
    simp only [removed, find?_columns_eq hd hrow hcolumn hid, Column.map_id_nodes]
    rfl
  | @addRow widths position units hunits =>
    have hcreated : (emptyRow d units).nodes.map Node.payload =
        (Edit.addRow widths position).created d := by
      rw [payloads_emptyRow, (Grid.ofPercentages_shares hunits).1]
      rfl
    have hands := IdSource.hands_emptyRow d units
    rw [← Row.map_id_nodes] at hands
    exact ⟨_, traces_of_created rfl rfl (nodes_insertAt_row d position _) hcreated hands⟩
  | @insertRow row position hcount =>
    obtain ⟨ids', hands⟩ := exists_hands_fittedCopy d hcount
    rw [← Row.map_id_nodes] at hands
    exact ⟨_, traces_of_created rfl rfl (nodes_insertAt_row d position _)
      (payloads_fittedCopy d hcount) hands⟩
  | setBlockAttribute hplace =>
    exact ⟨[], traces_of_modifyBlock hd hplace (fun _ => rfl) rfl rfl rfl⟩
  | removeBlockAttribute hplace =>
    exact ⟨[], traces_of_modifyBlock hd hplace (fun _ => rfl) rfl rfl rfl⟩
  | setBlockContent hplace =>
    exact ⟨[], traces_of_modifyBlock hd hplace (fun _ => rfl) rfl rfl rfl⟩
  | @setRowAttribute rowId key value index hindex =>
    obtain ⟨row, hrow, rfl⟩ := Document.rowIndex?_spec hindex
    obtain ⟨others, hparts, -, hmodify⟩ := exists_frame_row hrow
    exact ⟨[], traces_of_retouch hd hparts rfl rfl rfl (hmodify _)⟩
  | @setRowRole rowId role index hindex =>
    obtain ⟨row, hrow, rfl⟩ := Document.rowIndex?_spec hindex
    obtain ⟨others, hparts, -, hmodify⟩ := exists_frame_row hrow
    exact ⟨[], traces_of_retouch hd hparts rfl rfl rfl (hmodify _)⟩
  | setVariant => exact ⟨[], traces_of_perm rfl rfl rfl (List.Perm.refl _)⟩
  | setTheme => exact ⟨[], traces_of_perm rfl rfl rfl (List.Perm.refl _)⟩

end Steps

/-! ### Runs -/

/-- Id uniqueness: from a document whose ids are distinct every run of edits leads to a document
whose ids are distinct.  A further edit that succeeds there keeps the id of each node that it
retains, and every id that was not there before belongs to a node that it creates. -/
theorem run_ids_distinct {d : Document} (hd : d.ids.Nodup) (steps : List (GridSettings × Edit)) :
    (run d steps).ids.Nodup ∧
      ∀ (settings : GridSettings) (e : Edit) (d' : Document),
        e.apply settings (run d steps) = .ok d' →
          ∃ new, Traces e (run d steps) d' new ∧
            ∀ id ∈ d'.ids, id ∉ (run d steps).ids → id ∈ new.map Node.id := by
  have hrun : (run d steps).ids.Nodup :=
    run_induction (p := fun d => d.ids.Nodup) hd fun step _ d d' hnodup h => by
      obtain ⟨new, htraces⟩ := h.traces hnodup
      exact htraces.ids_nodup hnodup
  refine ⟨hrun, fun settings e d' h => ?_⟩
  obtain ⟨new, htraces⟩ := (step_of_apply h).traces hrun
  exact ⟨new, htraces, fun id hid hnot => htraces.mem_new hid hnot⟩

/-- A document whose ids look like generated ones. -/
def numberedIds : Document :=
  { id := "email"
    rows := [{ id := "row-2"
               columns := [{ id := "row-1", units := 12
                             blocks := [{ id := "column-1", kind := .text }] }] }] }

/-- A row that repeats ids of that document and ids of its own comes in. -/
def repeatedIds : List (GridSettings × Edit) :=
  [({}, .insertRow { id := "row-1", columns := [{ id := "row-1", units := 3 },
      { id := "row-2", units := 9, blocks := [{ id := "row-2", kind := .text }] }] } (some 0))]

/-- Ids stay distinct when a row that repeats them comes in, and when a row is copied after that. -/
theorem run_ids_distinct_repeatedIds :
    (run numberedIds repeatedIds).ids.Nodup ∧
      ∃ d' new, (Edit.duplicateRow "row-2").apply {} (run numberedIds repeatedIds) = .ok d' ∧
        Traces (.duplicateRow "row-2") (run numberedIds repeatedIds) d' new := by
  obtain ⟨hrun, hnext⟩ := run_ids_distinct (d := numberedIds) (by decide) repeatedIds
  obtain ⟨new, htraces, -⟩ := hnext {} (.duplicateRow "row-2") _ rfl
  exact ⟨hrun, _, new, rfl, htraces⟩

end Edit

end MailTemplate
