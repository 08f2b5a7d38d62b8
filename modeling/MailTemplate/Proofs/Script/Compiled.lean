import MailTemplate.Proofs.GridWidths
import MailTemplate.Proofs.Script.CompiledIds

/-!
# Compiled documents are well formed

A declared column width is one to twelve units (`columnWidth?_mem`), so that the widths of a
compiled row share the grid (`compileRow_shares`).  A document has the rows of its root and those
beside it, compiled one after the other (`compileNodes_eq_ok`).

Main result: a compiled document has a positive width, distinct ids, and one to twelve columns in
every row that add up to twelve units, whatever the script says (`compileWith_wellFormed`).
-/

namespace MailTemplate.Script

/-! ### Widths -/

/-- Numbers between zero and one hundred are finite. -/
lemma isFinite_of_percent {x : Binary64} (hlow : Binary64.lt 0 x = true)
    (hhigh : x.le hundred = true) : x.isFinite = true := by
  obtain ⟨low, hzero, -⟩ := Binary64.exists_ofNat_eq_finite (n := 0) (by decide)
  obtain ⟨high, hhundred, -⟩ := Binary64.exists_ofNat_eq_finite (n := 100) (by decide)
  change Binary64.lt (Binary64.ofNat 0) x = true at hlow
  unfold hundred at hhigh
  rw [hzero] at hlow
  rw [hhundred] at hhigh
  cases x with
  | finite s r => rfl
  | infinite s =>
    cases s with
    | false => simp [Binary64.le, Binary64.compare?] at hhigh
    | true => simp [Binary64.lt, Binary64.compare?] at hlow
  | nan => simp [Binary64.lt, Binary64.compare?] at hlow

/-- A declared column width is one to twelve units. -/
lemma columnWidth?_mem {raw : String} {units : ℕ} (h : columnWidth? raw = some units) :
    1 ≤ units ∧ units ≤ gridUnits := by
  rw [columnWidth?] at h
  generalize Text.trim raw.toList = text at h
  cases hpercent : Text.dropTail? ['%'] text with
  | some percent =>
    simp only [hpercent] at h
    obtain ⟨x, -, hx⟩ := Option.bind_eq_some_iff.mp h
    by_cases hrange : (Binary64.lt 0 x && x.le hundred) = true
    · rw [if_pos hrange] at hx
      rw [Bool.and_eq_true] at hrange
      obtain rfl := Option.some.inj hx
      exact percentToUnits_mem (isFinite_of_percent hrange.1 hrange.2)
    · rw [if_neg hrange] at hx
      cases hx
  | none =>
    simp only [hpercent] at h
    obtain ⟨n, -, hn⟩ := Option.bind_eq_some_iff.mp h
    split at hn
    · next hrange =>
      cases hn
      exact hrange
    · cases hn

/-- A document has a positive width of 32 bits. -/
def HasWidth (d : Document) : Prop := 1 ≤ d.width ∧ d.width < 2 ^ 32

/-- A document width is positive and has 32 bits. -/
lemma documentWidth?_mem {raw : String} {width : ℕ} (h : documentWidth? raw = some width) :
    1 ≤ width ∧ width < 2 ^ 32 := by
  unfold documentWidth? at h
  obtain ⟨n, hnumber, hn⟩ := Option.bind_eq_some_iff.mp h
  have hlimit : n ≤ 2 ^ 32 - 1 := by
    unfold Text.wholeNumber? at hnumber
    simp only at hnumber
    split at hnumber
    · cases hnumber
    · next hfits =>
      obtain rfl := Option.some.inj hnumber
      simp only [Bool.or_eq_true, decide_eq_true_eq, not_or, Nat.not_lt] at hfits
      exact hfits.2
  split at hn
  · next hpos =>
    cases hn
    exact ⟨hpos, Nat.lt_of_le_pred (by decide) hlimit⟩
  · cases hn

/-- An attribute of the root leaves the width of the document in range. -/
lemma hasWidth_setDocumentField {d d' : Document} {a : Attribute}
    (h : setDocumentField d a = .ok d') (hd : HasWidth d) : HasWidth d' := by
  unfold setDocumentField at h
  simp only at h
  split at h
  case h_6 =>
    split at h
    · next width hwidth =>
      cases h
      exact documentWidth?_mem hwidth
    · cases h
  all_goals
    cases h
    exact hd

/-- An attribute of the root leaves the rows of a document as they are. -/
lemma rows_setDocumentField {d d' : Document} {a : Attribute}
    (h : setDocumentField d a = .ok d') : d'.rows = d.rows := by
  unfold setDocumentField at h
  simp only at h
  split at h
  case h_6 =>
    split at h
    · cases h
      rfl
    · cases h
  all_goals
    cases h
    rfl

/-- A declared width of a compiled column is one to twelve units. -/
lemma compileColumn_width {ids ids' : IdSource} {node : Node} {column : Column} {width : Option ℕ}
    (h : compileColumn ids node = .ok ((column, width), ids')) : ∀ u ∈ width, 1 ≤ u := by
  obtain ⟨found, -, -, -, hfound, -⟩ := compileColumn_eq_ok.mp h
  refine foldlM_induction (p := fun acc => ∀ u ∈ acc.2, 1 ≤ u) hfound (by simp) ?_
  intro a _ acc acc' hacc hset
  obtain ⟨column, width⟩ := acc
  unfold setColumnField at hset
  simp only at hset
  split at hset
  · cases hset
    exact hacc
  · split at hset
    · split at hset
      · next units hunits =>
        cases hset
        intro u hu
        rw [Option.mem_some] at hu
        exact hu ▸ (columnWidth?_mem hunits).1
      · cases hset
    · obtain ⟨entries, -, hcolumn⟩ := bind_eq_ok.mp hset
      rw [pure_eq_ok] at hcolumn
      rw [← hcolumn]
      exact hacc

/-- Compiled columns are as many as their nodes, and their declared widths are positive. -/
lemma compileColumns_widths {ids ids' : IdSource} {nodes : List Node}
    {declared : List (Column × Option ℕ)} (h : compileColumns ids nodes = .ok (declared, ids')) :
    declared.length = nodes.length ∧ ∀ u, some u ∈ declared.map Prod.snd → 1 ≤ u := by
  induction nodes generalizing ids declared with
  | nil =>
    cases h
    exact ⟨rfl, by simp⟩
  | cons node nodes ih =>
    simp only [compileColumns, bind_eq_ok, Prod.exists, pure_eq_ok, Prod.mk.injEq] at h
    obtain ⟨column, width, next, hcolumn, declared, _, hdeclared, rfl, rfl⟩ := h
    obtain ⟨hlen, hrest⟩ := ih hdeclared
    refine ⟨by simp [hlen], fun u hu => ?_⟩
    rw [List.map_cons, List.mem_cons] at hu
    rcases hu with hu | hu
    · exact compileColumn_width hcolumn u hu.symm
    · exact hrest u hu

/-- Fitted columns keep what does not depend on their widths. -/
lemma map_fitColumns {γ : Type} {g : Column → γ}
    (hg : ∀ (c : Column) (u : ℕ), g { c with units := u } = g c)
    {declared : List (Column × Option ℕ)}
    (hlen : (Grid.assign (declared.map Prod.snd)).length = declared.length) :
    (fitColumns declared).map g = declared.map fun c => g c.1 := by
  unfold fitColumns
  generalize Grid.assign (declared.map Prod.snd) = units at hlen
  induction declared generalizing units with
  | nil => rfl
  | cons c declared ih =>
    cases units with
    | nil => simp at hlen
    | cons u units =>
      have hrest : units.length = declared.length := by simpa using hlen
      simp [hg, ih units hrest]

/-- Fitted columns have the assigned widths. -/
lemma units_fitColumns {declared : List (Column × Option ℕ)}
    (hlen : (Grid.assign (declared.map Prod.snd)).length = declared.length) :
    (fitColumns declared).map Column.units = Grid.assign (declared.map Prod.snd) := by
  unfold fitColumns
  generalize Grid.assign (declared.map Prod.snd) = units at hlen
  induction declared generalizing units with
  | nil => simpa [eq_comm] using hlen
  | cons c declared ih =>
    cases units with
    | nil => simp at hlen
    | cons u units =>
      have hrest : units.length = declared.length := by simpa using hlen
      simp [ih units hrest]

/-! ### Rows -/

section Rows

variable {ids ids' : IdSource}

/-- The widths of compiled columns are assigned one for each, and share the row. -/
lemma assign_compileColumns {members : List Node} {declared : List (Column × Option ℕ)}
    (h : compileColumns ids members = .ok (declared, ids')) (hne : declared ≠ [])
    (hcount : members.length ≤ gridUnits) :
    (Grid.assign (declared.map Prod.snd)).length = declared.length ∧
      Grid.Shares (Grid.assign (declared.map Prod.snd)) := by
  obtain ⟨hlen, hpos⟩ := compileColumns_widths h
  obtain ⟨hassign, hshares⟩ := Grid.assign_shares (declared.map Prod.snd)
    (by simpa using hne) (by simpa [hlen] using hcount) hpos
  exact ⟨by simpa using hassign, hshares⟩

/-- A compiled row has at most twelve columns, which share the grid. -/
lemma compileRow_shares {node : Node} {row : Row} (h : compileRow ids node = .ok (row, ids')) :
    row.columns.length ≤ gridUnits ∧ Grid.Shares (row.columns.map Column.units) := by
  obtain ⟨found, members, declared, next, -, -, -, hcount, hdeclared, hrow⟩ :=
    compileRow_eq_ok.mp h
  rcases hrow with ⟨-, -, rfl⟩ | ⟨hne, -, rfl⟩
  · exact ⟨show 1 ≤ gridUnits by decide, by simp [gridUnits], rfl⟩
  · obtain ⟨hlen, hshares⟩ := assign_compileColumns hdeclared hne hcount
    have hunits := units_fitColumns hlen
    refine ⟨?_, by rw [hunits]; exact hshares⟩
    have hcolumns := congrArg List.length hunits
    rw [List.length_map, hlen, (compileColumns_widths hdeclared).1] at hcolumns
    exact hcolumns.trans_le hcount

/-- A compiled row and all nodes in it have the ids that their nodes take. -/
lemma compileRow_issues {node : Node} {row : Row} (h : compileRow ids node = .ok (row, ids')) :
    Issues ids node.idTexts row.ids ids' := by
  obtain ⟨found, members, declared, next, helement, hfound, hmembers, hcount, hdeclared, hrow⟩ :=
    compileRow_eq_ok.mp h
  have hid : found.id = (node.takeId "row" ids).1 :=
    foldlM_induction (p := fun row => row.id = (node.takeId "row" ids).1) hfound rfl
      fun a _ b b' hb hset => (id_setRowField hset).trans hb
  have hown := takeId_issues node (by rw [helement]; simp) "row" ids
  have hcolumns := compileColumns_issues hdeclared
  rw [← hid] at hown
  rw [idTexts_of_members hmembers]
  rcases hrow with ⟨rfl, rfl, rfl⟩ | ⟨hne, rfl, rfl⟩
  · -- a row without columns gets one under an id that is handed out after all others
    have hempty : Issues next [] [(next.next "column").1] (next.next "column").2 :=
      ⟨_, IdSource.hands_next next "column", List.Perm.refl _⟩
    have hall := (hown.append hcolumns).append hempty
    rw [List.append_nil] at hall
    exact hall
  · obtain ⟨hlen, -⟩ := assign_compileColumns hdeclared hne hcount
    have hfit := map_fitColumns (g := Column.ids) (fun _ _ => rfl) hlen
    have hids : (fitColumns declared).flatMap Column.ids = declared.flatMap fun c => c.1.ids := by
      rw [List.flatMap_def, hfit, List.flatMap_def]
    unfold Row.ids
    rw [hids]
    exact hown.append hcolumns

/-- Compiled rows have the ids that their nodes take, and each of them shares the grid. -/
lemma compileRows_spec {nodes : List Node} {rows : List Row}
    (h : compileRows ids nodes = .ok (rows, ids')) :
    Issues ids (idTextsOf nodes) (rows.flatMap Row.ids) ids' ∧
      ∀ row ∈ rows, row.columns.length ≤ gridUnits ∧
        Grid.Shares (row.columns.map Column.units) := by
  induction nodes generalizing ids rows with
  | nil =>
    cases h
    exact ⟨Issues.refl _, fun _ hrow => absurd hrow List.not_mem_nil⟩
  | cons node nodes ih =>
    simp only [compileRows, bind_eq_ok, Prod.exists, pure_eq_ok, Prod.mk.injEq] at h
    obtain ⟨row, next, hrow, rows, _, hrows, rfl, rfl⟩ := h
    obtain ⟨hissues, hshares⟩ := ih hrows
    refine ⟨?_, fun r hr => ?_⟩
    · rw [idTextsOf_cons, List.flatMap_cons]
      exact (compileRow_issues hrow).append hissues
    · rcases List.mem_cons.mp hr with rfl | hr
      · exact compileRow_shares hrow
      · exact hshares r hr

/-- Rows are compiled one list after the other. -/
lemma compileRows_append {nodes nodes' : List Node} {rows rows' : List Row} {next : IdSource}
    (h : compileRows ids nodes = .ok (rows, next))
    (h' : compileRows next nodes' = .ok (rows', ids')) :
    compileRows ids (nodes ++ nodes') = .ok (rows ++ rows', ids') := by
  induction nodes generalizing ids rows with
  | nil =>
    cases h
    exact h'
  | cons node nodes ih =>
    simp only [compileRows, bind_eq_ok, Prod.exists, pure_eq_ok, Prod.mk.injEq] at h
    obtain ⟨row, middle, hrow, rows, _, hrows, rfl, rfl⟩ := h
    simp only [List.cons_append, compileRows, bind_eq_ok, Prod.exists, pure_eq_ok, Prod.mk.injEq]
    exact ⟨row, middle, hrow, rows ++ rows', ids', ih hrows, rfl, rfl⟩

/-! ### Documents -/

/-- The nodes at the top level after the first are compiled like the rows of a root. -/
lemma compileTop_spec {d d' : Document} {nodes : List Node} (h : compileTop d ids nodes = .ok d') :
    ∃ rows next, compileRows ids nodes = .ok (rows, next) ∧
      d' = { d with rows := d.rows ++ rows } := by
  induction nodes generalizing d ids with
  | nil =>
    cases h
    exact ⟨[], ids, rfl, by simp⟩
  | cons node nodes ih =>
    obtain ⟨row, next, -, hrow, htop⟩ := compileTop_cons_eq_ok.mp h
    obtain ⟨rows, last, hrows, rfl⟩ := ih htop
    refine ⟨row :: rows, last, ?_, by simp⟩
    simp only [compileRows, bind_eq_ok, Prod.exists, pure_eq_ok, Prod.mk.injEq]
    exact ⟨row, next, hrow, rows, last, hrows, rfl, rfl⟩

/-- A document has the attributes of its root, if there is one, and the rows in it and beside it. -/
lemma compileNodes_spec {d d' : Document} {nodes : List Node}
    (h : compileNodes d ids nodes = .ok d') (hwidth : HasWidth d) :
    ∃ (found : Document) (inner : List Node) (rows : List Row) (next : IdSource),
      HasWidth found ∧ found.rows = d.rows ∧
      idTextsOf inner = idTextsOf nodes ∧ compileRows ids inner = .ok (rows, next) ∧
        d' = { found with rows := found.rows ++ rows } := by
  cases nodes with
  | nil =>
    cases h
    exact ⟨d, [], [], ids, hwidth, rfl, rfl, rfl, by simp⟩
  | cons node nodes =>
    by_cases helement : node.element = .email
    · obtain ⟨found, members, rows, next, hfound, hmembers, hrows, htop⟩ :=
        (compileNodes_cons_email helement).mp h
      have hkeeps : HasWidth found ∧ found.rows = d.rows :=
        foldlM_induction (p := fun d' => HasWidth d' ∧ d'.rows = d.rows) hfound ⟨hwidth, rfl⟩
          fun a _ b b' hb hset =>
            ⟨hasWidth_setDocumentField hset hb.1, (rows_setDocumentField hset).trans hb.2⟩
      obtain ⟨rows', last, hrows', rfl⟩ := compileTop_spec htop
      refine ⟨found, members ++ nodes, rows ++ rows', last, hkeeps.1, hkeeps.2, ?_,
        compileRows_append hrows hrows', by simp⟩
      rw [idTextsOf_append, idTextsOf_cons, idTexts_of_email helement hmembers]
    · have htop : compileTop d ids (node :: nodes) = .ok d' := by
        rwa [compileNodes, if_neg helement] at h
      obtain ⟨rows, last, hrows, rfl⟩ := compileTop_spec htop
      exact ⟨d, node :: nodes, rows, last, hwidth, rfl, rfl, hrows, rfl⟩

end Rows

/-- A compiled document has distinct ids, a width in range, and rows whose columns fill the grid. -/
lemma compileWith_spec {defaults : Defaults} {source : String} {d : Document}
    (h : compileWith defaults source = .ok d) :
    d.ids.Nodup ∧ HasWidth d ∧ ∀ row ∈ d.rows, row.columns.length ≤ gridUnits ∧
      Grid.Shares (row.columns.map Column.units) := by
  unfold compileWith at h
  simp only [bind_eq_ok] at h
  obtain ⟨tree, -, h⟩ := h
  split at h
  · next found hcompile =>
    rw [pure_eq_ok] at h
    subst h
    simp only [Tree.compile, bind_eq_ok] at hcompile
    obtain ⟨ids, hreserve, -, -, hnodes⟩ := hcompile
    obtain ⟨start, inner, rows, next, hwidth, hstart, hsame, hrows, rfl⟩ :=
      compileNodes_spec hnodes (show 1 ≤ 600 ∧ 600 < 2 ^ 32 by decide)
    have hnone : start.rows = [] := hstart
    obtain ⟨⟨given, hands, hperm⟩, hshares⟩ := compileRows_spec hrows
    have hids : ({ start with rows := start.rows ++ rows } : Document).ids =
        rows.flatMap Row.ids := by
      unfold Document.ids
      rw [hnone, List.nil_append]
    -- reserved first and handed out later, all ids come from one source
    have hall := (reserveAll_hands hreserve).append hands
    rw [hsame] at hperm
    refine ⟨?_, hwidth, fun row hrow => ?_⟩
    · rw [hids, hperm.nodup_iff]
      exact hall.nodup
    · simp only [hnone, List.nil_append] at hrow
      exact hshares row hrow
  · cases h

/-- A row whose columns share the grid has some. -/
lemma ne_nil_of_shares {columns : List Column} (h : Grid.Shares (columns.map Column.units)) :
    columns ≠ [] := by
  intro hnil
  have hsum := h.sum_eq
  rw [hnil] at hsum
  exact absurd hsum (by decide)

/-- Every compiled document is well formed: its ids are distinct, its width is positive, and each
row has one to twelve columns of one to twelve units that add up to twelve. -/
theorem compileWith_wellFormed {defaults : Defaults} {source : String} {d : Document}
    (h : compileWith defaults source = .ok d) :
    d.ids.Nodup ∧ 1 ≤ d.width ∧
      ∀ row ∈ d.rows, 1 ≤ row.columns.length ∧ row.columns.length ≤ 12 ∧
        (∀ column ∈ row.columns, 1 ≤ column.units ∧ column.units ≤ 12) ∧ row.total = 12 := by
  obtain ⟨hids, hwidth, hrows⟩ := compileWith_spec h
  refine ⟨hids, hwidth.1, fun row hrow => ?_⟩
  obtain ⟨hcount, hshare⟩ := hrows row hrow
  refine ⟨List.length_pos_iff.mpr (ne_nil_of_shares hshare), hcount, fun column hcolumn => ?_,
    hshare.sum_eq⟩
  have hmem : column.units ∈ row.columns.map Column.units := List.mem_map_of_mem hcolumn
  exact ⟨hshare.pos _ hmem, hshare.le hmem⟩

/-- A script whose explicit id looks like a generated one, with a missing and a declared width and a
row without columns. -/
def lookalikeScript : String := "ROW \x7b\n  COLUMN\n  COLUMN id=row-1 width=4\n\x7d\nROW"

/-- The document of that script is well formed. -/
theorem compileWith_wellFormed_lookalikeScript :
    ∃ d, compileWith {} lookalikeScript = .ok d ∧ d.ids.Nodup ∧ 1 ≤ d.width ∧
      ∀ row ∈ d.rows, 1 ≤ row.columns.length ∧ row.columns.length ≤ 12 ∧
        (∀ column ∈ row.columns, 1 ≤ column.units ∧ column.units ≤ 12) ∧ row.total = 12 := by
  obtain ⟨d, hd⟩ : ∃ d, compileWith {} lookalikeScript = .ok d :=
    exists_eq_ok_of_isSome (by decide +kernel)
  exact ⟨d, hd, compileWith_wellFormed hd⟩

end MailTemplate.Script
