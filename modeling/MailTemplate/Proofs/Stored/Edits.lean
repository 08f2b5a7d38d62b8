import MailTemplate.Edit.Codec
import MailTemplate.Proofs.Stored.Documents

/-!
# Edits read from their JSON forms

An edit is read from the object of its name and its arguments exactly when each argument is read
from its field (`Edit.ofJson?_eq_some`).  So a stored edit is read back from its fields put in order
(`Edit.ofJson?_sorted`), and from both texts of its JSON form; an optional argument that is missing
or null is read as absent (`Edit.ofJson?_cleared`).
-/

namespace MailTemplate

namespace Edit

/-! ### What is read -/

/-- The arguments of an edit are read from the fields of an object. -/
def ReadFrom (j : Json) : Edit → Prop
  | moveRow dragId hoverId =>
    j.field? "drag_id" Json.text? = some dragId ∧ j.field? "hover_id" Json.text? = some hoverId
  | moveBlock source target side =>
    j.field? "source" BlockSource.ofJson? = some source ∧
      j.field? "target" DropTarget.ofJson? = some target ∧
      j.field? "position" Side.ofJson? = some side
  | duplicateRow rowId => j.field? "row_id" Json.text? = some rowId
  | duplicateBlock blockId => j.field? "block_id" Json.text? = some blockId
  | deleteRow rowId => j.field? "row_id" Json.text? = some rowId
  | deleteBlock blockId => j.field? "block_id" Json.text? = some blockId
  | resizeColumns rowId leftColumnId leftPercent =>
    j.field? "row_id" Json.text? = some rowId ∧
      j.field? "left_column_id" Json.text? = some leftColumnId ∧
      j.field? "left_percent" Binary64.ofJson? = some leftPercent
  | addColumn rowId => j.field? "row_id" Json.text? = some rowId
  | deleteColumn columnId => j.field? "column_id" Json.text? = some columnId
  | addRow widths position =>
    j.field? "widths" (Json.list? Binary64.ofJson?) = some widths ∧
      j.optional? "position" (Json.natUpTo? maxPosition) = some position
  | insertRow row position =>
    j.field? "row" Row.ofJson? = some row ∧
      j.optional? "position" (Json.natUpTo? maxPosition) = some position
  | setBlockAttribute blockId key value =>
    j.field? "block_id" Json.text? = some blockId ∧ j.field? "key" Json.text? = some key ∧
      j.field? "value" (fun v => some (AttributeValue.ofJson v)) = some value
  | removeBlockAttribute blockId key =>
    j.field? "block_id" Json.text? = some blockId ∧ j.field? "key" Json.text? = some key
  | setBlockContent blockId content =>
    j.field? "block_id" Json.text? = some blockId ∧
      j.optional? "content" Json.text? = some content
  | setRowAttribute rowId key value =>
    j.field? "row_id" Json.text? = some rowId ∧ j.field? "key" Json.text? = some key ∧
      j.field? "value" (fun v => some (AttributeValue.ofJson v)) = some value
  | setRowRole rowId role =>
    j.field? "row_id" Json.text? = some rowId ∧
      j.optional? "row_type" RowRole.ofJson? = some role
  | setVariant variant => j.optional? "variant" StyleVariant.ofJson? = some variant
  | setTheme seed => j.optional? "seed" Json.text? = some seed

/-- An edit is read from its name and its arguments. -/
lemma ofName?_eq_some {name : String} {j : Json} {edit : Edit} :
    ofName? name j = some edit ↔ name = edit.name ∧ edit.ReadFrom j := by
  constructor
  · intro h
    unfold ofName? at h
    dsimp only at h
    split at h
    all_goals simp only [Option.bind_eq_bind, Option.bind_eq_some_iff, Option.pure_def,
      Option.some.injEq, reduceCtorEq] at h
    case h_3 | h_4 | h_5 | h_6 | h_8 | h_9 | h_17 | h_18 =>
      obtain ⟨a, ha, rfl⟩ := h
      exact ⟨rfl, ha⟩
    case h_1 | h_10 | h_11 | h_13 | h_14 | h_16 =>
      obtain ⟨a, ha, b, hb, rfl⟩ := h
      exact ⟨rfl, ha, hb⟩
    case h_2 | h_7 | h_12 | h_15 =>
      obtain ⟨a, ha, b, hb, c, hc, rfl⟩ := h
      exact ⟨rfl, ha, hb, hc⟩
  · rintro ⟨rfl, h⟩
    cases edit
    case duplicateRow | duplicateBlock | deleteRow | deleteBlock | addColumn | deleteColumn |
        setVariant | setTheme =>
      exact bind_eq_some_of h rfl
    case moveRow | addRow | insertRow | removeBlockAttribute | setBlockContent | setRowRole =>
      exact bind_eq_some_of h.1 <| bind_eq_some_of h.2 rfl
    case moveBlock | resizeColumns | setBlockAttribute | setRowAttribute =>
      exact bind_eq_some_of h.1 <| bind_eq_some_of h.2.1 <| bind_eq_some_of h.2.2 rfl

/-- An edit is read from an object with its name, and with its arguments. -/
lemma ofJson?_eq_some {j : Json} {edit : Edit} :
    ofJson? j = some edit ↔ j.field? "op" Json.text? = some edit.name ∧ edit.ReadFrom j := by
  constructor
  · intro h
    obtain ⟨name, hname, h⟩ := Option.bind_eq_some_iff.mp h
    obtain ⟨rfl, harguments⟩ := ofName?_eq_some.mp h
    exact ⟨hname, harguments⟩
  · rintro ⟨hname, harguments⟩
    exact bind_eq_some_of hname (ofName?_eq_some.mpr ⟨rfl, harguments⟩)

/-! ### Absent arguments -/

/-- The argument of an edit that may be absent. -/
def optionalKey? : Edit → Option String
  | addRow _ _ => some "position"
  | insertRow _ _ => some "position"
  | setBlockContent _ _ => some "content"
  | setRowRole _ _ => some "row_type"
  | setVariant _ => some "variant"
  | setTheme _ => some "seed"
  | _ => none

/-- The edit without the argument that may be absent. -/
def cleared : Edit → Edit
  | addRow widths _ => addRow widths none
  | insertRow row _ => insertRow row none
  | setBlockContent blockId _ => setBlockContent blockId none
  | setRowRole rowId _ => setRowRole rowId none
  | setVariant _ => setVariant none
  | setTheme _ => setTheme none
  | edit => edit

/-- An edit is read without its optional argument where that is missing or null. -/
theorem ofJson?_cleared {fields others : List (String × Json)} {key : String} {edit : Edit}
    (hclears : Json.Clears key fields others) (hkey : edit.optionalKey? = some key)
    (h : ofJson? (.object fields) = some edit) : ofJson? (.object others) = some edit.cleared := by
  rw [ofJson?_eq_some] at h ⊢
  obtain ⟨hname, h⟩ := h
  cases edit
  case addRow | insertRow | setBlockContent | setRowRole =>
    obtain rfl := Option.some.inj hkey
    refine ⟨(hclears.field? (by decide) _).trans hname, ?_, hclears.optional? _⟩
    exact (hclears.field? (by decide) _).trans h.1
  case setVariant | setTheme =>
    obtain rfl := Option.some.inj hkey
    exact ⟨(hclears.field? (by decide) _).trans hname, hclears.optional? _⟩
  all_goals cases hkey

/-! ### Stored edits -/

/-- Numbers are finite, positions in range, and the values, rows and roles of an edit can be
stored. -/
def Storable : Edit → Prop
  | resizeColumns _ _ leftPercent => leftPercent.isFinite = true
  | addRow widths position => (∀ x ∈ widths, x.isFinite = true) ∧ ∀ n ∈ position, n ≤ maxPosition
  | insertRow row position => row.Storable ∧ ∀ n ∈ position, n ≤ maxPosition
  | setBlockAttribute _ _ value => value.Storable
  | setRowAttribute _ _ value => value.Storable
  | setRowRole _ role => ∀ r ∈ role, r.Canonical
  | _ => True

/-- The name of an edit, and its arguments. -/
def jsonFields (edit : Edit) : List (String × Json) := ("op", .text edit.name) :: edit.fields

lemma nodup_jsonFields (edit : Edit) : (edit.jsonFields.map Prod.fst).Nodup := by
  cases edit <;> simp [jsonFields, fields]

variable {edit : Edit} {α : Type} {key : String}

/-- An argument is read from its field. -/
lemma field?_argument {v : Json} (hv : (key, v) ∈ edit.fields) {read : Json → Option α} {a : α}
    (hread : read v.sorted = some a) : edit.toJson.sorted.field? key read = some a :=
  field?_sorted edit.nodup_jsonFields (List.mem_cons_of_mem _ hv) hread

/-- A text is read from its field. -/
lemma text?_argument {s : String} (hs : (key, .text s) ∈ edit.fields) :
    edit.toJson.sorted.field? key Json.text? = some s :=
  field?_argument hs rfl

/-- An attribute value is read from its field. -/
lemma value?_argument {value : AttributeValue} (hvalue : value.Storable)
    (hv : (key, value.toJson) ∈ edit.fields) :
    edit.toJson.sorted.field? key (fun v => some (AttributeValue.ofJson v)) = some value :=
  field?_argument hv (congrArg some (AttributeValue.ofJson_sorted hvalue))

/-- An optional argument is read from its field, which is null if the argument is absent. -/
lemma optional?_argument {o : Option α} (write : α → Json)
    (hv : (key, orNull write o) ∈ edit.fields) {read : Json → Option α}
    (hread : ∀ a ∈ o, (write a).sorted ≠ .null ∧ read (write a).sorted = some a) :
    edit.toJson.sorted.optional? key read = some o := by
  have hkeys := edit.nodup_jsonFields
  have hlookup := Keyed.lookup_of_mem hkeys (List.mem_cons_of_mem _ hv)
  change (Json.sorted (.object edit.jsonFields)).optional? key read = some o
  rw [Json.optional?, Json.get?_sorted hkeys, hlookup]
  cases o with
  | none => rfl
  | some a =>
    obtain ⟨hnull, hvalue⟩ := hread a rfl
    simp only [Option.map_some, orNull, hvalue]

/-- A position in range is read from its field. -/
lemma position?_argument {position : Option ℕ} (h : ∀ n ∈ position, n ≤ maxPosition)
    (hv : (key, orNull (fun n => .int n) position) ∈ edit.fields) :
    edit.toJson.sorted.optional? key (Json.natUpTo? maxPosition) = some position := by
  have hwrite : orNull (fun n => .int n) position = orNull (fun n : ℕ => .int n) position := by
    cases position with
    | none => rfl
    | some n => rfl
  rw [hwrite] at hv
  exact optional?_argument _ hv fun n hn => ⟨Json.noConfusion, natUpTo?_int (h n hn)⟩

end Edit

/-- A block on the move is read from its JSON form. -/
lemma BlockSource.ofJson?_sorted (source : BlockSource) :
    ofJson? source.toJson.sorted = some source := by
  cases source with
  | existing id => rfl
  | new kind =>
    have hkind : BlockKind.ofJson? (.text kind.name) = some kind := BlockKind.ofName?_name kind
    change (BlockKind.ofJson? (.text kind.name)).map new = some (new kind)
    rw [hkind, Option.map_some]

/-- A target is read from its JSON form. -/
lemma DropTarget.ofJson?_sorted (target : DropTarget) :
    ofJson? target.toJson.sorted = some target := by
  cases target with
  | block id => rfl
  | column id => rfl

/-- A side is read from its JSON form. -/
lemma Side.ofJson?_sorted (side : Side) : ofJson? side.toJson.sorted = some side := by
  cases side with
  | above => rfl
  | below => rfl

namespace Edit

/-- The arguments of a stored edit are read from its JSON form. -/
lemma Storable.readFrom {edit : Edit} (h : edit.Storable) : edit.ReadFrom edit.toJson.sorted := by
  cases edit with
  | moveRow dragId hoverId =>
    exact ⟨text?_argument (by simp [fields]), text?_argument (by simp [fields])⟩
  | moveBlock source target side =>
    exact ⟨field?_argument (by simp [fields]) source.ofJson?_sorted,
      field?_argument (by simp [fields]) target.ofJson?_sorted,
      field?_argument (by simp [fields]) side.ofJson?_sorted⟩
  | duplicateRow rowId => exact text?_argument (by simp [fields])
  | duplicateBlock blockId => exact text?_argument (by simp [fields])
  | deleteRow rowId => exact text?_argument (by simp [fields])
  | deleteBlock blockId => exact text?_argument (by simp [fields])
  | resizeColumns rowId leftColumnId leftPercent =>
    exact ⟨text?_argument (by simp [fields]), text?_argument (by simp [fields]),
      field?_argument (v := .float leftPercent) (by simp [fields]) rfl⟩
  | addColumn rowId => exact text?_argument (by simp [fields])
  | deleteColumn columnId => exact text?_argument (by simp [fields])
  | addRow widths position =>
    have hwidths : Json.list? Binary64.ofJson? (Json.array (widths.map Json.float)).sorted =
        some widths := list?_sorted fun x _ => rfl
    exact ⟨field?_argument (by simp [fields]) hwidths,
      position?_argument h.2 (by simp [fields])⟩
  | insertRow row position =>
    exact ⟨field?_argument (by simp [fields]) (Row.ofJson?_sorted h.1),
      position?_argument h.2 (by simp [fields])⟩
  | setBlockAttribute blockId key value =>
    exact ⟨text?_argument (by simp [fields]), text?_argument (by simp [fields]),
      value?_argument h (by simp [fields])⟩
  | removeBlockAttribute blockId key =>
    exact ⟨text?_argument (by simp [fields]), text?_argument (by simp [fields])⟩
  | setBlockContent blockId content =>
    exact ⟨text?_argument (by simp [fields]),
      optional?_argument .text (by simp [fields]) fun _ _ => ⟨Json.noConfusion, rfl⟩⟩
  | setRowAttribute rowId key value =>
    exact ⟨text?_argument (by simp [fields]), text?_argument (by simp [fields]),
      value?_argument h (by simp [fields])⟩
  | setRowRole rowId role =>
    exact ⟨text?_argument (by simp [fields]),
      optional?_argument (fun r : RowRole => .text r.name) (by simp [fields])
        fun r hr => ⟨Json.noConfusion, congrArg some (h r hr)⟩⟩
  | setVariant variant =>
    exact optional?_argument (fun v : StyleVariant => .text v.name) (by simp [fields])
      fun v _ => ⟨Json.noConfusion, StyleVariant.ofName?_name v⟩
  | setTheme seed =>
    exact optional?_argument .text (by simp [fields])
      fun _ _ => ⟨Json.noConfusion, rfl⟩

/-- A stored edit is read as itself. -/
theorem ofJson?_sorted {edit : Edit} (h : edit.Storable) :
    ofJson? edit.toJson.sorted = some edit := by
  have hname : edit.toJson.sorted.field? "op" Json.text? = some edit.name :=
    field?_sorted edit.nodup_jsonFields List.mem_cons_self rfl
  exact ofJson?_eq_some.mpr ⟨hname, h.readFrom⟩

/-! ### Texts of stored edits -/

lemma legible_orNull {α : Type} {write : α → Json} {o : Option α}
    (h : ∀ a ∈ o, (write a).Legible) : (orNull write o).Legible := by
  cases o with
  | none => trivial
  | some a => exact h a rfl

lemma legible_position {position : Option ℕ} (h : ∀ n ∈ position, n ≤ maxPosition) :
    (orNull (fun n => .int n) position).Legible := by
  cases position with
  | none => trivial
  | some n => exact Json.isWord_of_le (h n rfl) (by decide)

/-- The arguments of a stored edit have texts that can be read. -/
lemma Storable.legible_fields {edit : Edit} (h : edit.Storable) :
    ∀ f ∈ edit.fields, f.2.Legible := by
  cases edit with
  | moveBlock source target side =>
    have hsource : source.toJson.Legible := by cases source <;> exact ⟨trivial, trivial⟩
    have htarget : target.toJson.Legible := by cases target <;> exact ⟨trivial, trivial⟩
    have hside : side.toJson.Legible := by cases side <;> trivial
    simp [fields, hsource, htarget, hside]
  | resizeColumns rowId leftColumnId leftPercent =>
    have hpercent : (Json.float leftPercent).Legible := h
    simp only [fields, List.forall_mem_cons]
    exact ⟨trivial, trivial, hpercent, List.forall_mem_nil _⟩
  | addRow widths position =>
    have hwidths : (Json.array (widths.map Json.float)).Legible := Json.legible_array h.1
    simp only [fields, List.forall_mem_cons]
    exact ⟨hwidths, legible_position h.2, List.forall_mem_nil _⟩
  | insertRow row position =>
    simp only [fields, List.forall_mem_cons]
    exact ⟨h.1.legible, legible_position h.2, List.forall_mem_nil _⟩
  | setBlockAttribute blockId key value =>
    have hvalue : value.toJson.Legible := AttributeValue.Storable.legible h
    simp [fields, Json.Legible, hvalue]
  | setBlockContent blockId content =>
    have hcontent : (orNull Json.text content).Legible := legible_orNull fun _ _ => trivial
    simp [fields, Json.Legible, hcontent]
  | setRowAttribute rowId key value =>
    have hvalue : value.toJson.Legible := AttributeValue.Storable.legible h
    simp [fields, Json.Legible, hvalue]
  | setRowRole rowId role =>
    have hrole : (orNull (fun r : RowRole => .text r.name) role).Legible :=
      legible_orNull fun _ _ => trivial
    simp [fields, Json.Legible, hrole]
  | setVariant variant =>
    have hvariant : (orNull (fun v : StyleVariant => .text v.name) variant).Legible :=
      legible_orNull fun _ _ => trivial
    simp [fields, hvariant]
  | setTheme seed =>
    have hseed : (orNull Json.text seed).Legible := legible_orNull fun _ _ => trivial
    simp [fields, hseed]
  | _ => simp [fields, Json.Legible]

/-- A stored edit is read back from both texts of its JSON form. -/
theorem ofJson?_written {edit : Edit} (h : edit.Storable) (hexact : edit.toJson.ReadExactly) :
    ∀ text ∈ [edit.toJson.compact, edit.toJson.indented],
      (Json.parse text).toOption.bind ofJson? = some edit := by
  intro text htext
  have hlegible : edit.toJson.Legible :=
    Json.legible_object (List.forall_mem_cons.mpr ⟨trivial, h.legible_fields⟩)
  rw [Json.parse_written hlegible hexact.numbers hexact.depth text htext]
  exact ofJson?_sorted h

end Edit

/-! ### Documents and edits together -/

/-- Stored documents and edits are read back from both texts of their JSON forms.  An optional
field that is missing or null is read as an absent one. -/
theorem written_reads_back :
    (∀ d : Document, d.Storable → d.toJson.ReadExactly →
      ∀ text ∈ [d.toJson.compact, d.toJson.indented], Document.ofText? text = some d) ∧
    (∀ edit : Edit, edit.Storable → edit.toJson.ReadExactly →
      ∀ text ∈ [edit.toJson.compact, edit.toJson.indented],
        (Json.parse text).toOption.bind Edit.ofJson? = some edit) ∧
    Json.ReadsCleared Document.ofJson? "styleVariant" (fun d => { d with variant := none }) ∧
    Json.ReadsCleared Document.ofJson? "theme" (fun d => { d with theme := none }) ∧
    Json.ReadsCleared Row.ofJson? "type" (fun row => { row with role := none }) ∧
    Json.ReadsCleared Block.ofJson? "content" (fun block => { block with content := none }) ∧
    ∀ (edit : Edit) (key : String) (fields others : List (String × Json)),
      edit.optionalKey? = some key → Json.Clears key fields others →
        Edit.ofJson? (.object fields) = some edit →
          Edit.ofJson? (.object others) = some edit.cleared := by
  refine ⟨fun d h hexact => Document.ofText?_written h hexact,
    fun edit h hexact => Edit.ofJson?_written h hexact, Document.readsCleared_variant,
    Document.readsCleared_theme, Row.readsCleared_type, Block.readsCleared_content, ?_⟩
  intro edit key fields others hkey hclears h
  exact Edit.ofJson?_cleared hclears hkey h

/-- A row whose values are taken for others by a careless reader: a text that names a truth value, a
whole number, and embedded null and lists. -/
def storedRow : Row where
  id := "r1"
  role := some .header
  attributes :=
    { entries := [("links", .json (.array [.null, .object [("n", .int 7)]])),
        ("size", .number (.ofInt 12)), ("visible", .text "true")]
      ordered := by
        unfold Keyed.Ordered
        decide }
  container :=
    { entries := [("none", .json .null), ("wide", .bool false)]
      ordered := by
        unfold Keyed.Ordered
        decide }
  columns := [{ id := "c1", units := 12, blocks := [{ id := "b1", kind := .divider }] }]

/-- A document of the row. -/
def storedDocument : Document := { id := "m1", variant := some .clear, rows := [storedRow] }

/-- The number of the row is finite, and read from its text. -/
lemma readExactly_twelve : (Binary64.ofInt 12).isFinite = true ∧
    Json.rereadFloat (Binary64.ofInt 12) = some (Binary64.ofInt 12) := by decide +kernel

lemma storable_storedRow : storedRow.Storable where
  role := by
    rintro role ⟨⟩
    rfl
  attributes := by
    have hlinks : (Json.array [.null, .object [("n", .int 7)]]).Proper :=
      ⟨trivial,
        ⟨List.pairwise_singleton _ _, Json.isWord_of_le (n := 7) le_rfl (by decide), trivial⟩,
        trivial⟩
    exact List.forall_mem_cons.mpr ⟨⟨.inr rfl, hlinks⟩, List.forall_mem_cons.mpr
      ⟨readExactly_twelve.1, List.forall_mem_singleton.mpr trivial⟩⟩
  container :=
    List.forall_mem_cons.mpr ⟨⟨.inl rfl, trivial⟩, List.forall_mem_singleton.mpr trivial⟩
  columns := List.forall_mem_singleton.mpr
    ⟨by decide, List.forall_mem_nil _, List.forall_mem_singleton.mpr (List.forall_mem_nil _)⟩

/-- The document is read back, and so is an edit that inserts its row.  The null type of a row and
the missing seed of an edit are read as absent. -/
theorem written_reads_back_storedDocument :
    Document.ofText? storedDocument.toJson.indented = some storedDocument ∧
      (Json.parse (Edit.insertRow storedRow (some 0)).toJson.compact).toOption.bind Edit.ofJson? =
        some (Edit.insertRow storedRow (some 0)) ∧
      Row.ofJson? (.object [("id", .text "r1"), ("type", .null), ("columns", .array [])]) =
        some { id := "r1" } ∧
      Edit.ofJson? (.object [("op", .text "set_theme")]) = some (.setTheme none) := by
  obtain ⟨hdocument, hedit, -, -, hrow, -, hcleared⟩ := written_reads_back
  have hstorable : storedDocument.Storable :=
    ⟨by decide, List.forall_mem_singleton.mpr storable_storedRow⟩
  have hinsert : (Edit.insertRow storedRow (some 0)).Storable := by
    refine ⟨storable_storedRow, ?_⟩
    rintro n ⟨⟩
    exact Nat.zero_le _
  have hdocumentExactly : storedDocument.toJson.ReadExactly :=
    ⟨List.forall_mem_singleton.mpr readExactly_twelve.2, by decide⟩
  have heditExactly : (Edit.insertRow storedRow (some 0)).toJson.ReadExactly :=
    ⟨List.forall_mem_singleton.mpr readExactly_twelve.2, by decide⟩
  have htype : Json.Clears "type"
      [("id", .text "r1"), ("type", .text "header"), ("columns", .array [])]
      [("id", .text "r1"), ("type", .null), ("columns", .array [])] := by
    refine ⟨fun k hk => ?_, .inr rfl⟩
    simp [List.lookup_cons, beq_eq_false_iff_ne.mpr hk]
  have hseed : Json.Clears "seed" [("op", .text "set_theme"), ("seed", .text "#8E6FF7")]
      [("op", .text "set_theme")] := by
    refine ⟨fun k hk => ?_, .inl rfl⟩
    simp [List.lookup_cons, beq_eq_false_iff_ne.mpr hk]
  refine ⟨?_, ?_, ?_, ?_⟩
  · exact hdocument storedDocument hstorable hdocumentExactly _ (by simp)
  · exact hedit _ hinsert heditExactly _ (by simp)
  · exact hrow _ _ { id := "r1", role := some .header } htype rfl
  · exact hcleared (.setTheme (some "#8E6FF7")) "seed" _ _ rfl hseed rfl

end MailTemplate
