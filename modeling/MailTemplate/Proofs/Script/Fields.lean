import MailTemplate.Proofs.Affixes
import MailTemplate.Proofs.Bags
import MailTemplate.Proofs.Script.CompileStep

/-!
# What attributes say of their nodes

An attribute fits an element if its value can be read there: JSON where it is embedded, widths where
they are wanted, and anything where the text itself counts (`Attribute.Fits`).  The attributes of a
node are read one after the other; all of them are if each fits, and then every entry of theirs is
in the bag of the node and every field has the text of the last attribute under its key
(`foldlM_setBlockField_eq_ok` and those of columns and rows).
-/

namespace MailTemplate

/-! ### Widths -/

namespace Text

/-- A whole number is digits, after at most one plus sign. -/
lemma wholeNumber?_eq_some {limit n : ℕ} {cs : List Char} :
    wholeNumber? limit cs = some n ↔
      (∃ ds, (cs = ds ∨ cs = '+' :: ds) ∧ ds ≠ [] ∧ (∀ c ∈ ds, c.isDigit = true) ∧
        digitsValue ds = n) ∧ n ≤ limit := by
  unfold wholeNumber?
  constructor
  · intro h
    set ds := (dropHead? ['+'] cs).getD cs with hds
    have hcs : cs = ds ∨ cs = '+' :: ds := by
      cases hplus : dropHead? ['+'] cs with
      | none => exact .inl (by rw [hds, hplus, Option.getD_none])
      | some rest =>
        refine .inr ?_
        rw [hds, hplus, Option.getD_some]
        exact dropHead?_eq_some hplus
    simp only [Option.ite_none_left_eq_some, Bool.or_eq_true, not_or, decide_eq_true_eq, not_lt,
      Bool.not_eq_true, Bool.not_eq_false', List.isEmpty_eq_false_iff, List.all_eq_true,
      Option.some.injEq] at h
    obtain ⟨⟨⟨hne, hdigits⟩, hle⟩, rfl⟩ := h
    exact ⟨⟨ds, hcs, hne, hdigits, rfl⟩, hle⟩
  · rintro ⟨⟨ds, hcs, hne, hdigits, rfl⟩, hle⟩
    have hds : (dropHead? ['+'] cs).getD cs = ds := by
      rcases hcs with rfl | rfl
      · have hplus : '+' ∉ cs := fun hmem => absurd (hdigits '+' hmem) (by decide)
        rw [dropHead?_of_not_mem hplus, Option.getD_none]
      · exact congrArg (Option.getD · _) (dropHead?_append ['+'] ds)
    have hall : ds.all Char.isDigit = true := List.all_eq_true.mpr hdigits
    have hfits : ¬limit < digitsValue ds := not_lt.mpr hle
    simp only [hds, List.isEmpty_eq_false_iff.mpr hne, hall, Bool.not_true, Bool.or_self,
      Bool.false_or, decide_eq_true_eq, if_neg hfits]

end Text

namespace Script

/-- The text is a positive number of 32 bits, with blanks around it and copies of the unit of pixels
behind it. -/
def IsPixelWidth (raw : String) : Prop :=
  ∃ (core : List Char) (times n : ℕ),
    Text.trim raw.toList = core ++ (List.replicate times ['p', 'x']).flatten ∧
      Text.wholeNumber? (2 ^ 32 - 1) core = some n ∧ 0 < n

/-- The text is a percentage above zero and up to one hundred, or a number of grid units, with
blanks around it. -/
def IsColumnWidth (raw : String) : Prop :=
  (∃ percent x, Text.trim raw.toList = percent ++ ['%'] ∧
      Binary64.read? (Text.trim percent) = some x ∧ Binary64.lt 0 x = true ∧ x.le hundred = true) ∨
    ∃ n, Text.wholeNumber? gridUnits (Text.trim raw.toList) = some n ∧ 1 ≤ n

/-- Document widths are read from the texts that are widths in pixels. -/
lemma exists_documentWidth? (raw : String) :
    (∃ width, documentWidth? raw = some width) ↔ IsPixelWidth raw := by
  have hread : (∃ width, documentWidth? raw = some width) ↔ ∃ n, Text.wholeNumber? (2 ^ 32 - 1)
      (Text.dropTails ['p', 'x'] (Text.trim raw.toList)) = some n ∧ 0 < n := by
    unfold documentWidth?
    simp only [Option.bind_eq_bind, Option.bind_eq_some_iff, Option.ite_none_right_eq_some]
    grind
  rw [hread]
  constructor
  · rintro ⟨n, hn, hpos⟩
    obtain ⟨times, htimes⟩ := Text.exists_dropTails ['p', 'x'] (Text.trim raw.toList)
    exact ⟨_, times, n, htimes, hn, hpos⟩
  · rintro ⟨core, times, n, htext, hn, hpos⟩
    obtain ⟨⟨ds, hcore, -, hdigits, -⟩, -⟩ := Text.wholeNumber?_eq_some.mp hn
    have hx : 'x' ∉ core := by
      have hds : 'x' ∉ ds := fun hmem => absurd (hdigits 'x' hmem) (by decide)
      rcases hcore with rfl | rfl
      · exact hds
      · exact List.not_mem_cons_of_ne_of_not_mem (by decide) hds
    have hcore : Text.dropTails ['p', 'x'] (Text.trim raw.toList) = core := by
      rw [htext]
      exact Text.dropTails_append_copies ['p'] hx times
    exact ⟨n, hcore ▸ hn, hpos⟩

/-- Column widths are read from percentages and numbers of grid units. -/
lemma exists_columnWidth? (raw : String) :
    (∃ units, columnWidth? raw = some units) ↔ IsColumnWidth raw := by
  unfold columnWidth? IsColumnWidth
  generalize Text.trim raw.toList = text
  cases hpercent : Text.dropTail? ['%'] text with
  | some percent =>
    obtain rfl := Text.dropTail?_eq_some.mp hpercent
    have hwhole : ∀ n, Text.wholeNumber? gridUnits (percent ++ ['%']) ≠ some n := by
      intro n hn
      obtain ⟨⟨ds, htext, -, hdigits, -⟩, -⟩ := Text.wholeNumber?_eq_some.mp hn
      have hmem : '%' ∈ ds := by
        rcases htext with rfl | htext
        · exact List.mem_append_right percent List.mem_cons_self
        · have hlast : '%' ∈ '+' :: ds := htext ▸ List.mem_append_right percent List.mem_cons_self
          exact List.mem_of_ne_of_mem (by decide) hlast
      exact absurd (hdigits '%' hmem) (by decide)
    simp only [hpercent, hwhole, false_and, exists_false, or_false, List.append_cancel_right_eq,
      Option.bind_eq_bind, Option.bind_eq_some_iff, Option.ite_none_right_eq_some,
      Bool.and_eq_true]
    constructor
    · rintro ⟨units, x, hx, hrange, -⟩
      exact ⟨percent, x, rfl, hx, hrange⟩
    · rintro ⟨_, x, rfl, hx, hrange⟩
      exact ⟨_, x, hx, hrange, rfl⟩
  | none =>
    have hnone : ∀ percent, text ≠ percent ++ ['%'] := by
      intro percent htext
      rw [Text.dropTail?_eq_some.mpr htext] at hpercent
      cases hpercent
    simp only [hpercent, hnone, false_and, exists_false, false_or, Option.bind_eq_bind,
      Option.bind_eq_some_iff, Option.ite_none_right_eq_some]
    constructor
    · rintro ⟨units, n, hn, ⟨hpos, hle⟩, -⟩
      obtain ⟨hdigits, -⟩ := Text.wholeNumber?_eq_some.mp hn
      exact ⟨n, Text.wholeNumber?_eq_some.mpr ⟨hdigits, hle⟩, hpos⟩
    · rintro ⟨n, hn, hpos⟩
      obtain ⟨hdigits, hle⟩ := Text.wholeNumber?_eq_some.mp hn
      exact ⟨n, n, Text.wholeNumber?_eq_some.mpr ⟨hdigits, hle.trans (by decide)⟩, ⟨hpos, hle⟩,
        rfl⟩

/-! ### Attributes that fit -/

/-- The attribute holds JSON, if its value is embedded. -/
def Attribute.HoldsJson (a : Attribute) : Prop :=
  ∀ raw, a.value = .structured raw → ∃ json, Json.parse raw = .ok json

/-- The element takes the value under a key as text, of whatever kind it is. -/
def Element.TakesText (element : Element) (key : String) : Prop :=
  key = "id" ∨
    match element with
    | .email => True
    | .row => key = "type"
    | .column => key = "width"
    | .block kind => key = "content" ∨ key = "level" ∧ kind = .heading

/-- The value of an attribute can be read at an element. -/
structure Attribute.Fits (element : Element) (a : Attribute) : Prop where
  json : ¬element.TakesText a.key → a.HoldsJson
  emailWidth : element = .email → a.key = "width" → IsPixelWidth a.value.text
  columnWidth : element = .column → a.key = "width" → IsColumnWidth a.value.text

/-- What it takes to fit an element, condition by condition. -/
lemma Attribute.fits_iff {element : Element} {a : Attribute} :
    a.Fits element ↔ (element.TakesText a.key ∨ a.HoldsJson) ∧
      (element = .email → a.key = "width" → IsPixelWidth a.value.text) ∧
      (element = .column → a.key = "width" → IsColumnWidth a.value.text) := by
  constructor
  · intro h
    exact ⟨Classical.or_iff_not_imp_left.mpr h.json, h.emailWidth, h.columnWidth⟩
  · rintro ⟨hjson, hemail, hcolumn⟩
    exact ⟨fun hnot => hjson.resolve_left hnot, hemail, hcolumn⟩

/-- The entries that an attribute brings under a key. -/
def Attribute.entriesUnder (key : String) (a : Attribute) : List (String × AttributeValue) :=
  (convert key a.value).toOption.getD []

/-- An attribute has entries exactly if it holds JSON where its value is embedded. -/
lemma entriesOf_eq_ok {key : String} {a : Attribute} {entries : List (String × AttributeValue)} :
    entriesOf key a = .ok entries ↔ a.HoldsJson ∧ entries = a.entriesUnder key := by
  unfold entriesOf Attribute.HoldsJson Attribute.entriesUnder
  cases a.value with
  | bare raw => simp [convert, Except.toOption, eq_comm]
  | quoted raw => simp [convert, Except.toOption, eq_comm]
  | html raw => simp [convert, Except.toOption, eq_comm]
  | structured raw =>
    simp only [convert, RawValue.structured.injEq, forall_eq']
    cases Json.parse raw with
    | error e => simp [bind, Except.bind]
    | ok json => simp [pure, Except.pure, Except.toOption, eq_comm]

/-- What is made of the entries of an attribute is made exactly if it holds JSON where its value is
embedded. -/
lemma entriesOf_bind_eq_ok {β : Type} {key : String} {a : Attribute}
    (make : List (String × AttributeValue) → β) {b : β} :
    (do let entries ← entriesOf key a; return make entries) = .ok b ↔
      a.HoldsJson ∧ b = make (a.entriesUnder key) := by
  simp only [bind_eq_ok, entriesOf_eq_ok, pure_eq_ok]
  constructor
  · rintro ⟨_, ⟨hjson, rfl⟩, rfl⟩
    exact ⟨hjson, rfl⟩
  · rintro ⟨hjson, rfl⟩
    exact ⟨_, ⟨hjson, rfl⟩, rfl⟩

/-- An attribute of the root can be read exactly if it fits. -/
lemma exists_setDocumentField (d : Document) (a : Attribute) :
    (∃ d', setDocumentField d a = .ok d') ↔ a.Fits .email := by
  simp only [Attribute.fits_iff, Element.TakesText, or_true, true_or, true_and, true_imp_iff,
    reduceCtorEq, false_imp_iff, and_true, ← exists_documentWidth?]
  by_cases hwidth : a.key = "width"
  · unfold setDocumentField
    simp only [hwidth, true_imp_iff]
    cases documentWidth? a.value.text with
    | none => simp
    | some width => simp
  · refine iff_of_true ?_ fun h => absurd h hwidth
    unfold setDocumentField
    simp only
    split
    case h_6 heq => exact absurd heq hwidth
    all_goals exact ⟨_, rfl⟩

/-! ### What attributes add up to -/

/-- The text of the last attribute under a key. -/
def lastText? (key : String) (attributes : List Attribute) : Option String :=
  (attributes.reverse.find? fun a => a.key == key).map fun a => a.value.text

/-- The entries that an attribute brings to the bag of a block. -/
def blockEntries (kind : BlockKind) (a : Attribute) : List (String × AttributeValue) :=
  if a.key = "id" ∨ a.key = "content" then []
  else if a.key = "level" ∧ kind = .heading then [("level", .text (headingLevel a.value.text))]
  else a.entriesUnder a.key

/-- The entries that an attribute brings to the bag of a column. -/
def columnEntries (a : Attribute) : List (String × AttributeValue) :=
  if a.key = "id" ∨ a.key = "width" then [] else a.entriesUnder a.key

/-- The entries that an attribute brings to the bag of a row. -/
def rowEntries (a : Attribute) : List (String × AttributeValue) :=
  if a.key = "id" ∨ a.key = "type" ∨ (containerKey? a.key).isSome then []
  else a.entriesUnder a.key

/-- The entries that an attribute of a row brings to the bag of its container. -/
def containerEntries (a : Attribute) : List (String × AttributeValue) :=
  match containerKey? a.key with
  | some key => a.entriesUnder key
  | none => []

/-- An attribute in front of others has the last text under its key if they have none. -/
lemma lastText?_cons (key : String) (a : Attribute) (attributes : List Attribute) :
    lastText? key (a :: attributes) =
      (lastText? key attributes).or (if a.key = key then some a.value.text else none) := by
  unfold lastText?
  rw [List.reverse_cons, List.find?_append, Option.map_or, List.find?_singleton]
  by_cases hkey : a.key = key
  · simp [hkey]
  · simp [hkey]

/-- The block with what an attribute says. -/
def withBlockField (block : Block) (a : Attribute) : Block :=
  { block with
    content := if a.key = "content" then some a.value.text else block.content
    attributes := block.attributes.setAll (blockEntries block.kind a) }

/-- An attribute of a block can be read exactly if it fits. -/
lemma setBlockField_eq_ok {block block' : Block} {a : Attribute} :
    setBlockField block a = .ok block' ↔
      a.Fits (.block block.kind) ∧ block' = withBlockField block a := by
  simp only [Attribute.fits_iff, Element.TakesText, reduceCtorEq, false_imp_iff, and_true]
  unfold setBlockField withBlockField blockEntries
  by_cases hid : a.key = "id"
  · simp only [hid, true_or, true_and, Except.ok.injEq, if_true, String.reduceEq, if_false]
    exact eq_comm
  · by_cases hcontent : a.key = "content"
    · simp only [hcontent, true_or, or_true, true_and, Except.ok.injEq, if_true, String.reduceEq,
        if_false]
      exact eq_comm
    · simp only [hid, hcontent, if_false, false_or]
      by_cases hlevel : a.key = "level" ∧ block.kind = .heading
      · simp only [hlevel, and_self, if_true, true_or, true_and, Except.ok.injEq]
        exact eq_comm
      · simp only [hlevel, if_false, false_or]
        exact entriesOf_bind_eq_ok _

/-- What attributes put into a block, all together. -/
lemma foldl_withBlockField (block : Block) (attributes : List Attribute) :
    attributes.foldl withBlockField block =
      { block with
        content := (lastText? "content" attributes).or block.content
        attributes := block.attributes.setAll (attributes.flatMap (blockEntries block.kind)) } := by
  induction attributes generalizing block with
  | nil => rfl
  | cons a attributes ih =>
    rw [List.foldl_cons, ih, lastText?_cons, List.flatMap_cons, Attributes.setAll_append]
    unfold withBlockField
    by_cases hkey : a.key = "content"
    · simp [hkey]
    · simp [hkey]

/-- The attributes of a block are read exactly if they fit, and leave nothing out. -/
theorem foldlM_setBlockField_eq_ok {id : String} {kind : BlockKind} {attributes : List Attribute}
    {block : Block} :
    attributes.foldlM setBlockField { id, kind } = .ok block ↔
      (∀ a ∈ attributes, a.Fits (.block kind)) ∧
        block = { id, kind, content := lastText? "content" attributes
                  attributes := .ofList (attributes.flatMap (blockEntries kind)) } := by
  have hsteps : attributes.foldlM setBlockField { id, kind } = .ok block ↔
      (∀ a ∈ attributes, a.Fits (.block kind)) ∧
        block = attributes.foldl withBlockField { id, kind } := by
    refine foldlM_eq_ok (p := fun block => block.kind = kind) ?_ ?_ rfl
    · intro b a b' hb
      rw [← hb]
      exact setBlockField_eq_ok
    · exact fun _ _ hb => hb
  rw [hsteps, foldl_withBlockField, Option.or_none]
  rfl

/-- The column with what an attribute says, and its width so far. -/
def withColumnField (acc : Column × Option ℕ) (a : Attribute) : Column × Option ℕ :=
  ({ acc.1 with attributes := acc.1.attributes.setAll (columnEntries a) },
    if a.key = "width" then columnWidth? a.value.text else acc.2)

/-- An attribute of a column can be read exactly if it fits. -/
lemma setColumnField_eq_ok {acc acc' : Column × Option ℕ} {a : Attribute} :
    setColumnField acc a = .ok acc' ↔ a.Fits .column ∧ acc' = withColumnField acc a := by
  simp only [Attribute.fits_iff, Element.TakesText, reduceCtorEq, false_imp_iff, true_imp_iff,
    true_and, ← exists_columnWidth?]
  unfold setColumnField withColumnField columnEntries
  by_cases hid : a.key = "id"
  · simp only [hid, true_or, true_and, Except.ok.injEq, if_true, String.reduceEq, if_false,
      false_imp_iff]
    exact eq_comm
  · by_cases hwidth : a.key = "width"
    · simp only [hwidth, or_true, true_or, true_and, if_true, String.reduceEq, if_false,
        true_imp_iff]
      cases columnWidth? a.value.text with
      | none => simp
      | some units =>
        simp only [Except.ok.injEq, Option.some.injEq, exists_eq', true_and]
        exact eq_comm
    · simp only [hid, hwidth, if_false, false_or, false_imp_iff, and_true]
      exact entriesOf_bind_eq_ok _

/-- The last text under a key is that of an attribute. -/
lemma exists_of_lastText? {key text : String} {attributes : List Attribute}
    (h : lastText? key attributes = some text) :
    ∃ a ∈ attributes, a.key = key ∧ a.value.text = text := by
  obtain ⟨a, ha, htext⟩ := Option.map_eq_some_iff.mp h
  have hkey : (a.key == key) = true := List.find?_some (p := fun a : Attribute => a.key == key) ha
  exact ⟨a, List.mem_reverse.mp (List.mem_of_find?_eq_some ha), beq_iff_eq.mp hkey, htext⟩

/-- What attributes put into a column, all together. -/
lemma foldl_withColumnField (acc : Column × Option ℕ) {attributes : List Attribute}
    (h : ∀ a ∈ attributes, a.Fits .column) :
    attributes.foldl withColumnField acc =
      ({ acc.1 with attributes := acc.1.attributes.setAll (attributes.flatMap columnEntries) },
        ((lastText? "width" attributes).bind columnWidth?).or acc.2) := by
  induction attributes generalizing acc with
  | nil => rfl
  | cons a attributes ih =>
    have hrest : ∀ a ∈ attributes, a.Fits .column := fun a' ha' => h a' (List.mem_cons_of_mem a ha')
    have hread : ∀ a' ∈ a :: attributes, a'.key = "width" →
        ∃ units, columnWidth? a'.value.text = some units := fun a' ha' hkey =>
      (exists_columnWidth? _).mpr ((h a' ha').columnWidth rfl hkey)
    have hwidth : ((lastText? "width" attributes).bind columnWidth?).or (withColumnField acc a).2 =
        ((lastText? "width" (a :: attributes)).bind columnWidth?).or acc.2 := by
      unfold withColumnField
      rw [lastText?_cons]
      cases hlast : lastText? "width" attributes with
      | some text =>
        obtain ⟨a', ha', hkey, rfl⟩ := exists_of_lastText? hlast
        obtain ⟨units, hunits⟩ := hread a' (List.mem_cons_of_mem a ha') hkey
        simp [hunits]
      | none =>
        by_cases hkey : a.key = "width"
        · obtain ⟨units, hunits⟩ := hread a List.mem_cons_self hkey
          simp [hkey, hunits]
        · simp [hkey]
    rw [List.foldl_cons, ih _ hrest, hwidth, List.flatMap_cons, Attributes.setAll_append]
    rfl

/-- The attributes of a column are read exactly if they fit, and leave nothing out. -/
theorem foldlM_setColumnField_eq_ok {id : String} {units : ℕ} {attributes : List Attribute}
    {column : Column} {width : Option ℕ} :
    attributes.foldlM setColumnField ({ id, units }, none) = .ok (column, width) ↔
      (∀ a ∈ attributes, a.Fits .column) ∧
        column = { id, units, attributes := .ofList (attributes.flatMap columnEntries) } ∧
        width = (lastText? "width" attributes).bind columnWidth? := by
  have hsteps : attributes.foldlM setColumnField ({ id, units }, none) = .ok (column, width) ↔
      (∀ a ∈ attributes, a.Fits .column) ∧
        (column, width) = attributes.foldl withColumnField ({ id, units }, none) :=
    foldlM_eq_ok (p := fun _ => True) (fun _ _ _ _ => setColumnField_eq_ok) (fun _ _ _ => trivial)
      trivial
  rw [hsteps]
  refine and_congr_right fun hfits => ?_
  rw [foldl_withColumnField _ hfits, Option.or_none, Prod.mk.injEq]
  rfl

/-- The row with what an attribute says. -/
def withRowField (row : Row) (a : Attribute) : Row :=
  { row with
    role := if a.key = "type" then some (RowRole.ofName a.value.text) else row.role
    attributes := row.attributes.setAll (rowEntries a)
    container := row.container.setAll (containerEntries a) }

/-- An attribute of a row can be read exactly if it fits. -/
lemma setRowField_eq_ok {row row' : Row} {a : Attribute} :
    setRowField row a = .ok row' ↔ a.Fits .row ∧ row' = withRowField row a := by
  have hreserved : containerKey? "id" = none ∧ containerKey? "type" = none := by decide
  simp only [Attribute.fits_iff, Element.TakesText, reduceCtorEq, false_imp_iff, and_true]
  unfold setRowField withRowField rowEntries containerEntries
  by_cases hid : a.key = "id"
  · simp only [hid, hreserved.1, true_or, true_and, Except.ok.injEq, if_true, String.reduceEq,
      if_false]
    exact eq_comm
  · by_cases htype : a.key = "type"
    · simp only [htype, hreserved.2, true_or, or_true, true_and, Except.ok.injEq, if_true,
        String.reduceEq, if_false]
      exact eq_comm
    · simp only [hid, htype, if_false, false_or]
      cases containerKey? a.key with
      | some key =>
        simp only [Option.isSome_some, if_true]
        exact entriesOf_bind_eq_ok _
      | none =>
        simp only [Option.isSome_none, Bool.false_eq_true, if_false]
        exact entriesOf_bind_eq_ok _

/-- What attributes put into a row, all together. -/
lemma foldl_withRowField (row : Row) (attributes : List Attribute) :
    attributes.foldl withRowField row =
      { row with
        role := ((lastText? "type" attributes).map RowRole.ofName).or row.role
        attributes := row.attributes.setAll (attributes.flatMap rowEntries)
        container := row.container.setAll (attributes.flatMap containerEntries) } := by
  induction attributes generalizing row with
  | nil => rfl
  | cons a attributes ih =>
    rw [List.foldl_cons, ih, lastText?_cons, List.flatMap_cons, List.flatMap_cons,
      Attributes.setAll_append, Attributes.setAll_append]
    unfold withRowField
    by_cases hkey : a.key = "type"
    · simp [hkey]
    · simp [hkey]

/-- The attributes of a row are read exactly if they fit, and leave nothing out. -/
theorem foldlM_setRowField_eq_ok {id : String} {attributes : List Attribute} {row : Row} :
    attributes.foldlM setRowField { id } = .ok row ↔
      (∀ a ∈ attributes, a.Fits .row) ∧
        row = { id, role := (lastText? "type" attributes).map RowRole.ofName
                attributes := .ofList (attributes.flatMap rowEntries)
                container := .ofList (attributes.flatMap containerEntries) } := by
  have hsteps : attributes.foldlM setRowField { id } = .ok row ↔
      (∀ a ∈ attributes, a.Fits .row) ∧ row = attributes.foldl withRowField { id } :=
    foldlM_eq_ok (p := fun _ => True) (fun _ _ _ _ => setRowField_eq_ok) (fun _ _ _ => trivial)
      trivial
  rw [hsteps, foldl_withRowField, Option.or_none]
  rfl

end Script

end MailTemplate
