import MailTemplate.Proofs.Script.CompiledBags
import MailTemplate.Proofs.Script.RoundTrip

/-!
# Compiled documents written and compiled again

What a script makes is written as a script again, but not all of it is read back.  The writer leaves
out every key that starts like those of a container, on any node, and every key of a container that
cannot stand alone, although a script can set both.  A box shorthand makes sides without finite
values, which come back as texts.

Main result: a compiled document, written in the brace form, compiles to the same document exactly
when it has no such keys and values, and every binary64 number in its embedded JSON rereads as
itself (`compile_write_compiled_iff`).
-/

namespace MailTemplate

open Script

/-! ### What is kept -/

/-- A value that is read back as the same value: a finite number, embedded JSON whose numbers reread
as themselves, or any other value. -/
def AttributeValue.Stable : AttributeValue → Prop
  | .number x => x.isFinite = true
  | .json v => ∀ x ∈ v.floats, Json.Rereads x
  | _ => True

instance : DecidablePred AttributeValue.Stable := fun v => by
  unfold AttributeValue.Stable
  split
  · infer_instance
  · infer_instance
  · infer_instance

/-- No key starts like those that rows keep for their containers. -/
def Attributes.KeysApart (bag : Attributes) : Prop :=
  ∀ e ∈ bag.entries, Text.startsWith "container".toList e.1.toList = false

instance : DecidablePred Attributes.KeysApart := fun bag => by
  unfold Attributes.KeysApart
  infer_instance

/-- A column without keys that its script would leave out. -/
structure Column.KeysKept (column : Column) : Prop where
  attributes : column.attributes.KeysApart
  blocks : ∀ block ∈ column.blocks, block.attributes.KeysApart

instance : DecidablePred Column.KeysKept := fun column =>
  decidable_of_iff (column.attributes.KeysApart ∧
      ∀ block ∈ column.blocks, block.attributes.KeysApart)
    ⟨fun h => ⟨h.1, h.2⟩, fun h => ⟨h.attributes, h.blocks⟩⟩

/-- A row without keys that its script would leave out. -/
structure Row.KeysKept (row : Row) : Prop where
  attributes : row.attributes.KeysApart
  container : ∀ e ∈ row.container.entries, isScriptKey e.1.toList = true
  columns : ∀ column ∈ row.columns, column.KeysKept

instance : DecidablePred Row.KeysKept := fun row =>
  decidable_of_iff (row.attributes.KeysApart ∧
      (∀ e ∈ row.container.entries, isScriptKey e.1.toList = true) ∧
        ∀ column ∈ row.columns, column.KeysKept)
    ⟨fun h => ⟨h.1, h.2.1, h.2.2⟩, fun h => ⟨h.attributes, h.container, h.columns⟩⟩

/-! ### Values -/

/-- A number that equals a finite one is finite. -/
lemma Binary64.isFinite_of_same {x y : Binary64} (hy : y.isFinite = true)
    (h : x.same y = true) : x.isFinite = true := by
  cases y with
  | nan => cases hy
  | infinite s => cases hy
  | finite s r =>
    cases x with
    | nan => cases h
    | infinite t =>
      unfold same compare? at h
      cases t with
      | false => cases h
      | true => cases h
    | finite t r' => rfl

namespace Script

/-- The number that a bare word stands for is finite. -/
lemma isFinite_of_bareValue {raw : String} {x : Binary64} (h : bareValue raw = .number x) :
    x.isFinite = true := by
  unfold bareValue at h
  split_ifs at h
  split at h
  · split at h
    · next hfinite =>
      obtain rfl := AttributeValue.number.inj h
      exact hfinite
    · cases h
  · cases h

/-- What a script makes can be written, unless it is a number without a finite value. -/
lemma Converted.writable {e : String × AttributeValue} (h : Converted e)
    (hfinite : ∀ x, e.2 = .number x → x.isFinite = true) : e.2.Writable := by
  obtain ⟨key, v⟩ := e
  cases v with
  | bool b => trivial
  | text s => trivial
  | number x => exact hfinite x rfl
  | json v => exact h.json v rfl

/-- A number that a script makes is written, and read back as a bare word is. -/
lemma Converted.readEntries_number {key : String} {x : Binary64} (h : Converted (key, .number x)) :
    readEntries (key, .number x) = some [(key, bareValue (numberText x))] := by
  have hbox : boxSides? key (numberText x) = none := h.box rfl
  change some ((boxSides? key (numberText x)).getD [(key, bareValue (numberText x))]) = _
  rw [hbox]
  rfl

/-- What a script makes is read back as one value under the same key, if at all. -/
lemma Converted.exists_of_readEntries {e : String × AttributeValue} (h : Converted e)
    {made : List (String × AttributeValue)} (hmade : readEntries e = some made) :
    ∃ v, made = [(e.1, v)] := by
  by_cases hnumber : ∃ x, e.2 = .number x
  · obtain ⟨key, v⟩ := e
    obtain ⟨x, rfl⟩ := hnumber
    rw [h.readEntries_number] at hmade
    exact ⟨_, (Option.some.inj hmade).symm⟩
  · have hwritable := h.writable fun x hx => absurd ⟨x, hx⟩ hnumber
    rw [readEntries_of_writable hwritable h.box] at hmade
    obtain ⟨e', he', rfl⟩ := Option.map_eq_some_iff.mp hmade
    obtain ⟨w, -, rfl⟩ := Option.map_eq_some_iff.mp he'
    exact ⟨w, rfl⟩

/-- What a script makes is read back as the same value exactly when it is stable. -/
lemma Converted.exists_same_iff {e : String × AttributeValue} (h : Converted e) :
    (∃ v, readEntries e = some [(e.1, v)] ∧ e.2.same v = true) ↔ e.2.Stable := by
  have hwritten : ∀ hv : e.2.Writable,
      (∃ v, readEntries e = some [(e.1, v)] ∧ e.2.same v = true) ↔
        ∀ x ∈ e.2.jsonFloats, Json.Rereads x := by
    intro hv
    rw [← AttributeValue.exists_same_reread_iff hv, readEntries_of_writable hv h.box, rereadEntry]
    constructor
    · rintro ⟨v, hread, hsame⟩
      obtain ⟨e', he', heq⟩ := Option.map_eq_some_iff.mp hread
      obtain ⟨w, hw, rfl⟩ := Option.map_eq_some_iff.mp he'
      obtain ⟨-, rfl⟩ := Prod.mk.inj (List.singleton_inj.mp heq)
      exact ⟨w, hw, hsame⟩
    · rintro ⟨w, hw, hsame⟩
      exact ⟨w, by rw [hw]; rfl, hsame⟩
  obtain ⟨key, v⟩ := e
  cases v with
  | bool b => simpa [AttributeValue.jsonFloats, AttributeValue.Stable] using hwritten trivial
  | text s => simpa [AttributeValue.jsonFloats, AttributeValue.Stable] using hwritten trivial
  | json v => exact hwritten (h.json v rfl)
  | number x =>
    constructor
    · rintro ⟨v, hread, hsame⟩
      rw [h.readEntries_number] at hread
      obtain ⟨-, hv⟩ := Prod.mk.inj (List.singleton_inj.mp (Option.some.inj hread))
      -- only a number equals a number, and a bare word stands for finite ones only
      cases v with
      | number y => exact Binary64.isFinite_of_same (isFinite_of_bareValue hv) hsame
      | bool b => cases hsame
      | text s => cases hsame
      | json v => cases hsame
    · intro hfinite
      exact (hwritten hfinite).mpr (List.forall_mem_nil _)

end Script

/-! ### Bags -/

namespace Attributes

variable {bag : Attributes}
  {read read' : String × AttributeValue → Option (List (String × AttributeValue))}

/-- Readings that agree on some entries gather the same bag from them. -/
lemma gather_congr {entries : List (String × AttributeValue)}
    (h : ∀ e ∈ entries, read e = read' e) : gather read entries = gather read' entries := by
  unfold gather
  rw [mapM_congr h]

/-- Entries that are each read as one value under the same key keep their keys. -/
lemma keys_flatten_of_mapM {entries : List (String × AttributeValue)}
    {made : List (List (String × AttributeValue))}
    (h : ∀ e ∈ entries, ∀ made, read e = some made → ∃ v, made = [(e.1, v)])
    (hmade : entries.mapM read = some made) :
    made.flatten.map Prod.fst = entries.map Prod.fst := by
  rw [mapM_eq_some_iff] at hmade
  induction hmade with
  | nil => rfl
  | @cons e first entries rest hfirst _ ih =>
    obtain ⟨v, rfl⟩ := h e List.mem_cons_self first hfirst
    rw [List.flatten_cons, List.map_append, List.map_cons,
      ih fun a ha => h a (List.mem_cons_of_mem e ha)]
    rfl

/-- Entries that are each read as one value under the same key are the same together exactly when
each of them is. -/
lemma same_go_iff {entries : List (String × AttributeValue)}
    (h : ∀ e ∈ entries, ∀ made, read e = some made → ∃ v, made = [(e.1, v)]) :
    (∃ made, entries.mapM read = some made ∧ same.go entries made.flatten = true) ↔
      ∀ e ∈ entries, ∃ v, read e = some [(e.1, v)] ∧ e.2.same v = true := by
  induction entries with
  | nil => simp [same.go]
  | cons e entries ih =>
    have hmore := ih fun a ha => h a (List.mem_cons_of_mem e ha)
    rw [List.forall_mem_cons, ← hmore, List.mapM_cons]
    constructor
    · rintro ⟨made, hmade, hsame⟩
      obtain ⟨first, hfirst, hbind⟩ := Option.bind_eq_some_iff.mp hmade
      obtain ⟨rest, hrest, heq⟩ := Option.bind_eq_some_iff.mp hbind
      obtain rfl := Option.some.inj heq
      obtain ⟨v, rfl⟩ := h e List.mem_cons_self first hfirst
      rw [List.flatten_cons, List.singleton_append, same.go, Bool.and_eq_true,
        Bool.and_eq_true] at hsame
      exact ⟨⟨v, hfirst, hsame.1.2⟩, rest, hrest, hsame.2⟩
    · rintro ⟨⟨v, hfirst, hsame⟩, rest, hrest, hsames⟩
      refine ⟨[(e.1, v)] :: rest, by rw [hfirst, hrest]; rfl, ?_⟩
      rw [List.flatten_cons, List.singleton_append, same.go, Bool.and_eq_true, Bool.and_eq_true]
      exact ⟨⟨beq_self_eq_true e.1, hsame⟩, hsames⟩

/-- Entries that are the same have the same keys. -/
lemma keys_eq_of_same_go {entries others : List (String × AttributeValue)}
    (h : same.go entries others = true) : entries.map Prod.fst = others.map Prod.fst := by
  induction entries generalizing others with
  | nil =>
    cases others with
    | nil => rfl
    | cons e others => cases h
  | cons e entries ih =>
    cases others with
    | nil => cases h
    | cons e' others =>
      rw [same.go, Bool.and_eq_true, Bool.and_eq_true, beq_iff_eq] at h
      rw [List.map_cons, List.map_cons, h.1.1, ih h.2]

/-- What is gathered from some of a bag's entries is the same bag exactly when these are all of
them and each is read as the same value. -/
lemma exists_same_gather_iff {p : String × AttributeValue → Bool}
    (h : ∀ e ∈ bag.entries, p e = true → ∀ made, read e = some made → ∃ v, made = [(e.1, v)]) :
    (∃ b, gather read (bag.entries.filter p) = some b ∧ bag.same b = true) ↔
      ∀ e ∈ bag.entries, p e = true ∧ ∃ v, read e = some [(e.1, v)] ∧ e.2.same v = true := by
  have hkept : ∀ e ∈ bag.entries.filter p, ∀ made, read e = some made → ∃ v, made = [(e.1, v)] := by
    intro e he
    obtain ⟨hmem, hp⟩ := List.mem_filter.mp he
    exact h e hmem hp
  have hentries : ∀ {made : List (List (String × AttributeValue))},
      (bag.entries.filter p).mapM read = some made →
      (ofList made.flatten).entries = made.flatten := by
    intro made hmade
    exact entries_ofList ((bag.ordered.filter p).of_keys_eq (keys_flatten_of_mapM hkept hmade))
  constructor
  · rintro ⟨b, hb, hsame⟩
    obtain ⟨made, hmade, rfl⟩ := Option.map_eq_some_iff.mp hb
    rw [same, hentries hmade] at hsame
    -- a filtered list is as long as the whole only if nothing is left out
    have hall : bag.entries.filter p = bag.entries := by
      refine List.filter_sublist.eq_of_length ?_
      have hlength := congrArg List.length
        ((keys_eq_of_same_go hsame).trans (keys_flatten_of_mapM hkept hmade))
      rw [List.length_map, List.length_map] at hlength
      exact hlength.symm
    rw [hall] at hmade hkept
    have hreads := (same_go_iff hkept).mp ⟨made, hmade, hsame⟩
    intro e he
    exact ⟨List.filter_eq_self.mp hall e he, hreads e he⟩
  · intro hreads
    have hall : bag.entries.filter p = bag.entries :=
      List.filter_eq_self.mpr fun e he => (hreads e he).1
    rw [hall] at hkept hentries ⊢
    obtain ⟨made, hmade, hsame⟩ := (same_go_iff hkept).mpr fun e he => (hreads e he).2
    refine ⟨ofList made.flatten, by rw [gather, hmade]; rfl, ?_⟩
    rwa [same, hentries hmade]

/-- A property of the values of a bag. -/
lemma forall_values {p : AttributeValue → Prop} :
    (∀ v ∈ bag.values, p v) ↔ ∀ e ∈ bag.entries, p e.2 := List.forall_mem_map

/-- A bag as a script makes it is read back as the same bag exactly when its keys are kept and its
values are stable. -/
lemma exists_same_plainEntries_iff {reserved : List String}
    (hkeys : ∀ e ∈ bag.entries, isScriptKey e.1.toList = true ∧ e.1 ∉ reserved)
    (hvalues : ∀ e ∈ bag.entries, Converted e) :
    (∃ b, gather readEntries (bag.plainEntries reserved) = some b ∧ bag.same b = true) ↔
      bag.KeysApart ∧ ∀ v ∈ bag.values, v.Stable := by
  rw [plainEntries, exists_same_gather_iff fun e he _ _ hmade =>
    (hvalues e he).exists_of_readEntries hmade, forall_values, KeysApart, ← forall₂_and]
  refine forall₂_congr fun e he => ?_
  rw [(hvalues e he).exists_same_iff, decide_eq_true_iff]
  have hkey := hkeys e he
  exact and_congr_left fun _ => ⟨fun h => h.2.2, fun h => ⟨hkey.1, hkey.2, h⟩⟩

/-- A container as a script makes it is read back as the same container exactly when its keys can
stand alone and its values are stable. -/
lemma exists_same_scriptEntries_iff (hkeys : ∀ e ∈ bag.entries, IsReopenedKey e.1)
    (hvalues : ∀ e ∈ bag.entries, Converted e) :
    (∃ b, gather readContainerEntries bag.scriptEntries = some b ∧ bag.same b = true) ↔
      (∀ e ∈ bag.entries, isScriptKey e.1.toList = true) ∧ ∀ v ∈ bag.values, v.Stable := by
  have hread : ∀ e ∈ bag.scriptEntries, readContainerEntries e = readEntries e := by
    intro e he
    obtain ⟨hmem, hscript⟩ := List.mem_filter.mp he
    obtain ⟨c, cs, hlist, hupper, -⟩ := hkeys e hmem
    have hkey : IsContainerKey e.1 := by
      refine ⟨hscript, fun a ha => ?_⟩
      rw [hlist] at ha
      obtain rfl := Option.some.inj ha
      exact hupper
    rw [readContainerEntries, reopenedKey_of_isContainerKey hkey]
  rw [gather_congr hread, scriptEntries, exists_same_gather_iff fun e he _ _ hmade =>
    (hvalues e he).exists_of_readEntries hmade, forall_values, ← forall₂_and]
  refine forall₂_congr fun e he => ?_
  rw [(hvalues e he).exists_same_iff]

end Attributes

/-! ### Nodes -/

/-- A level that a script gives a heading is read back as any entry is. -/
lemma Block.FromScript.readBlockEntries_eq {block : Block} (h : block.FromScript)
    {e : String × AttributeValue} (he : e ∈ block.attributes.entries) :
    readBlockEntries block.kind e = readEntries e := by
  unfold readBlockEntries
  split
  · next hlevel =>
    obtain ⟨s, hs, hv⟩ := h.level hlevel.2 e he hlevel.1
    have hwritable : e.2.Writable := by
      rw [hv]
      trivial
    rw [readEntries_of_writable hwritable (h.values e he).box, rereadEntry, hlevel.1, hv]
    change some [("level", AttributeValue.text (headingLevel s))] = _
    rw [headingLevel_of_mem hs]
    rfl
  · rfl

/-- A block as a script makes it is read back as the same block exactly when its keys are kept and
its values are stable. -/
lemma Block.FromScript.exists_same_recompiled_iff {block : Block} (h : block.FromScript) :
    (∃ b, block.recompiled .brace = some b ∧ block.same b = true) ↔
      block.attributes.KeysApart ∧ ∀ v ∈ block.attributes.values, v.Stable := by
  have hread : ∀ e ∈ block.attributes.plainEntries ["id", "content"],
      readBlockEntries block.kind e = readEntries e :=
    fun e he => h.readBlockEntries_eq (List.mem_filter.mp he).1
  rw [← Attributes.exists_same_plainEntries_iff h.keys h.values, ← Attributes.gather_congr hread]
  constructor
  · rintro ⟨b, hb, hsame⟩
    obtain ⟨attributes, hattributes, heq⟩ := Option.bind_eq_some_iff.mp hb
    obtain rfl := Option.some.inj heq
    simp only [same, Bool.and_eq_true] at hsame
    exact ⟨attributes, hattributes, hsame.2⟩
  · rintro ⟨attributes, hattributes, hsame⟩
    refine ⟨{ block with attributes }, by rw [recompiled, hattributes]; rfl, ?_⟩
    simp [same, hsame]

/-- A column as a script makes it is read back as the same column exactly when its keys are kept and
its values are stable. -/
lemma Column.FromScript.exists_same_recompiled_iff {column : Column} (h : column.FromScript) :
    (∃ c, column.recompiled .brace = some c ∧ column.same c = true) ↔
      column.KeysKept ∧ ∀ v ∈ column.values, v.Stable := by
  have hparts : (column.KeysKept ∧ ∀ v ∈ column.values, v.Stable) ↔
      (column.attributes.KeysApart ∧ ∀ v ∈ column.attributes.values, v.Stable) ∧
        ∀ block ∈ column.blocks,
          block.attributes.KeysApart ∧ ∀ v ∈ block.attributes.values, v.Stable := by
    rw [Column.values, List.forall_mem_append, List.forall_mem_flatMap, forall₂_and]
    constructor
    · rintro ⟨hkeys, hbag, hblocks⟩
      exact ⟨⟨hkeys.attributes, hbag⟩, hkeys.blocks, hblocks⟩
    · rintro ⟨⟨hbag, hvalues⟩, hkeys, hblocks⟩
      exact ⟨⟨hbag, hkeys⟩, hvalues, hblocks⟩
  rw [hparts, ← Attributes.exists_same_plainEntries_iff h.keys h.values,
    ← exists_sameList_iff fun block hblock => (h.blocks block hblock).exists_same_recompiled_iff]
  constructor
  · rintro ⟨c, hc, hsame⟩
    obtain ⟨attributes, hattributes, hrest⟩ := Option.bind_eq_some_iff.mp hc
    obtain ⟨blocks, hblocks, heq⟩ := Option.bind_eq_some_iff.mp hrest
    obtain rfl := Option.some.inj heq
    simp only [same, Bool.and_eq_true] at hsame
    exact ⟨⟨attributes, hattributes, hsame.1.2⟩, blocks, hblocks, hsame.2⟩
  · rintro ⟨⟨attributes, hattributes, hsame⟩, blocks, hblocks, hsames⟩
    refine ⟨{ column with attributes, blocks }, by rw [recompiled, hattributes, hblocks]; rfl, ?_⟩
    simp [same, hsame, hsames]

/-- A row as a script makes it is read back as the same row exactly when its keys are kept and its
values are stable. -/
lemma Row.FromScript.exists_same_recompiled_iff {row : Row} (h : row.FromScript) :
    (∃ r, row.recompiled .brace = some r ∧ row.same r = true) ↔
      row.KeysKept ∧ ∀ v ∈ row.values, v.Stable := by
  have hparts : (row.KeysKept ∧ ∀ v ∈ row.values, v.Stable) ↔
      (row.attributes.KeysApart ∧ ∀ v ∈ row.attributes.values, v.Stable) ∧
        ((∀ e ∈ row.container.entries, isScriptKey e.1.toList = true) ∧
          ∀ v ∈ row.container.values, v.Stable) ∧
        ∀ column ∈ row.columns, column.KeysKept ∧ ∀ v ∈ column.values, v.Stable := by
    rw [Row.values, List.forall_mem_append, List.forall_mem_append, List.forall_mem_flatMap,
      forall₂_and]
    constructor
    · rintro ⟨hkeys, ⟨hbag, hframe⟩, hcolumns⟩
      exact ⟨⟨hkeys.attributes, hbag⟩, ⟨hkeys.container, hframe⟩, hkeys.columns, hcolumns⟩
    · rintro ⟨⟨hbag, hvalues⟩, ⟨hframe, hframeValues⟩, hkeys, hcolumns⟩
      exact ⟨⟨hbag, hframe, hkeys⟩, ⟨hvalues, hframeValues⟩, hcolumns⟩
  rw [hparts, ← Attributes.exists_same_plainEntries_iff
      (fun e he => ⟨(h.keys e he).1, (h.keys e he).2.1⟩) h.values,
    ← Attributes.exists_same_scriptEntries_iff h.containerKeys h.containerValues,
    ← exists_sameList_iff fun column hcolumn =>
      (h.columns column hcolumn).exists_same_recompiled_iff]
  unfold recompiled
  rw [RowRole.map_ofName_name h.role]
  constructor
  · rintro ⟨r, hr, hsame⟩
    obtain ⟨attributes, hattributes, hrest⟩ := Option.bind_eq_some_iff.mp hr
    obtain ⟨container, hcontainer, hrest⟩ := Option.bind_eq_some_iff.mp hrest
    obtain ⟨columns, hcolumns, heq⟩ := Option.bind_eq_some_iff.mp hrest
    obtain rfl := Option.some.inj heq
    simp only [same, Bool.and_eq_true] at hsame
    exact ⟨⟨attributes, hattributes, hsame.1.1.2⟩, ⟨container, hcontainer, hsame.1.2⟩,
      columns, hcolumns, hsame.2⟩
  · rintro ⟨⟨attributes, hattributes, hsame⟩, ⟨container, hcontainer, hsame'⟩,
      columns, hcolumns, hsames⟩
    refine ⟨{ row with attributes, container, columns },
      by rw [hattributes, hcontainer, hcolumns]; rfl, ?_⟩
    simp [same, hsame, hsame', hsames]

/-- A document as a script makes it is read back as the same document exactly when its keys are kept
and its values are stable. -/
lemma Document.exists_same_recompiled_iff {d : Document} (h : ∀ row ∈ d.rows, row.FromScript) :
    (∃ d', d.recompiled .brace = some d' ∧ d.same d' = true) ↔
      (∀ row ∈ d.rows, row.KeysKept) ∧ ∀ v ∈ d.values, v.Stable := by
  rw [values, List.forall_mem_flatMap, ← forall₂_and,
    ← exists_sameList_iff fun row hrow => (h row hrow).exists_same_recompiled_iff]
  constructor
  · rintro ⟨d', hd', hsame⟩
    obtain ⟨rows, hrows, heq⟩ := Option.bind_eq_some_iff.mp hd'
    obtain rfl := Option.some.inj heq
    simp only [same, Bool.and_eq_true] at hsame
    exact ⟨rows, hrows, hsame.2⟩
  · rintro ⟨rows, hrows, hsames⟩
    refine ⟨{ d with rows }, by rw [recompiled, hrows]; rfl, ?_⟩
    simp [same, hsames]

namespace Script

/-- The script of a compiled document compiles to the document that it is read back as. -/
lemma toOption_compile_write_compiled {defaults : Defaults} {source : String} {d : Document}
    (h : compileWith defaults source = .ok d) :
    (compile (write .brace d)).toOption = d.recompiled .brace :=
  toOption_compile_write_shaped (compileWith_shaped h) fun block _ => fits_brace block

/-- A compiled document, written in the brace form, compiles to the same document exactly when no
key of it is left out and its values are stable. -/
theorem compile_write_compiled_iff {defaults : Defaults} {source : String} {d : Document}
    (h : compileWith defaults source = .ok d) :
    (∃ d', compile (write .brace d) = .ok d' ∧ d.same d' = true) ↔
      (∀ row ∈ d.rows, row.KeysKept) ∧ ∀ v ∈ d.values, v.Stable := by
  rw [exists_eq_ok_iff (toOption_compile_write_compiled h)]
  exact Document.exists_same_recompiled_iff (compileWith_fromScript h)

/-- A script with a key of a container, a box shorthand and embedded JSON. -/
def listScript : String :=
  "ROW containerAlign=left \x7b COLUMN \x7b LIST padding=\"8px 4\" items=[2.5] \x7d \x7d"

/-- The document of that script compiles to itself when it is written. -/
theorem compile_write_compiled_iff_listScript :
    ∃ d, compileWith {} listScript = .ok d ∧
      ∃ d', compile (write .brace d) = .ok d' ∧ d.same d' = true := by
  obtain ⟨d, hd, hkept⟩ := exists_eq_ok_of_any (x := compileWith {} listScript)
    (p := fun d => decide ((∀ row ∈ d.rows, row.KeysKept) ∧ ∀ v ∈ d.values, v.Stable))
    (by decide +kernel)
  exact ⟨d, hd, (compile_write_compiled_iff hd).mpr (of_decide_eq_true hkept)⟩

/-- A block's key that starts like those of a container is compiled, but left out of the script. -/
theorem exists_compiled_changed_by_compile :
    ∃ source d, compileWith {} source = .ok d ∧
      ¬∃ d', compile (write .brace d) = .ok d' ∧ d.same d' = true := by
  obtain ⟨d, hd, hleft⟩ := exists_eq_ok_of_any
    (x := compileWith {} "ROW \x7b COLUMN \x7b TEXT containerAlign=center \x7d \x7d")
    (p := fun d => decide (¬∀ row ∈ d.rows, row.KeysKept)) (by decide +kernel)
  refine ⟨_, d, hd, fun hsame => of_decide_eq_true hleft ?_⟩
  rw [exists_eq_ok_iff (toOption_compile_write_compiled hd)] at hsame
  exact ((Document.exists_same_recompiled_iff (compileWith_fromScript hd)).mp hsame).1

end Script

end MailTemplate
