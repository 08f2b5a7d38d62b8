import MailTemplate.Proofs.Cascade.SameDocuments
import MailTemplate.Proofs.Cascade.Spread
import MailTemplate.Proofs.Script.Converted
import MailTemplate.Proofs.Script.RoundTrip

/-!
# What a recompiled document resolves to

A script does not hold every attribute of a document, but those that it leaves out or spreads over
the sides of a box make no difference to what the document resolves to.  The document that is
compiled from the script resolves, in every view, as the document whose numbers are reread.

Main result: it resolves as the document that was written, if every binary64 number in the embedded
JSON of that document rereads as itself (`exists_compile_write_resolve`).
-/

namespace MailTemplate

open Script

/-! ### Entries and bags -/

namespace Script

/-- The numbers of a box in a reread value are those in the text of the written one. -/
lemma boxNumbers?_of_reread {v w : AttributeValue} (hjson : v.json? = none)
    (h : v.reread = some w) : Cascade.boxNumbers? w = numberList? v.css := by
  cases v with
  | bool b =>
    obtain rfl := Option.some.inj h
    have hnone : ∀ b, numberList? (AttributeValue.bool b).css = none := by decide
    rw [hnone]
    rfl
  | text s =>
    obtain rfl := Option.some.inj h
    rfl
  | number x =>
    obtain ⟨y, hread, rfl⟩ := Option.map_eq_some_iff.mp h
    exact (numberList?_of_read? hread).symm
  | json v => cases hjson

/-- The entries that a value makes under the key of a box. -/
lemma ownEntries_of_mem_boxKeys {key : String} (hkey : key ∈ boxKeys) (raw : String)
    {w : AttributeValue} (h : Cascade.boxNumbers? w = numberList? raw) :
    Cascade.ownEntries key w = (boxSides? key raw).getD [(key, w)] := by
  unfold Cascade.ownEntries boxSides?
  rw [List.contains_iff_mem.mpr hkey, if_pos rfl, if_pos rfl, h]
  cases numberList? raw with
  | none => rfl
  | some numbers =>
    simp only [Option.bind_eq_bind, Option.bind_some]
    cases Sides.ofList? numbers with
    | none => rfl
    | some sides => rfl

/-- A reread value brings the sides that the written value is spread over. -/
lemma ownEntries_of_reread (key : String) {v w : AttributeValue} (h : v.reread = some w) :
    Cascade.ownEntries key w = (shorthand? key v).getD [(key, w)] := by
  cases hjson : v.json? with
  | some u =>
    cases v with
    | json u' =>
      obtain ⟨t, -, rfl⟩ := Option.map_eq_some_iff.mp h
      exact Cascade.ownEntries_of_boxNumbers?_eq_none rfl key
    | _ => cases hjson
  | none =>
    have hsides : shorthand? key v = boxSides? key v.css := by
      cases v with
      | json u => cases hjson
      | _ => rfl
    rw [hsides]
    by_cases hkey : key ∈ boxKeys
    · exact ownEntries_of_mem_boxKeys hkey v.css (boxNumbers?_of_reread hjson h)
    · rw [Cascade.ownEntries_of_not_mem hkey, boxSides?_of_not_mem hkey]
      rfl

/-- An entry with a writable value is reread, and read back as all that the reread entry brings. -/
lemma exists_readEntries_own {e : String × AttributeValue} (hv : e.2.Writable) :
    ∃ w, rereadEntry e = some (e.1, w) ∧ readEntries e = some (Cascade.ownEntries e.1 w) := by
  obtain ⟨w, hw⟩ := hv.exists_reread
  refine ⟨w, by rw [rereadEntry, hw]; rfl, ?_⟩
  unfold readEntries
  rw [toOption_convert_rawValue e.1 hv, hw, ownEntries_of_reread e.1 hw]
  rfl

end Script

/-- A bag of writable values is reread, and what is written of it is read back as what a script
holds of the reread bag. -/
lemma Attributes.exists_gather_spread {bag : Attributes} (keep : String → Bool)
    (read : String × AttributeValue → Option (List (String × AttributeValue)))
    (hvalues : ∀ v ∈ bag.values, v.Writable)
    (hread : ∀ e ∈ bag.entries, keep e.1 = true → read e = readEntries e) :
    ∃ r, bag.reread = some r ∧
      gather read (bag.entries.filter fun e => keep e.1) = some (r.spread keep) := by
  have hlists : ∀ entries : List (String × AttributeValue),
      (∀ e ∈ entries, e.2.Writable) → (∀ e ∈ entries, keep e.1 = true → read e = readEntries e) →
      ∃ es made, entries.mapM rereadEntry = some es ∧
        (entries.filter fun e => keep e.1).mapM read = some made ∧
        made.flatten =
          (es.filter fun e => keep e.1).flatMap fun e => Cascade.ownEntries e.1 e.2 := by
    intro entries
    induction entries with
    | nil => exact fun _ _ => ⟨[], [], rfl, rfl, rfl⟩
    | cons e entries ih =>
      intro hwritable hkept
      rw [List.forall_mem_cons] at hwritable hkept
      obtain ⟨es, made, hes, hmade, hflatten⟩ := ih hwritable.2 hkept.2
      obtain ⟨w, hw, hown⟩ := Script.exists_readEntries_own hwritable.1
      by_cases hkeep : keep e.1 = true
      · refine ⟨(e.1, w) :: es, Cascade.ownEntries e.1 w :: made, ?_, ?_, ?_⟩
        · rw [List.mapM_cons, hw, hes]
          rfl
        · rw [List.filter_cons, if_pos hkeep, List.mapM_cons, hkept.1 hkeep, hown, hmade]
          rfl
        · rw [List.filter_cons, if_pos hkeep, List.flatMap_cons, List.flatten_cons, hflatten]
      · refine ⟨(e.1, w) :: es, made, ?_, ?_, ?_⟩
        · rw [List.mapM_cons, hw, hes]
          rfl
        · rw [List.filter_cons, if_neg hkeep, hmade]
        · rw [List.filter_cons, if_neg hkeep, hflatten]
  obtain ⟨es, made, hes, hmade, hflatten⟩ :=
    hlists bag.entries (List.forall_mem_map.mp hvalues) hread
  have hentries : (ofList es).entries = es :=
    entries_ofList (bag.ordered.of_keys_eq (keys_mapM_rereadEntry hes))
  refine ⟨ofList es, by rw [reread, hes]; rfl, ?_⟩
  rw [gather, hmade, Option.map_some, hflatten, spread, hentries]

/-! ### Nodes -/

/-- A block of writable values, with a usual level if it is a heading, is read back as a script
holds the reread block. -/
lemma Block.exists_recompiled_spread {block : Block}
    (hvalues : ∀ v ∈ block.attributes.values, v.Writable)
    (hlevel : block.kind = .heading → ∀ v, block.attributes.get? "level" = some v →
      ∃ s ∈ headingLevels, v = .text s) :
    ∃ r, block.reread = some r ∧ block.recompiled .brace = some r.spread := by
  have hread : ∀ e ∈ block.attributes.entries,
      readBlockEntries block.kind e = readEntries e := by
    intro e he
    obtain ⟨key, v⟩ := e
    unfold readBlockEntries
    split
    · next hheading =>
      obtain ⟨rfl, hkind⟩ := hheading
      obtain ⟨s, hs, rfl⟩ := hlevel hkind v (block.attributes.ordered.lookup_of_mem he)
      obtain ⟨w, hw, hown⟩ := exists_readEntries_own (e := ("level", .text s)) trivial
      obtain ⟨-, rfl⟩ := Prod.mk.inj (Option.some.inj hw)
      have hbox : "level" ∉ boxKeys := by decide
      rw [hown, Cascade.ownEntries_of_not_mem hbox]
      change some [("level", AttributeValue.text (headingLevel s))] = _
      rw [headingLevel_of_mem hs]
    · rfl
  obtain ⟨r, hr, hgather⟩ := Attributes.exists_gather_spread
    (fun key => decide (IsPlainKey ["id", "content"] key)) (readBlockEntries block.kind) hvalues
    fun e he _ => hread e he
  refine ⟨{ block with attributes := r }, by rw [reread, hr]; rfl, ?_⟩
  unfold recompiled Attributes.plainEntries
  rw [hgather]
  rfl

/-- A column of writable values is read back as a script holds the reread column. -/
lemma Column.exists_recompiled_spread {column : Column} (hvalues : ∀ v ∈ column.values, v.Writable)
    (hlevel : ∀ block ∈ column.blocks, block.kind = .heading →
      ∀ v, block.attributes.get? "level" = some v → ∃ s ∈ headingLevels, v = .text s) :
    ∃ r, column.reread = some r ∧ column.recompiled .brace = some r.spread := by
  rw [values, List.forall_mem_append, List.forall_mem_flatMap] at hvalues
  obtain ⟨r, hr, hgather⟩ := Attributes.exists_gather_spread
    (fun key => decide (IsPlainKey ["id", "width"] key)) readEntries hvalues.1 fun e _ _ => rfl
  obtain ⟨blocks, hblocks, hrecompiled⟩ := exists_mapM_both fun block hblock =>
    Block.exists_recompiled_spread (hvalues.2 block hblock) (hlevel block hblock)
  refine ⟨{ column with attributes := r, blocks }, by rw [reread, hr, hblocks]; rfl, ?_⟩
  unfold recompiled Attributes.plainEntries
  rw [hgather, hrecompiled]
  rfl

/-- A row of writable values, whose container has no key that starts with a capital, is read back as
a script holds the reread row. -/
lemma Row.exists_recompiled_spread {row : Row} (hrole : ∀ r ∈ row.role, r.Canonical)
    (hvalues : ∀ v ∈ row.values, v.Writable)
    (hcontainer : ∀ e ∈ row.container.entries, ∀ c ∈ e.1.toList.head?, c.isUpper = false)
    (hlevel : ∀ column ∈ row.columns, ∀ block ∈ column.blocks, block.kind = .heading →
      ∀ v, block.attributes.get? "level" = some v → ∃ s ∈ headingLevels, v = .text s) :
    ∃ r, row.reread = some r ∧ row.recompiled .brace = some r.spread := by
  rw [values, List.forall_mem_append, List.forall_mem_append, List.forall_mem_flatMap] at hvalues
  obtain ⟨⟨hattributes, hframe⟩, hcolumns⟩ := hvalues
  obtain ⟨r, hr, hgather⟩ := Attributes.exists_gather_spread
    (fun key => decide (IsPlainKey ["id", "type"] key)) readEntries hattributes fun e _ _ => rfl
  obtain ⟨f, hf, hgather'⟩ := Attributes.exists_gather_spread
    (fun key => isScriptKey key.toList) readContainerEntries hframe fun e he hkey => by
      rw [readContainerEntries, reopenedKey_of_isContainerKey ⟨hkey, hcontainer e he⟩]
  obtain ⟨columns, hreread, hrecompiled⟩ := exists_mapM_both fun column hcolumn =>
    Column.exists_recompiled_spread (hcolumns column hcolumn) (hlevel column hcolumn)
  refine ⟨{ row with attributes := r, container := f, columns },
    by rw [reread, hr, hf, hreread]; rfl, ?_⟩
  unfold recompiled Attributes.plainEntries Attributes.scriptEntries
  rw [hgather, hgather', hrecompiled, RowRole.map_ofName_name hrole]
  rfl

/-! ### Documents -/

/-- A document that a script may change, but not its styles: canonical roles, usual levels of
headings, writable values, and no key of a container that starts with a capital. -/
structure Document.KeepsStyles (d : Document) : Prop where
  roles : ∀ row ∈ d.rows, ∀ r ∈ row.role, r.Canonical
  levels : ∀ row ∈ d.rows, ∀ column ∈ row.columns, ∀ block ∈ column.blocks,
    block.kind = .heading → ∀ v, block.attributes.get? "level" = some v →
      ∃ s ∈ headingLevels, v = .text s
  values : ∀ v ∈ d.values, v.Writable
  containers : ∀ row ∈ d.rows, ∀ e ∈ row.container.entries,
    ∀ c ∈ e.1.toList.head?, c.isUpper = false

/-- A script keeps the styles of a document that it can hold. -/
lemma Document.Writable.keepsStyles {d : Document} (h : d.Writable) : d.KeepsStyles where
  roles := fun row hrow => (h.rows row hrow).role
  levels := fun row hrow column hcolumn block hblock =>
    (((h.rows row hrow).columns column hcolumn).blocks block hblock).level
  values := h.values
  containers := fun row hrow e he => ((h.rows row hrow).container e he).1.2

/-- Such a document is read back as a script holds the reread document. -/
lemma Document.KeepsStyles.exists_recompiled_spread {d : Document} (h : d.KeepsStyles) :
    ∃ r, d.reread = some r ∧ d.recompiled .brace = some r.spread := by
  have hvalues := h.values
  rw [Document.values, List.forall_mem_flatMap] at hvalues
  obtain ⟨rows, hreread, hrecompiled⟩ := exists_mapM_both fun row hrow =>
    Row.exists_recompiled_spread (h.roles row hrow) (hvalues row hrow) (h.containers row hrow)
      (h.levels row hrow)
  refine ⟨{ d with rows }, by rw [reread, hreread]; rfl, ?_⟩
  unfold recompiled
  rw [hrecompiled]
  rfl

namespace Script

/-- A document, written in the brace form, compiles to one that resolves as the reread document in
every view, and as the document itself if every binary64 number in its embedded JSON rereads as
itself. -/
theorem exists_compile_write_resolve {d : Document} (h : d.Shaped) (hkeeps : d.KeepsStyles) :
    ∃ d' r, compile (write .brace d) = .ok d' ∧ d.reread = some r ∧
      (∀ view, Cascade.resolve view d' = Cascade.resolve view r) ∧
      ((∀ x ∈ d.jsonFloats, Json.Rereads x) →
        ∀ view, (Cascade.resolve view d).same (Cascade.resolve view d') = true) := by
  obtain ⟨r, hr, hrecompiled⟩ := hkeeps.exists_recompiled_spread
  have hcompile := toOption_compile_write_shaped h fun block _ => fits_brace block
  rw [hrecompiled] at hcompile
  have hresolve : ∀ view, Cascade.resolve view r.spread = Cascade.resolve view r :=
    fun view => Cascade.resolve_spread view r
  refine ⟨r.spread, r, eq_ok_of_toOption hcompile, hr, hresolve, fun hfloats view => ?_⟩
  obtain ⟨r', hr', hsame⟩ :=
    (Document.exists_same_reread_iff_of_values hkeeps.values).mpr hfloats
  obtain rfl : r = r' := Option.some.inj (hr.symm.trans hr')
  rw [hresolve]
  exact Cascade.same_resolve view hsame

/-- A document with keys that its script leaves out, shorthands next to sides of their own, and
overrides for the mobile view. -/
def styledDocument : Document where
  id := "e"
  rows := [{
    id := "r"
    role := some .hero
    attributes := {
      entries := [("padding", .text "8px 4px"), ("paddingTop", .number twoAndHalf),
        ("type", .text "footer")]
      ordered := Keyed.ordered_iff_keys.mpr (by decide) }
    container := {
      entries := [("a b", .bool true), ("padding", .number twoAndHalf)]
      ordered := Keyed.ordered_iff_keys.mpr (by decide) }
    columns := [{
      id := "c"
      units := 12
      blocks := [{
        id := "b"
        kind := .heading
        attributes := {
          entries := [("containerAlign", .text "left"), ("level", .text "h3"),
            ("mobile", .json (.object [("padding", .float twoAndHalf)]))]
          ordered := Keyed.ordered_iff_keys.mpr (by decide) } }] }] }]

/-- The document can be written. -/
lemma shaped_styledDocument : styledDocument.Shaped := by
  have hids : styledDocument.ids.Nodup := by decide
  refine ⟨by decide, by decide, hids, fun row hrow => ?_⟩
  obtain rfl := List.mem_singleton.mp hrow
  refine ⟨List.cons_ne_nil _ _, by decide, fun column hcolumn => ?_, rfl⟩
  obtain rfl := List.mem_singleton.mp hcolumn
  exact ⟨by decide, le_rfl⟩

/-- A script of the document keeps its styles. -/
lemma keepsStyles_styledDocument : styledDocument.KeepsStyles where
  roles := by
    intro row hrow r hr
    obtain rfl := List.mem_singleton.mp hrow
    obtain rfl : RowRole.hero = r := Option.some.inj hr
    exact RowRole.canonical_ofName "hero"
  levels := by
    intro row hrow column hcolumn block hblock _ v hv
    obtain rfl := List.mem_singleton.mp hrow
    obtain rfl := List.mem_singleton.mp hcolumn
    obtain rfl := List.mem_singleton.mp hblock
    obtain rfl : AttributeValue.text "h3" = v := Option.some.inj hv
    exact ⟨"h3", by decide, rfl⟩
  values := by
    intro v hv
    have hmem : v ∈ [AttributeValue.text "8px 4px", .number twoAndHalf, .text "footer",
        .bool true, .number twoAndHalf, .text "left", .text "h3",
        .json (.object [("padding", .float twoAndHalf)])] := hv
    simp only [List.mem_cons, List.not_mem_nil, or_false] at hmem
    rcases hmem with rfl | rfl | rfl | rfl | rfl | rfl | rfl | rfl
    · trivial
    · rfl
    · trivial
    · trivial
    · rfl
    · trivial
    · trivial
    · exact ⟨rfl, by decide, List.pairwise_singleton _ _, rfl, trivial⟩
  containers := by
    intro row hrow e he c hc
    obtain rfl := List.mem_singleton.mp hrow
    have hall : ∀ key ∈ ["a b", "padding"], key.toList.head?.any Char.isUpper = false := by
      decide
    have hany := hall e.1 (List.mem_map_of_mem he)
    rw [Option.mem_def.mp hc] at hany
    exact hany

/-- The document with keys that its script leaves out resolves as it did. -/
theorem exists_compile_write_resolve_styledDocument :
    styledDocument.Shaped ∧ styledDocument.KeepsStyles ∧
      (∀ x ∈ styledDocument.jsonFloats, Json.Rereads x) ∧
      ∃ d', compile (write .brace styledDocument) = .ok d' ∧
        ∀ view, (Cascade.resolve view styledDocument).same (Cascade.resolve view d') = true := by
  have hfloats : ∀ x ∈ styledDocument.jsonFloats, Json.Rereads x := by
    decide +kernel
  obtain ⟨d', r, hcompile, -, -, hsame⟩ :=
    exists_compile_write_resolve shaped_styledDocument keepsStyles_styledDocument
  exact ⟨shaped_styledDocument, keepsStyles_styledDocument, hfloats, d', hcompile, hsame hfloats⟩

/-- A number with sixteen digits that rereads as the number below it is changed in the table that a
view shows. -/
theorem exists_resolve_changed_by_compile :
    ∃ d : Document, d.Shaped ∧ d.KeepsStyles ∧
      ¬∃ d', compile (write .brace d) = .ok d' ∧
        ∀ view, (Cascade.resolve view d).same (Cascade.resolve view d') = true := by
  -- the text of the number is 5.401095570883857e+38, and is read as the number below it
  let x : Binary64 := .finite false ⟨5186287861944520246, by decide⟩
  have hwritable : (tableDocument x).Writable := writable_tableDocument rfl
  refine ⟨tableDocument x, hwritable.shaped, hwritable.keepsStyles, ?_⟩
  rintro ⟨d', hcompile, hsame⟩
  have hreread := toOption_compile_write hwritable
  rw [hcompile] at hreread
  have hdiffer : ((tableDocument x).reread.all fun r =>
      !(Cascade.resolve {} (tableDocument x)).same (Cascade.resolve {} r)) = true := by
    decide +kernel
  rw [← hreread] at hdiffer
  have hnot : (!(Cascade.resolve {} (tableDocument x)).same (Cascade.resolve {} d')) = true :=
    hdiffer
  rw [hsame] at hnot
  cases hnot

end Script

end MailTemplate
