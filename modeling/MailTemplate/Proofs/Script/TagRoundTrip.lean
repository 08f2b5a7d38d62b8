import MailTemplate.Proofs.Script.RoundTrip

/-!
# Tag scripts compile to the documents that they were written from

Between tags a content is kept if it is not empty, has no blanks at its ends and does not hold the
closing tag of its own block.  It may be any other text: markup that is not balanced, comments,
braces, closing tags of other elements, or the beginning of its own closing tag.

Main result: the tag script of a writable document with such contents compiles to the same document
exactly when every binary64 number in its embedded JSON rereads as itself (`compile_write_tag_iff`).
-/

namespace MailTemplate

/-- The content of a block, if it has one, can stand between tags as it is. -/
def Block.HasTagContent (block : Block) : Prop :=
  ∀ content ∈ block.content, content ≠ "" ∧
    (∀ c ∈ content.toList.head?, Text.isBlank c = false) ∧
    (∀ c ∈ content.toList.getLast?, Text.isBlank c = false) ∧
    ¬Script.HoldsClosing block.kind.keyword.toList content.toList

namespace Script

/-- Content that can stand between tags fits the tag form. -/
lemma fits_of_hasTagContent {block : Block} (h : block.HasTagContent) : Fits .tag block := by
  intro _ content hcontent
  obtain ⟨-, -, -, hclosing⟩ := h content hcontent
  exact hclosing

/-- Content that can stand between tags is kept. -/
lemma keptContent_of_hasTagContent {block : Block} (h : block.HasTagContent) :
    keptContent .tag block.content = block.content := by
  unfold keptContent
  cases hcontent : block.content with
  | none => rfl
  | some content =>
    obtain ⟨hne, hfirst, hlast, -⟩ := h content hcontent
    simp only [Option.bind_eq_bind, Option.bind_some]
    rw [Text.trim_eq_self hfirst hlast, String.ofList_toList, if_neg hne]

/-- The tag script of a writable document compiles to the reread document. -/
theorem toOption_compile_write_tag {d : Document} (h : d.Writable)
    (hcontents : ∀ block ∈ d.blocks, block.HasTagContent) :
    (compile (write .tag d)).toOption = d.reread := by
  rw [toOption_compile_write_shaped h.shaped fun block hblock =>
    fits_of_hasTagContent (hcontents block hblock)]
  exact Document.recompiled_eq_reread h fun block hblock =>
    keptContent_of_hasTagContent (hcontents block hblock)

/-- The tag script of a writable document compiles to the same document exactly when every binary64
number in its embedded JSON rereads as itself. -/
theorem compile_write_tag_iff {d : Document} (h : d.Writable)
    (hcontents : ∀ block ∈ d.blocks, block.HasTagContent) :
    (∃ d', compile (write .tag d) = .ok d' ∧ d.same d' = true) ↔
      ∀ x ∈ d.jsonFloats, Json.Rereads x := by
  have hcompile := toOption_compile_write_tag h hcontents
  have hsame := Document.exists_same_reread_iff h
  rw [← hsame]
  exact exists_eq_ok_iff hcompile

/-- The content of the document with a table can stand between tags. -/
lemma hasTagContent_tableDocument (x : Binary64) :
    ∀ block ∈ (tableDocument x).blocks, block.HasTagContent := by
  have hclosing : ¬HoldsClosing "TABLE".toList "<b>1 < 2</b> // end".toList := by decide
  intro block hblock
  obtain rfl := List.mem_singleton.mp hblock
  intro content hcontent
  obtain rfl : "<b>1 < 2</b> // end" = content := Option.some.inj hcontent
  refine ⟨by decide, ?_, ?_, hclosing⟩
  · intro c hc
    obtain rfl : '<' = c := Option.some.inj hc
    decide
  · intro c hc
    obtain rfl : 'd' = c := Option.some.inj hc
    decide

/-- The document with two and a half in its table compiles to itself from its tag script. -/
theorem compile_write_tag_iff_tableDocument :
    (tableDocument twoAndHalf).Writable ∧
      (∀ block ∈ (tableDocument twoAndHalf).blocks, block.HasTagContent) ∧
      ∃ d', compile (write .tag (tableDocument twoAndHalf)) = .ok d' ∧
        (tableDocument twoAndHalf).same d' = true := by
  have hwritable : (tableDocument twoAndHalf).Writable := writable_tableDocument rfl
  have hcontents := hasTagContent_tableDocument twoAndHalf
  have hread : Json.rereadFloat twoAndHalf = some twoAndHalf := by decide +kernel
  have hsame : twoAndHalf.same twoAndHalf = true := by decide +kernel
  refine ⟨hwritable, hcontents, (compile_write_tag_iff hwritable hcontents).mpr fun y hy => ?_⟩
  obtain rfl := List.mem_singleton.mp hy
  exact ⟨twoAndHalf, hread, hsame⟩

/-- Some finite number does not reread as itself: the text of this one is 5.401095570883857e+38,
which is read as the number below it. -/
lemma exists_not_rereads : ∃ x : Binary64, x.isFinite = true ∧ ¬Json.Rereads x := by
  have hread : Json.rereadFloat (.finite false ⟨5186287861944520246, by decide⟩) =
      some (.finite false ⟨5186287861944520245, by decide⟩) := by decide +kernel
  refine ⟨.finite false ⟨5186287861944520246, by decide⟩, rfl, ?_⟩
  rintro ⟨y, hy, hsame⟩
  rw [hread] at hy
  obtain rfl := Option.some.inj hy
  revert hsame
  decide +kernel

/-- A number in a table that does not reread as itself is changed by the tag script. -/
theorem exists_writable_changed_by_tags :
    ∃ d : Document, d.Writable ∧ (∀ block ∈ d.blocks, block.HasTagContent) ∧
      ¬∃ d', compile (write .tag d) = .ok d' ∧ d.same d' = true := by
  obtain ⟨x, hfinite, hchanged⟩ := exists_not_rereads
  have hwritable := writable_tableDocument hfinite
  have hcontents := hasTagContent_tableDocument x
  refine ⟨tableDocument x, hwritable, hcontents, fun hsame => hchanged ?_⟩
  have hreread := (exists_eq_ok_iff (toOption_compile_write_tag hwritable hcontents)).mp hsame
  exact (Document.exists_same_reread_iff hwritable).mp hreread x List.mem_cons_self

end Script

end MailTemplate
