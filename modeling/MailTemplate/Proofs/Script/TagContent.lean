import MailTemplate.Proofs.Lists
import MailTemplate.Script.Lexeme

/-!
# The content of leaves in the tag form

The content of a leaf is cut off at the first closing tag of the leaf's own element.  A text that
holds no such tag is cut off whole, even if it ends in the middle of one.

Main results: what is cut off in front of a closing tag is all that is written before it
(`contentBefore_append`), and it is always cut off there (`contentBefore_spec`).
-/

namespace MailTemplate.Script

variable {keyword : List Char}

/-- A text starts with the closing tag of an element; blanks may stand before the tag's end. -/
def StartsClosing (keyword cs : List Char) : Prop :=
  ∃ blanks after, cs = '<' :: '/' :: (keyword ++ (blanks ++ '>' :: after)) ∧
    ∀ c ∈ blanks, Text.isBlank c = true

/-- A text holds the closing tag of an element. -/
def HoldsClosing (keyword cs : List Char) : Prop :=
  ∃ before rest, cs = before ++ rest ∧ StartsClosing keyword rest

/-- The end of a tag is no blank. -/
lemma isBlank_tagEnd : Text.isBlank '>' = false := by decide

/-- The test for a closing tag finds one exactly where one starts. -/
lemma closes_iff (cs : List Char) :
    (match Text.dropHead? ('<' :: '/' :: keyword) cs with
      | some after => (Text.trimLeft after).head? == some '>'
      | none => false) = true ↔ StartsClosing keyword cs := by
  constructor
  · intro h
    split at h
    · next after hdrop =>
      rw [beq_iff_eq] at h
      obtain ⟨more, hmore⟩ := List.head?_eq_some_iff.mp h
      refine ⟨after.takeWhile Text.isBlank, more, ?_, fun c hc => List.mem_takeWhile_imp hc⟩
      have hafter : after = after.takeWhile Text.isBlank ++ '>' :: more := by
        rw [← hmore]
        exact List.takeWhile_append_dropWhile.symm
      rw [← hafter]
      exact Text.dropHead?_eq_some hdrop
    · cases h
  · rintro ⟨blanks, after, rfl, hblanks⟩
    have hdrop : Text.dropHead? ('<' :: '/' :: keyword)
        ('<' :: '/' :: (keyword ++ (blanks ++ '>' :: after))) = some (blanks ++ '>' :: after) :=
      Text.dropHead?_append _ _
    have htrim : Text.trimLeft (blanks ++ '>' :: after) = '>' :: after :=
      dropWhile_run hblanks isBlank_tagEnd
    simp only [hdrop, htrim]
    rfl

/-- Content ends where the closing tag starts. -/
lemma contentBefore_of_startsClosing {cs : List Char} (h : StartsClosing keyword cs) :
    contentBefore keyword cs = some ([], cs) := by
  have hcloses := (closes_iff cs).mpr h
  obtain ⟨blanks, after, rfl, -⟩ := h
  unfold contentBefore
  exact if_pos hcloses

/-- Content goes on with a character at which no closing tag starts. -/
lemma contentBefore_cons {c : Char} {cs : List Char} (h : ¬StartsClosing keyword (c :: cs)) :
    contentBefore keyword (c :: cs) =
      (contentBefore keyword cs).map fun p => (c :: p.1, p.2) := by
  have hcloses := (closes_iff (c :: cs)).not.mpr h
  rw [contentBefore]
  exact if_neg hcloses

/-- A closing tag that starts in a text does not end behind it, in another tag. -/
lemma startsClosing_of_append (hkeyword : '<' ∉ keyword) {c : Char} {cs more : List Char}
    (h : StartsClosing keyword (c :: cs ++ '<' :: more)) : StartsClosing keyword (c :: cs) := by
  obtain ⟨blanks, after, htext, hblanks⟩ := h
  have hsplit : c :: cs ++ '<' :: more =
      ('<' :: '/' :: (keyword ++ (blanks ++ ['>']))) ++ after := by
    rw [htext]
    simp
  rcases List.append_eq_append_iff.mp hsplit with ⟨tail, htag, hmore⟩ | ⟨tail, hcs, -⟩
  · cases tail with
    | nil =>
      -- the tag ends just where the text does
      rw [List.append_nil] at htag
      exact ⟨blanks, [], htag.symm, hblanks⟩
    | cons d tail =>
      -- the tag would hold the mark that comes behind the text, but no tag holds one inside
      obtain ⟨rfl, -⟩ := List.cons.inj hmore
      have hinside := (List.cons.inj htag).2
      have hmem : '<' ∈ '/' :: (keyword ++ (blanks ++ ['>'])) := by
        rw [hinside]
        simp
      have hnot : '<' ∉ blanks := fun hblank => by
        have hmark := hblanks '<' hblank
        revert hmark
        decide
      simp [hkeyword, hnot] at hmem
  · refine ⟨blanks, tail, ?_, hblanks⟩
    rw [hcs]
    simp

/-- What follows a closing tag does not matter. -/
lemma StartsClosing.append {cs : List Char} (h : StartsClosing keyword cs) (more : List Char) :
    StartsClosing keyword (cs ++ more) := by
  obtain ⟨blanks, after, rfl, hblanks⟩ := h
  exact ⟨blanks, after ++ more, by simp, hblanks⟩

/-- A text with a character in front holds a closing tag only there or behind it. -/
lemma holdsClosing_cons {c : Char} {cs : List Char} :
    HoldsClosing keyword (c :: cs) ↔ StartsClosing keyword (c :: cs) ∨ HoldsClosing keyword cs := by
  constructor
  · rintro ⟨before, rest, htext, hrest⟩
    cases before with
    | nil =>
      obtain rfl : c :: cs = rest := htext
      exact .inl hrest
    | cons d before => exact .inr ⟨before, rest, (List.cons.inj htext).2, hrest⟩
  · rintro (hstarts | ⟨before, rest, rfl, hrest⟩)
    · exact ⟨[], c :: cs, rfl, hstarts⟩
    · exact ⟨c :: before, rest, rfl, hrest⟩

/-- In front of a closing tag, all text is content if it holds no such tag itself. -/
theorem contentBefore_append (hkeyword : '<' ∉ keyword) {content rest : List Char}
    (h : ¬HoldsClosing keyword content) (hrest : StartsClosing keyword rest) :
    contentBefore keyword (content ++ rest) = some (content, rest) := by
  induction content with
  | nil => exact contentBefore_of_startsClosing hrest
  | cons c content ih =>
    obtain ⟨more, hmore⟩ : ∃ more, rest = '<' :: more := by
      obtain ⟨blanks, after, rfl, -⟩ := hrest
      exact ⟨_, rfl⟩
    have hfirst : ¬StartsClosing keyword (c :: content ++ rest) := fun hstarts =>
      h (holdsClosing_cons.mpr (.inl (startsClosing_of_append hkeyword (hmore ▸ hstarts))))
    have hinside : ¬HoldsClosing keyword content := fun hholds =>
      h (holdsClosing_cons.mpr (.inr hholds))
    rw [List.cons_append] at hfirst ⊢
    rw [contentBefore_cons hfirst, ih hinside]
    rfl

/-- Content holds no closing tag, and one follows it. -/
theorem contentBefore_spec {cs content after : List Char}
    (h : contentBefore keyword cs = some (content, after)) :
    cs = content ++ after ∧ ¬HoldsClosing keyword content ∧ StartsClosing keyword after := by
  induction cs generalizing content with
  | nil => cases h
  | cons c cs ih =>
    by_cases hcloses : StartsClosing keyword (c :: cs)
    · rw [contentBefore_of_startsClosing hcloses] at h
      obtain ⟨rfl, rfl⟩ := Prod.mk.inj (Option.some.inj h)
      refine ⟨rfl, ?_, hcloses⟩
      rintro ⟨before, rest, htext, blanks, after, rfl, -⟩
      simp at htext
    · rw [contentBefore_cons hcloses] at h
      obtain ⟨⟨more, rest⟩, hmore, heq⟩ := Option.map_eq_some_iff.mp h
      obtain ⟨rfl, rfl⟩ := Prod.mk.inj heq
      obtain ⟨rfl, hmore, hrest⟩ := ih hmore
      refine ⟨rfl, fun hholds => ?_, hrest⟩
      rcases holdsClosing_cons.mp hholds with hstarts | hholds
      · exact hcloses (hstarts.append _)
      · exact hmore hholds

/-- A closing tag at the front of a text is over where the text has the end of a tag. -/
lemma StartsClosing.of_append (hkeyword : '>' ∉ keyword) {cs more : List Char}
    (h : StartsClosing keyword (cs ++ more)) (hend : '>' ∈ cs) : StartsClosing keyword cs := by
  obtain ⟨blanks, after, htext, hblanks⟩ := h
  have hnot : '>' ∉ '<' :: '/' :: (keyword ++ blanks) := by
    have hblank : '>' ∉ blanks := fun hmem => by
      have hmark := hblanks '>' hmem
      rw [isBlank_tagEnd] at hmark
      cases hmark
    simp [hkeyword, hblank]
  have hsplit : cs ++ more = ('<' :: '/' :: (keyword ++ blanks)) ++ '>' :: after := by
    rw [htext]
    simp
  rcases List.append_eq_append_iff.mp hsplit with ⟨tail, htag, -⟩ | ⟨tail, rfl, hmore⟩
  · exact absurd (htag ▸ List.mem_append_left tail hend) hnot
  · cases tail with
    | nil =>
      rw [List.append_nil] at hend
      exact absurd hend hnot
    | cons c tail =>
      obtain rfl : '>' = c := (List.cons.inj hmore).1
      exact ⟨blanks, tail, by simp, hblanks⟩

/-- Blanks in front of a text hold no closing tag. -/
lemma HoldsClosing.of_blanks_append {blanks cs : List Char}
    (hblanks : ∀ c ∈ blanks, Text.isBlank c = true) (h : HoldsClosing keyword (blanks ++ cs)) :
    HoldsClosing keyword cs := by
  induction blanks with
  | nil => exact h
  | cons c blanks ih =>
    rw [List.forall_mem_cons] at hblanks
    rcases holdsClosing_cons.mp h with ⟨_, _, htext, -⟩ | hholds
    · obtain rfl : c = '<' := (List.cons.inj htext).1
      exact absurd hblanks.1 (by decide)
    · exact ih hblanks.2 hholds

/-- Blanks behind a text hold no closing tag. -/
lemma HoldsClosing.of_append_blanks (hkeyword : '>' ∉ keyword) {cs blanks : List Char}
    (hblanks : ∀ c ∈ blanks, Text.isBlank c = true) (h : HoldsClosing keyword (cs ++ blanks)) :
    HoldsClosing keyword cs := by
  have hmark : '>' ∉ blanks := fun hmem => by
    have hblank := hblanks '>' hmem
    rw [isBlank_tagEnd] at hblank
    cases hblank
  obtain ⟨before, rest, htext, hrest⟩ := h
  have hend : '>' ∈ rest := by
    obtain ⟨_, _, rfl, -⟩ := hrest
    simp
  rcases List.append_eq_append_iff.mp htext with ⟨tail, -, hblank⟩ | ⟨tail, rfl, rfl⟩
  · rw [hblank] at hmark
    exact absurd (List.mem_append_right tail hend) hmark
  · refine ⟨before, tail, rfl, hrest.of_append hkeyword ?_⟩
    exact (List.mem_append.mp hend).resolve_right hmark

/-- A text holds a closing tag exactly when content ends in it. -/
lemma holdsClosing_iff (keyword cs : List Char) :
    HoldsClosing keyword cs ↔ (contentBefore keyword cs).isSome = true := by
  induction cs with
  | nil =>
    constructor
    · rintro ⟨before, rest, htext, blanks, after, rfl, -⟩
      simp at htext
    · intro h
      cases h
  | cons c cs ih =>
    by_cases hstarts : StartsClosing keyword (c :: cs)
    · rw [contentBefore_of_startsClosing hstarts]
      exact iff_of_true ⟨[], c :: cs, rfl, hstarts⟩ rfl
    · rw [contentBefore_cons hstarts, Option.isSome_map, ← ih, holdsClosing_cons]
      exact or_iff_right hstarts

instance (keyword cs : List Char) : Decidable (HoldsClosing keyword cs) :=
  decidable_of_iff _ (holdsClosing_iff keyword cs).symm

end MailTemplate.Script
