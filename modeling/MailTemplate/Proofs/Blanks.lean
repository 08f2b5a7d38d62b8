import Mathlib.Data.List.TakeWhile
import Mathlib.Tactic
import MailTemplate.Text.Blank

/-!
# Trimmed texts

Trimming takes the blanks at both ends of a text and nothing else: a text without blanks at its ends
is trimmed to itself (`trim_eq_self`), blanks around a text have no part in what it is trimmed to
(`trim_blanks_append`, `trim_append_blanks`), and only blanks are taken (`exists_trim`).
-/

namespace MailTemplate.Text

section Around

variable {blanks : List Char} (hblanks : ∀ c ∈ blanks, isBlank c = true) (cs : List Char)

include hblanks

/-- Blanks in front of a text are trimmed. -/
lemma trim_blanks_append : trim (blanks ++ cs) = trim cs := by
  rw [trim, trimLeft, List.dropWhile_append_of_pos hblanks]
  rfl

/-- Blanks behind a text are trimmed. -/
lemma trim_append_blanks : trim (cs ++ blanks) = trim cs := by
  have hright : ∀ cs : List Char, trimRight (cs ++ blanks) = trimRight cs := fun cs => by
    rw [trimRight, List.reverse_append, List.dropWhile_append_of_pos (by simpa using hblanks)]
    rfl
  rw [trim, trim, trimLeft, trimLeft, List.dropWhile_append]
  split
  · next hnil =>
    rw [List.isEmpty_iff.mp hnil, ← hright [], List.nil_append,
      List.dropWhile_eq_nil_iff.mpr hblanks]
    exact (hright []).symm
  · exact hright _

end Around

/-- A text without blanks at its ends is not trimmed. -/
lemma trim_eq_self {cs : List Char} (hfirst : ∀ c ∈ cs.head?, isBlank c = false)
    (hlast : ∀ c ∈ cs.getLast?, isBlank c = false) : trim cs = cs := by
  have hkeep : ∀ ds : List Char, (∀ c ∈ ds.head?, isBlank c = false) →
      ds.dropWhile isBlank = ds := by
    intro ds hds
    cases ds with
    | nil => rfl
    | cons c ds => exact List.dropWhile_cons_of_neg (by rw [hds c rfl]; exact Bool.false_ne_true)
  have hright : ∀ c ∈ cs.reverse.head?, isBlank c = false := by
    rw [List.head?_reverse]
    exact hlast
  rw [trim, trimLeft, hkeep cs hfirst, trimRight, hkeep cs.reverse hright, List.reverse_reverse]

/-- A text is what it is trimmed to, between blanks. -/
lemma exists_trim (cs : List Char) :
    ∃ before after, cs = before ++ trim cs ++ after ∧ ∀ c ∈ before ++ after, isBlank c = true := by
  have htaken : ∀ ds : List Char, ∀ c ∈ ds.takeWhile isBlank, isBlank c = true :=
    fun _ _ hc => List.mem_takeWhile_imp hc
  refine ⟨cs.takeWhile isBlank, ((trimLeft cs).reverse.takeWhile isBlank).reverse, ?_, ?_⟩
  · have hright : trim cs ++ ((trimLeft cs).reverse.takeWhile isBlank).reverse = trimLeft cs := by
      rw [trim, trimRight, ← List.reverse_append, List.takeWhile_append_dropWhile,
        List.reverse_reverse]
    rw [List.append_assoc, hright, trimLeft, List.takeWhile_append_dropWhile]
  · intro c hc
    rcases List.mem_append.mp hc with hbefore | hafter
    · exact htaken cs c hbefore
    · exact htaken _ c (List.mem_reverse.mp hafter)

end MailTemplate.Text
