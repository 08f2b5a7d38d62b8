import Mathlib.Data.List.Infix
import Mathlib.Tactic
import MailTemplate.Proofs.Lists
import MailTemplate.RichText

/-!
# Escaped text

Text is escaped character by character: a character has a reference of its own, or stands for
itself.  `Markup.ByReferences` says of a table of references that it is the one used, and that a
reader of escaped text cannot go wrong with it: an ampersand stands only at the front of a
reference, and no reference is the front of another.  Then replacing each reference by its character
undoes the escaping (`ByReferences.readReferences_flatMap`).

Text in which nothing has to be escaped is taken as it stands, and line ends are replaced last, in
passes of their own.  Neither makes a difference (`RichText.escaped_eq`,
`RichText.escapedValue_eq`).

Main result: `RichText.escaped_lossless`.
-/

namespace MailTemplate

namespace Markup

/-- The references in text between tags. -/
def textReferences : List (Char × List Char) :=
  [('&', "&amp;".toList), ('<', "&lt;".toList), ('>', "&gt;".toList), ('"', "&quot;".toList),
    ('\'', "&#x27;".toList)]

/-- The references in a quoted attribute. -/
def valueReferences : List (Char × List Char) :=
  ('\n', "&#10;".toList) :: ('\r', "&#13;".toList) :: textReferences

/-- The text with each reference of a table replaced by its character, from the front on. -/
def readReferences (table : List (Char × List Char)) : List Char → List Char
  | [] => []
  | c :: cs =>
    match table.find? fun r => r.2.isPrefixOf (c :: cs) with
    | some r => r.1 :: readReferences table (cs.drop (r.2.length - 1))
    | none => c :: readReferences table cs
termination_by cs => cs.length
decreasing_by
  · rw [List.length_drop, List.length_cons]
    omega
  · exact Nat.lt_succ_self _

/-- Characters are written by the references of a table, and these can be told apart. -/
structure ByReferences (write : Char → List Char) (table : List (Char × List Char)) : Prop where
  /-- A character has a reference, or it stands for itself and is not an ampersand. -/
  mem_or_eq : ∀ c, (c, write c) ∈ table ∨ write c = [c] ∧ c ≠ '&'
  /-- A reference has an ampersand at its front and nowhere else. -/
  ampersand : ∀ r ∈ table, ∃ name, r.2 = '&' :: name ∧ '&' ∉ name
  /-- No reference is the front of another. -/
  eq_of_prefix : ∀ r ∈ table, ∀ r' ∈ table, r.2 <+: r'.2 → r = r'

/-! ### Reading -/

section Reading

variable {write : Char → List Char} {table : List (Char × List Char)}

/-- The reference at the front of a text is the only one there. -/
lemma ByReferences.find?_append (h : ByReferences write table) {r : Char × List Char}
    (hr : r ∈ table) (rest : List Char) :
    table.find? (fun r' => r'.2.isPrefixOf (r.2 ++ rest)) = some r := by
  have hfront : r.2 <+: r.2 ++ rest := List.prefix_append r.2 rest
  have hfound : (table.find? fun r' => r'.2.isPrefixOf (r.2 ++ rest)).isSome := by
    rw [List.find?_isSome]
    exact ⟨r, hr, List.isPrefixOf_iff_prefix.mpr hfront⟩
  obtain ⟨r', hr'⟩ := Option.isSome_iff_exists.mp hfound
  have hmem' : r' ∈ table := List.mem_of_find?_eq_some hr'
  have hfront' : r'.2 <+: r.2 ++ rest := by simpa using List.find?_some hr'
  -- Of two fronts of one text the shorter is the front of the longer.
  have hsame : r' = r := by
    rcases List.prefix_or_prefix_of_prefix hfront' hfront with hp | hp
    · exact h.eq_of_prefix r' hmem' r hr hp
    · exact (h.eq_of_prefix r hr r' hmem' hp).symm
  rw [hr', hsame]

/-- A reference is read as its character. -/
lemma ByReferences.readReferences_append (h : ByReferences write table) {r : Char × List Char}
    (hr : r ∈ table) (rest : List Char) :
    readReferences table (r.2 ++ rest) = r.1 :: readReferences table rest := by
  obtain ⟨name, hname, -⟩ := h.ampersand r hr
  have hfind := h.find?_append hr rest
  rw [hname, List.cons_append] at hfind ⊢
  rw [readReferences, hfind]
  simp only [hname, List.length_cons, Nat.add_sub_cancel, List.drop_left]

/-- A character that is not an ampersand is read as it stands. -/
lemma ByReferences.readReferences_cons (h : ByReferences write table) {c : Char} (hc : c ≠ '&')
    (rest : List Char) : readReferences table (c :: rest) = c :: readReferences table rest := by
  have hfind : table.find? (fun r => r.2.isPrefixOf (c :: rest)) = none := by
    rw [List.find?_eq_none]
    intro r hr hfront
    obtain ⟨name, hname, -⟩ := h.ampersand r hr
    rw [List.isPrefixOf_iff_prefix, hname, List.cons_prefix_cons] at hfront
    exact hc hfront.1.symm
  rw [readReferences, hfind]

/-- Replacing each reference by its character undoes the escaping. -/
lemma ByReferences.readReferences_flatMap (h : ByReferences write table) (cs : List Char) :
    readReferences table (cs.flatMap write) = cs := by
  induction cs with
  | nil => rw [List.flatMap_nil, readReferences]
  | cons c cs ih =>
    rw [List.flatMap_cons]
    rcases h.mem_or_eq c with hmem | ⟨hself, hc⟩
    · rw [h.readReferences_append hmem, ih]
    · rw [hself, List.singleton_append, h.readReferences_cons hc, ih]

/-- What starts with a character that a run does not have starts behind the run. -/
lemma suffix_of_notMem {c : Char} {run rest after : List Char} (hc : c ∉ run)
    (h : c :: after <:+ run ++ rest) : c :: after <:+ rest := by
  induction run with
  | nil => exact h
  | cons d run ih =>
    rw [List.cons_append, List.suffix_cons_iff] at h
    rcases h with hsame | hlater
    · rw [List.cons.injEq] at hsame
      exact absurd (hsame.1 ▸ List.mem_cons_self) hc
    · exact ih (List.not_mem_of_not_mem_cons hc) hlater

/-- Every ampersand in escaped text is the front of a reference. -/
lemma ByReferences.reference_of_suffix (h : ByReferences write table) {cs rest : List Char}
    (hrest : '&' :: rest <:+ cs.flatMap write) : ∃ r ∈ table, r.2 <+: '&' :: rest := by
  induction cs with
  | nil => exact absurd (List.suffix_nil.mp hrest) (List.cons_ne_nil _ _)
  | cons c cs ih =>
    rw [List.flatMap_cons] at hrest
    rcases h.mem_or_eq c with hmem | ⟨hself, hc⟩
    · obtain ⟨name, hname : write c = '&' :: name, hnot⟩ := h.ampersand _ hmem
      rw [hname, List.cons_append, List.suffix_cons_iff] at hrest
      rcases hrest with hhere | hlater
      · refine ⟨_, hmem, ?_⟩
        rw [hhere]
        exact hname ▸ List.prefix_append ('&' :: name) _
      · exact ih (suffix_of_notMem hnot hlater)
    · rw [hself] at hrest
      exact ih (suffix_of_notMem (by simpa using hc.symm) hrest)

end Reading

/-! ### The references in use -/

/-- Text between tags is written by its references. -/
lemma byReferences_escapeTextChar : ByReferences escapeTextChar textReferences := by
  constructor
  case mem_or_eq =>
    intro c
    by_cases hc : c ∈ '&' :: marks
    · -- a mark or an ampersand, each with its own reference
      have hreferences : ∀ c ∈ '&' :: marks, (c, escapeTextChar c) ∈ textReferences :=
        forall_mem_of_all (by decide)
      exact .inl (hreferences c hc)
    · exact .inr ⟨escapeTextChar_eq_self hc, List.ne_of_not_mem_cons hc⟩
  case ampersand => simp [textReferences]
  case eq_of_prefix => decide

/-- A quoted attribute is written by its references. -/
lemma byReferences_escapeValueChar : ByReferences escapeValueChar valueReferences := by
  constructor
  case mem_or_eq =>
    intro c
    unfold escapeValueChar
    split_ifs with hfeed hreturn
    · exact .inl (hfeed ▸ List.mem_cons_self)
    · exact .inl (hreturn ▸ List.mem_cons_of_mem _ List.mem_cons_self)
    · refine (byReferences_escapeTextChar.mem_or_eq c).imp_left fun hmem => ?_
      exact List.mem_cons_of_mem _ (List.mem_cons_of_mem _ hmem)
  case ampersand => simp [valueReferences, textReferences]
  case eq_of_prefix => decide

end Markup

namespace RichText

open Markup

/-! ### The fast way and the passes -/

/-- Text in which nothing has to be escaped is escaped to itself. -/
lemma escapeText_of_notMem {cs : List Char} (h : ∀ c ∈ cs, c ∉ '&' :: marks) :
    escapeText cs = cs := by
  have heach : ∀ c ∈ cs, escapeTextChar c = [c] := fun c hc => escapeTextChar_eq_self (h c hc)
  rw [escapeText, List.flatMap_congr heach, List.flatMap_singleton']

/-- Taking text as it stands makes no difference. -/
lemma escaped_eq (s : String) : escaped s = String.ofList (escapeText s.toList) := by
  rw [escaped]
  split
  case isTrue => rfl
  case isFalse hnone =>
    rw [escapeText_of_notMem, String.ofList_toList]
    intro c hc hmark
    exact hnone (List.any_eq_true.mpr ⟨c, hc, List.contains_iff_mem.mpr hmark⟩)

/-- Nothing is replaced in a text that does not have the character. -/
lemma replaceChar_of_notMem {c : Char} {cs : List Char} (h : c ∉ cs) (replacement : List Char) :
    replaceChar c replacement cs = cs := by
  have heach : ∀ d ∈ cs, (if d = c then replacement else [d]) = [d] := by
    intro d hd
    rw [if_neg]
    rintro rfl
    exact h hd
  rw [replaceChar, List.flatMap_congr heach, List.flatMap_singleton']

/-- A character is replaced in each part of a text. -/
lemma replaceChar_flatMap (c : Char) (replacement : List Char) (write : Char → List Char)
    (cs : List Char) : replaceChar c replacement (cs.flatMap write) =
      cs.flatMap fun d => replaceChar c replacement (write d) := List.flatMap_assoc

/-- The two passes for line ends do to an escaped character what escaping it at once does. -/
lemma replaceChar_escapeTextChar (c : Char) :
    replaceChar '\r' "&#13;".toList (replaceChar '\n' "&#10;".toList (escapeTextChar c)) =
      escapeValueChar c := by
  by_cases hfeed : c = '\n'
  · subst hfeed
    decide
  by_cases hreturn : c = '\r'
  · subst hreturn
    decide
  have hvalue : escapeTextChar c = escapeValueChar c := by
    rw [escapeValueChar, if_neg hfeed, if_neg hreturn]
  rw [hvalue, replaceChar_of_notMem (not_mem_escapeValueChar (by decide) c),
    replaceChar_of_notMem (not_mem_escapeValueChar (by decide) c)]

/-- Replacing the line ends last makes no difference. -/
lemma escapedValue_eq (s : String) : escapedValue s = String.ofList (escapeValue s.toList) := by
  have hloop : (escaped s).toList = escapeText s.toList := by
    rw [escaped_eq, String.toList_ofList]
  have hpasses : replaceChar '\r' "&#13;".toList
      (replaceChar '\n' "&#10;".toList (escapeText s.toList)) = escapeValue s.toList := by
    rw [escapeText, replaceChar_flatMap, replaceChar_flatMap, escapeValue]
    exact List.flatMap_congr fun c _ => replaceChar_escapeTextChar c
  rw [escapedValue, hloop, hpasses]

/-! ### Escaping -/

/-- A way of escaping leaves none of some marks, and nothing of the text is lost. -/
structure Lossless (escape : String → String) (marks : List Char)
    (table : List (Char × List Char)) : Prop where
  /-- No mark is left. -/
  notMem : ∀ s, ∀ m ∈ marks, m ∉ (escape s).toList
  /-- Every ampersand is the front of a reference. -/
  reference : ∀ s rest, '&' :: rest <:+ (escape s).toList → ∃ r ∈ table, r.2 <+: '&' :: rest
  /-- Replacing each reference by its character gives the text back. -/
  read : ∀ s, readReferences table (escape s).toList = s.toList
  /-- Different texts are escaped differently. -/
  injective : Function.Injective escape
  /-- What is put together is escaped part by part. -/
  append : ∀ s t, escape (s ++ t) = escape s ++ escape t

/-- Escaping character by character with references that can be told apart loses nothing. -/
lemma lossless_of_byReferences {escape : String → String} {write : Char → List Char}
    {table : List (Char × List Char)} {marks : List Char} (h : ByReferences write table)
    (hescape : ∀ s, escape s = String.ofList (s.toList.flatMap write))
    (hmarks : ∀ m ∈ marks, ∀ cs : List Char, m ∉ cs.flatMap write) :
    Lossless escape marks table := by
  have hchars : ∀ s, (escape s).toList = s.toList.flatMap write := fun s => by
    rw [hescape, String.toList_ofList]
  have hread : ∀ s, readReferences table (escape s).toList = s.toList := fun s => by
    rw [hchars, h.readReferences_flatMap]
  constructor
  case notMem => exact fun s m hm => hchars s ▸ hmarks m hm s.toList
  case reference => exact fun s rest hrest => h.reference_of_suffix (hchars s ▸ hrest)
  case read => exact hread
  case injective =>
    intro s t hsame
    have hlists : s.toList = t.toList := by rw [← hread s, hsame, hread t]
    exact String.ext hlists
  case append =>
    intro s t
    rw [hescape, String.toList_append, List.flatMap_append, String.ofList_append, ← hescape,
      ← hescape]

/-- Escaped text has no marks left, every ampersand in it starts one of its references, and
replacing these gives the text back, whatever the text looked like; in a quoted attribute this holds
of line ends too.  Both ways of escaping go part by part, so text may be taken as it stands if
nothing in it has to be escaped, and line ends may be replaced last. -/
theorem escaped_lossless :
    Lossless escaped ['<', '>', '"', '\''] textReferences ∧
      Lossless escapedValue ['<', '>', '"', '\'', '\n', '\r'] valueReferences ∧
      ∀ s, escaped s = String.ofList (escapeText s.toList) ∧
        escapedValue s = String.ofList (escapeValue s.toList) := by
  refine ⟨lossless_of_byReferences byReferences_escapeTextChar escaped_eq ?_,
    lossless_of_byReferences byReferences_escapeValueChar escapedValue_eq ?_,
    fun s => ⟨escaped_eq s, escapedValue_eq s⟩⟩
  · exact fun m hm cs => not_mem_escapeText hm cs
  · intro m hm cs
    refine not_mem_escapeValue ?_ cs
    simp only [marks, List.mem_cons, List.not_mem_nil, or_false] at hm ⊢
    tauto

/-- Text that looks escaped is escaped again. -/
example : escapedValue "&lt;\n" = "&amp;lt;&#10;" := by decide

end RichText

end MailTemplate
