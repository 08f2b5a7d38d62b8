/-!
# Escaped text

Text that is put between tags or into a quoted attribute, with the characters that markup gives a
meaning written as references.  Line ends are also written as references in an attribute.

Main statements: no character that starts or ends a tag or a value is left (`not_mem_escapeText`,
`not_mem_escapeValue`), and every character without a meaning stands for itself
(`escapeTextChar_eq_self`, `escapeValueChar_eq_self`).
-/

namespace MailTemplate.Markup

/-- A character of a text between tags. -/
def escapeTextChar (c : Char) : List Char :=
  if c = '&' then "&amp;".toList
  else if c = '<' then "&lt;".toList
  else if c = '>' then "&gt;".toList
  else if c = '"' then "&quot;".toList
  else if c = '\'' then "&#x27;".toList
  else [c]

/-- A character of an attribute's value. -/
def escapeValueChar (c : Char) : List Char :=
  if c = '\n' then "&#10;".toList
  else if c = '\r' then "&#13;".toList
  else escapeTextChar c

/-- Text for a place between tags. -/
def escapeText (cs : List Char) : List Char := cs.flatMap escapeTextChar

/-- Text for a quoted attribute. -/
def escapeValue (cs : List Char) : List Char := cs.flatMap escapeValueChar

/-- The characters that markup gives a meaning between tags and in quotes, apart from the
ampersand. -/
def marks : List Char := ['<', '>', '"', '\'']

/-- A character without a meaning between tags stands for itself. -/
theorem escapeTextChar_eq_self {c : Char} (h : c ∉ '&' :: marks) : escapeTextChar c = [c] := by
  simp only [marks, List.mem_cons, List.not_mem_nil, or_false, not_or] at h
  obtain ⟨hamp, hless, hgreater, hquote, happ⟩ := h
  unfold escapeTextChar
  rw [if_neg hamp, if_neg hless, if_neg hgreater, if_neg hquote, if_neg happ]

/-- A character without a meaning in a quoted attribute stands for itself. -/
theorem escapeValueChar_eq_self {c : Char} (h : c ∉ '\n' :: '\r' :: '&' :: marks) :
    escapeValueChar c = [c] := by
  rw [List.mem_cons, List.mem_cons, not_or, not_or] at h
  obtain ⟨hfeed, hreturn, htext⟩ := h
  unfold escapeValueChar
  rw [if_neg hfeed, if_neg hreturn, escapeTextChar_eq_self htext]

theorem not_mem_escapeTextChar {m : Char} (hm : m ∈ marks) (c : Char) : m ∉ escapeTextChar c := by
  by_cases hc : c ∈ '&' :: marks
  · -- none of the five references is written with a mark
    have hreferences : (('&' :: marks).all fun c => marks.all (· ∉ escapeTextChar c)) = true := by
      decide
    exact of_decide_eq_true (List.all_eq_true.mp (List.all_eq_true.mp hreferences c hc) m hm)
  · rw [escapeTextChar_eq_self hc, List.mem_singleton]
    rintro rfl
    exact hc (List.mem_cons_of_mem _ hm)

theorem not_mem_escapeText {m : Char} (hm : m ∈ marks) (cs : List Char) : m ∉ escapeText cs := by
  simp only [escapeText, List.mem_flatMap, not_exists, not_and]
  exact fun c _ => not_mem_escapeTextChar hm c

theorem not_mem_escapeValueChar {m : Char} (hm : m ∈ '\n' :: '\r' :: marks) (c : Char) :
    m ∉ escapeValueChar c := by
  by_cases hc : c ∈ '\n' :: '\r' :: '&' :: marks
  · have hreferences : (('\n' :: '\r' :: '&' :: marks).all fun c =>
        ('\n' :: '\r' :: marks).all (· ∉ escapeValueChar c)) = true := by decide
    exact of_decide_eq_true (List.all_eq_true.mp (List.all_eq_true.mp hreferences c hc) m hm)
  · rw [escapeValueChar_eq_self hc, List.mem_singleton]
    rintro rfl
    refine hc (List.cons_subset_cons _ (List.cons_subset_cons _ ?_) hm)
    exact List.subset_cons_self _ _

theorem not_mem_escapeValue {m : Char} (hm : m ∈ '\n' :: '\r' :: marks) (cs : List Char) :
    m ∉ escapeValue cs := by
  simp only [escapeValue, List.mem_flatMap, not_exists, not_and]
  exact fun c _ => not_mem_escapeValueChar hm c

end MailTemplate.Markup
