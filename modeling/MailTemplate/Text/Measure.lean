/-!
# Byte measures of text

Positions in a source text are counts of UTF-8 bytes.  A text is a list of characters here, and a
position is the measure of what stands before it.  A `Span` is a half-open range of positions.

Main statements: the measure is additive (`utf8Size_append`), and cutting at the measure of a prefix
gives back that prefix (`splitBytes?_append`), so measured positions are character boundaries.
-/

namespace MailTemplate

/-- A half-open range of byte positions in a source text. -/
structure Span where
  start : Nat
  stop : Nat
  deriving DecidableEq, Repr, Inhabited

namespace Span

/-- The span as the two positions with two points between them. -/
def describe (s : Span) : String := toString s.start ++ ".." ++ toString s.stop

end Span

namespace Text

/-- The number of bytes of a text in UTF-8. -/
def utf8Size : List Char → Nat
  | [] => 0
  | c :: cs => c.utf8Size + utf8Size cs

@[simp] theorem utf8Size_nil : utf8Size [] = 0 := rfl

@[simp] theorem utf8Size_cons (c : Char) (cs : List Char) :
    utf8Size (c :: cs) = c.utf8Size + utf8Size cs := rfl

@[simp] theorem utf8Size_append (xs ys : List Char) :
    utf8Size (xs ++ ys) = utf8Size xs + utf8Size ys := by
  induction xs with
  | nil => simp
  | cons c cs ih => simp [ih, Nat.add_assoc]

/-- The text before and after byte position `n`; none unless that is a character boundary. -/
def splitBytes? : Nat → List Char → Option (List Char × List Char)
  | 0, cs => some ([], cs)
  | _ + 1, [] => none
  | n + 1, c :: cs =>
    if c.utf8Size ≤ n + 1 then
      (splitBytes? (n + 1 - c.utf8Size) cs).map fun (before, after) => (c :: before, after)
    else none

theorem splitBytes?_append (xs ys : List Char) :
    splitBytes? (utf8Size xs) (xs ++ ys) = some (xs, ys) := by
  induction xs with
  | nil => simp [splitBytes?]
  | cons c cs ih =>
    have hc : 0 < c.utf8Size := c.utf8Size_pos
    obtain ⟨n, hn⟩ : ∃ n, utf8Size (c :: cs) = n + 1 :=
      ⟨c.utf8Size + utf8Size cs - 1, by simp; omega⟩
    have hle : c.utf8Size ≤ n + 1 := by simp at hn; omega
    have hsub : n + 1 - c.utf8Size = utf8Size cs := by simp at hn; omega
    rw [hn]
    simp [splitBytes?, hle, hsub, ih]

/-- The text under a span; none unless both its ends are character boundaries in order. -/
def slice? (cs : List Char) (span : Span) : Option (List Char) := do
  let (_, after) ← splitBytes? span.start cs
  if span.stop < span.start then none
  else
    let (inside, _) ← splitBytes? (span.stop - span.start) after
    return inside

end Text

end MailTemplate
