/-!
# Prefixes and suffixes of texts

Tests and cuts at the two ends of a text, on lists of characters.  Main statement: a text that
starts with a given head is that head followed by what `dropHead?` leaves (`dropHead?_eq_some`).
-/

namespace MailTemplate.Text

/-- What follows `head` in a text that starts with it. -/
def dropHead? : (head cs : List Char) → Option (List Char)
  | [], cs => some cs
  | _ :: _, [] => none
  | h :: hs, c :: cs => if h = c then dropHead? hs cs else none

/-- The text starts with `head`. -/
def startsWith (head cs : List Char) : Bool :=
  (dropHead? head cs).isSome

theorem dropHead?_append (head rest : List Char) : dropHead? head (head ++ rest) = some rest := by
  induction head with
  | nil => rfl
  | cons h hs ih => simp [dropHead?, ih]

theorem dropHead?_eq_some {head cs rest : List Char} (h : dropHead? head cs = some rest) :
    cs = head ++ rest := by
  induction head generalizing cs with
  | nil => simpa [dropHead?] using h
  | cons a as ih =>
    cases cs with
    | nil => simp [dropHead?] at h
    | cons c cs =>
      by_cases hac : a = c
      · simp only [dropHead?, hac, if_true] at h
        simp [hac, ih h]
      · simp [dropHead?, hac] at h

/-- What precedes `tail` in a text that ends with it. -/
def dropTail? (tail cs : List Char) : Option (List Char) :=
  (dropHead? tail.reverse cs.reverse).map List.reverse

/-- The text without any number of copies of `tail` at its end; a copy is never empty. -/
def dropTails (tail cs : List Char) : List Char :=
  (go tail.reverse cs.reverse cs.length).reverse
where
  /-- Removes copies from the front of the reversed text; the length bounds their number. -/
  go (head : List Char) : List Char → Nat → List Char
    | cs, 0 => cs
    | cs, n + 1 =>
      match dropHead? head cs with
      | some rest => go head rest n
      | none => cs

/-- The parts of a text between the characters that `isMark` accepts, empty ones included. -/
def splitOn (isMark : Char → Bool) : List Char → List (List Char)
  | [] => [[]]
  | c :: cs =>
    match splitOn isMark cs with
    | [] => [[]]
    | part :: parts => if isMark c then [] :: part :: parts else (c :: part) :: parts

/-- The first occurrence of `needle`: what stands before it, and what follows it. -/
def splitAt? (needle : List Char) : List Char → Option (List Char × List Char)
  | [] => (dropHead? needle []).map ([], ·)
  | c :: cs =>
    match dropHead? needle (c :: cs) with
    | some rest => some ([], rest)
    | none => (splitAt? needle cs).map fun (before, rest) => (c :: before, rest)

/-- The ASCII letters in lower case, all else unchanged. -/
def lowerAscii (cs : List Char) : List Char :=
  cs.map Char.toLower

/-- The first line of a text, without the carriage return that may end it. -/
def firstLine (cs : List Char) : List Char :=
  let line := cs.takeWhile (· != '\n')
  if line.length < cs.length then (dropTail? ['\r'] line).getD line else line

end MailTemplate.Text
