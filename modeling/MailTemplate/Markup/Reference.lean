import MailTemplate.Json.Reader
import MailTemplate.Markup.NamedCharacters

/-!
# Character references

An ampersand in markup may start a reference: a number in either base, or a name.  A name counts
with a semicolon after it; some names also count without one, and then the longest that fits is
taken.  What is no reference stands for itself.
-/

namespace MailTemplate.Markup

/-- The character that stands where none can. -/
def replacement : Char := Char.ofNat 0xFFFD

/-- The code points that the numbers from 128 to 159 stand for. -/
def highControls : List Nat :=
  [0x20AC, 0x81, 0x201A, 0x0192, 0x201E, 0x2026, 0x2020, 0x2021,
   0x02C6, 0x2030, 0x0160, 0x2039, 0x0152, 0x8D, 0x017D, 0x8F,
   0x90, 0x2018, 0x2019, 0x201C, 0x201D, 0x2022, 0x2013, 0x2014,
   0x02DC, 0x2122, 0x0161, 0x203A, 0x0153, 0x9D, 0x017E, 0x0178]

/-- The character that a number stands for. -/
def characterNumbered (n : Nat) : Char :=
  if n = 0 ∨ 0x10FFFF < n ∨ (0xD800 ≤ n ∧ n ≤ 0xDFFF) then replacement
  else if 0x80 ≤ n ∧ n ≤ 0x9F then Char.ofNat (highControls.getD (n - 0x80) n)
  else Char.ofNat n

/-- The text without a semicolon at its front. -/
def dropSemicolon : List Char → List Char
  | ';' :: rest => rest
  | cs => cs

/-- The number at the front of a text, and what follows it. -/
def readNumbered (base : Nat) (isDigit : Char → Bool) (cs : List Char) :
    Option (List Char × List Char) :=
  match cs.takeWhile isDigit with
  | [] => none
  | digits =>
    let n := digits.foldl (fun n c => n * base + (Json.hexValue? c).getD 0) 0
    some ([characterNumbered n], dropSemicolon (cs.dropWhile isDigit))

/-- The longest front of `name` that stands without a semicolon, and what is left of it.  `before`
is the front tried, in reverse order. -/
def longestUnterminated : (before after : List Char) → Option (List Char × List Char)
  | [], _ => none
  | c :: before, after =>
    let name := (c :: before).reverse
    if unterminatedNames.contains name then (charactersNamed? name).map (·, after)
    else longestUnterminated before (c :: after)

/-- The name at the front of a text.  In an attribute, a name without a semicolon does not count
before an equals sign, a letter or a digit. -/
def readNamed (inAttribute : Bool) (cs : List Char) : Option (List Char × List Char) :=
  let name := cs.takeWhile Char.isAlphanum
  let rest := cs.dropWhile Char.isAlphanum
  match if rest.head? = some ';' then charactersNamed? name else none with
  | some characters => some (characters, rest.drop 1)
  | none =>
    match longestUnterminated name.reverse [] with
    | none => none
    | some (characters, after) =>
      let next := (after ++ rest).head?
      if inAttribute && next.any fun c => c == '=' || c.isAlphanum then none
      else some (characters, after ++ rest)

/-- The reference after an ampersand: the characters that it stands for, and what follows it. -/
def readReference (inAttribute : Bool) (cs : List Char) : Option (List Char × List Char) :=
  match cs with
  | '#' :: 'x' :: rest => readNumbered 16 (fun c => (Json.hexValue? c).isSome) rest
  | '#' :: 'X' :: rest => readNumbered 16 (fun c => (Json.hexValue? c).isSome) rest
  | '#' :: rest => readNumbered 10 Char.isDigit rest
  | cs => readNamed inAttribute cs

/-- The value that the text of an attribute writes.  Every step takes a character, so the length of
the text bounds the steps. -/
def decodeValue (cs : List Char) : List Char :=
  go cs.length cs
where
  /-- The value of a text, with at most so many steps. -/
  go : Nat → List Char → List Char
    | 0, cs => cs
    | _ + 1, [] => []
    | fuel + 1, '&' :: rest =>
      match readReference true rest with
      | some (characters, after) => characters ++ go fuel after
      | none => '&' :: go fuel rest
    | fuel + 1, c :: rest => (if c = '\x00' then replacement else c) :: go fuel rest

end MailTemplate.Markup
