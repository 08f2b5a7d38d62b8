import MailTemplate.Json.Number
import MailTemplate.Text.Affix

/-!
# Reading JSON text

A recursive reader on lists of characters.  Each function takes the text that is left and returns a
value with the text after it, or the first fault.  Arrays and objects may be nested 127 deep.
-/

namespace MailTemplate.Json

/-- The deepest nesting that is read. -/
def maxDepth : Nat := 127

/-- The four blanks between the parts of a JSON text. -/
def isGap (c : Char) : Bool := c == ' ' || c == '\n' || c == '\t' || c == '\r'

/-- The text after its leading blanks. -/
def skipGap (cs : List Char) : List Char := cs.dropWhile isGap

/-! ### Strings -/

/-- The value of a hexadecimal digit. -/
def hexValue? (c : Char) : Option Nat :=
  if '0' ≤ c ∧ c ≤ '9' then some (c.toNat - '0'.toNat)
  else if 'a' ≤ c ∧ c ≤ 'f' then some (c.toNat - 'a'.toNat + 10)
  else if 'A' ≤ c ∧ c ≤ 'F' then some (c.toNat - 'A'.toNat + 10)
  else none

/-- Four hexadecimal digits.  The four bytes after the escape count as read even if they are not
digits, and the whole text if there are fewer. -/
def readHex (cs : List Char) : Except Fault (Nat × List Char) :=
  if Text.utf8Size cs < 4 then .error ⟨.endInString, cs, Text.utf8Size cs⟩
  else
    match cs with
    | a :: b :: c :: d :: rest =>
      match hexValue? a, hexValue? b, hexValue? c, hexValue? d with
      | some a, some b, some c, some d => .ok (((a * 16 + b) * 16 + c) * 16 + d, rest)
      | _, _, _, _ => .error ⟨.invalidEscape, cs, 4⟩
    | cs => .error ⟨.invalidEscape, cs, 4⟩

/-- The second half of a surrogate pair, whose first half is `high`. -/
def readLowSurrogate (high : Nat) (cs : List Char) : Except Fault (Char × List Char) :=
  match cs with
  | [] => .error (.before .endInString [])
  | '\\' :: rest =>
    match rest with
    | [] => .error (.before .endInString [])
    | 'u' :: rest => do
      let (low, after) ← readHex rest
      if low < 0xDC00 ∨ 0xDFFF < low then .error (.before .loneSurrogate after)
      else .ok (Char.ofNat (0x10000 + (high - 0xD800) * 0x400 + (low - 0xDC00)), after)
    | rest => .error (.onto .unfinishedSurrogate rest)
  | cs => .error (.onto .unfinishedSurrogate cs)

/-- An escape, after its backslash. -/
def readEscape (cs : List Char) : Except Fault (Char × List Char) :=
  match cs with
  | [] => .error (.before .endInString [])
  | '"' :: rest => .ok ('"', rest)
  | '\\' :: rest => .ok ('\\', rest)
  | '/' :: rest => .ok ('/', rest)
  | 'b' :: rest => .ok ('\x08', rest)
  | 'f' :: rest => .ok ('\x0c', rest)
  | 'n' :: rest => .ok ('\n', rest)
  | 'r' :: rest => .ok ('\r', rest)
  | 't' :: rest => .ok ('\t', rest)
  | 'u' :: rest => do
    let (n, after) ← readHex rest
    if 0xDC00 ≤ n ∧ n ≤ 0xDFFF then .error (.before .loneSurrogate after)
    else if n < 0xD800 ∨ 0xDBFF < n then .ok (Char.ofNat n, after)
    else readLowSurrogate n after
  | cs => .error (.onto .invalidEscape cs)

/-- The characters of a string, after its opening quote.  Each step reads a character or an escape,
so the length of the text bounds the steps. -/
def readString : (fuel : Nat) → List Char → Except Fault (List Char × List Char)
  | 0, cs => .error (.before .endInString cs)
  | fuel + 1, cs =>
    match cs with
    | [] => .error (.before .endInString [])
    | '"' :: rest => .ok ([], rest)
    | '\\' :: rest => do
      let (c, rest) ← readEscape rest
      let (s, rest) ← readString fuel rest
      return (c :: s, rest)
    | c :: rest =>
      if c.toNat < 0x20 then .error (.onto .controlCharacter (c :: rest))
      else do
        let (s, rest) ← readString fuel rest
        return (c :: s, rest)

/-! ### Values -/

/-- The rest of a word of letters, whose first letter has been read. -/
def readWord (value : Json) : (letters cs : List Char) → Except Fault (Json × List Char)
  | [], cs => .ok (value, cs)
  | _ :: _, [] => .error (.before .endInValue [])
  | l :: ls, c :: cs =>
    if l = c then readWord value ls cs else .error (.onto .expectedWord (c :: cs))

mutual

/-- A value, blanks before it skipped.  `depth` more levels of nesting may be opened; every step
reads a character, so the length of the text bounds `fuel`. -/
def readValue (fuel depth : Nat) (cs : List Char) : Except Fault (Json × List Char) :=
  match fuel with
  | 0 => .error (.before .tooDeep cs)
  | fuel + 1 =>
    match skipGap cs with
    | [] => .error (.before .endInValue [])
    | 'n' :: rest => readWord .null ['u', 'l', 'l'] rest
    | 't' :: rest => readWord (.bool true) ['r', 'u', 'e'] rest
    | 'f' :: rest => readWord (.bool false) ['a', 'l', 's', 'e'] rest
    | '-' :: rest => readNumber true rest
    | '"' :: rest => do
      let (s, rest) ← readString (rest.length + 1) rest
      return (.text (String.ofList s), rest)
    | '[' :: rest =>
      match depth with
      | 0 => .error (.onto .tooDeep ('[' :: rest))
      | depth + 1 => do
        let (items, rest) ← readItems fuel depth true rest
        return (.array items, rest)
    | '{' :: rest =>
      match depth with
      | 0 => .error (.onto .tooDeep ('{' :: rest))
      | depth + 1 => do
        let (fields, rest) ← readFields fuel depth true rest
        return (.ofFields fields, rest)
    | c :: rest =>
      if c.isDigit then readNumber false (c :: rest) else .error (.onto .expectedValue (c :: rest))

/-- The items of an array up to its closing bracket; `first` until an item has been read. -/
def readItems (fuel depth : Nat) (first : Bool) (cs : List Char) :
    Except Fault (List Json × List Char) :=
  match fuel with
  | 0 => .error (.before .tooDeep cs)
  | fuel + 1 =>
    match skipGap cs with
    | [] => .error (.before .endInList [])
    | ']' :: rest => .ok ([], rest)
    | c :: rest => do
      let start ← if first then pure (c :: rest)
        else if c ≠ ',' then .error (.onto .expectedListComma (c :: rest))
        else match skipGap rest with
          | [] => .error (.before .endInValue [])
          | ']' :: r => .error (.onto .trailingComma (']' :: r))
          | r => pure r
      let (item, after) ← readValue fuel depth start
      let (items, after) ← readItems fuel depth false after
      return (item :: items, after)

/-- The fields of an object up to its closing brace; `first` until a field has been read. -/
def readFields (fuel depth : Nat) (first : Bool) (cs : List Char) :
    Except Fault (List (String × Json) × List Char) :=
  match fuel with
  | 0 => .error (.before .tooDeep cs)
  | fuel + 1 =>
    match skipGap cs with
    | [] => .error (.before .endInObject [])
    | '}' :: rest => .ok ([], rest)
    | c :: rest => do
      let start ← if first then pure (c :: rest)
        else if c ≠ ',' then .error (.onto .expectedObjectComma (c :: rest))
        else match skipGap rest with
          | [] => .error (.before .endInValue [])
          | '}' :: r => .error (.onto .trailingComma ('}' :: r))
          | r => pure r
      let (key, after) ← match start with
        | '"' :: r => readString (r.length + 1) r
        | r => .error (.onto .keyNotString r)
      let after ← match skipGap after with
        | [] => .error (.before .endInObject [])
        | ':' :: r => pure r
        | r => .error (.onto .expectedColon r)
      let (value, after) ← readValue fuel depth after
      let (fields, after) ← readFields fuel depth false after
      return ((String.ofList key, value) :: fields, after)

end

/-- The value that a whole text writes, or the fault that stops the reading. -/
def readText (cs : List Char) : Except Fault Json := do
  let (value, rest) ← readValue (cs.length + 1) maxDepth cs
  match skipGap rest with
  | [] => return value
  | r => .error (.onto .trailingCharacters r)

/-- The value that a text writes. -/
def parse (s : String) : Except Error Json :=
  (readText s.toList).mapError (Error.ofFault s.toList)

end MailTemplate.Json
