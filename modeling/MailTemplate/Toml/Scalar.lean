import MailTemplate.Binary64.Reader
import MailTemplate.Json.Reader
import MailTemplate.Text.Affix
import MailTemplate.Toml.Basic

/-!
# Keys and single values

The parts of a TOML text that hold no others: blanks and comments, quoted texts, keys, numbers,
dates and times.  Every function takes the text that is left and returns what is left after it.
-/

namespace MailTemplate.Toml

-- powers are those of the core library, whatever else is imported
attribute [local instance (high)] instPowNat

/-- A fault at the front of a text. -/
def fail {α : Type} (rest : List Char) : Except Fault α := .error ⟨rest⟩

/-! ### Blanks and ends of lines -/

/-- The blanks within a line. -/
def isGap (c : Char) : Bool := c == ' ' || c == '\t'

/-- The text after the blanks at its front. -/
def skipGap (cs : List Char) : List Char := cs.dropWhile isGap

/-- A character that may stand in a text or a comment: no control character but the tab. -/
def isPlain (c : Char) : Bool := c == '\t' || (0x20 ≤ c.toNat && c.toNat != 0x7F)

/-- The text after a line end at its front. -/
def dropLineEnd? : List Char → Option (List Char)
  | '\n' :: rest => some rest
  | '\r' :: '\n' :: rest => some rest
  | _ => none

/-- The text after a comment at its front, if there is one. -/
def skipComment : List Char → List Char
  | '#' :: rest => rest.dropWhile isPlain
  | cs => cs

/-- The text after the end of a line, a comment before it skipped; the end of the text will do. -/
def readLineEnd (cs : List Char) : Except Fault (List Char) :=
  match skipComment (skipGap cs) with
  | [] => .ok []
  | rest =>
    match dropLineEnd? rest with
    | some after => .ok after
    | none => fail rest

/-- The text after blanks, comments and line ends.  Every step takes a character, so the length of
the text bounds the steps. -/
def skipLines (cs : List Char) : List Char :=
  go cs.length cs
where
  /-- Skips at most so many lines. -/
  go : Nat → List Char → List Char
    | 0, cs => cs
    | fuel + 1, cs =>
      let rest := skipGap cs
      match dropLineEnd? (skipComment rest) with
      | some after => go fuel after
      | none => rest

/-! ### Texts -/

/-- A character by the digits of its code point. -/
def readCodePoint (count : Nat) (cs : List Char) : Except Fault (Char × List Char) :=
  let digits := (cs.take count).takeWhile fun c => (Json.hexValue? c).isSome
  let n := digits.foldl (fun n c => n * 16 + (Json.hexValue? c).getD 0) 0
  if digits.length = count ∧ n.isValidChar then .ok (Char.ofNat n, cs.drop count) else fail cs

/-- An escape, after its backslash. -/
def readEscape : List Char → Except Fault (Char × List Char)
  | 'b' :: rest => .ok ('\x08', rest)
  | 'f' :: rest => .ok ('\x0c', rest)
  | 'n' :: rest => .ok ('\n', rest)
  | 'r' :: rest => .ok ('\r', rest)
  | 't' :: rest => .ok ('\t', rest)
  | '"' :: rest => .ok ('"', rest)
  | '\\' :: rest => .ok ('\\', rest)
  | 'u' :: rest => readCodePoint 4 rest
  | 'U' :: rest => readCodePoint 8 rest
  | _ :: rest => fail rest
  | [] => fail []

/-- The rest of a text in double quotes.  Every step takes a character, so the length of the text
bounds `fuel`. -/
def readQuoted : (fuel : Nat) → List Char → Except Fault (List Char × List Char)
  | 0, cs => fail cs
  | fuel + 1, cs =>
    match cs with
    | '"' :: rest => .ok ([], rest)
    | '\\' :: rest => do
      let (c, rest) ← readEscape rest
      let (s, rest) ← readQuoted fuel rest
      return (c :: s, rest)
    | c :: rest =>
      if isPlain c then do
        let (s, rest) ← readQuoted fuel rest
        return (c :: s, rest)
      else fail (c :: rest)
    | [] => fail []

/-- The rest of a text in single quotes. -/
def readLiteral : List Char → Except Fault (List Char × List Char)
  | [] => fail []
  | c :: rest =>
    if c = '\'' then .ok ([], rest)
    else if isPlain c then do
      let (s, rest) ← readLiteral rest
      return (c :: s, rest)
    else fail (c :: rest)

/-- The text after blanks and line ends, where a backslash ends a line; none if it does not. -/
def dropLineFold? (cs : List Char) : Option (List Char) :=
  (dropLineEnd? (skipGap cs)).map fun rest => rest.dropWhile fun c =>
    isGap c || c == '\n' || c == '\r'

/-- The end of a text in three quotes: up to two quotes may stand before it. -/
def closeTriple? (quote : Char) (cs : List Char) : Option (List Char × List Char) :=
  let run := cs.takeWhile (· == quote)
  if 3 ≤ run.length then
    let extra := min (run.length - 3) 2
    some (List.replicate extra quote, cs.drop (extra + 3))
  else none

/-- The rest of a text in three quotes, which may have several lines; `escapes` if a backslash has a
meaning in it.  Every step takes a character, so the length of the text bounds `fuel`. -/
def readTriple (quote : Char) (escapes : Bool) : (fuel : Nat) → List Char →
    Except Fault (List Char × List Char)
  | 0, cs => fail cs
  | fuel + 1, cs =>
    match closeTriple? quote cs with
    | some (last, rest) => .ok (last, rest)
    | none =>
      match cs with
      | [] => fail []
      | c :: rest =>
        if escapes && c == '\\' then
          match dropLineFold? rest with
          | some rest => readTriple quote escapes fuel rest
          | none => do
            let (c, rest) ← readEscape rest
            let (s, rest) ← readTriple quote escapes fuel rest
            return (c :: s, rest)
        else
          match dropLineEnd? (c :: rest) with
          | some rest => do
            let (s, rest) ← readTriple quote escapes fuel rest
            return ('\n' :: s, rest)
          | none =>
            if isPlain c then do
              let (s, rest) ← readTriple quote escapes fuel rest
              return (c :: s, rest)
            else fail (c :: rest)

/-- A text after its opening quote. -/
def readText (quote : Char) (cs : List Char) : Except Fault (List Char × List Char) :=
  match Text.dropHead? [quote, quote] cs with
  | some rest =>
    let rest := (dropLineEnd? rest).getD rest
    readTriple quote (quote == '"') (rest.length + 1) rest
  | none => if quote = '"' then readQuoted (cs.length + 1) cs else readLiteral cs

/-! ### Keys -/

/-- A character of a key without quotes. -/
def isBare (c : Char) : Bool := c.isAlphanum || c == '-' || c == '_'

/-- A key without dots, blanks around it skipped; none where no key starts. -/
def readKey? (cs : List Char) : Except Fault (Option (Key × List Char)) := do
  let start := skipGap cs
  match start with
  | '"' :: rest =>
    let (name, rest) ← readQuoted (rest.length + 1) rest
    return some (⟨String.ofList name, start.length⟩, skipGap rest)
  | '\'' :: rest =>
    let (name, rest) ← readLiteral rest
    return some (⟨String.ofList name, start.length⟩, skipGap rest)
  | _ =>
    match start.takeWhile isBare with
    | [] => return none
    | name => return some (⟨String.ofList name, start.length⟩, skipGap (start.dropWhile isBare))

/-- The parts of a dotted key after the first.  Every step takes a point, so the length of the text
bounds `fuel`. -/
def readKeyParts : (fuel : Nat) → List Char → Except Fault (List Key × List Char)
  | 0, cs => .ok ([], cs)
  | fuel + 1, cs =>
    match cs with
    | '.' :: after => do
      match ← readKey? after with
      | none => return ([], cs)
      | some (key, rest) =>
        let (keys, rest) ← readKeyParts fuel rest
        return (key :: keys, rest)
    | _ => .ok ([], cs)

/-- The greatest number of parts of a key, and of tables and arrays in each other. -/
def nestingLimit : Nat := 79

/-- A dotted key: the keys before the last one, and the last one; none where no key starts. -/
def readPath? (cs : List Char) : Except Fault (Option ((List Key × Key) × List Char)) := do
  match ← readKey? cs with
  | none => return none
  | some (first, rest) =>
    let (keys, rest) ← readKeyParts rest.length rest
    let all := first :: keys
    if nestingLimit < all.length then fail cs
    else return some ((all.dropLast, all.getLast?.getD first), rest)

/-! ### Numbers -/

/-- Digits with single underscores between them, after the first digit. -/
def readDigits (isDigit : Char → Bool) : List Char → Except Fault (List Char × List Char)
  | [] => .ok ([], [])
  | '_' :: c :: rest =>
    if isDigit c then do
      let (ds, rest) ← readDigits isDigit rest
      return (c :: ds, rest)
    else fail (c :: rest)
  | ['_'] => fail []
  | c :: rest =>
    if isDigit c then do
      let (ds, rest) ← readDigits isDigit rest
      return (c :: ds, rest)
    else .ok ([], c :: rest)

/-- Digits with single underscores between them, at least one. -/
def readSomeDigits (isDigit : Char → Bool) (cs : List Char) :
    Except Fault (List Char × List Char) :=
  match cs with
  | c :: rest =>
    if isDigit c then do
      let (ds, rest) ← readDigits isDigit rest
      return (c :: ds, rest)
    else fail cs
  | [] => fail []

/-- The whole part of a number, without leading zeros. -/
def readWhole (cs : List Char) : Except Fault (List Char × List Char) :=
  match cs with
  | '0' :: rest => .ok (['0'], rest)
  | cs => readSomeDigits Char.isDigit cs

/-- The exponent of a number, if there is one. -/
def readExponent (cs : List Char) : Except Fault (List Char × List Char) :=
  match cs with
  | e :: rest =>
    if e == 'e' || e == 'E' then do
      let (sign, rest) := match rest with
        | '+' :: r => (['+'], r)
        | '-' :: r => (['-'], r)
        | r => ([], r)
      let (digits, rest) ← readSomeDigits Char.isDigit rest
      return ('e' :: sign ++ digits, rest)
    else .ok ([], cs)
  | [] => .ok ([], [])

/-- The fraction part of a number, if there is one. -/
def readFraction (cs : List Char) : Except Fault (List Char × List Char) :=
  match cs with
  | '.' :: rest => do
    let (digits, rest) ← readSomeDigits Char.isDigit rest
    return ('.' :: digits, rest)
  | cs => .ok ([], cs)

/-- An integer of 64 bits; `start` is the text from its front on. -/
def wholeValue (start : List Char) (negative : Bool) (n : Nat) (rest : List Char) :
    Except Fault (Toml × List Char) :=
  if n < 2 ^ (63 : Nat) + (if negative then 1 else 0) then
    .ok (.integer start.length (if negative then -(n : Int) else n), rest)
  else fail start

/-- A decimal number after its sign; `start` is the text from the sign on. -/
def readDecimal (start : List Char) (negative : Bool) (cs : List Char) :
    Except Fault (Toml × List Char) := do
  let (whole, rest) ← readWhole cs
  let (fraction, rest) ← readFraction rest
  let (exponent, rest) ← readExponent rest
  if fraction = [] ∧ exponent = [] then
    wholeValue start negative (Text.digitsValue whole) rest
  else
    match Binary64.read? ((if negative then ['-'] else []) ++ whole ++ fraction ++ exponent) with
    | some x =>
      if x.same (.infinite false) then fail start else return (.float start.length x, rest)
    | none => fail start

/-- A number in another base, after the mark of that base. -/
def readBased (start : List Char) (base : Nat) (isDigit : Char → Bool) (cs : List Char) :
    Except Fault (Toml × List Char) := do
  let (digits, rest) ← readSomeDigits isDigit cs
  wholeValue start false
    (digits.foldl (fun n c => n * base + (Json.hexValue? c).getD 0) 0) rest

/-- The digits of a base up to ten. -/
def isDigitBelow (base : Nat) (c : Char) : Bool := c.isDigit && c.toNat < '0'.toNat + base

/-- A number. -/
def readNumber (start : List Char) : Except Fault (Toml × List Char) :=
  match start with
  | '0' :: 'x' :: rest => readBased start 16 (fun c => (Json.hexValue? c).isSome) rest
  | '0' :: 'o' :: rest => readBased start 8 (isDigitBelow 8) rest
  | '0' :: 'b' :: rest => readBased start 2 (isDigitBelow 2) rest
  | _ =>
    let (negative, cs) := match start with
      | '-' :: rest => (true, rest)
      | '+' :: rest => (false, rest)
      | cs => (false, cs)
    match cs with
    | 'i' :: 'n' :: 'f' :: rest => .ok (.float start.length (.infinite negative), rest)
    | 'n' :: 'a' :: 'n' :: rest => .ok (.float start.length .nan, rest)
    | cs => readDecimal start negative cs

/-! ### Dates and times -/

/-- A number of `count` digits between two bounds. -/
def readField (count low high : Nat) (cs : List Char) : Except Fault (Nat × List Char) :=
  let digits := (cs.take count).takeWhile Char.isDigit
  let n := Text.digitsValue digits
  if digits.length = count ∧ low ≤ n ∧ n ≤ high then .ok (n, cs.drop count) else fail cs

/-- The text after a character that must stand at its front. -/
def expect (c : Char) (cs : List Char) : Except Fault (List Char) :=
  match cs with
  | d :: rest => if c = d then .ok rest else fail cs
  | [] => fail []

/-- The number of days of a month. -/
def daysIn (year month : Nat) : Nat :=
  if month = 2 then
    if year % 4 = 0 ∧ (year % 100 ≠ 0 ∨ year % 400 = 0) then 29 else 28
  else if [4, 6, 9, 11].contains month then 30
  else 31

/-- The fraction of a second, if there is one. -/
def skipFraction (cs : List Char) : List Char :=
  match cs with
  | '.' :: c :: rest => if c.isDigit then rest.dropWhile Char.isDigit else cs
  | cs => cs

/-- The rest of a time after its hour and a colon. -/
def readTimeRest (cs : List Char) : Except Fault (List Char) := do
  let (_, rest) ← readField 2 0 59 cs
  let rest ← expect ':' rest
  let (_, rest) ← readField 2 0 60 rest
  return skipFraction rest

/-- The text after the hour of a time and a colon; none where no time starts. -/
def dropHour? (cs : List Char) : Option (List Char) :=
  match readField 2 0 23 cs with
  | .ok (_, ':' :: rest) => some rest
  | _ => none

/-- The offset of a time zone, if there is one. -/
def readOffset (cs : List Char) : Except Fault (List Char) :=
  match cs with
  | c :: rest =>
    if c == 'Z' || c == 'z' then .ok rest
    else if c == '+' || c == '-' then do
      let (_, rest) ← readField 2 0 23 rest
      let rest ← expect ':' rest
      let (_, rest) ← readField 2 0 59 rest
      return rest
    else .ok cs
  | [] => .ok []

/-- The time after a date, if there is one. -/
def readDateTime (cs : List Char) : Except Fault (List Char) :=
  match cs with
  | c :: rest =>
    if c == 'T' || c == 't' || c == ' ' then
      match dropHour? rest with
      | some rest => do readOffset (← readTimeRest rest)
      | none => .ok cs
    else .ok cs
  | [] => .ok []

/-- The rest of a date after its year and a hyphen. -/
def readDateRest (year : Nat) (cs : List Char) : Except Fault (List Char) := do
  let (month, rest) ← readField 2 1 12 cs
  let rest ← expect '-' rest
  let (_, rest) ← readField 2 1 (daysIn year month) rest
  readDateTime rest

/-- A number, a date or a time. -/
def readNumeric (start : List Char) : Except Fault (Toml × List Char) :=
  match readField 4 0 9999 start, dropHour? start with
  | .ok (year, '-' :: rest), _ => do
    return (.moment start.length, ← readDateRest year rest)
  | _, some rest => do
    return (.moment start.length, ← readTimeRest rest)
  | _, none => readNumber start

end MailTemplate.Toml
