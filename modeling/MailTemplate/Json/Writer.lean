import MailTemplate.Json.Number

/-!
# Writing JSON text

The compact form has no blanks.  The indented form puts each item and each field on a line of its
own, two blanks deeper than its container, and a blank after each colon; an empty container stays
on its line.
-/

namespace MailTemplate.Json

/-- A hexadecimal digit in lower case. -/
def hexDigit (n : Nat) : Char := Nat.digitChar n

/-- A character inside quotes. -/
def escapeChar (c : Char) : List Char :=
  if c = '"' then ['\\', '"']
  else if c = '\\' then ['\\', '\\']
  else if c = '\x08' then ['\\', 'b']
  else if c = '\x0c' then ['\\', 'f']
  else if c = '\n' then ['\\', 'n']
  else if c = '\r' then ['\\', 'r']
  else if c = '\t' then ['\\', 't']
  else if c.toNat < 0x20 then
    ['\\', 'u', '0', '0', hexDigit (c.toNat / 16), hexDigit (c.toNat % 16)]
  else [c]

/-- A string in quotes. -/
def quote (s : List Char) : List Char := '"' :: (s.flatMap escapeChar ++ ['"'])

/-- An integer in decimal digits. -/
def intText (n : Int) : List Char :=
  if n < 0 then '-' :: Nat.toDigits 10 n.natAbs else Nat.toDigits 10 n.natAbs

/-- A scalar in its one form, and none for a container. -/
def scalarText? : Json → Option (List Char)
  | .null => some ['n', 'u', 'l', 'l']
  | .bool true => some ['t', 'r', 'u', 'e']
  | .bool false => some ['f', 'a', 'l', 's', 'e']
  | .int n => some (intText n)
  | .float x => some (numberLayout.chars x)
  | .text s => some (quote s.toList)
  | .array _ => none
  | .object _ => none

mutual

/-- The compact form of a value. -/
def compactChars : Json → List Char
  | .array items => '[' :: (compactItems items ++ [']'])
  | .object fields => '{' :: (compactFields fields ++ ['}'])
  | value => (scalarText? value).getD []

/-- Items with commas between them. -/
def compactItems : List Json → List Char
  | [] => []
  | [x] => compactChars x
  | x :: y :: xs => compactChars x ++ ',' :: compactItems (y :: xs)

/-- Fields with commas between them. -/
def compactFields : List (String × Json) → List Char
  | [] => []
  | [(k, x)] => quote k.toList ++ ':' :: compactChars x
  | (k, x) :: f :: fs => quote k.toList ++ ':' :: (compactChars x ++ ',' :: compactFields (f :: fs))

end

/-- A new line at a depth. -/
def newLine (depth : Nat) : List Char := '\n' :: List.replicate (2 * depth) ' '

mutual

/-- The indented form of a value that stands at `depth`. -/
def indentedChars (depth : Nat) : Json → List Char
  | .array [] => ['[', ']']
  | .array (x :: xs) =>
    '[' :: (newLine (depth + 1) ++ indentedItems (depth + 1) (x :: xs) ++ newLine depth ++ [']'])
  | .object [] => ['{', '}']
  | .object (f :: fs) =>
    '{' :: (newLine (depth + 1) ++ indentedFields (depth + 1) (f :: fs) ++ newLine depth ++ ['}'])
  | value => (scalarText? value).getD []

/-- Items, each on its line at `depth`. -/
def indentedItems (depth : Nat) : List Json → List Char
  | [] => []
  | [x] => indentedChars depth x
  | x :: y :: xs =>
    indentedChars depth x ++ ',' :: (newLine depth ++ indentedItems depth (y :: xs))

/-- Fields, each on its line at `depth`. -/
def indentedFields (depth : Nat) : List (String × Json) → List Char
  | [] => []
  | [(k, x)] => quote k.toList ++ ':' :: ' ' :: indentedChars depth x
  | (k, x) :: f :: fs =>
    quote k.toList ++ ':' :: ' ' ::
      (indentedChars depth x ++ ',' :: (newLine depth ++ indentedFields depth (f :: fs)))

end

/-- The compact form of a value. -/
def compact (value : Json) : String := String.ofList (compactChars value)

/-- The indented form of a value. -/
def indented (value : Json) : String := String.ofList (indentedChars 0 value)

end MailTemplate.Json
