import MailTemplate.Attribute.Keys
import MailTemplate.Attribute.Numbers
import MailTemplate.Document.Width
import MailTemplate.Json.Reader
import MailTemplate.Script.Tree

/-!
# From written values to attribute values

An attribute of a script becomes one entry of a bag, or four when its key takes a box shorthand and
its value is a list of one to four numbers.  Bare words are typed: truth values and finite numbers
are what they look like, all else is text.
-/

namespace MailTemplate.Script

-- powers are those of the core library, whatever else is imported
attribute [local instance (high)] instPowNat

/-- A bare word as a value. -/
def bareValue (raw : String) : AttributeValue :=
  if raw = "true" then .bool true
  else if raw = "false" then .bool false
  else
    match Binary64.ofText? raw with
    | some x => if x.isFinite then .number x else .text raw
    | none => .text raw

/-- The sides that a value gives a key, if it takes a box shorthand and the value is one. -/
def boxSides? (key raw : String) : Option (List (String × AttributeValue)) :=
  if boxKeys.contains key then do
    let numbers ← numberList? raw
    let sides ← Sides.ofList? numbers
    return (sides.entries key).map fun (k, x) => (k, .number x)
  else none

/-- The entries that a value makes under a key. -/
def convert (key : String) (value : RawValue) :
    Except Json.Error (List (String × AttributeValue)) :=
  match value with
  | .structured raw => do
    let json ← Json.parse raw
    return [(key, .json json)]
  | .html raw => .ok [(key, .text raw)]
  | .bare raw => .ok ((boxSides? key raw).getD [(key, bareValue raw)])
  | .quoted raw => .ok ((boxSides? key raw).getD [(key, .text raw)])

/-- The level of headings that name none or an unknown one. -/
def defaultLevel : String := "h2"

/-- A heading level: a number from one to five, with or without the letter. -/
def headingLevel (raw : String) : String :=
  let lower := Text.lowerAscii raw.toList
  let digits := (Text.dropHead? ['h'] lower).getD lower
  match Text.wholeNumber? 255 digits with
  | some n => if 1 ≤ n ∧ n ≤ 5 then "h" ++ toString n else defaultLevel
  | none => defaultLevel

/-- A column width: a percentage above zero and up to one hundred, or a number of grid units. -/
def columnWidth? (raw : String) : Option Nat :=
  let text := Text.trim raw.toList
  match Text.dropTail? ['%'] text with
  | some percent => do
    let x ← Binary64.read? (Text.trim percent)
    if Binary64.lt 0 x && x.le hundred then some (percentToUnits x) else none
  | none => do
    let n ← Text.wholeNumber? 255 text
    if 1 ≤ n ∧ n ≤ gridUnits then some n else none

/-- The width of a document: a positive number of pixels, with or without unit. -/
def documentWidth? (raw : String) : Option Nat := do
  let n ← Text.wholeNumber? (2 ^ (32 : Nat) - 1) (Text.dropTails ['p', 'x'] (Text.trim raw.toList))
  if 0 < n then some n else none

/-- The key of a container attribute that a row's key stands for: what follows the word
`container`, its first letter in lower case. -/
def containerKey? (key : String) : Option String :=
  match Text.dropHead? "container".toList key.toList with
  | some (c :: rest) => some (String.ofList (c.toLower :: rest))
  | _ => none

end MailTemplate.Script
