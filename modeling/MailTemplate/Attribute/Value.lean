import MailTemplate.Binary64.Decimal
import MailTemplate.Binary64.Reader
import MailTemplate.Json.Writer
import MailTemplate.Text.Affix
import MailTemplate.Text.Blank

/-!
# Attribute values

A value is a truth value, a number, a text or embedded JSON.  Each can be looked at as text, number
or truth value where that makes sense, and each has one form in style declarations.
-/

namespace MailTemplate

-- powers are those of the core library, whatever else is imported
attribute [local instance (high)] instPowNat

/-- The value of an attribute. -/
inductive AttributeValue where
  | bool (value : Bool)
  | number (value : Binary64)
  | text (value : String)
  /-- A structured value, such as the rows of a table. -/
  | json (value : Json)
  deriving Inhabited

/-- A number as written in style declarations; a zero has no sign. -/
def numberText (x : Binary64) : String :=
  if x.isInteger && x.abs.lt (Binary64.ofNat (10 ^ (15 : Nat))) then
    String.ofList (Json.intText (x.truncateTo (-10 ^ (15 : Nat)) (10 ^ (15 : Nat))))
  else Layout.plain.write x

namespace AttributeValue

/-- Equality of values, numbers compared by value. -/
def same : AttributeValue → AttributeValue → Bool
  | bool a, bool b => a == b
  | number a, number b => a.same b
  | text a, text b => a == b
  | json a, json b => a.same b
  | _, _ => false

/-- The text of a text value. -/
def text? : AttributeValue → Option String
  | text s => some s
  | _ => none

/-- The number of a number value, or the one that a text writes, with or without unit. -/
def number? : AttributeValue → Option Binary64
  | number x => some x
  | text s =>
    Binary64.read? (Text.trim (Text.dropTails ['p', 'x'] (Text.trim s.toList)))
  | _ => none

/-- The truth value of a truth value or of a text that names one. -/
def bool? : AttributeValue → Option Bool
  | bool b => some b
  | text s => if s = "true" then some true else if s = "false" then some false else none
  | _ => none

/-- The embedded JSON of a structured value. -/
def json? : AttributeValue → Option Json
  | json v => some v
  | _ => none

/-- The value as written in a style declaration or a markup attribute. -/
def css : AttributeValue → String
  | bool true => "true"
  | bool false => "false"
  | number x => numberText x
  | text s => s
  | json v => v.compact

/-- The value that a JSON value stands for: scalars are attribute values of their own, numbers are
binary64, and all else is embedded. -/
def ofJson : Json → AttributeValue
  | .bool b => bool b
  | .int n => number (Binary64.ofInt n)
  | .float x => number x
  | .text s => text s
  | v => json v

/-- The JSON value that stands for a value. -/
def toJson : AttributeValue → Json
  | bool b => .bool b
  | number x => .float x
  | text s => .text s
  | json v => v

end AttributeValue

end MailTemplate
