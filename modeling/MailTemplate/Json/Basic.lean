import MailTemplate.Binary64.Basic
import MailTemplate.Keyed

/-!
# JSON values

Integers and binary64 numbers are kept apart, as their texts are.  An object is a list of fields,
written in the order of the list.  A text is read into objects whose fields are in the order of
their keys, each key once: `ofFields` makes such an object, the last of a repeated key winning.

`same` is equality of values: numbers compare by value within their own kind.
-/

namespace MailTemplate

/-- A JSON value. -/
inductive Json where
  | null
  | bool (value : Bool)
  | int (value : Int)
  | float (value : Binary64)
  | text (value : String)
  | array (items : List Json)
  | object (fields : List (String × Json))
  deriving Inhabited

namespace Json

/-- The object with the given fields; the last of a repeated key wins. -/
def ofFields (fields : List (String × Json)) : Json := .object (Keyed.ofList fields)

/-- The field of an object. -/
def get? (key : String) : Json → Option Json
  | .object fields => fields.lookup key
  | _ => none

mutual

/-- Equality of values: an integer and a binary64 number are never equal, two binary64 numbers are
when their values are. -/
def same : Json → Json → Bool
  | .null, .null => true
  | .bool a, .bool b => a == b
  | .int a, .int b => a == b
  | .float a, .float b => a.same b
  | .text a, .text b => a == b
  | .array xs, .array ys => sameItems xs ys
  | .object xs, .object ys => sameFields xs ys
  | _, _ => false

/-- Equality of item lists. -/
def sameItems : List Json → List Json → Bool
  | [], [] => true
  | x :: xs, y :: ys => same x y && sameItems xs ys
  | _, _ => false

/-- Equality of field lists. -/
def sameFields : List (String × Json) → List (String × Json) → Bool
  | [], [] => true
  | (k, x) :: xs, (l, y) :: ys => k == l && same x y && sameFields xs ys
  | _, _ => false

end

mutual

/-- The nesting depth: a scalar has none, an array or object one more than its deepest member. -/
def depth : Json → Nat
  | .array xs => depthItems xs + 1
  | .object fs => depthFields fs + 1
  | _ => 0

/-- The greatest depth in a list of items. -/
def depthItems : List Json → Nat
  | [] => 0
  | x :: xs => max (depth x) (depthItems xs)

/-- The greatest depth in a list of fields. -/
def depthFields : List (String × Json) → Nat
  | [] => 0
  | (_, x) :: xs => max (depth x) (depthFields xs)

end

/-- An array or an object. -/
def isContainer : Json → Bool
  | .array _ => true
  | .object _ => true
  | _ => false

end Json

end MailTemplate
