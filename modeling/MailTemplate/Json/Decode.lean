import MailTemplate.Json.Basic

/-!
# Decoding JSON values

Readers of records and of their single fields.  A record is an object, or the list of its values in
the order of its fields.  A required field must be there; an optional one may be missing or null; a
list must hold readable items only.
-/

namespace MailTemplate.Json

/-- A text. -/
def text? : Json → Option String
  | .text s => some s
  | _ => none

/-- A name out of a closed vocabulary: a text, or the only key of an object, over null. -/
def name? : Json → Option String
  | .text s => some s
  | .object [(s, .null)] => some s
  | _ => none

/-- A natural number up to a limit. -/
def natUpTo? (limit : Nat) : Json → Option Nat
  | .int n => if 0 ≤ n ∧ n ≤ limit then some n.toNat else none
  | _ => none

/-- An array of readable items. -/
def list? {α : Type} (read : Json → Option α) : Json → Option (List α)
  | .array items => items.mapM read
  | _ => none

/-- A record as an object: itself, or the values of a list under the first of the given keys. -/
def record? (keys : List String) : Json → Option Json
  | .object fields => some (.object fields)
  | .array items => if items.length ≤ keys.length then some (.object (keys.zip items)) else none
  | _ => none

/-- A required field. -/
def field? {α : Type} (key : String) (read : Json → Option α) (j : Json) : Option α :=
  (j.get? key).bind read

/-- An optional field, which may be missing or null. -/
def optional? {α : Type} (key : String) (read : Json → Option α) (j : Json) :
    Option (Option α) :=
  match j.get? key with
  | none => some none
  | some .null => some none
  | some v => (read v).map some

/-- A field that may be missing, and then has a given value. -/
def fieldOr? {α : Type} (key : String) (read : Json → Option α) (default : α) (j : Json) :
    Option α :=
  match j.get? key with
  | none => some default
  | some v => read v

end MailTemplate.Json
