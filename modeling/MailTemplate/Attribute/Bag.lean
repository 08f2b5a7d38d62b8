import MailTemplate.Attribute.Value
import MailTemplate.Keyed

/-!
# Attribute bags

The attributes of a node: values under keys, each key at most once, in the order of the keys.
Equal contents make equal bags, since the order is part of the type.

Main statements: what setting and erasing do to a look-up (`get?_set`, `get?_erase`).
-/

namespace MailTemplate

/-- Values under keys, in the order of the keys. -/
structure Attributes where
  entries : List (String × AttributeValue)
  ordered : Keyed.Ordered entries := by exact List.Pairwise.nil

namespace Attributes

/-- The bag without entries. -/
def empty : Attributes := { entries := [] }

instance : EmptyCollection Attributes := ⟨empty⟩

instance : Inhabited Attributes := ⟨empty⟩

@[ext] theorem ext {a b : Attributes} (h : a.entries = b.entries) : a = b := by
  cases a
  cases b
  cases h
  rfl

/-- The value under a key. -/
def get? (bag : Attributes) (key : String) : Option AttributeValue := bag.entries.lookup key

/-- The text under a key, if the value is a text. -/
def text? (bag : Attributes) (key : String) : Option String :=
  (bag.get? key).bind AttributeValue.text?

/-- The value under a key as written in a style declaration. -/
def css? (bag : Attributes) (key : String) : Option String := (bag.get? key).map AttributeValue.css

/-- The bag holds the key. -/
def contains (bag : Attributes) (key : String) : Bool := (bag.get? key).isSome

/-- The number of entries. -/
def size (bag : Attributes) : Nat := bag.entries.length

/-- The bag has no entries. -/
def isEmpty (bag : Attributes) : Bool := bag.entries.isEmpty

/-- The bag with one key set. -/
def set (bag : Attributes) (key : String) (value : AttributeValue) : Attributes where
  entries := Keyed.insert key value bag.entries
  ordered := bag.ordered.insert key value

/-- The bag without one key. -/
def erase (bag : Attributes) (key : String) : Attributes where
  entries := Keyed.erase key bag.entries
  ordered := bag.ordered.erase key

/-- The bag with the entries of a list set one after the other. -/
def setAll (bag : Attributes) (new : List (String × AttributeValue)) : Attributes :=
  new.foldl (fun acc e => acc.set e.1 e.2) bag

/-- The bag with the entries of a list; the last of a repeated key wins. -/
def ofList (entries : List (String × AttributeValue)) : Attributes := empty.setAll entries

/-- Both bags together; the upper one wins on common keys. -/
def merge (lower upper : Attributes) : Attributes := lower.setAll upper.entries

/-- The entries whose key passes a test. -/
def filterKeys (bag : Attributes) (keep : String → Bool) : Attributes where
  entries := bag.entries.filter fun e => keep e.1
  ordered := bag.ordered.filter _

/-- The bag with every value changed according to its key. -/
def mapValues (bag : Attributes) (f : String → AttributeValue → AttributeValue) : Attributes where
  entries := bag.entries.map fun e => (e.1, f e.1 e.2)
  ordered := bag.ordered.mapValues f

/-- Equality of bags, values compared by `AttributeValue.same`. -/
def same (a b : Attributes) : Bool :=
  go a.entries b.entries
where
  /-- Equality of entry lists. -/
  go : List (String × AttributeValue) → List (String × AttributeValue) → Bool
    | [], [] => true
    | (k, x) :: xs, (l, y) :: ys => k == l && x.same y && go xs ys
    | _, _ => false

/-- The JSON object of a bag. -/
def toJson (bag : Attributes) : Json := .object (bag.entries.map fun e => (e.1, e.2.toJson))

@[simp] theorem get?_empty (key : String) : empty.get? key = none := rfl

@[simp] theorem get?_set (bag : Attributes) (key k : String) (value : AttributeValue) :
    (bag.set key value).get? k = if k = key then some value else bag.get? k :=
  Keyed.lookup_insert key k value bag.entries

@[simp] theorem get?_erase (bag : Attributes) (key k : String) :
    (bag.erase key).get? k = if k = key then none else bag.get? k :=
  Keyed.lookup_erase key k bag.entries

end Attributes

end MailTemplate
