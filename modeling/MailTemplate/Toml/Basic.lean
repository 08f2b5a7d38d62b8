import MailTemplate.Binary64.Basic

/-!
# TOML values

A TOML text is a table of named values.  Each value remembers where it was written, as the number of
characters from there to the end of the text.

Tables are written in several ways, and how one was made decides what may still be added to it: an
inline table is complete, a table of dotted keys takes more dotted keys, and a table that only
stands in the path of a header may get a header of its own.
-/

namespace MailTemplate

-- sums are those of the core library, whatever else is imported
attribute [local instance (high)] Zero.ofOfNat0

/-- How a table was made. -/
inductive Toml.Origin where
  /-- By a header of its own. -/
  | header
  /-- As part of the path of another header. -/
  | path
  /-- As part of a dotted key. -/
  | dotted
  /-- Between braces. -/
  | inline
  deriving DecidableEq, Repr

/-- A TOML value with its place. -/
inductive Toml where
  | text (left : Nat) (value : String)
  | integer (left : Nat) (value : Int)
  | float (left : Nat) (value : Binary64)
  | bool (left : Nat) (value : Bool)
  /-- A date, a time, or both. -/
  | moment (left : Nat)
  | array (left : Nat) (items : List Toml)
  | table (left : Nat) (origin : Toml.Origin) (entries : List (String × Toml))
  /-- Tables under repeated headers. -/
  | tables (left : Nat) (items : List (Nat × List (String × Toml)))

namespace Toml

/-- The number of characters from the value to the end of its text. -/
def left : Toml → Nat
  | text left _ => left
  | integer left _ => left
  | float left _ => left
  | bool left _ => left
  | moment left => left
  | array left _ => left
  | table left _ _ => left
  | tables left _ => left

/-- The entries of a table. -/
abbrev Entries := List (String × Toml)

/-- A key with its place. -/
structure Key where
  name : String
  left : Nat
  deriving DecidableEq, Repr

/-- The entries with the value under a key replaced. -/
def replace (key : String) (value : Toml) (entries : Entries) : Entries :=
  entries.map fun e => if e.1 = key then (key, value) else e

/-- Changes the table at the end of a path, which is given its origin and its entries.  Tables that
are missing on the way are made; `origin` is theirs.  None if something on the way is no table that
may be added to. -/
def changeAt (origin : Origin) (change : Origin → Entries → Option Entries) :
    (path : List Key) → Origin → Entries → Option Entries
  | [], own, entries => change own entries
  | key :: path, _, entries =>
    match entries.lookup key.name with
    | none =>
      (changeAt origin change path origin []).map fun es =>
        entries ++ [(key.name, .table key.left origin es)]
    | some (.table left own es) =>
      if own = .inline ∨ (origin = .dotted ∧ own = .header) then none
      else
        (changeAt origin change path own es).map fun es =>
          replace key.name (.table left own es) entries
    | some (.tables left items) =>
      match items.reverse with
      | [] => none
      | (l, es) :: before =>
        (changeAt origin change path .header es).map fun es =>
          replace key.name (.tables left ((l, es) :: before).reverse) entries
    | some _ => none

/-- Adds a value under a dotted key; none if the key is taken. -/
def insert (path : List Key) (key : Key) (value : Toml) (own : Origin) (entries : Entries) :
    Option Entries :=
  changeAt .dotted
    (fun origin es =>
      if (origin = .dotted) ↔ path = [] then none
      else if (es.lookup key.name).isSome then none
      else some (es ++ [(key.name, value)]))
    path own entries

/-- Opens the table of a header, `left` characters before the end; none if there is one already. -/
def openTable (path : List Key) (key : Key) (left : Nat) (root : Entries) : Option Entries :=
  changeAt .path
    (fun _ es =>
      match es.lookup key.name with
      | none => some (es ++ [(key.name, .table left .header [])])
      | some (.table _ .path inner) =>
        some ((es.filter fun e => e.1 != key.name) ++ [(key.name, .table left .header inner)])
      | some _ => none)
    path .header root

/-- Opens one more table of a repeated header; none if the key is taken by anything else. -/
def openItem (path : List Key) (key : Key) (left : Nat) (root : Entries) : Option Entries :=
  changeAt .path
    (fun _ es =>
      match es.lookup key.name with
      | none => some (es ++ [(key.name, .tables left [(left, [])])])
      | some (.tables first items) =>
        some (replace key.name (.tables first (items ++ [(left, [])])) es)
      | some _ => none)
    path .header root

/-- Adds a value under a dotted key to the table of the last header. -/
def insertUnder (header path : List Key) (key : Key) (value : Toml) (root : Entries) :
    Option Entries :=
  changeAt .path (fun own es => insert path key value own es) header .header root

/-- A fault in a text: what is left of it from there on. -/
structure Fault where
  rest : List Char

/-- The place of a fault or a value, as a line and a column, both counted from one.  The end of a
text is a column of its last line.  Before a character that is not ASCII, columns count bytes. -/
def placeOf (source : List Char) (left : Nat) : Nat × Nat :=
  match source with
  | [] => (1, 1)
  | _ =>
    let beyond := if left = 0 then 1 else 0
    let index := source.length - max left 1
    let before := source.take index
    let line := (before.filter (· == '\n')).length
    let start := (before.reverse.takeWhile (· != '\n')).reverse
    let bytes := (start.map Char.utf8Size).sum
    let here := (source[index]?.map Char.utf8Size).getD 1
    let column := if beyond = 0 ∧ 1 < here then bytes else start.length
    (line + 1, column + beyond + 1)

end Toml

end MailTemplate
