import MailTemplate.Attribute.Bag
import MailTemplate.Document.Kind

/-!
# Documents

A document is a list of rows, a row a list of columns, a column a list of blocks.  Every node has an
id and a bag of attributes.  The columns of a row share a grid of twelve units.

`same` is equality of documents, attribute numbers compared by value.
-/

namespace MailTemplate

-- sums are those of the core library, whatever else is imported
attribute [local instance (high)] Zero.ofOfNat0

/-- The grid units that the columns of a row share. -/
def gridUnits : Nat := 12

/-- A content block. -/
structure Block where
  id : String
  kind : BlockKind
  content : Option String := none
  attributes : Attributes := {}

/-- A vertical slot of a row. -/
structure Column where
  id : String
  /-- The width in grid units. -/
  units : Nat
  attributes : Attributes := {}
  blocks : List Block := []

/-- A horizontal band of columns. -/
structure Row where
  id : String
  role : Option RowRole := none
  attributes : Attributes := {}
  /-- The attributes of the frame around the columns. -/
  container : Attributes := {}
  columns : List Column := []

/-- An email template. -/
structure Document where
  id : String
  name : String := "Untitled email"
  previewText : String := ""
  fontFamily : String := "Arial, Helvetica, sans-serif"
  /-- The nominal width in pixels. -/
  width : Nat := 600
  color : String := "#000000"
  backgroundColor : String := "#F4F4F5"
  rowBackgroundColor : String := "#FFFFFF"
  linkColor : String := "#8E6FF7"
  variant : Option StyleVariant := none
  /-- The colour from which the theme is derived. -/
  theme : Option String := none
  rows : List Row := []

/-- Equality of lists by a given equality of members. -/
def sameList {α : Type} (same : α → α → Bool) : List α → List α → Bool
  | [], [] => true
  | a :: as, b :: bs => same a b && sameList same as bs
  | _, _ => false

/-- Equality of blocks, attribute numbers compared by value. -/
def Block.same (a b : Block) : Bool :=
  a.id == b.id && a.kind == b.kind && a.content == b.content && a.attributes.same b.attributes

/-- Equality of columns, attribute numbers compared by value. -/
def Column.same (a b : Column) : Bool :=
  a.id == b.id && a.units == b.units && a.attributes.same b.attributes &&
    sameList Block.same a.blocks b.blocks

/-- Equality of rows, attribute numbers compared by value. -/
def Row.same (a b : Row) : Bool :=
  a.id == b.id && a.role == b.role && a.attributes.same b.attributes &&
    a.container.same b.container && sameList Column.same a.columns b.columns

namespace Row

/-- The grid units of the row's columns together. -/
def total (row : Row) : Nat := (row.columns.map Column.units).sum

end Row

namespace Document

/-- Equality of documents, attribute numbers compared by value. -/
def same (a b : Document) : Bool :=
  a.id == b.id && a.name == b.name && a.previewText == b.previewText &&
    a.fontFamily == b.fontFamily && a.width == b.width && a.color == b.color &&
    a.backgroundColor == b.backgroundColor && a.rowBackgroundColor == b.rowBackgroundColor &&
    a.linkColor == b.linkColor && a.variant == b.variant && a.theme == b.theme &&
    sameList Row.same a.rows b.rows

/-- The preset in effect. -/
def effectiveVariant (d : Document) : StyleVariant := d.variant.getD .plain

/-- All columns, in document order. -/
def columns (d : Document) : List Column := d.rows.flatMap Row.columns

/-- All blocks, in document order. -/
def blocks (d : Document) : List Block := d.columns.flatMap Column.blocks

end Document

/-! ### Ids -/

/-- The ids of a column and of its blocks. -/
def Column.ids (column : Column) : List String := column.id :: column.blocks.map Block.id

/-- The ids of a row and of all nodes in it, in document order. -/
def Row.ids (row : Row) : List String := row.id :: row.columns.flatMap Column.ids

/-- The ids of all nodes, in document order, repeated ones included. -/
def Document.ids (d : Document) : List String := d.rows.flatMap Row.ids

/-! ### Look-up by id -/

/-- The place of a block. -/
structure BlockPlace where
  row : Nat
  column : Nat
  block : Nat
  deriving DecidableEq, Repr

/-- The place of a column. -/
structure ColumnPlace where
  row : Nat
  column : Nat
  deriving DecidableEq, Repr

/-- The first place, counted from `index`, at which `find` finds something. -/
def firstPlace? {α β : Type} (find : α → Option β) : (index : Nat) → List α → Option (Nat × β)
  | _, [] => none
  | index, x :: xs =>
    match find x with
    | some y => some (index, y)
    | none => firstPlace? find (index + 1) xs

/-- The place of the first block with an id among the blocks of a column. -/
def Column.blockIndex? (column : Column) (id : String) : Option Nat :=
  column.blocks.findIdx? fun b => b.id == id

/-- The place of the first column with an id among the columns of a row. -/
def Row.columnIndex? (row : Row) (id : String) : Option Nat :=
  row.columns.findIdx? fun c => c.id == id

namespace Document

/-- The place of the first row with an id. -/
def rowIndex? (d : Document) (id : String) : Option Nat := d.rows.findIdx? fun r => r.id == id

/-- The first row with an id. -/
def row? (d : Document) (id : String) : Option Row := d.rows.find? fun r => r.id == id

/-- The place of the first column with an id. -/
def columnPlace? (d : Document) (id : String) : Option ColumnPlace :=
  (firstPlace? (fun r => r.columnIndex? id) 0 d.rows).map fun (row, column) => ⟨row, column⟩

/-- The place of the first block with an id. -/
def blockPlace? (d : Document) (id : String) : Option BlockPlace :=
  (firstPlace? (fun r => firstPlace? (fun c => c.blockIndex? id) 0 r.columns) 0 d.rows).map
    fun (row, column, block) => ⟨row, column, block⟩

/-- The block at a place, with the row that holds it. -/
def blockAt? (d : Document) (place : BlockPlace) : Option (Row × Block) := do
  let row ← d.rows[place.row]?
  let column ← row.columns[place.column]?
  let block ← column.blocks[place.block]?
  return (row, block)

/-- The first block with an id, with the row that holds it. -/
def block? (d : Document) (id : String) : Option (Row × Block) :=
  (d.blockPlace? id).bind d.blockAt?

end Document

end MailTemplate
