import MailTemplate.Attribute.Keys
import MailTemplate.Document.IdSource
import MailTemplate.Grid

/-!
# Drafts

A draft is a document without ids and with widths only where they matter.  Building it gives every
node a fresh id, in document order, and every column its width.
-/

namespace MailTemplate

/-- A block without id. -/
structure BlockDraft where
  kind : BlockKind
  content : Option String := none
  attributes : Attributes := {}

/-- A column without id; its width may be left open. -/
structure ColumnDraft where
  units : Option Nat := none
  attributes : Attributes := {}
  blocks : List BlockDraft := []

/-- A row without id. -/
structure RowDraft where
  role : Option RowRole := none
  attributes : Attributes := {}
  container : Attributes := {}
  columns : List ColumnDraft := []

/-- A document whose rows are drafts. -/
structure Draft where
  /-- The document without its rows. -/
  frame : Document
  rows : List RowDraft := []

namespace BlockDraft

/-- A text. -/
def text (html : String) : BlockDraft := { kind := .text, content := some html }

/-- A heading of a level. -/
def heading (level text : String) : BlockDraft :=
  { kind := .heading, content := some text, attributes := .ofList [("level", .text level)] }

/-- An image with its alternative text. -/
def image (src alt : String) : BlockDraft :=
  { kind := .image, attributes := .ofList [("src", .text src), ("alt", .text alt)] }

/-- A button with its target. -/
def button (label href : String) : BlockDraft :=
  { kind := .button, content := some label, attributes := .ofList [("href", .text href)] }

/-- A link with its target. -/
def link (label href : String) : BlockDraft :=
  { kind := .link, content := some label, attributes := .ofList [("href", .text href)] }

/-- A divider. -/
def divider : BlockDraft := { kind := .divider }

/-- A spacer of a height. -/
def spacer (height : Binary64) : BlockDraft :=
  { kind := .spacer, attributes := .ofList [("height", .number height)] }

/-- Links to social platforms. -/
def socials (links : Json) : BlockDraft :=
  { kind := .socials, attributes := .ofList [("socialLinks", .json links)] }

/-- A table of rows. -/
def table (rows : Json) : BlockDraft :=
  { kind := .table, attributes := .ofList [("rows", .json rows)] }

/-- A list of items, numbered or not. -/
def list (items : Json) (ordered : Bool) : BlockDraft :=
  { kind := .list, attributes := .ofList [("items", .json items), ("ordered", .bool ordered)] }

/-- The block with a fresh id. -/
def build (draft : BlockDraft) (ids : IdSource) : Block × IdSource :=
  let (id, ids) := ids.next "block"
  ({ id, kind := draft.kind, content := draft.content, attributes := draft.attributes }, ids)

end BlockDraft

/-- The column with fresh ids and a width. -/
def ColumnDraft.build (draft : ColumnDraft × Nat) (ids : IdSource) : Column × IdSource :=
  let (id, ids) := ids.next "column"
  let (blocks, ids) := IdSource.makeAll BlockDraft.build draft.1.blocks ids
  ({ id, units := draft.2, attributes := draft.1.attributes, blocks }, ids)

/-- The row with fresh ids; without columns it gets an empty one. -/
def RowDraft.build (draft : RowDraft) (ids : IdSource) : Row × IdSource :=
  let columns := if draft.columns.isEmpty then [{}] else draft.columns
  let units := Grid.assign (columns.map ColumnDraft.units)
  let (id, ids) := ids.next "row"
  let (columns, ids) := IdSource.makeAll ColumnDraft.build (columns.zip units) ids
  ({ id, role := draft.role, attributes := draft.attributes, container := draft.container,
     columns }, ids)

/-- The document of a draft.  No node gets the id of the document. -/
def Draft.build (draft : Draft) : Document :=
  let ids : IdSource := { taken := [draft.frame.id] }
  { draft.frame with rows := (IdSource.makeAll RowDraft.build draft.rows ids).1 }

end MailTemplate
