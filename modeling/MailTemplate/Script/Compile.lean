import MailTemplate.Document.IdSource
import MailTemplate.Grid
import MailTemplate.Script.Convert

/-!
# From scripts to documents

A tree becomes a document when its elements stand where they belong: rows at the top or in the one
EMAIL element, columns in rows, blocks in columns.  Explicit ids are reserved before any id is
generated, so the two never meet.  The first fault in document order is reported.
-/

namespace MailTemplate.Script

/-- A cause at a span. -/
structure CompileFault where
  cause : Cause
  span : Span
  deriving DecidableEq, Repr

/-- What a script may leave out. -/
structure Defaults where
  documentId : Option String := none
  backgroundColor : Option String := none
  linkColor : Option String := none
  fontFamily : Option String := none
  deriving DecidableEq, Repr

/-- The document that a script starts from. -/
def Defaults.document (defaults : Defaults) : Document :=
  let base : Document := { id := defaults.documentId.getD "email" }
  { base with
    backgroundColor := defaults.backgroundColor.getD base.backgroundColor
    linkColor := defaults.linkColor.getD base.linkColor
    fontFamily := defaults.fontFamily.getD base.fontFamily }

/-! ### Ids -/

/-- The id that a node gives itself: its first `id` attribute.  The root's id names the document and
is not one of its nodes. -/
def Node.explicitId? (node : Node) : Option Attribute :=
  if node.element = .email then none else node.attribute? "id"

mutual

/-- The explicit ids of a node and of all nodes in it, in document order. -/
def Node.explicitIds : Node → List Attribute
  | .mk element attributes body span =>
    ((Node.mk element attributes body span).explicitId?).toList ++ body.explicitIds

/-- The explicit ids of all nodes in a body. -/
def Body.explicitIds : Body → List Attribute
  | .empty => []
  | .children nodes => explicitIdsOf nodes
  | .content _ => []

/-- The explicit ids of nodes and of all nodes in them. -/
def explicitIdsOf : List Node → List Attribute
  | [] => []
  | node :: nodes => node.explicitIds ++ explicitIdsOf nodes

end

/-- Reserves ids one after the other; a repeated one is a fault. -/
def reserveAll (ids : IdSource) : List Attribute → Except CompileFault IdSource
  | [] => .ok ids
  | a :: rest =>
    match ids.reserve a.value.text with
    | (true, ids) => reserveAll ids rest
    | (false, _) => .error ⟨.duplicateId a.value.text, a.span⟩

/-- The id of a node: its own, or else a fresh one. -/
def Node.takeId (node : Node) (stem : String) (ids : IdSource) : String × IdSource :=
  match node.attribute? "id" with
  | some a => (a.value.text, ids)
  | none => ids.next stem

/-! ### Attributes -/

/-- The entries of an attribute under a key. -/
def entriesOf (key : String) (a : Attribute) :
    Except CompileFault (List (String × AttributeValue)) :=
  match convert key a.value with
  | .ok entries => .ok entries
  | .error e => .error ⟨.invalidJson key e, a.span⟩

/-- The nodes in an element that holds other elements. -/
def Node.members (node : Node) : Except CompileFault (List Node) :=
  match node.body with
  | .empty => .ok []
  | .children nodes => .ok nodes
  | .content _ => .error ⟨.textContent node.element, node.span⟩

/-- One attribute of the root. -/
def setDocumentField (d : Document) (a : Attribute) : Except CompileFault Document :=
  let text := a.value.text
  match a.key with
  | "id" => .ok { d with id := text }
  | "name" => .ok { d with name := text }
  | "previewText" => .ok { d with previewText := text }
  | "preview" => .ok { d with previewText := text }
  | "fontFamily" => .ok { d with fontFamily := text }
  | "width" =>
    match documentWidth? text with
    | some width => .ok { d with width }
    | none => .error ⟨.invalidEmailWidth text, a.span⟩
  | "color" => .ok { d with color := text }
  | "backgroundColor" => .ok { d with backgroundColor := text }
  | "rowBackgroundColor" => .ok { d with rowBackgroundColor := text }
  | "linkColor" => .ok { d with linkColor := text }
  | "styleVariant" => .ok { d with variant := StyleVariant.ofName? text }
  | "variant" => .ok { d with variant := StyleVariant.ofName? text }
  | "theme" => .ok { d with theme := some text }
  | _ => .ok d

/-- One attribute of a block. -/
def setBlockField (block : Block) (a : Attribute) : Except CompileFault Block :=
  if a.key = "id" then .ok block
  else if a.key = "content" then .ok { block with content := some a.value.text }
  else if a.key = "level" ∧ block.kind = .heading then
    .ok { block with
      attributes := block.attributes.set "level" (.text (headingLevel a.value.text)) }
  else do
    let entries ← entriesOf a.key a
    return { block with attributes := block.attributes.setAll entries }

/-- One attribute of a column; the width is kept beside the column until its row is complete. -/
def setColumnField (acc : Column × Option Nat) (a : Attribute) :
    Except CompileFault (Column × Option Nat) :=
  let (column, width) := acc
  if a.key = "id" then .ok (column, width)
  else if a.key = "width" then
    match columnWidth? a.value.text with
    | some units => .ok (column, some units)
    | none => .error ⟨.invalidColumnWidth a.value.text, a.span⟩
  else do
    let entries ← entriesOf a.key a
    return ({ column with attributes := column.attributes.setAll entries }, width)

/-- One attribute of a row. -/
def setRowField (row : Row) (a : Attribute) : Except CompileFault Row :=
  if a.key = "id" then .ok row
  else if a.key = "type" then .ok { row with role := some (RowRole.ofName a.value.text) }
  else
    match containerKey? a.key with
    | some key => do
      let entries ← entriesOf key a
      return { row with container := row.container.setAll entries }
    | none => do
      let entries ← entriesOf a.key a
      return { row with attributes := row.attributes.setAll entries }

/-! ### Nodes -/

/-- The block of a node. -/
def compileBlock (ids : IdSource) (node : Node) : Except CompileFault (Block × IdSource) :=
  match node.element with
  | .block kind => do
    let (id, ids) := node.takeId "block" ids
    let block ← node.attributes.foldlM setBlockField { id, kind }
    match node.body with
    | .empty => return (block, ids)
    | .content text =>
      return (if text = "" then block else { block with content := some text }, ids)
    | .children _ => .error ⟨.nestedElements kind, node.span⟩
  | element => .error ⟨.notBlock element, node.span⟩

/-- The blocks of nodes, one after the other. -/
def compileBlocks (ids : IdSource) : List Node → Except CompileFault (List Block × IdSource)
  | [] => .ok ([], ids)
  | node :: nodes => do
    let (block, ids) ← compileBlock ids node
    let (blocks, ids) ← compileBlocks ids nodes
    return (block :: blocks, ids)

/-- The column of a node, with its declared width. -/
def compileColumn (ids : IdSource) (node : Node) :
    Except CompileFault ((Column × Option Nat) × IdSource) := do
  if node.element ≠ .column then throw ⟨.notColumn node.element, node.span⟩
  let (id, ids) := node.takeId "column" ids
  let start : Column := { id, units := gridUnits }
  let (column, width) ← node.attributes.foldlM setColumnField (start, none)
  let (blocks, ids) ← compileBlocks ids (← node.members)
  return (({ column with blocks }, width), ids)

/-- The columns of nodes, one after the other. -/
def compileColumns (ids : IdSource) :
    List Node → Except CompileFault (List (Column × Option Nat) × IdSource)
  | [] => .ok ([], ids)
  | node :: nodes => do
    let (column, ids) ← compileColumn ids node
    let (columns, ids) ← compileColumns ids nodes
    return (column :: columns, ids)

/-- Columns with the widths that their declared ones come to. -/
def fitColumns (declared : List (Column × Option Nat)) : List Column :=
  List.zipWith (fun c units => { c.1 with units }) declared
    (Grid.assign (declared.map Prod.snd))

/-- The row of a node; one without columns gets an empty one. -/
def compileRow (ids : IdSource) (node : Node) : Except CompileFault (Row × IdSource) := do
  if node.element ≠ .row then throw ⟨.notRow node.element, node.span⟩
  let (id, ids) := node.takeId "row" ids
  let row ← node.attributes.foldlM setRowField { id }
  let members ← node.members
  if gridUnits < members.length then throw ⟨.tooManyColumns members.length, node.span⟩
  let (declared, ids) ← compileColumns ids members
  if declared.isEmpty then
    let (id, ids) := ids.next "column"
    return ({ row with columns := [{ id, units := gridUnits }] }, ids)
  else return ({ row with columns := fitColumns declared }, ids)

/-- The rows of nodes, one after the other. -/
def compileRows (ids : IdSource) : List Node → Except CompileFault (List Row × IdSource)
  | [] => .ok ([], ids)
  | node :: nodes => do
    let (row, ids) ← compileRow ids node
    let (rows, ids) ← compileRows ids nodes
    return (row :: rows, ids)

/-- The nodes at the top level after the first, all of which are rows. -/
def compileTop (d : Document) (ids : IdSource) : List Node → Except CompileFault Document
  | [] => .ok d
  | node :: nodes =>
    match node.element with
    | .row => do
      let (row, ids) ← compileRow ids node
      compileTop { d with rows := d.rows ++ [row] } ids nodes
    | .email => .error ⟨.lateEmail, node.span⟩
    | element => .error ⟨.outsideRow element, node.span⟩

/-- The nodes at the top level, of which the first may be the root. -/
def compileNodes (d : Document) (ids : IdSource) : List Node → Except CompileFault Document
  | [] => .ok d
  | node :: nodes =>
    if node.element = .email then do
      let d ← node.attributes.foldlM setDocumentField d
      let (rows, ids) ← compileRows ids (← node.members)
      compileTop { d with rows := d.rows ++ rows } ids nodes
    else compileTop d ids (node :: nodes)

/-- The tag form has a single root; the brace form may go without. -/
def checkRoot (source : List Char) (tree : Tree) : Except CompileFault Unit :=
  match tree.form, tree.nodes with
  | .brace, _ => .ok ()
  | .tag, [] => .error ⟨.missingRoot, ⟨0, Text.utf8Size source⟩⟩
  | .tag, [node] => if node.element = .email then .ok () else .error ⟨.severalRoots, node.span⟩
  | .tag, node :: _ => .error ⟨.severalRoots, node.span⟩

/-- The document of a tree. -/
def Tree.compile (source : List Char) (defaults : Defaults) (tree : Tree) :
    Except CompileFault Document := do
  let ids ← reserveAll {} (explicitIdsOf tree.nodes)
  checkRoot source tree
  compileNodes defaults.document ids tree.nodes

/-- The document of a source, or its first error. -/
def compileWith (defaults : Defaults) (source : String) : Except Error Document := do
  let chars := source.toList
  let tree ← Tree.ofSource chars
  match tree.compile chars defaults with
  | .ok d => return d
  | .error fault => .error (Error.located chars fault.cause fault.span fault.span)

/-- The document of a source without defaults of its own. -/
def compile (source : String) : Except Error Document := compileWith {} source

end MailTemplate.Script
