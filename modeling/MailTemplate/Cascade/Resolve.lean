import MailTemplate.Cascade.Layers
import MailTemplate.Document.Codec
import MailTemplate.Document.Width
import MailTemplate.View

/-!
# Resolved documents

The attributes in effect at a node come from its layers, the later ones on top; of them the keys
that the node accepts are kept, and bare lengths become pixels.  A document is resolved node by
node, and nothing of the result is stored in the document.
-/

namespace MailTemplate

namespace Cascade

/-- Layers put on top of each other, the last one uppermost. -/
def overlay (layers : List Attributes) : Attributes :=
  layers.foldl Attributes.merge {}

/-- Layers that only the mobile view has. -/
def onMobile (mobile : Bool) (layer : Attributes) : List Attributes :=
  if mobile then [layer] else []

/-- The layers of a block, lowest first. -/
def blockLayers (scope : Scope) (block : Block) : List Attributes :=
  [kindDefaults scope.document block] ++ onMobile scope.mobile (kindMobile block) ++
    [roleDefaults scope block.kind, variantDefaults scope block.kind,
     themeDefaults scope block.kind, ownLayer block.attributes] ++
    onMobile scope.mobile (overrideLayer block.attributes)

/-- The logo in place of the source that stands for it, on blocks that show an image. -/
def withLogo (view : View) (kind : BlockKind) (attributes : Attributes) : Attributes :=
  let showsImage := kind == .image || kind == .icon
  match view.logoUrl with
  | some url =>
    if showsImage && attributes.text? "src" == some logoSource then
      attributes.set "src" (.text url)
    else attributes
  | none => attributes

/-- The attributes in effect at a block. -/
def blockIn (view : View) (scope : Scope) (block : Block) : Attributes :=
  ((withLogo view block.kind (overlay (blockLayers scope block))).filterKeys
    block.kind.accepts).withLengths

/-- The palette of a document, if it has a theme. -/
def paletteOf (d : Document) : Option Palette := d.theme.map Palette.ofSeed

/-- The attributes in effect at a block of a row: its column is the first that holds a block with
its id. -/
def block (view : View) (d : Document) (row : Row) (block : Block) : Attributes :=
  blockIn view
    { document := d
      row
      column := row.columns.findIdx? fun c => c.blocks.any fun b => b.id == block.id
      palette := paletteOf d
      mobile := view.mobile }
    block

/-- The layers of a row, lowest first. -/
def rowLayers (view : View) (d : Document) (palette : Option Palette) (row : Row) :
    List Attributes :=
  [rowBase d] ++ onMobile view.mobile rowMobile ++
    [rowRoleDefaults row, rowVariantDefaults d row, rowThemeDefaults palette row,
     ownLayer row.attributes] ++
    onMobile view.mobile (overrideLayer row.attributes)

/-- The accepted keys of layers put on top of each other. -/
def finish (accepted : List String) (layers : List Attributes) : Attributes :=
  ((overlay layers).filterKeys accepted.contains).withLengths

/-- The attributes in effect at a row, under a palette. -/
def rowIn (view : View) (d : Document) (palette : Option Palette) (row : Row) : Attributes :=
  finish rowKeys (rowLayers view d palette row)

/-- The attributes in effect at a row. -/
def row (view : View) (d : Document) (r : Row) : Attributes := rowIn view d (paletteOf d) r

/-- The attributes in effect at the container of a row. -/
def container (view : View) (d : Document) (r : Row) : Attributes :=
  finish containerKeys
    ([containerBase d, ownLayer r.container] ++ onMobile view.mobile (overrideLayer r.container))

/-- The attributes in effect at a column of a row: its place is the first column with its id. -/
def column (view : View) (d : Document) (r : Row) (c : Column) : Attributes :=
  let scope : Scope :=
    { document := d, row := r, column := r.columnIndex? c.id, palette := none
      mobile := view.mobile }
  finish columnKeys
    ([columnBase scope, ownLayer c.attributes] ++
      onMobile view.mobile (overrideLayer c.attributes))

end Cascade

/-- A block with the attributes in effect. -/
structure ResolvedBlock where
  id : String
  kind : BlockKind
  content : Option String
  attributes : Attributes

/-- A column with the attributes in effect. -/
structure ResolvedColumn where
  id : String
  units : Nat
  /-- The width in percent. -/
  width : String
  attributes : Attributes
  blocks : List ResolvedBlock

/-- A row with the attributes in effect. -/
structure ResolvedRow where
  id : String
  /-- The name of the row's role. -/
  role : Option String
  attributes : Attributes
  container : Attributes
  columns : List ResolvedColumn

/-- A document with the attributes in effect at every node. -/
structure ResolvedDocument where
  id : String
  name : String
  previewText : String
  fontFamily : String
  /-- The width of the view in pixels. -/
  width : Nat
  color : String
  backgroundColor : String
  linkColor : String
  mobile : Bool
  palette : Option Palette
  rows : List ResolvedRow

namespace Cascade

/-- A block resolved in the column at a place of its row. -/
def resolveBlock (view : View) (scope : Scope) (b : Block) : ResolvedBlock where
  id := b.id
  kind := b.kind
  content := b.content
  attributes := blockIn view scope b

/-- A column resolved at its place in a row. -/
def resolveColumn (view : View) (d : Document) (palette : Option Palette) (r : Row)
    (place : Nat) (c : Column) : ResolvedColumn where
  id := c.id
  units := c.units
  width := c.widthText
  attributes := column view d r c
  blocks := c.blocks.map (resolveBlock view
    { document := d, row := r, column := some place, palette, mobile := view.mobile })

/-- A row resolved with all its nodes. -/
def resolveRow (view : View) (d : Document) (palette : Option Palette) (r : Row) :
    ResolvedRow where
  id := r.id
  role := r.role.map RowRole.name
  attributes := rowIn view d palette r
  container := container view d r
  columns := r.columns.zipIdx.map fun (c, place) => resolveColumn view d palette r place c

/-- A document resolved for a view. -/
def resolve (view : View) (d : Document) : ResolvedDocument where
  id := d.id
  name := d.name
  previewText := d.previewText
  fontFamily := d.fontFamily
  width := if view.mobile then view.settings.mobileWidth else d.width
  color := d.color
  backgroundColor := d.backgroundColor
  linkColor := d.linkColor
  mobile := view.mobile
  palette := paletteOf d
  rows := d.rows.map (resolveRow view d (paletteOf d))

end Cascade

/-! ### JSON forms -/

/-- The JSON form of a resolved block. -/
def ResolvedBlock.toJson (b : ResolvedBlock) : Json :=
  .object ([("id", .text b.id), ("type", .text b.kind.name)] ++
    optionalField "content" .text b.content ++ [("attributes", b.attributes.toJson)])

/-- The JSON form of a resolved column. -/
def ResolvedColumn.toJson (c : ResolvedColumn) : Json :=
  .object [("id", .text c.id), ("units", .int c.units), ("width", .text c.width),
    ("attributes", c.attributes.toJson), ("blocks", .array (c.blocks.map ResolvedBlock.toJson))]

/-- The JSON form of a resolved row. -/
def ResolvedRow.toJson (r : ResolvedRow) : Json :=
  .object ([("id", .text r.id)] ++ optionalField "type" .text r.role ++
    [("attributes", r.attributes.toJson), ("container", r.container.toJson),
     ("columns", .array (r.columns.map ResolvedColumn.toJson))])

/-- The JSON form of a resolved document. -/
def ResolvedDocument.toJson (d : ResolvedDocument) : Json :=
  .object ([("id", .text d.id), ("name", .text d.name), ("previewText", .text d.previewText),
    ("fontFamily", .text d.fontFamily), ("width", .int d.width), ("color", .text d.color),
    ("backgroundColor", .text d.backgroundColor), ("linkColor", .text d.linkColor),
    ("mobileView", .bool d.mobile)] ++ optionalField "palette" Palette.toJson d.palette ++
    [("rows", .array (d.rows.map ResolvedRow.toJson))])

end MailTemplate
