import MailTemplate.Attribute.Keys
import MailTemplate.Attribute.Numbers
import MailTemplate.Document.Basic
import MailTemplate.Theme.Palette

/-!
# Layers of the cascade

Each layer is a bag of attributes that one source of styling brings to a node: the kind of a block,
the role of its row, the variant and the theme of the document, and the node's own attributes.  In a
later layer a key overrides the same key of the earlier ones.
-/

namespace MailTemplate.Cascade

/-- Where a node stands while it is resolved. -/
structure Scope where
  document : Document
  row : Row
  /-- The place of the node's column in its row, if it is known. -/
  column : Option Nat
  palette : Option Palette
  mobile : Bool

namespace Scope

/-- The second column of a header with two columns. -/
def isHeaderAside (scope : Scope) : Bool :=
  scope.row.role == some .header && scope.row.columns.length == 2 && scope.column == some 1

end Scope

/-- The row frames the document. -/
def isFrameRow (row : Row) : Bool := (row.role.map RowRole.isFrame).getD false

/-! ### Values -/

/-- A whole number. -/
def num (n : Nat) : AttributeValue := .number (Binary64.ofNat n)

/-- A number of tenths. -/
def tenths (n : Nat) : AttributeValue := .number (Binary64.ofDecimal false n (-1))

/-- A text. -/
def txt (s : String) : AttributeValue := .text s

/-- A colour. -/
def hue (c : Color) : AttributeValue := .text c.hex

/-- A bag from its entries. -/
def bag (entries : List (String × AttributeValue)) : Attributes := Attributes.ofList entries

/-- The colour of rules and borders. -/
def borderColor : AttributeValue := txt "#E4E4E7"

/-- The colour of secondary text. -/
def mutedText : AttributeValue := txt "#71717A"

/-! ### Kinds of blocks -/

/-- The font size of a heading level. -/
def headingSize (level : String) (mobile : Bool) : Nat :=
  match level, mobile with
  | "h1", false => 32
  | "h1", true => 26
  | "h3", false => 20
  | "h3", true => 18
  | "h4", false => 18
  | "h4", true => 16
  | "h5", false => 16
  | "h5", true => 14
  | _, false => 24
  | _, true => 20

/-- The level of a heading: the one it names, or the second. -/
def headingLevel (block : Block) : String :=
  match block.attributes.text? "level" with
  | some level => if ["h1", "h2", "h3", "h4", "h5"].contains level then level else "h2"
  | none => "h2"

/-- The typography of a document. -/
def typography (d : Document) : List (String × AttributeValue) :=
  [("fontFamily", txt d.fontFamily), ("color", txt d.color), ("fontSize", num 14),
   ("lineHeight", tenths 15)]

/-- What a kind of block brings with it. -/
def kindDefaults (d : Document) (block : Block) : Attributes :=
  match block.kind with
  | .text =>
    bag (typography d ++ [("paddingTop", num 8), ("paddingBottom", num 8), ("paddingLeft", num 8),
      ("paddingRight", num 8), ("textAlign", txt "left")])
  | .heading =>
    let level := headingLevel block
    bag (typography d ++ [("level", txt level), ("fontSize", num (headingSize level false)),
      ("fontWeight", txt "bold"), ("lineHeight", tenths 12), ("paddingTop", num 8),
      ("paddingBottom", num 8), ("textAlign", txt "left")])
  | .image =>
    bag [("width", txt "100%"), ("align", txt "center"), ("alt", txt ""), ("borderRadius", num 0)]
  | .button =>
    bag (typography d ++ [("backgroundColor", txt d.linkColor), ("color", txt "#FFFFFF"),
      ("borderRadius", num 24), ("paddingTop", num 12), ("paddingBottom", num 12),
      ("paddingLeft", num 24), ("paddingRight", num 24), ("fontWeight", txt "bold"),
      ("textAlign", txt "center"), ("align", txt "center"), ("href", txt "#")])
  | .link =>
    bag (typography d ++ [("color", txt d.linkColor), ("textDecoration", txt "underline"),
      ("align", txt "left"), ("href", txt "#")])
  | .divider =>
    bag [("borderColor", borderColor), ("borderWidth", num 1), ("borderStyle", txt "solid"),
      ("paddingTop", num 8), ("paddingBottom", num 8)]
  | .socials =>
    bag [("iconSize", num 24), ("iconStyle", txt "color"), ("spacing", num 8),
      ("align", txt "center")]
  | .survey =>
    bag (typography d ++ [("surveyType", txt "rating"), ("align", txt "center"),
      ("buttonColor", txt d.linkColor)])
  | .table =>
    bag (typography d ++ [("borderColor", borderColor), ("borderWidth", num 1),
      ("cellPadding", num 8), ("headerRow", .bool true), ("headerBackgroundColor", txt "#F4F4F5")])
  | .list =>
    bag (typography d ++ [("ordered", .bool false), ("itemSpacing", num 4),
      ("bulletColor", txt d.color)])
  | .spacer => bag [("height", num 24)]
  | .icon => bag [("width", num 32), ("align", txt "center")]

/-- What a kind of block changes on narrow screens. -/
def kindMobile (block : Block) : Attributes :=
  match block.kind with
  | .heading => bag [("fontSize", num (headingSize (headingLevel block) true))]
  | .image => bag [("width", txt "100%")]
  | .button => bag [("paddingLeft", num 16), ("paddingRight", num 16)]
  | _ => {}

/-! ### Roles of rows -/

/-- What the role of a row brings to a kind of block in it. -/
def roleEntries (role : RowRole) (kind : BlockKind) : List (String × AttributeValue) :=
  match role, kind with
  | .header, .image => [("width", num 120), ("align", txt "left")]
  | .header, .text => [("fontSize", num 12), ("textDecoration", txt "none")]
  | .header, .link => [("fontSize", num 12), ("textDecoration", txt "none")]
  | .footer, .text =>
    [("fontSize", num 12), ("color", mutedText), ("textAlign", txt "center")]
  | .footer, .link => [("fontSize", num 12), ("color", mutedText), ("align", txt "center")]
  | .footer, .socials => [("iconSize", num 20)]
  | .hero, .heading => [("textAlign", txt "center")]
  | .hero, .text => [("textAlign", txt "center")]
  | .hero, .button => [("align", txt "center")]
  | .cta, .button => [("align", txt "center")]
  | .cta, .heading => [("textAlign", txt "center")]
  | .cta, .text => [("textAlign", txt "center")]
  | .discount, .button => [("align", txt "center")]
  | .discount, .heading => [("fontSize", num 28), ("textAlign", txt "center")]
  | .discount, .text => [("textAlign", txt "center")]
  | .gallery, .heading => [("fontSize", num 16)]
  | .gallery, .text => [("fontSize", num 13)]
  | .gallery, .image => [("borderRadius", num 8)]
  | .cart, .image => [("width", num 80), ("borderRadius", num 4)]
  | .cart, .text => [("fontSize", num 13)]
  | .cart, .table => [("cellPadding", num 12)]
  | _, _ => []

/-- What the role of its row brings to a block. -/
def roleDefaults (scope : Scope) (kind : BlockKind) : Attributes :=
  let entries := (scope.row.role.map fun role => roleEntries role kind).getD []
  bag (entries ++
    if scope.isHeaderAside then [("textAlign", txt "right"), ("align", txt "right")] else [])

/-! ### Variants -/

/-- What the variant of the document brings to a block. -/
def variantDefaults (scope : Scope) (kind : BlockKind) : Attributes :=
  let frame := isFrameRow scope.row
  match scope.document.effectiveVariant, kind with
  | .outline, .text => if frame then {} else bag [("color", txt "#1F2937")]
  | .outline, .list => if frame then {} else bag [("color", txt "#1F2937")]
  | .outline, .table => if frame then {} else bag [("color", txt "#1F2937")]
  | .outline, .heading => if frame then {} else bag [("color", txt "#111827")]
  | .outline, .button => bag [("borderRadius", num 8)]
  | .clear, .divider => bag [("borderWidth", num 0)]
  | _, _ => {}

/-! ### Themes -/

/-- The colour of text on the action colour of a palette, which is read back from its text.  If it
could not be read, the text would be white. -/
def onAction (palette : Palette) : Color :=
  ((Color.parse? palette.action.hex).map Color.readableOn).getD Color.white

/-- What a palette brings to a kind of block. -/
def paletteEntries (palette : Palette) : BlockKind → List (String × AttributeValue)
  | .button => [("backgroundColor", hue palette.action), ("color", hue (onAction palette))]
  | .link => [("color", hue palette.action)]
  | .survey => [("buttonColor", hue palette.action)]
  | .list => [("bulletColor", hue palette.action)]
  | .divider => [("borderColor", hue palette.levels.level2)]
  | .table => [("headerBackgroundColor", hue palette.light)]
  | _ => []

/-- A kind of block whose text stands on the coloured header of a theme. -/
def isHeaderText : BlockKind → Bool
  | .text => true
  | .heading => true
  | .link => true
  | _ => false

/-- What the theme of the document brings to a block.  Text in a header contrasts with the colour of
the header. -/
def themeDefaults (scope : Scope) (kind : BlockKind) : Attributes :=
  match scope.palette with
  | none => {}
  | some palette =>
    bag (paletteEntries palette kind ++
      if scope.row.role == some .header && isHeaderText kind then
        [("color", hue palette.textColor)]
      else [])

/-! ### Rows, containers and columns -/

/-- What every row has. -/
def rowBase (d : Document) : Attributes :=
  bag [("backgroundColor", txt d.rowBackgroundColor), ("paddingTop", num 16),
    ("paddingBottom", num 16), ("paddingLeft", num 24), ("paddingRight", num 24),
    ("align", txt "center"), ("verticalAlign", txt "top"), ("columnSpacing", num 0)]

/-- What every row changes on narrow screens. -/
def rowMobile : Attributes := bag [("paddingLeft", num 16), ("paddingRight", num 16)]

/-- What the role of a row brings to the row. -/
def rowRoleDefaults (row : Row) : Attributes :=
  match row.role with
  | some .header =>
    bag [("paddingTop", num 16), ("paddingBottom", num 16), ("verticalAlign", txt "middle")]
  | some .footer => bag [("paddingTop", num 24), ("paddingBottom", num 24), ("color", mutedText)]
  | some .hero => bag [("paddingTop", num 40), ("paddingBottom", num 40)]
  | some .gallery => bag [("columnSpacing", num 8)]
  | some .cart => bag [("verticalAlign", txt "middle")]
  | some .discount =>
    bag [("paddingTop", num 32), ("paddingBottom", num 32), ("borderStyle", txt "dashed"),
      ("borderWidth", num 2), ("borderColor", borderColor)]
  | some .cta => bag [("paddingTop", num 32), ("paddingBottom", num 32)]
  | _ => {}

/-- What the variant of the document brings to a row. -/
def rowVariantDefaults (d : Document) (row : Row) : Attributes :=
  match d.effectiveVariant with
  | .plain =>
    if row.role == some .footer then bag [("backgroundColor", txt d.backgroundColor)] else {}
  | .outline =>
    if isFrameRow row then {}
    else
      bag [("borderColor", borderColor), ("borderWidth", num 1), ("borderStyle", txt "solid"),
        ("borderRadius", num 12), ("paddingTop", num 24), ("paddingBottom", num 24),
        ("paddingLeft", num 24), ("paddingRight", num 24)]
  | .floating =>
    bag [("backgroundColor", txt "#FFFFFF"), ("borderRadius", num 16), ("paddingLeft", num 32),
      ("paddingRight", num 32)]
  | .clear => bag [("backgroundColor", txt "transparent"), ("borderWidth", num 0)]

/-- What a palette brings to a row. -/
def rowThemeDefaults (palette : Option Palette) (row : Row) : Attributes :=
  match palette, row.role with
  | some p, some .header => bag [("backgroundColor", hue p.base), ("color", hue p.textColor)]
  | some p, some .footer => bag [("backgroundColor", hue p.light)]
  | some p, some .discount => bag [("backgroundColor", hue p.light)]
  | some p, some .hero =>
    bag [("backgroundColor", hue p.gradientLight.start),
      ("backgroundImage", txt p.gradientLight.css)]
  | _, _ => {}

/-- What every container has. -/
def containerBase (d : Document) : Attributes :=
  match d.effectiveVariant with
  | .floating => bag [("align", txt "center"), ("paddingTop", num 8), ("paddingBottom", num 8)]
  | _ => bag [("align", txt "center")]

/-- What every column has: the vertical alignment that its row sets as text, or the top. -/
def columnBase (scope : Scope) : Attributes :=
  bag [("align", txt (if scope.isHeaderAside then "right" else "left")),
    ("verticalAlign", txt ((scope.row.attributes.text? "verticalAlign").getD "top"))]

/-! ### Own attributes -/

/-- The numbers of a box shorthand in a bag. -/
def boxNumbers? : AttributeValue → Option (List Binary64)
  | .number x => some [x]
  | .text s => numberList? s
  | _ => none

/-- The entries that an own attribute brings: the sides of a box shorthand, or itself. -/
def ownEntries (key : String) (value : AttributeValue) : List (String × AttributeValue) :=
  let sides := if boxKeys.contains key then (boxNumbers? value).bind Sides.ofList? else none
  match sides with
  | some sides => (sides.entries key).map fun (k, x) => (k, .number x)
  | none => [(key, value)]

/-- A node's own attributes: box shorthands spread over their sides, and without the overrides for
the mobile view.  A side that is set on its own wins over the shorthand. -/
def ownLayer (attributes : Attributes) : Attributes :=
  bag ((attributes.entries.filter fun e => e.1 != mobileKey).flatMap fun e => ownEntries e.1 e.2)

/-- A node's overrides for the mobile view. -/
def overrideLayer (attributes : Attributes) : Attributes :=
  match attributes.get? mobileKey with
  | some (.json (.object fields)) =>
    ownLayer (bag (fields.map fun f => (f.1, AttributeValue.ofJson f.2)))
  | _ => {}

end MailTemplate.Cascade
