import MailTemplate.Attribute.Bag
import MailTemplate.Document.Kind

/-!
# Attribute keys

Which keys each kind of node takes part in, which keys hold lengths, and how a box shorthand spreads
over four sides.
-/

namespace MailTemplate

/-- The key of the per-node overrides for the mobile view. -/
def mobileKey : String := "mobile"

/-- The keys that every block accepts. -/
def commonKeys : List String :=
  ["paddingTop", "paddingRight", "paddingBottom", "paddingLeft", "color", "backgroundColor",
   "fontFamily", "fontSize", "fontWeight", "fontStyle", "lineHeight", "letterSpacing", "textAlign",
   "textDecoration", "width", "height", "maxWidth"]

/-- The keys of a resolved row. -/
def rowKeys : List String :=
  ["paddingTop", "paddingRight", "paddingBottom", "paddingLeft", "backgroundColor",
   "backgroundImage", "borderColor", "borderWidth", "borderStyle", "borderRadius", "align",
   "verticalAlign", "columnSpacing", "color", "minHeight"]

/-- The keys of a resolved container. -/
def containerKeys : List String :=
  ["align", "backgroundColor", "backgroundImage", "paddingTop", "paddingRight", "paddingBottom",
   "paddingLeft", "borderRadius"]

/-- The keys of a resolved column. -/
def columnKeys : List String :=
  ["align", "verticalAlign", "paddingTop", "paddingRight", "paddingBottom", "paddingLeft",
   "backgroundColor", "borderColor", "borderWidth", "borderStyle", "borderRadius"]

/-- The keys whose bare numbers are lengths in pixels. -/
def lengthKeys : List String :=
  ["paddingTop", "paddingRight", "paddingBottom", "paddingLeft", "marginTop", "marginRight",
   "marginBottom", "marginLeft", "fontSize", "letterSpacing", "borderRadius", "borderWidth",
   "width", "height", "maxWidth", "minHeight", "iconSize", "spacing", "cellPadding",
   "itemSpacing", "columnSpacing"]

/-- The keys that take a box shorthand. -/
def boxKeys : List String := ["padding", "margin"]

/-- The keys that a kind of block accepts besides the common ones. -/
def BlockKind.ownKeys : BlockKind → List String
  | .text => ["textTransform"]
  | .heading => ["level", "textTransform"]
  | .image => ["src", "alt", "href", "target", "borderRadius", "align"]
  | .button =>
    ["href", "target", "align", "borderRadius", "borderColor", "borderWidth", "borderStyle"]
  | .link => ["href", "target", "align"]
  | .divider => ["borderColor", "borderWidth", "borderStyle"]
  | .socials => ["socialLinks", "iconSize", "iconStyle", "align", "spacing"]
  | .survey => ["question", "links", "surveyType", "align", "buttonColor"]
  | .table =>
    ["rows", "headerRow", "borderColor", "borderWidth", "cellPadding", "headerBackgroundColor",
     "stripeColor"]
  | .list => ["items", "ordered", "itemSpacing", "bulletColor"]
  | .spacer => []
  | .icon => ["src", "alt", "href", "align"]

/-- A kind of block accepts a key. -/
def BlockKind.accepts (kind : BlockKind) (key : String) : Bool :=
  commonKeys.contains key || kind.ownKeys.contains key

/-- Bare numbers under the key are lengths. -/
def isLengthKey (key : String) : Bool := lengthKeys.contains key

/-- A bare number under a length key as a length in pixels; any other value unchanged. -/
def lengthValue (key : String) (value : AttributeValue) : AttributeValue :=
  match value with
  | .number x => if isLengthKey key then .text (numberText x ++ "px") else .number x
  | v => v

/-- The bag with all bare lengths in pixels. -/
def Attributes.withLengths (bag : Attributes) : Attributes := bag.mapValues lengthValue

/-- The four sides of a box. -/
structure Sides (α : Type) where
  top : α
  right : α
  bottom : α
  left : α

namespace Sides

/-- One to four values spread over the sides: one for all; vertical and horizontal; top, horizontal
and bottom; or clockwise from the top. -/
def ofList? {α : Type} : List α → Option (Sides α)
  | [all] => some ⟨all, all, all, all⟩
  | [vertical, horizontal] => some ⟨vertical, horizontal, vertical, horizontal⟩
  | [top, horizontal, bottom] => some ⟨top, horizontal, bottom, horizontal⟩
  | [top, right, bottom, left] => some ⟨top, right, bottom, left⟩
  | _ => none

/-- The sides under the keys that a base key gives them. -/
def entries {α : Type} (key : String) (sides : Sides α) : List (String × α) :=
  [(key ++ "Top", sides.top), (key ++ "Right", sides.right), (key ++ "Bottom", sides.bottom),
   (key ++ "Left", sides.left)]

end Sides

end MailTemplate
