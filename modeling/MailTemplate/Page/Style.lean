import MailTemplate.Attribute.Bag
import MailTemplate.Page.Outline

/-!
# Style declarations

Of the attributes of a node, those that style it are written as declarations, in the order of their
keys.
-/

namespace MailTemplate.Page

/-- The keys that are written as declarations. -/
def styleKeys : List String :=
  ["paddingTop", "paddingRight", "paddingBottom", "paddingLeft", "color", "backgroundColor",
   "backgroundImage", "fontFamily", "fontSize", "fontWeight", "fontStyle", "lineHeight",
   "letterSpacing", "textAlign", "textDecoration", "textTransform", "width", "height", "maxWidth",
   "minHeight", "borderColor", "borderWidth", "borderStyle", "borderRadius"]

/-- A key as the name of a property: a hyphen and a small letter for each capital. -/
def propertyName (key : String) : String :=
  String.ofList (key.toList.flatMap fun c => if c.isUpper then ['-', c.toLower] else [c])

/-- The key sets a padding. -/
def isPadding (key : String) : Bool := Text.startsWith "padding".toList key.toList

/-- The declarations of the keys that pass a test. -/
def declarationsWhere (keep : String → Bool) (bag : Attributes) : String :=
  String.join ((bag.entries.filter fun e => styleKeys.contains e.1 && keep e.1).map fun e =>
    propertyName e.1 ++ ":" ++ e.2.css ++ ";")

/-- All declarations. -/
def declarations (bag : Attributes) : String := declarationsWhere (fun _ => true) bag

/-- The declarations without the paddings, which the frame of a block carries. -/
def innerDeclarations (bag : Attributes) : String :=
  declarationsWhere (fun key => !isPadding key) bag

/-- The attribute that carries declarations; none if there are none. -/
def styled (declarations : String) : Named :=
  if declarations.isEmpty then [] else [("style", declarations)]

/-- The attribute that says where a link opens, if the bag has one. -/
def targeted (bag : Attributes) : Named :=
  match bag.text? "target" with
  | some target => [("target", target)]
  | none => []

end MailTemplate.Page
