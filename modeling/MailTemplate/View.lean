import MailTemplate.Text.Affix

/-!
# Views

How a document is looked at: on a wide or a narrow screen, under which company's logo, and with
which rendering settings.
-/

namespace MailTemplate

/-- The settings of rendered output. -/
structure RenderSettings where
  /-- The width in pixels in the mobile view. -/
  mobileWidth : Nat := 375
  /-- Output is put on indented lines. -/
  prettyPrint : Bool := true
  /-- What a line is indented by at each depth. -/
  indent : String := "  "
  /-- The address in front of the keys of stored images. -/
  assetBaseUrl : Option String := none
  deriving DecidableEq, Repr

/-- A company, and where its logo is stored, if it has one. -/
structure Company where
  logo : Option String := none
  deriving DecidableEq, Repr

/-- A way of looking at a document. -/
structure View where
  mobile : Bool := false
  company : Option Company := none
  settings : RenderSettings := {}
  deriving DecidableEq, Repr

/-- The image source that stands for the company's logo. -/
def logoSource : String := "logo"

/-- The key of an image is an address of its own. -/
def isAddress (key : List Char) : Bool :=
  ["http://", "https://", "data:", "//"].any fun head => Text.startsWith head.toList key

/-- The address of an image key below a base address, with one slash between them. -/
def joinAddress (base key : List Char) : List Char :=
  Text.dropTails ['/'] base ++ '/' :: key.dropWhile (· == '/')

/-- The address of the logo, if there is one. -/
def View.logoUrl (view : View) : Option String := do
  let company ← view.company
  let key ← company.logo
  match view.settings.assetBaseUrl with
  | some base =>
    if isAddress key.toList then some key
    else some (String.ofList (joinAddress base.toList key.toList))
  | none => some key

end MailTemplate
