/-!
# Kinds of blocks, visual variants and roles of rows

The closed vocabularies of a document.  Each has its names and a reader of names; a row's role is
open, since a name without styling of its own is kept as it is.

Main statements: names read back (`BlockKind.ofName?_name`, `StyleVariant.ofName?_name`,
`RowRole.name_ofName`).
-/

namespace MailTemplate

/-- The kinds of content blocks. -/
inductive BlockKind where
  | text
  | heading
  | image
  | button
  | link
  | divider
  | socials
  | survey
  | table
  | list
  | spacer
  | icon
  deriving DecidableEq, Repr

namespace BlockKind

/-- Every kind, in the order in which kinds are listed. -/
def all : List BlockKind :=
  [text, heading, image, button, link, divider, socials, survey, table, list, spacer, icon]

/-- The keyword of a kind in scripts. -/
def keyword : BlockKind → String
  | text => "TEXT"
  | heading => "HEADING"
  | image => "IMAGE"
  | button => "BUTTON"
  | link => "LINK"
  | divider => "DIVIDER"
  | socials => "SOCIALS"
  | survey => "SURVEY"
  | table => "TABLE"
  | list => "LIST"
  | spacer => "SPACER"
  | icon => "ICON"

/-- The name of a kind in the JSON form of a document. -/
def name : BlockKind → String
  | text => "text"
  | heading => "heading"
  | image => "image"
  | button => "button"
  | link => "link"
  | divider => "divider"
  | socials => "socials"
  | survey => "survey"
  | table => "table"
  | list => "list"
  | spacer => "spacer"
  | icon => "icon"

/-- The kind with a keyword. -/
def ofKeyword? (keyword : String) : Option BlockKind :=
  all.find? fun k => k.keyword == keyword

/-- The kind with a name. -/
def ofName? (name : String) : Option BlockKind :=
  all.find? fun k => k.name == name

/-- Kinds whose content is a rich-text fragment. -/
def isTextBearing : BlockKind → Bool
  | text => true
  | heading => true
  | button => true
  | link => true
  | _ => false

@[simp] theorem ofName?_name (k : BlockKind) : ofName? k.name = some k := by
  cases k <;> decide

end BlockKind

/-- The visual presets of a whole document. -/
inductive StyleVariant where
  | plain
  | outline
  | floating
  | clear
  deriving DecidableEq, Repr

namespace StyleVariant

/-- The name of a preset. -/
def name : StyleVariant → String
  | plain => "default"
  | outline => "outline"
  | floating => "floating"
  | clear => "clear"

/-- The preset with a name. -/
def ofName? (name : String) : Option StyleVariant :=
  [plain, outline, floating, clear].find? fun v => v.name == name

@[simp] theorem ofName?_name (v : StyleVariant) : ofName? v.name = some v := by
  cases v <;> decide

end StyleVariant

/-- The roles of rows that have styling of their own, and any other name. -/
inductive RowRole where
  | header
  | footer
  | hero
  | gallery
  | cart
  | discount
  | cta
  /-- A name without styling of its own. -/
  | other (name : String)
  deriving DecidableEq, Repr

namespace RowRole

/-- The roles with styling of their own. -/
def known : List RowRole := [header, footer, hero, gallery, cart, discount, cta]

/-- The name of a role. -/
def name : RowRole → String
  | header => "header"
  | footer => "footer"
  | hero => "hero"
  | gallery => "gallery"
  | cart => "cart"
  | discount => "discount"
  | cta => "cta"
  | other name => name

/-- The role with a name. -/
def ofName (name : String) : RowRole :=
  (known.find? fun r => r.name == name).getD (other name)

/-- Header and footer rows frame a document. -/
def isFrame : RowRole → Bool
  | header => true
  | footer => true
  | _ => false

/-- The role is the one that its name reads as. -/
def Canonical (r : RowRole) : Prop := ofName r.name = r

theorem name_ofName (name : String) : (ofName name).name = name := by
  unfold ofName
  cases h : known.find? fun r => r.name == name with
  | none => rfl
  | some r => simpa using List.find?_some h

theorem canonical_ofName (name : String) : (ofName name).Canonical := by
  simp only [Canonical, name_ofName]

end RowRole

end MailTemplate
