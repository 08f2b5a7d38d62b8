import MailTemplate.Document.Kind

/-!
# Tokens of scripts

A script has one of two surface forms: in the brace form an element is a keyword and its children
stand in braces; in the tag form elements are opening and closing tags.  Both forms share elements,
attributes and one kind of token.
-/

namespace MailTemplate.Script

/-- The elements of a script. -/
inductive Element where
  | email
  | row
  | column
  | block (kind : BlockKind)
  deriving DecidableEq, Repr

namespace Element

/-- The keyword of an element. -/
def keyword : Element → String
  | email => "EMAIL"
  | row => "ROW"
  | column => "COLUMN"
  | block kind => kind.keyword

/-- The element with a keyword. -/
def ofKeyword? (keyword : String) : Option Element :=
  if keyword = "EMAIL" then some email
  else if keyword = "ROW" then some row
  else if keyword = "COLUMN" then some column
  else (BlockKind.ofKeyword? keyword).map block

/-- Content blocks hold no other elements. -/
def isLeaf : Element → Bool
  | block _ => true
  | _ => false

@[simp] theorem ofKeyword?_keyword (e : Element) : ofKeyword? e.keyword = some e := by
  cases e with
  | block k => cases k <;> decide
  | _ => decide

end Element

/-- The two surface forms. -/
inductive Form where
  | brace
  | tag
  deriving DecidableEq, Repr

/-- An attribute value as written. -/
inductive RawValue where
  /-- An unquoted word or comma list. -/
  | bare (text : String)
  /-- A quoted text, its escapes resolved. -/
  | quoted (text : String)
  /-- Embedded JSON in brackets or braces, not read yet. -/
  | structured (text : String)
  /-- Inline markup. -/
  | html (text : String)
  deriving DecidableEq, Repr

namespace RawValue

/-- The text of a value. -/
def text : RawValue → String
  | bare s => s
  | quoted s => s
  | structured s => s
  | html s => s

end RawValue

/-- An attribute as written. -/
structure RawAttribute where
  key : String
  value : RawValue
  deriving DecidableEq, Repr

/-- The tokens of both forms. -/
inductive Token where
  /-- The keyword of an element in the brace form. -/
  | keyword (element : Element)
  | attr (value : RawAttribute)
  | openBrace
  | closeBrace
  /-- The start of an opening tag, up to its name. -/
  | openTag (element : Element)
  /-- The end of an opening tag. -/
  | tagEnd
  /-- The end of a tag that closes itself. -/
  | selfClose
  | closeTag (element : Element)
  /-- The text between the tags of a leaf. -/
  | content (text : String)
  deriving DecidableEq, Repr

end MailTemplate.Script
