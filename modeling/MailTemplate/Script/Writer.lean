import MailTemplate.Script.Convert

/-!
# Writing documents as scripts

A document is written in either surface form, each element on a line of its own, two blanks deeper
than its parent.  All ids and grid widths are written out.  A value is written bare when it reads as
the same text that way, and quoted otherwise; content that is one value of inline markup stays raw
in the brace form.

An attribute that a script cannot hold is left out: one under a key that is no script key, or that
the element reads as something else.
-/

namespace MailTemplate.Script

/-- A text in quotes, quotes and backslashes escaped. -/
def quoteText (s : List Char) : List Char :=
  '"' :: (s.flatMap (fun c => if c = '"' ∨ c = '\\' then ['\\', c] else [c]) ++ ['"'])

/-- A key that a script can hold. -/
def isScriptKey (key : List Char) : Bool :=
  match key with
  | [] => false
  | c :: cs => isNameStart c && cs.all isKeyChar

/-- A character that may stand in a bare word. -/
def isBareChar (c : Char) : Bool :=
  !Text.isBlank c && !(['{', '}', '<', '>', '"', '\\', '/', ','].contains c)

/-- A text that reads as the same text without quotes. -/
def isBareSafe (s : List Char) : Bool :=
  !s.isEmpty && s.head? != some '[' && s.all isBareChar && s != "true".toList &&
    s != "false".toList && (Binary64.read? s).isNone

/-- A value as written. -/
def valueText : AttributeValue → List Char
  | .bool b => if b then "true".toList else "false".toList
  | .number x => (numberText x).toList
  | .text s => if isBareSafe s.toList then s.toList else quoteText s.toList
  | .json v => if v.isContainer then v.compactChars else quoteText v.compactChars

/-- A key and a text with an equals sign between them. -/
def pair (key : String) (value : List Char) : List Char := key.toList ++ '=' :: value

/-- A key and a quoted text. -/
def quotedPair (key text : String) : List Char := pair key (quoteText text.toList)

/-- The attribute that a value makes under a key; none if the key cannot be written. -/
def writtenAs (key : String) (written : String) (value : AttributeValue) : Option (List Char) :=
  if isScriptKey key.toList then some (pair written (valueText value)) else none

/-- The attributes of a bag, but those under reserved keys or keys of the container. -/
def bagPairs (bag : Attributes) (reserved : List String) : List (List Char) :=
  (bag.entries.filter fun e =>
    !reserved.contains e.1 && !Text.startsWith "container".toList e.1.toList).filterMap
    fun e => writtenAs e.1 e.1 e.2

/-- The key of a row for a key of its container. -/
def containerKey (key : String) : String :=
  match key.toList with
  | [] => "container"
  | c :: cs => String.ofList ("container".toList ++ c.toUpper :: cs)

/-- The attributes of a container. -/
def containerPairs (bag : Attributes) : List (List Char) :=
  bag.entries.filterMap fun e => writtenAs e.1 (containerKey e.1) e.2

/-- The attributes of the root. -/
def rootPairs (d : Document) : List (List Char) :=
  [quotedPair "id" d.id, quotedPair "name" d.name] ++
    (if d.previewText = "" then [] else [quotedPair "previewText" d.previewText]) ++
    [quotedPair "fontFamily" d.fontFamily, pair "width" (toString d.width).toList,
     quotedPair "color" d.color, quotedPair "backgroundColor" d.backgroundColor,
     quotedPair "rowBackgroundColor" d.rowBackgroundColor, quotedPair "linkColor" d.linkColor] ++
    (d.variant.map fun v => pair "styleVariant" v.name.toList).toList ++
    (d.theme.map fun t => quotedPair "theme" t).toList

/-- The attributes of a row. -/
def rowPairs (row : Row) : List (List Char) :=
  quotedPair "id" row.id :: (row.role.map fun r => quotedPair "type" r.name).toList ++
    bagPairs row.attributes ["id", "type"] ++ containerPairs row.container

/-- The attributes of a column. -/
def columnPairs (column : Column) : List (List Char) :=
  [quotedPair "id" column.id, pair "width" (toString column.units).toList] ++
    bagPairs column.attributes ["id", "width"]

/-- The attributes of a block, its content aside. -/
def blockPairs (block : Block) : List (List Char) :=
  quotedPair "id" block.id :: bagPairs block.attributes ["id", "content"]

/-- Content as a value of the brace form. -/
def contentValue (content : List Char) : List Char :=
  if isInlineHtml content then content else quoteText content

/-- A keyword and attributes, with blanks between them. -/
def head (keyword : String) (pairs : List (List Char)) : List Char :=
  keyword.toList ++ pairs.flatMap fun p => ' ' :: p

/-- A line at a depth. -/
def line (depth : Nat) (text : List Char) : List Char :=
  List.replicate (2 * depth) ' ' ++ text ++ ['\n']

/-- The opening and the closing line of an element that holds others, around their lines. -/
def element (form : Form) (depth : Nat) (keyword : String) (pairs : List (List Char))
    (inside : List Char) : List Char :=
  match form with
  | .brace => line depth (head keyword pairs ++ [' ', '{']) ++ inside ++ line depth ['}']
  | .tag =>
    line depth ('<' :: (head keyword pairs ++ ['>'])) ++ inside ++
      line depth ('<' :: '/' :: (keyword.toList ++ ['>']))

/-- The line of a block. -/
def blockLine (form : Form) (block : Block) : List Char :=
  let keyword := block.kind.keyword
  let pairs := blockPairs block
  line 3 <|
    match form, block.content with
    | .brace, some content =>
      head keyword (pairs ++ [pair "content" (contentValue content.toList)])
    | .brace, none => head keyword pairs
    | .tag, some content =>
      '<' :: (head keyword pairs ++ '>' ::
        (content.toList ++ '<' :: '/' :: keyword.toList ++ ['>']))
    | .tag, none => '<' :: (head keyword pairs ++ [' ', '/', '>'])

/-- The lines of a column. -/
def columnLines (form : Form) (column : Column) : List Char :=
  element form 2 "COLUMN" (columnPairs column) (column.blocks.flatMap (blockLine form))

/-- The lines of a row. -/
def rowLines (form : Form) (row : Row) : List Char :=
  element form 1 "ROW" (rowPairs row) (row.columns.flatMap (columnLines form))

/-- The script of a document. -/
def write (form : Form) (d : Document) : String :=
  String.ofList (element form 0 "EMAIL" (rootPairs d) (d.rows.flatMap (rowLines form)))

end MailTemplate.Script
