import MailTemplate.Markup.Escape

/-!
# Pages as trees

A page is built as a tree and written by one function, so that each element it opens is closed.
Texts and attribute values are escaped where they are written, and nowhere else.  Rich text is
written in a normal form, which the writer takes as a function.

A `Piece` is written within a line.  A `Part` is a line, or an element whose two tags stand on lines
of their own around its content.
-/

namespace MailTemplate.Page

/-- The attributes of an element, in the order written. -/
abbrev Named := List (String × String)

/-- A piece of a line. -/
inductive Piece where
  | text (s : String)
  /-- A character that is written by its name. -/
  | named (character : String)
  /-- Text that may be markup, written in its normal form. -/
  | rich (s : String)
  /-- An element that has no content and no closing tag. -/
  | empty (name : String) (attributes : Named)
  /-- An element without content, whose tag ends itself. -/
  | selfClosed (name : String) (attributes : Named)
  | element (name : String) (attributes : Named) (content : List Piece)

/-- A part of a page. -/
inductive Part where
  | line (content : List Piece)
  | element (name : String) (attributes : Named) (content : List Part)

/-- An attribute with a blank before it. -/
def writeNamed (a : String × String) : List Char :=
  ' ' :: a.1.toList ++ ['=', '"'] ++ Markup.escapeValue a.2.toList ++ ['"']

/-- The name and the attributes of an element, after a less-than sign. -/
def writeHead (name : String) (attributes : Named) : List Char :=
  '<' :: name.toList ++ attributes.flatMap writeNamed

/-- The opening tag of an element. -/
def writeOpening (name : String) (attributes : Named) : List Char :=
  writeHead name attributes ++ ['>']

/-- The closing tag of an element. -/
def writeClosing (name : String) : List Char :=
  '<' :: '/' :: name.toList ++ ['>']

section

variable (normalize : String → String)

mutual

/-- A piece of a line as text. -/
def Piece.write : Piece → List Char
  | .text s => Markup.escapeText s.toList
  | .named character => '&' :: character.toList ++ [';']
  | .rich s => (normalize s).toList
  | .empty name attributes => writeOpening name attributes
  | .selfClosed name attributes => writeHead name attributes ++ [' ', '/', '>']
  | .element name attributes content =>
    writeOpening name attributes ++ writePieces content ++ writeClosing name

/-- Pieces of a line as text. -/
def writePieces : List Piece → List Char
  | [] => []
  | piece :: rest => piece.write ++ writePieces rest

end

mutual

/-- The lines of a part, each with its depth. -/
def Part.lines (depth : Nat) : Part → List (Nat × List Char)
  | .line content => [(depth, writePieces normalize content)]
  | .element name attributes content =>
    (depth, writeOpening name attributes) :: linesOf (depth + 1) content ++
      [(depth, writeClosing name)]

/-- The lines of parts, one after the other. -/
def linesOf (depth : Nat) : List Part → List (Nat × List Char)
  | [] => []
  | part :: rest => part.lines depth ++ linesOf depth rest

end

end

/-- Lines as text: indented by their depth and one below the other, or in one line. -/
def joinLines (pretty : Bool) (indent : List Char) (lines : List (Nat × List Char)) : List Char :=
  if pretty then
    ['\n'].intercalate (lines.map fun l => (List.replicate l.1 indent).flatten ++ l.2)
  else (lines.map Prod.snd).flatten

end MailTemplate.Page
