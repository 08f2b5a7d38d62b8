import MailTemplate.Markup.Foreign
import MailTemplate.Markup.Vocabulary

/-!
# Markup trees and their text

A tree of elements, texts and comments.  `writeNodes` is its one written form: every element that is
not void is closed, attributes come in the order of their names, and the characters that would start
a tag or a reference are written as references.  No foreign element is void, and none keeps its text
from being written with references.
-/

namespace MailTemplate.Markup

/-- A node of markup. -/
inductive Node where
  | element (space : Space) (name : String) (attributes : List (String × String))
      (children : List Node)
  | text (characters : List Char)
  | comment (characters : List Char)

/-- A character of a text between tags. -/
def writeTextChar (c : Char) : List Char :=
  if c = '&' then "&amp;".toList
  else if c = '<' then "&lt;".toList
  else if c = '>' then "&gt;".toList
  else if c = '\u00A0' then "&nbsp;".toList
  else [c]

/-- A character of an attribute's value. -/
def writeValueChar (c : Char) : List Char :=
  if c = '&' then "&amp;".toList
  else if c = '"' then "&quot;".toList
  else if c = '\u00A0' then "&nbsp;".toList
  else [c]

/-- An attribute with a blank before it. -/
def writeAttribute (named : String × String) : List Char :=
  ' ' :: named.1.toList ++ ['=', '"'] ++ named.2.toList.flatMap writeValueChar ++ ['"']

/-- An opening tag. -/
def writeOpening (space : Space) (name : String) (attributes : List (String × String)) :
    List Char :=
  '<' :: name.toList ++ (space.inOrder attributes).flatMap writeAttribute ++ ['>']

/-- A closing tag. -/
def writeClosing (name : String) : List Char :=
  '<' :: '/' :: name.toList ++ ['>']

mutual

/-- A node as text; `parent` is the qualified name of the element that holds it. -/
def writeNode (parent : Option String) : Node → List Char
  | .text characters =>
    if parent.any verbatimElements.contains then characters
    else characters.flatMap writeTextChar
  | .comment characters => "<!--".toList ++ characters ++ "-->".toList
  | .element space name attributes children =>
    let opening := writeOpening space name attributes
    if voidElements.contains (space.qualified name) then opening
    else opening ++ writeNodes (some (space.qualified name)) children ++ writeClosing name

/-- Nodes as text, one after the other. -/
def writeNodes (parent : Option String) : List Node → List Char
  | [] => []
  | node :: rest => writeNode parent node ++ writeNodes parent rest

end

mutual

/-- The texts in a node, from front to back. -/
def Node.texts : Node → List (List Char)
  | .text characters => [characters]
  | .comment _ => []
  | .element _ _ _ children => textsOf children

/-- The texts in nodes, from front to back. -/
def textsOf : List Node → List (List Char)
  | [] => []
  | node :: rest => node.texts ++ textsOf rest

end

end MailTemplate.Markup
