import MailTemplate.Markup.Forest
import MailTemplate.Markup.Token

/-!
# Open elements

The state in which markup is read: the nodes made so far, the elements that are open, the elements
whose formatting is in force, and the mode that decides what the next token means.  Formatting
outlives a misplaced closing tag: `restoreFormatting` opens it anew, and `closeFormatting` moves the
nodes that the misplaced tag would cut through.

The element that is open innermost comes first in `Assembly.opened`, and the formatting that was
opened last comes first in `Assembly.formatting`.
-/

namespace MailTemplate.Markup

/-- What the next token means. -/
inductive Mode where
  | flow
  /-- Inside an element of plain text. -/
  | rawText
  | table
  /-- Text in a table, which is held back until it is known whether it is blank. -/
  | tableText
  | caption
  | columnGroup
  | tableBody
  | row
  | cell
  | selection
  | selectionInTable
  | template
  deriving DecidableEq, Repr

/-- Formatting in force, or a mark that bounds it. -/
inductive Formatting where
  | marker
  | element (node : Nat) (tag : Tag)

namespace Formatting

/-- The element whose formatting this is. -/
def node? : Formatting → Option Nat
  | marker => none
  | element node _ => some node

end Formatting

/-- The state of reading markup. -/
structure Assembly where
  forest : Forest
  opened : List Nat
  formatting : List Formatting := []
  mode : Mode := .flow
  /-- The mode to come back to after plain text or text in a table. -/
  resumed : Mode := .flow
  /-- The text in a table that is held back, the last first. -/
  held : List (List Char) := []
  /-- The modes of the templates that are open. -/
  templates : List Mode := []
  /-- The form that is open. -/
  form : Option Nat := none
  /-- A line feed at the front of the next text is left out. -/
  skipsLineFeed : Bool := false
  /-- What belongs before a table is put there. -/
  fostering : Bool := false
  /-- What the element that is open may hold. -/
  content : Content := .markup

namespace Assembly

/-- The number of the root, which holds all other nodes. -/
def root : Nat := 0

/-- The state before anything is read. -/
def start : Assembly :=
  { forest := Forest.add {} (.element .html "html" []), opened := [root] }

/-! ### What is open -/

/-- The qualified name of an element. -/
def name (a : Assembly) (node : Nat) : String := a.forest.name node

/-- The innermost open element. -/
def current (a : Assembly) : Nat := a.opened.head?.getD root

/-- The innermost open element is foreign. -/
def inForeign (a : Assembly) : Bool := a.forest.space a.current != .html

/-- The innermost open element has one of these names. -/
def currentIn (a : Assembly) (names : List String) : Bool := names.contains (a.name a.current)

/-- Of the open elements, from the innermost on, one that `wanted` accepts comes no later than any
of `barriers`. -/
def inScope (a : Assembly) (barriers : List String) (wanted : Nat → Bool) : Bool :=
  match a.opened.dropWhile fun node => !wanted node && !barriers.contains (a.name node) with
  | node :: _ => wanted node
  | [] => false

/-- An element of this name is in scope. -/
def hasInScope (a : Assembly) (barriers : List String) (name : String) : Bool :=
  a.inScope barriers fun node => a.name node == name

/-- An element of this name is open. -/
def isOpen (a : Assembly) (name : String) : Bool :=
  a.opened.any fun node => a.name node == name

/-! ### Closing -/

/-- Closes the innermost open element. -/
def pop (a : Assembly) : Assembly := { a with opened := a.opened.tail }

/-- Closes elements until one with one of these names is innermost. -/
def popTo (a : Assembly) (names : List String) : Assembly :=
  { a with opened := a.opened.dropWhile fun node => !names.contains (a.name node) }

/-- Closes elements until one with one of these names has been closed. -/
def popThrough (a : Assembly) (names : List String) : Assembly := (a.popTo names).pop

/-- Closes the innermost elements that need no closing tag, those named `kept` apart. -/
def closeImplied (a : Assembly) (names : List String) (kept : List String := []) : Assembly :=
  { a with
    opened := a.opened.dropWhile fun node =>
      names.contains (a.name node) && !kept.contains (a.name node) }

/-- Closes one element and leaves those around and in it open. -/
def closeOnly (a : Assembly) (node : Nat) : Assembly :=
  { a with opened := a.opened.filter (· != node) }

/-- Closes an element with all in it, the implied ends first. -/
def closeNamed (a : Assembly) (name : String) : Assembly :=
  (a.closeImplied impliedEnds [name]).popThrough [name]

/-- Closes the paragraph that is in scope, if there is one. -/
def closeParagraph (a : Assembly) : Assembly :=
  if a.hasInScope paragraphBarriers "p" then a.closeNamed "p" else a

/-! ### Making nodes -/

/-- Where a child of `target` goes.  What may not stand in a table goes before it. -/
def placeIn (a : Assembly) (target : Nat) : Place :=
  if a.fostering && tableFrames.contains (a.name target) then
    match a.opened.dropWhile fun node => !(["template", "table"].contains (a.name node)) with
    | [] => .lastIn root
    | node :: outer =>
      if a.name node == "template" then .lastIn node
      else
        match a.forest.parent? node with
        | some parent => .before node parent
        | none => .lastIn (outer.head?.getD root)
  else .lastIn target

/-- Where the next node goes. -/
def place (a : Assembly) : Place := a.placeIn a.current

/-- Makes a node at the place for the next one; its number is the former size of the forest. -/
def insert (a : Assembly) (label : Label) : Assembly :=
  { a with forest := (a.forest.add label).put a.place a.forest.size }

/-- Makes an element and closes it. -/
def insertClosed (a : Assembly) (tag : Tag) : Assembly :=
  a.insert (.element .html tag.name tag.attributes)

/-- Makes an element and opens it. -/
def insertOpen (a : Assembly) (tag : Tag) : Assembly :=
  let node := a.forest.size
  let a := a.insertClosed tag
  { a with opened := node :: a.opened }

/-- Makes a foreign element, and opens it unless its tag closes it. -/
def insertForeign (a : Assembly) (space : Space) (tag : Tag) : Assembly :=
  let node := a.forest.size
  let attributes := tag.attributes.map fun (name, value) => (space.attributeName name, value)
  let a := a.insert (.element space (space.elementName tag.name) attributes)
  if tag.selfClosing then a else { a with opened := node :: a.opened }

/-- Puts text at the place for the next node. -/
def insertText (a : Assembly) (characters : List Char) : Assembly :=
  { a with forest := a.forest.putText a.place characters }

/-- Opens an element of plain text. -/
def insertRaw (a : Assembly) (tag : Tag) (content : Content) : Assembly :=
  { a.insertOpen tag with mode := .rawText, resumed := a.mode, content }

/-! ### Formatting -/

/-- The formatting since the last mark, the latest first. -/
def recentFormatting (a : Assembly) : List (Nat × Tag) :=
  go a.formatting
where
  /-- The formatting up to a mark. -/
  go : List Formatting → List (Nat × Tag)
    | .element node tag :: rest => (node, tag) :: go rest
    | _ => []

/-- The element is one of those whose formatting is in force. -/
def isFormatting (a : Assembly) (node : Nat) : Bool :=
  a.formatting.any fun f => f.node? == some node

/-- The formatting without that of one element. -/
def dropFormatting (a : Assembly) (node : Nat) : Assembly :=
  { a with formatting := a.formatting.filter fun f => f.node? != some node }

/-- Bounds the formatting in force. -/
def mark (a : Assembly) : Assembly := { a with formatting := .marker :: a.formatting }

/-- The formatting before the last mark. -/
def clearToMark (a : Assembly) : Assembly :=
  { a with formatting := (a.formatting.dropWhile fun f => f.node?.isSome).tail }

/-- Opens anew the formatting in force whose elements have been closed. -/
def restoreFormatting (a : Assembly) : Assembly :=
  let isClosed (f : Formatting) : Bool :=
    match f with
    | .marker => false
    | .element node _ => !a.opened.contains node
  let closed := (a.formatting.takeWhile isClosed).reverse
  let kept := a.formatting.dropWhile isClosed
  closed.foldl (fun a f =>
    match f with
    | .marker => a
    | .element _ tag =>
      let node := a.forest.size
      let a := a.insertOpen tag
      { a with formatting := .element node tag :: a.formatting }) { a with formatting := kept }

/-- Both tags have the same name and the same attributes, in any order. -/
def sameTag (s t : Tag) : Bool :=
  s.name == t.name && Keyed.ofList s.attributes == Keyed.ofList t.attributes

/-- Opens an element and puts its formatting in force.  Of more than three equal ones in force the
earliest ends. -/
def insertFormatting (a : Assembly) (tag : Tag) : Assembly :=
  let equal := a.recentFormatting.filter fun f => sameTag f.2 tag
  let a :=
    match equal.getLast? with
    | some (node, _) => if 3 ≤ equal.length then a.dropFormatting node else a
    | none => a
  let node := a.forest.size
  let a := a.insertOpen tag
  { a with formatting := .element node tag :: a.formatting }

/-- Closes the innermost open element of this name with all in it; a special element in it keeps it
open. -/
def closeAny (a : Assembly) (name : String) : Assembly :=
  let closes (node : Nat) : Bool := a.name node == name
  match a.opened.dropWhile fun node =>
      !closes node && !specialElements.contains (a.name node) with
  | node :: outer => if closes node then { a with opened := outer } else a
  | [] => a

/-- The elements of a list with one replaced. -/
def replaceNode (old new : Nat) (nodes : List Nat) : List Nat :=
  nodes.map fun node => if node = old then new else node

/-- Formatting with that of one element put on another. -/
def replaceFormatting (old new : Nat) (tag : Tag) (formatting : List Formatting) :
    List Formatting :=
  formatting.map fun f => if f.node? = some old then .element new tag else f

/-- Formatting with that of `new` put just after that of `earlier`. -/
def formatAfter (earlier new : Nat) (tag : Tag) : List Formatting → List Formatting
  | [] => []
  | f :: rest =>
    if f.node? = some earlier then .element new tag :: f :: rest
    else f :: formatAfter earlier new tag rest

/-- Elements with one put just inside another. -/
def openInside (outer new : Nat) : List Nat → List Nat
  | [] => []
  | node :: rest =>
    if node = outer then new :: node :: rest else node :: openInside outer new rest

/-- Wraps `last` in copies of the elements between a block and the formatting element `stop` that it
breaks out of.  `between` holds these elements, the innermost first, and `round` counts them; from
the fourth on their formatting ends.  The result is the outermost node, and the copy after whose
formatting the new one belongs. -/
def wrapBetween (a : Assembly) : (round last : Nat) → (bookmark : Option Nat) →
    (between : List Nat) → Assembly × Nat × Option Nat
  | _, last, bookmark, [] => (a, last, bookmark)
  | round, last, bookmark, node :: outer =>
    let found := a.formatting.findSome? fun f =>
      match f with
      | .element n tag => if n = node then some tag else none
      | .marker => none
    match if 3 < round then none else found with
    | none => wrapBetween ((a.dropFormatting node).closeOnly node) (round + 1) last bookmark outer
    | some tag =>
      let copy := a.forest.size
      let forest := (a.forest.add (.element .html tag.name tag.attributes)).put (.lastIn copy) last
      let a := { a with
        forest
        opened := replaceNode node copy a.opened
        formatting := replaceFormatting node copy tag a.formatting }
      wrapBetween a (round + 1) copy (bookmark.or (some copy)) outer

/-- Lets the block `block`, which is open in the formatting element `node`, out of that element; the
formatting goes on inside the block.  `between` holds the elements between the two, the innermost
first, and `outer` is the element around `node`. -/
def breakOut (a : Assembly) (node : Nat) (tag : Tag) (block : Nat) (between : List Nat)
    (outer : Nat) : Assembly :=
  let (a, last, bookmark) := a.wrapBetween 1 block none between
  let forest := (a.forest.detach last)
  let a := { a with forest := forest.put ({ a with forest }.placeIn outer) last }
  let copy := a.forest.size
  let forest := (a.forest.add (.element .html tag.name tag.attributes)).moveChildren block copy
  let formatting :=
    match bookmark with
    | none => replaceFormatting node copy tag a.formatting
    | some earlier =>
      (formatAfter earlier copy tag a.formatting).filter fun f => f.node? != some node
  { a with
    forest := forest.put (.lastIn block) copy
    opened := openInside block copy (a.opened.filter (· != node))
    formatting }

/-- Closes the latest formatting of this name.  A block that is open in it breaks out of it, and
then the next one; `rounds` bounds their number. -/
def closeFormattingIn (a : Assembly) (name : String) : (rounds : Nat) → Assembly
  | 0 => a
  | rounds + 1 =>
    match a.recentFormatting.find? fun f => f.2.name == name with
    | none => a.closeAny name
    | some (node, tag) =>
      if !a.opened.contains node then a.dropFormatting node
      else if !a.inScope scopeBarriers (· == node) then a
      else
        let inside := a.opened.takeWhile (· != node)
        let outer := (a.opened.dropWhile (· != node)).tail
        match inside.reverse.find? fun n => specialElements.contains (a.name n) with
        | none => { a with opened := outer }.dropFormatting node
        | some block =>
          let between := (inside.dropWhile (· != block)).tail
          closeFormattingIn (a.breakOut node tag block between (outer.head?.getD root)) name rounds

/-- Closes the latest formatting of this name; up to eight blocks break out of it. -/
def closeFormatting (a : Assembly) (name : String) : Assembly :=
  if a.currentIn [name] && !a.isFormatting a.current then a.pop
  else a.closeFormattingIn name 8

end Assembly

end MailTemplate.Markup
