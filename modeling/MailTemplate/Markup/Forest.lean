import MailTemplate.Markup.Node

/-!
# Growing trees

While markup is read its nodes are still moved about: misplaced tags put a node under another parent
after it was made.  A `Forest` numbers the nodes, and keeps for each its parent and its children, so
that a node can be named before its place is settled.

`Forest.nodesUnder` reads off the settled tree.
-/

namespace MailTemplate.Markup

/-- What a node is, its children apart. -/
inductive Label where
  | element (space : Space) (name : String) (attributes : List (String × String))
  /-- Text, its last character first. -/
  | text (reversed : List Char)
  | comment (characters : List Char)

/-- A node with its place. -/
structure Entry where
  label : Label
  parent : Option Nat := none
  children : List Nat := []

/-- Nodes by number. -/
structure Forest where
  entries : Array Entry := #[]

namespace Forest

/-- The number of nodes. -/
def size (forest : Forest) : Nat := forest.entries.size

/-- The language of an element; that of plain markup for other nodes. -/
def space (forest : Forest) (node : Nat) : Space :=
  match forest.entries[node]? with
  | some ⟨.element space _ _, _, _⟩ => space
  | _ => .html

/-- The name of an element in its language; empty for other nodes. -/
def localName (forest : Forest) (node : Nat) : String :=
  match forest.entries[node]? with
  | some ⟨.element _ name _, _, _⟩ => name
  | _ => ""

/-- The qualified name of an element; empty for other nodes. -/
def name (forest : Forest) (node : Nat) : String :=
  (forest.space node).qualified (forest.localName node)

/-- The parent of a node. -/
def parent? (forest : Forest) (node : Nat) : Option Nat :=
  forest.entries[node]?.bind (·.parent)

/-- The children of a node. -/
def children (forest : Forest) (node : Nat) : List Nat :=
  (forest.entries[node]?.map (·.children)).getD []

/-- The node is text. -/
def isText (forest : Forest) (node : Nat) : Bool :=
  match forest.entries[node]? with
  | some ⟨.text _, _, _⟩ => true
  | _ => false

/-- A forest with a new node, which has no parent; its number is the former size. -/
def add (forest : Forest) (label : Label) : Forest :=
  ⟨forest.entries.push ⟨label, none, []⟩⟩

/-- The forest with the place of one node changed. -/
def adjust (forest : Forest) (node : Nat) (f : Entry → Entry) : Forest :=
  ⟨forest.entries.modify node f⟩

/-- The forest with a node taken from its parent. -/
def detach (forest : Forest) (node : Nat) : Forest :=
  match forest.parent? node with
  | none => forest
  | some parent =>
    (forest.adjust parent fun e => { e with children := e.children.filter (· != node) }).adjust node
      fun e => { e with parent := none }

/-- The children with a node put before a sibling, or at the end if that is not among them. -/
def insertBefore (node sibling : Nat) : List Nat → List Nat
  | [] => [node]
  | c :: rest => if c = sibling then node :: c :: rest else c :: insertBefore node sibling rest

/-- The sibling just before a node. -/
def precedingIn (sibling : Nat) : List Nat → Option Nat
  | a :: b :: rest => if b = sibling then some a else precedingIn sibling (b :: rest)
  | _ => none

end Forest

/-- A place for a node. -/
inductive Place where
  /-- After the children of a node. -/
  | lastIn (parent : Nat)
  /-- Before a node that has a parent. -/
  | before (sibling parent : Nat)
  deriving DecidableEq, Repr

namespace Forest

/-- The forest with a node put at a place. -/
def put (forest : Forest) (place : Place) (node : Nat) : Forest :=
  let forest := forest.detach node
  match place with
  | .lastIn parent =>
    (forest.adjust parent fun e => { e with children := e.children ++ [node] }).adjust node
      fun e => { e with parent := some parent }
  | .before sibling parent =>
    (forest.adjust parent fun e =>
      { e with children := insertBefore node sibling e.children }).adjust node
      fun e => { e with parent := some parent }

/-- The node just before a place. -/
def preceding? (forest : Forest) : Place → Option Nat
  | .lastIn parent => (forest.children parent).getLast?
  | .before sibling parent => precedingIn sibling (forest.children parent)

/-- The forest with text at a place; it joins the text just before it. -/
def putText (forest : Forest) (place : Place) (characters : List Char) : Forest :=
  match (forest.preceding? place).filter forest.isText with
  | some node =>
    forest.adjust node fun e =>
      match e.label with
      | .text reversed => { e with label := .text (characters.reverse ++ reversed) }
      | _ => e
  | none => (forest.add (.text characters.reverse)).put place forest.size

/-- The forest with all children of one node put after those of another. -/
def moveChildren (forest : Forest) (source target : Nat) : Forest :=
  (forest.children source).foldl (fun f child => f.put (.lastIn target) child) forest

/-- The tree under a node.  No branch is longer than the number of nodes, which bounds `fuel`. -/
def tree? (forest : Forest) : (fuel node : Nat) → Option Node
  | 0, _ => none
  | fuel + 1, node =>
    match forest.entries[node]? with
    | none => none
    | some ⟨.text reversed, _, _⟩ => some (.text reversed.reverse)
    | some ⟨.comment characters, _, _⟩ => some (.comment characters)
    | some ⟨.element space name attributes, _, children⟩ =>
      some (.element space name attributes (children.filterMap (forest.tree? fuel)))

/-- The settled trees under a node. -/
def nodesUnder (forest : Forest) (node : Nat) : List Node :=
  (forest.children node).filterMap (forest.tree? forest.size)

end Forest

end MailTemplate.Markup
