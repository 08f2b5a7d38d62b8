import MailTemplate.Script.Lexeme

/-!
# Script trees

The tree of a script: elements with their attributes and bodies, each with its span of the source.
A node is

* `KEYWORD attribute*`, and then possibly children between braces, or
* `<KEYWORD attribute*` and then `/>`, or `>` with one content text or children and the closing tag
  of the same element.

Brackets are checked for balance first, so that an error names the bracket at fault and not the
token at which the grammar stumbles.
-/

namespace MailTemplate.Script

/-- An attribute and its span. -/
structure Attribute where
  key : String
  value : RawValue
  span : Span
  deriving DecidableEq, Repr

mutual

/-- An element with its attributes and its body. -/
inductive Node where
  | mk (element : Element) (attributes : List Attribute) (body : Body) (span : Span)

/-- What an element holds. -/
inductive Body where
  /-- Nothing: no braces in the brace form, a tag that closes itself in the tag form. -/
  | empty
  | children (nodes : List Node)
  /-- The text between the tags of a leaf. -/
  | content (text : String)

end

namespace Node

/-- The element of a node. -/
def element : Node → Element
  | mk e _ _ _ => e

/-- The attributes of a node, as written. -/
def attributes : Node → List Attribute
  | mk _ as _ _ => as

/-- The body of a node. -/
def body : Node → Body
  | mk _ _ b _ => b

/-- The span of a node. -/
def span : Node → Span
  | mk _ _ _ s => s

/-- The first attribute with a key. -/
def attribute? (node : Node) (key : String) : Option Attribute :=
  node.attributes.find? fun a => a.key == key

end Node

/-- A script: its surface form and its nodes at the top level. -/
structure Tree where
  form : Form
  nodes : List Node

/-! ### The grammar -/

/-- Where the grammar stops: what it found wrong, and the tokens from there on. -/
structure Stop where
  cause : Cause
  rest : List Lexeme

/-- The stop at a token for which the grammar has no place. -/
def Stop.unexpected (expected : List Expectation) (rest : List Lexeme) : Stop :=
  ⟨.unexpectedToken (rest.head?.map Lexeme.token) expected, rest⟩

/-- The attributes at the front of a list of tokens. -/
def takeAttributes : List Lexeme → List Attribute × List Lexeme
  | ⟨.attr a, span⟩ :: rest =>
    let (as, after) := takeAttributes rest
    (⟨a.key, a.value, span⟩ :: as, after)
  | rest => ([], rest)

/-- The end of the last attribute, or `stop` without any. -/
def endOfAttributes (stop : Nat) (as : List Attribute) : Nat :=
  (as.getLast?.map fun a => a.span.stop).getD stop

/-- As many nodes as the front of a list of tokens holds.  Every node takes a token, so the number
of tokens bounds `fuel`. -/
def takeNodes : (fuel : Nat) → List Lexeme → Except Stop (List Node × List Lexeme)
  | 0, rest => .ok ([], rest)
  | fuel + 1, ⟨.keyword element, span⟩ :: rest => do
    let (as, rest) := takeAttributes rest
    match rest with
    | ⟨.openBrace, _⟩ :: rest => do
      let (children, rest) ← takeNodes fuel rest
      match rest with
      | ⟨.closeBrace, last⟩ :: rest => do
        let (nodes, rest) ← takeNodes fuel rest
        return (.mk element as (.children children) ⟨span.start, last.stop⟩ :: nodes, rest)
      | rest => .error (.unexpected [.closeBrace] rest)
    | rest => do
      let (nodes, rest) ← takeNodes fuel rest
      return (.mk element as .empty ⟨span.start, endOfAttributes span.stop as⟩ :: nodes, rest)
  | fuel + 1, ⟨.openTag element, span⟩ :: rest => do
    let (as, rest) := takeAttributes rest
    match rest with
    | ⟨.selfClose, last⟩ :: rest => do
      let (nodes, rest) ← takeNodes fuel rest
      return (.mk element as .empty ⟨span.start, last.stop⟩ :: nodes, rest)
    | ⟨.tagEnd, _⟩ :: rest => do
      let (body, rest) ← match rest with
        | ⟨.content text, _⟩ :: rest => pure (Body.content text, rest)
        | rest => do
          let (children, rest) ← takeNodes fuel rest
          pure (Body.children children, rest)
      match rest with
      | ⟨.closeTag closing, last⟩ :: after => do
        if closing = element then do
          let (nodes, rest) ← takeNodes fuel after
          return (.mk element as body ⟨span.start, last.stop⟩ :: nodes, rest)
        else .error ⟨.wrongClose closing element, rest⟩
      | rest => .error (.unexpected [] rest)
    | rest => .error (.unexpected [.selfClose, .tagEnd] rest)
  | _ + 1, rest => .ok ([], rest)

/-- The nodes that a whole list of tokens holds. -/
def nodesOf (lexemes : List Lexeme) : Except Stop (List Node) := do
  let (nodes, rest) ← takeNodes (lexemes.length + 1) lexemes
  match rest with
  | [] => return nodes
  | rest => .error (.unexpected [.endOfInput] rest)

/-! ### Balance -/

/-- An opening bracket. -/
inductive Opener where
  | brace
  | tag (element : Element)
  deriving DecidableEq, Repr

/-- A fault of balance: its cause, its span, and whether its fragment runs on to the end of the
source. -/
structure BalanceFault where
  cause : Cause
  span : Span
  runsOn : Bool
  deriving DecidableEq, Repr

/-- The fault of brackets left open, the innermost of which is named. -/
def balanceAtEnd : List (Opener × Span) → Option BalanceFault
  | [] => none
  | (.brace, span) :: _ => some ⟨.unclosedBrace, span, true⟩
  | (.tag element, span) :: _ => some ⟨.unclosedTag element, span, true⟩

/-- The first fault of balance.  `stack` holds the open brackets, the innermost first, and `keyword`
is where the last keyword started.  A tag that closes itself closes whatever is open. -/
def balanceFault? (stack : List (Opener × Span)) (keyword : Nat) :
    List Lexeme → Option BalanceFault
  | [] => balanceAtEnd stack
  | ⟨.keyword _, span⟩ :: rest => balanceFault? stack span.start rest
  | ⟨.openBrace, span⟩ :: rest =>
    balanceFault? ((.brace, ⟨keyword, span.stop⟩) :: stack) keyword rest
  | ⟨.closeBrace, span⟩ :: rest =>
    match stack with
    | (.brace, _) :: stack => balanceFault? stack keyword rest
    | _ => some ⟨.strayBrace, span, false⟩
  | ⟨.openTag element, span⟩ :: rest => balanceFault? ((.tag element, span) :: stack) keyword rest
  | ⟨.selfClose, _⟩ :: rest => balanceFault? stack.tail keyword rest
  | ⟨.closeTag element, span⟩ :: rest =>
    match stack with
    | (.tag opened, _) :: stack =>
      if opened = element then balanceFault? stack keyword rest
      else some ⟨.wrongClose element opened, span, false⟩
    | _ => some ⟨.strayClose element, span, false⟩
  | _ :: rest => balanceFault? stack keyword rest

/-! ### Whole sources -/

/-- The error of a stop of the grammar. -/
def Stop.toError (source : List Char) (stop : Stop) : Error :=
  let size := Text.utf8Size source
  let span := (stop.rest.head?.map Lexeme.span).getD ⟨size, size⟩
  Error.located source stop.cause span span

/-- The error of a fault of balance. -/
def BalanceFault.toError (source : List Char) (fault : BalanceFault) : Error :=
  let shown := if fault.runsOn then ⟨fault.span.start, Text.utf8Size source⟩ else fault.span
  Error.located source fault.cause fault.span shown

/-- The tree of a source, or its first error. -/
def Tree.ofSource (source : List Char) : Except Error Tree := do
  let lexemes ← lex source
  match balanceFault? [] 0 lexemes with
  | some fault => .error (fault.toError source)
  | none =>
    match nodesOf lexemes with
    | .ok nodes => return ⟨formOf source, nodes⟩
    | .error stop => .error (stop.toError source)

end MailTemplate.Script
