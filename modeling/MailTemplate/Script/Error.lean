import MailTemplate.Json.Error
import MailTemplate.Script.Token
import MailTemplate.Text.Affix
import MailTemplate.Text.Measure

/-!
# Errors in scripts

What can be wrong with a script, from a stray character to a misplaced element.  An error names its
cause, the span of source text at fault, and a fragment of the source: the first line at the fault,
cut after sixty characters.
-/

namespace MailTemplate.Script

/-- What the grammar would have taken in place of an unexpected token. -/
inductive Expectation where
  | endOfInput
  | closeBrace
  | selfClose
  | tagEnd
  deriving DecidableEq, Repr

/-- What is wrong with a script. -/
inductive Cause where
  /-- A character that starts no token. -/
  | strayCharacter
  /-- A word of the brace form that is no element. -/
  | unknownWord (word : String)
  /-- A tag of an element that does not exist. -/
  | unknownTag (name : String)
  /-- A token, or the end of the script, where the grammar has no place for it. -/
  | unexpectedToken (found : Option Token) (expected : List Expectation)
  | unterminatedString
  | unbalancedValue
  | unclosedHtml (name : String)
  /-- A closing brace without an opening one. -/
  | strayBrace
  /-- A closing tag that meets the opening tag of another element. -/
  | wrongClose (closing opened : Element)
  /-- A closing tag without an opening one. -/
  | strayClose (closing : Element)
  | unclosedBrace
  | unclosedTag (element : Element)
  /-- The content of a leaf without its closing tag. -/
  | unterminatedContent (element : Element)
  | invalidJson (key : String) (error : Json.Error)
  /-- Tag form inside brace form, or the other way round. -/
  | mixedForms
  | missingRoot
  | severalRoots
  | lateEmail
  /-- An element at the top level that belongs into a row. -/
  | outsideRow (element : Element)
  | notRow (element : Element)
  | notColumn (element : Element)
  | notBlock (element : Element)
  /-- Text content in an element that holds other elements. -/
  | textContent (element : Element)
  /-- Elements in a block. -/
  | nestedElements (kind : BlockKind)
  | duplicateId (id : String)
  | tooManyColumns (count : Nat)
  | invalidEmailWidth (text : String)
  | invalidColumnWidth (text : String)
  deriving DecidableEq, Repr

/-- The groups of causes. -/
inductive Cause.Group where
  | grammar
  | balance
  | content
  | json
  | mixture
  | shape
  deriving DecidableEq, Repr

/-- A cause, where it is, and what stands there. -/
structure Error where
  cause : Cause
  span : Span
  fragment : String
  deriving DecidableEq, Repr

/-! ### Fragments -/

/-- The greatest number of characters in a fragment. -/
def fragmentLimit : Nat := 60

/-- The first line of a text, cut short with an ellipsis. -/
def fragmentOf (text : List Char) : String :=
  let line := Text.firstLine text
  if fragmentLimit < line.length then String.ofList (line.take fragmentLimit ++ ['…'])
  else String.ofList line

/-- The fragment of a source under a span.  A span is first moved into the source; one that cuts a
character has an empty fragment. -/
def fragmentAt (source : List Char) (span : Span) : String :=
  let size := Text.utf8Size source
  let start := min span.start size
  let stop := max start (min span.stop size)
  fragmentOf ((Text.slice? source ⟨start, stop⟩).getD [])

/-! ### Wording -/

/-- A token in a message. -/
def Token.describe : Token → String
  | .keyword e => "keyword '" ++ e.keyword ++ "'"
  | .attr a => "attribute '" ++ a.key ++ "'"
  | .openBrace => "'\x7b'"
  | .closeBrace => "'\x7d'"
  | .openTag e => "'<" ++ e.keyword ++ "'"
  | .tagEnd => "'>'"
  | .selfClose => "'/>'"
  | .closeTag e => "'</" ++ e.keyword ++ ">'"
  | .content _ => "element content"

/-- An expectation in a message. -/
def Expectation.describe : Expectation → String
  | endOfInput => "end of input"
  | closeBrace => "'\x7d'"
  | selfClose => "'/>'"
  | tagEnd => "'>'"

namespace Cause

/-- The group of a cause. -/
def group : Cause → Group
  | strayCharacter => .grammar
  | unknownWord _ => .grammar
  | unknownTag _ => .grammar
  | unexpectedToken _ _ => .grammar
  | unterminatedString => .balance
  | unbalancedValue => .balance
  | unclosedHtml _ => .balance
  | strayBrace => .balance
  | wrongClose _ _ => .balance
  | strayClose _ => .balance
  | unclosedBrace => .balance
  | unclosedTag _ => .balance
  | unterminatedContent _ => .content
  | invalidJson _ _ => .json
  | mixedForms => .mixture
  | missingRoot => .shape
  | severalRoots => .shape
  | lateEmail => .shape
  | outsideRow _ => .shape
  | notRow _ => .shape
  | notColumn _ => .shape
  | notBlock _ => .shape
  | textContent _ => .shape
  | nestedElements _ => .shape
  | duplicateId _ => .shape
  | tooManyColumns _ => .shape
  | invalidEmailWidth _ => .shape
  | invalidColumnWidth _ => .shape

/-- A text between backticks. -/
def ticked (s : String) : String := "\x60" ++ s ++ "\x60"

/-- A cause in words. -/
def message : Cause → String
  | strayCharacter => "unexpected character"
  | unknownWord word =>
    "unknown element " ++ ticked word ++ " (quote attribute values that contain spaces)"
  | unknownTag name => "unknown element " ++ ticked name
  | unexpectedToken found _ => "Unexpected " ++ (found.map Token.describe).getD "end of input"
  | unterminatedString => "quoted value is never closed"
  | unbalancedValue => "bracketed value is never closed"
  | unclosedHtml name => "inline <" ++ name ++ "> is never closed"
  | strayBrace => ticked "\x7d" ++ " has no matching " ++ ticked "\x7b"
  | wrongClose closing opened =>
    ticked ("</" ++ closing.keyword ++ ">") ++ " does not close " ++
      ticked ("<" ++ opened.keyword ++ ">")
  | strayClose closing =>
    ticked ("</" ++ closing.keyword ++ ">") ++ " has no matching " ++
      ticked ("<" ++ closing.keyword ++ ">")
  | unclosedBrace => ticked "\x7b" ++ " is never closed"
  | unclosedTag element => ticked ("<" ++ element.keyword ++ ">") ++ " is never closed"
  | unterminatedContent element => "<" ++ element.keyword ++ "> content is never closed"
  | invalidJson key error => ticked key ++ " is not valid JSON: " ++ error.message
  | mixedForms => "a script must use either tag syntax or brace syntax"
  | missingRoot => "tag-form script needs an <EMAIL> root"
  | severalRoots => "tag-form script must have a single <EMAIL> root"
  | lateEmail => "EMAIL must come first"
  | outsideRow element => element.keyword ++ " must be inside a ROW"
  | notRow element => "expected ROW, found " ++ element.keyword
  | notColumn element => "ROW may only contain COLUMN, found " ++ element.keyword
  | notBlock element => "COLUMN may only contain blocks, found " ++ element.keyword
  | textContent element => element.keyword ++ " cannot contain text content"
  | nestedElements kind => kind.keyword ++ " cannot contain other elements"
  | duplicateId id => "duplicate id " ++ ticked id
  | tooManyColumns count =>
    "ROW has " ++ toString count ++ " columns, at most 12 fit the grid"
  | invalidEmailWidth text => "invalid email width " ++ ticked text
  | invalidColumnWidth text =>
    "invalid column width " ++ ticked text ++ " (use a percentage or 1-12 grid units)"

/-- What the grammar would have taken. -/
def expected : Cause → List Expectation
  | unexpectedToken _ expected => expected
  | _ => []

/-- The label of a cause in a report: the cause, and what was expected instead. -/
def label (cause : Cause) : String :=
  match cause.expected with
  | [] => cause.message
  | es => cause.message ++ "\nExpected: " ++ String.intercalate ", " (es.map Expectation.describe)

end Cause

namespace Error

/-- An error at a span of a source; the fragment is what stands at `shown`. -/
def located (source : List Char) (cause : Cause) (span shown : Span) : Error :=
  ⟨cause, span, fragmentAt source shown⟩

/-- The error as one line of text. -/
def message (e : Error) : String :=
  let place := e.span.describe
  let near := " (near " ++ Cause.ticked e.fragment ++ ")"
  match e.cause with
  | .unterminatedContent element =>
    "Unterminated " ++ element.keyword ++ " content at " ++ place ++ near
  | .invalidJson key error =>
    "Invalid JSON in attribute " ++ Cause.ticked key ++ " at " ++ place ++ ": " ++ error.message
  | .mixedForms => "Tag and brace syntax mixed at " ++ place ++ near
  | cause =>
    let heading := match cause.group with
      | .balance => "Unbalanced delimiter at "
      | .shape => "Invalid structure at "
      | _ => "Parse error at "
    heading ++ place ++ ": " ++ cause.message ++ near

end Error

end MailTemplate.Script
