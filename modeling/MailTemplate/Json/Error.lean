import MailTemplate.Text.Measure

/-!
# Errors in JSON text

A fault is found at a place in the text: what is left of the text there, and how many bytes of
that are already taken into account.  Its report counts lines from one, and bytes from the start of
the line.
-/

namespace MailTemplate.Json

/-- What is wrong with a JSON text. -/
inductive Cause where
  | endInValue
  | endInList
  | endInObject
  | endInString
  | expectedValue
  | expectedWord
  | expectedColon
  | expectedListComma
  | expectedObjectComma
  | keyNotString
  | trailingComma
  | trailingCharacters
  | invalidNumber
  | numberOutOfRange
  | invalidEscape
  | loneSurrogate
  | unfinishedSurrogate
  | controlCharacter
  | tooDeep
  deriving DecidableEq, Repr

namespace Cause

/-- The wording of a cause. -/
def message : Cause → String
  | endInValue => "EOF while parsing a value"
  | endInList => "EOF while parsing a list"
  | endInObject => "EOF while parsing an object"
  | endInString => "EOF while parsing a string"
  | expectedValue => "expected value"
  | expectedWord => "expected ident"
  | expectedColon => "expected \x60:\x60"
  | expectedListComma => "expected \x60,\x60 or \x60]\x60"
  | expectedObjectComma => "expected \x60,\x60 or \x60\x7d\x60"
  | keyNotString => "key must be a string"
  | trailingComma => "trailing comma"
  | trailingCharacters => "trailing characters"
  | invalidNumber => "invalid number"
  | numberOutOfRange => "number out of range"
  | invalidEscape => "invalid escape"
  | loneSurrogate => "lone leading surrogate in hex escape"
  | unfinishedSurrogate => "unexpected end of hex escape"
  | controlCharacter => "control character (\\u0000-\\u001F) found while parsing a string"
  | tooDeep => "recursion limit exceeded"

end Cause

/-- A cause at a place: the text from there on, and the bytes of it that count as read. -/
structure Fault where
  cause : Cause
  rest : List Char
  read : Nat

namespace Fault

/-- A fault with nothing read beyond `rest`. -/
def before (cause : Cause) (rest : List Char) : Fault := ⟨cause, rest, 0⟩

/-- A fault at the next byte of `rest`, which counts as read. -/
def onto (cause : Cause) (rest : List Char) : Fault := ⟨cause, rest, 1⟩

end Fault

/-- A fault reported with its line, from one, and its column in bytes. -/
structure Error where
  cause : Cause
  line : Nat
  column : Nat
  deriving DecidableEq, Repr

namespace Error

/-- Line and column of a byte position, walking from the given line and line start. -/
def locate (position : Nat) : (cs : List Char) → (offset line lineStart : Nat) → Nat × Nat
  | [], _, line, lineStart => (line, position - lineStart)
  | c :: cs, offset, line, lineStart =>
    let next := offset + c.utf8Size
    if position < next then (line, position - lineStart)
    else if c = '\n' then locate position cs next (line + 1) next
    else locate position cs next line lineStart

/-- The report of a fault in a text. -/
def ofFault (text : List Char) (fault : Fault) : Error :=
  let size := Text.utf8Size text
  let position := min size (size - Text.utf8Size fault.rest + fault.read)
  let (line, column) := locate position text 0 1 0
  ⟨fault.cause, line, column⟩

/-- The wording of a report. -/
def message (e : Error) : String :=
  e.cause.message ++ " at line " ++ toString e.line ++ " column " ++ toString e.column

end Error

end MailTemplate.Json
