import MailTemplate.Script.Error
import MailTemplate.Script.Value

/-!
# The lexemes of a script

Reading a source cuts it into pieces: tokens with their text, and the gaps of layout and comments
between them.  A fault names the text at fault and what is left of the source from there on, so
that positions are measured only at the end.

The surface form is told by the first character that is not blank: a less-than sign starts the tag
form, anything else the brace form.  In each form the longest token wins.
-/

namespace MailTemplate.Script

/-- A stretch of a source. -/
inductive Piece where
  /-- Layout, or a comment. -/
  | gap (text : List Char)
  /-- A token and its text. -/
  | token (token : Token) (text : List Char)
  deriving DecidableEq

namespace Piece

/-- The text of a piece. -/
def text : Piece → List Char
  | gap text => text
  | token _ text => text

end Piece

/-- A fault in a source: its cause, the text at fault, and the source from the start of that text
on. -/
structure LexFault where
  cause : Cause
  lexeme : List Char
  rest : List Char

/-- What stands at the front of a text: a piece and what follows it, or a fault and its text. -/
inductive Front where
  | piece (piece : Piece) (rest : List Char)
  | fault (fault : ScanFault) (lexeme : List Char)
  /-- A name that is no element. -/
  | unknown (cause : Cause) (lexeme : List Char)

/-! ### Names -/

/-- A character that starts a name. -/
def isNameStart (c : Char) : Bool := c.isAlpha || c == '_'

/-- A character of a word. -/
def isWordChar (c : Char) : Bool := c.isAlphanum || c == '_'

/-- A character of a key. -/
def isKeyChar (c : Char) : Bool := isWordChar c || c == '-'

/-- The attribute at the front of a text whose key is `key`; `rest` follows the equals sign.  A
fault is reported at the key. -/
def frontAttribute (form : Form) (key rest : List Char) : Front :=
  match scanValue form rest with
  | .ok (value, after) =>
    let valueText := rest.take (rest.length - after.length)
    .piece (.token (.attr ⟨String.ofList key, value⟩) (key ++ '=' :: valueText)) after
  | .error fault => .fault fault (key ++ ['='])

/-- The text starts with layout: the layout and what follows. -/
def frontLayout (cs : List Char) : Front :=
  .piece (.gap (cs.takeWhile Text.isLayout)) (cs.dropWhile Text.isLayout)

/-! ### The brace form -/

/-- The front of a text in the brace form, of which `c` is the first character. -/
def frontBrace (c : Char) (rest : List Char) : Front :=
  if Text.isLayout c then frontLayout (c :: rest)
  else if c = '{' then .piece (.token .openBrace [c]) rest
  else if c = '}' then .piece (.token .closeBrace [c]) rest
  else if c = '/' ∧ rest.head? = some '/' then
    .piece (.gap (c :: rest.takeWhile (· != '\n'))) (rest.dropWhile (· != '\n'))
  else if isNameStart c then
    let name := c :: rest.takeWhile isKeyChar
    match rest.dropWhile isKeyChar with
    | '=' :: after => frontAttribute .brace name after
    | after =>
      if name.contains '-' then .fault .unexpected name
      else
        match Element.ofKeyword? (String.ofList name) with
        | some element => .piece (.token (.keyword element) name) after
        | none => .unknown (.unknownWord (String.ofList name)) name
  else .fault .unexpected [c]

/-! ### The tag form -/

/-- The rest of a comment, after its opening: up to its end.  A fault carries the text before a
double hyphen, or before a hyphen at the end of the source. -/
def scanComment : List Char → Except (List Char) (List Char × List Char)
  | [] => .error []
  | '-' :: '-' :: '>' :: rest => .ok ("-->".toList, rest)
  | '-' :: c :: rest =>
    if c = '-' then .error []
    else
      match scanComment rest with
      | .ok (s, r) => .ok ('-' :: c :: s, r)
      | .error s => .error ('-' :: c :: s)
  | c :: rest =>
    if c = '-' then .error []
    else
      match scanComment rest with
      | .ok (s, r) => .ok (c :: s, r)
      | .error s => .error (c :: s)

/-- The front of a text in the tag form that starts with a less-than sign. -/
def frontTag (rest : List Char) : Front :=
  match rest with
  | '!' :: '-' :: '-' :: r =>
    match scanComment r with
    | .ok (s, after) => .piece (.gap ("<!--".toList ++ s)) after
    | .error s => .fault .unexpected ("<!--".toList ++ s)
  | '/' :: r =>
    let name := r.takeWhile Char.isAlpha
    let blanks := (r.dropWhile Char.isAlpha).takeWhile Text.isLayout
    let lexeme := '<' :: '/' :: (name ++ blanks)
    if name.isEmpty then .fault .unexpected ['<']
    else
      match (r.dropWhile Char.isAlpha).dropWhile Text.isLayout with
      | '>' :: after =>
        match Element.ofKeyword? (String.ofList name) with
        | some element => .piece (.token (.closeTag element) (lexeme ++ ['>'])) after
        | none => .unknown (.unknownTag (String.ofList name)) (lexeme ++ ['>'])
      | _ => .fault .unexpected lexeme
  | r =>
    let name := r.takeWhile Char.isAlpha
    if name.isEmpty then .fault .unexpected ['<']
    else
      match Element.ofKeyword? (String.ofList name) with
      | some element => .piece (.token (.openTag element) ('<' :: name)) (r.dropWhile Char.isAlpha)
      | none => .unknown (.unknownTag (String.ofList name)) ('<' :: name)

/-- The front of a text in the tag form, of which `c` is the first character. -/
def frontOfTags (c : Char) (rest : List Char) : Front :=
  if Text.isLayout c then frontLayout (c :: rest)
  else if c = '<' then frontTag rest
  else if c = '>' then .piece (.token .tagEnd [c]) rest
  else if c = '/' ∧ rest.head? = some '>' then .piece (.token .selfClose ['/', '>']) (rest.drop 1)
  else if isNameStart c then
    let name := c :: rest.takeWhile isKeyChar
    match rest.dropWhile isKeyChar with
    | '=' :: after => frontAttribute .tag name after
    | _ => .fault .unexpected name
  else .fault .unexpected [c]

/-- The text before the closing tag of a leaf; none if there is no such tag.  Blanks may stand
before the end of the tag. -/
def contentBefore (keyword : List Char) : List Char → Option (List Char × List Char)
  | [] => none
  | c :: rest =>
    let closes := match Text.dropHead? ('<' :: '/' :: keyword) (c :: rest) with
      | some after => (Text.trimLeft after).head? == some '>'
      | none => false
    if closes then some ([], c :: rest)
    else (contentBefore keyword rest).map fun (s, r) => (c :: s, r)

/-! ### Whole sources -/

/-- The surface form of a source. -/
def formOf (source : List Char) : Form :=
  if (Text.trimLeft source).head? = some '<' then .tag else .brace

/-- A fault at the front of `rest` belongs to the other surface form. -/
def looksMixed (form : Form) (rest : List Char) : Bool :=
  match form with
  | .brace => rest.head? == some '<'
  | .tag =>
    rest.head? == some '{' || rest.head? == some '}' ||
      (Element.ofKeyword? (String.ofList (rest.takeWhile Char.isAlpha))).isSome

/-- The cause that a scanning fault at the front of `rest` reports. -/
def causeOf (form : Form) (fault : ScanFault) (rest : List Char) : Cause :=
  if looksMixed form rest then .mixedForms
  else
    match fault with
    | .unexpected => .strayCharacter
    | .unterminatedString => .unterminatedString
    | .unbalancedValue => .unbalancedValue
    | .unclosedHtml name => .unclosedHtml name

/-- The leaf whose opening tag is being read, after a token; `here` is the source from the token
on. -/
def leafAfter (leaf : Option (Element × List Char)) (token : Token) (here : List Char) :
    Option (Element × List Char) :=
  match token with
  | .openTag element => if element.isLeaf then some (element, here) else none
  | .closeTag _ => none
  | .selfClose => none
  | .tagEnd => none
  | _ => leaf

/-- The pieces of a source.  `leaf` is the leaf whose opening tag is being read, with the source
from that tag on; after the end of the tag its content is one token.  Every step takes a character,
so the length of the source bounds `fuel`. -/
def piecesFrom (form : Form) : (fuel : Nat) → (leaf : Option (Element × List Char)) →
    List Char → Except LexFault (List Piece)
  | 0, _, _ => .ok []
  | _ + 1, _, [] => .ok []
  | fuel + 1, leaf, c :: rest =>
    let here := c :: rest
    let front := match form with
      | .brace => frontBrace c rest
      | .tag => frontOfTags c rest
    match front with
    | .fault fault lexeme => .error ⟨causeOf form fault here, lexeme, here⟩
    | .unknown cause lexeme => .error ⟨cause, lexeme, here⟩
    | .piece (.gap text) after => do
      return .gap text :: (← piecesFrom form fuel leaf after)
    | .piece (.token token text) after =>
      match token, leaf with
      | .tagEnd, some (element, opened) =>
        match contentBefore element.keyword.toList after with
        | none => .error ⟨.unterminatedContent element, opened, opened⟩
        | some (content, after) => do
          return .token token text ::
            .token (.content (String.ofList (Text.trim content))) content ::
            (← piecesFrom form fuel none after)
      | _, _ => do
        return .token token text :: (← piecesFrom form fuel (leafAfter leaf token here) after)

/-- The pieces of a source. -/
def pieces (source : List Char) : Except LexFault (List Piece) :=
  piecesFrom (formOf source) source.length none source

/-- A token and its span. -/
structure Lexeme where
  token : Token
  span : Span
  deriving DecidableEq, Repr

/-- The tokens among pieces that start at a byte position. -/
def lexemesFrom (position : Nat) : List Piece → List Lexeme
  | [] => []
  | .gap text :: rest => lexemesFrom (position + Text.utf8Size text) rest
  | .token token text :: rest =>
    let stop := position + Text.utf8Size text
    ⟨token, ⟨position, stop⟩⟩ :: lexemesFrom stop rest

/-- The causes whose fragment runs on to the end of the source. -/
def showsRest : Cause → Bool
  | .mixedForms => true
  | .unterminatedString => true
  | .unbalancedValue => true
  | .unclosedHtml _ => true
  | _ => false

/-- The error of a fault in a source. -/
def LexFault.toError (source : List Char) (fault : LexFault) : Error :=
  let size := Text.utf8Size source
  let start := size - Text.utf8Size fault.rest
  let span : Span := ⟨start, start + Text.utf8Size fault.lexeme⟩
  Error.located source fault.cause span (if showsRest fault.cause then ⟨start, size⟩ else span)

/-- The tokens of a source, or its first error. -/
def lex (source : List Char) : Except Error (List Lexeme) :=
  match pieces source with
  | .ok ps => .ok (lexemesFrom 0 ps)
  | .error fault => .error (fault.toError source)

end MailTemplate.Script
