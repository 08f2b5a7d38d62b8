import MailTemplate.Markup.Reference
import MailTemplate.Markup.Vocabulary
import MailTemplate.Text.Affix

/-!
# Tokens of markup

Markup is read from the front, one token at a time.  Every text is markup: what forms no tag, no
comment and no reference is text.  How the next token is read depends on the element that is open,
which `Content` says.

A tag or a declaration that the end of the text cuts off gives no token.
-/

namespace MailTemplate.Markup

/-- An opening tag, its name and the names of its attributes in lower case. -/
structure Tag where
  name : String
  attributes : List (String × String) := []
  /-- The tag ends with a slash, by which it closes a foreign element. -/
  selfClosing : Bool := false
  deriving DecidableEq, Repr

/-- A piece of markup. -/
inductive Token where
  /-- Text that is blank or has no blank in it. -/
  | text (characters : List Char)
  /-- A null character outside the elements of plain text. -/
  | null
  | comment (characters : List Char)
  | openTag (tag : Tag)
  | closeTag (name : String)
  /-- The end of the text. -/
  | finish
  deriving DecidableEq, Repr

/-- What an element may hold. -/
inductive Content where
  /-- Tags, comments, references and text. -/
  | markup
  /-- Text with references, up to the closing tag of the element. -/
  | referenced (name : String)
  /-- Text without references, up to the closing tag of the element. -/
  | verbatim (name : String)
  /-- A script, up to its closing tag. -/
  | script
  /-- Text without references, with no end. -/
  | plain
  deriving DecidableEq, Repr

/-- The text with its null characters replaced. -/
def withoutNulls (cs : List Char) : List Char :=
  cs.map fun c => if c = '\x00' then replacement else c

/-! ### Tags -/

/-- A character that ends the name of a tag. -/
def endsName (c : Char) : Bool := isGap c || c == '/' || c == '>'

/-- The text is at its end or goes on with a character that ends the name of a tag. -/
def nameEnds (cs : List Char) : Bool := cs.head?.any endsName

/-- A name in a tag. -/
def tagName (cs : List Char) : String :=
  String.ofList (Text.lowerAscii (withoutNulls cs))

/-- The text after the blanks at its front. -/
def skipGap (cs : List Char) : List Char := cs.dropWhile isGap

/-- The value after an equals sign, and what follows it; none if the text ends before. -/
def readValue (cs : List Char) : Option (String × List Char) :=
  let quoted (quote : Char) (rest : List Char) : Option (String × List Char) :=
    match rest.dropWhile (· != quote) with
    | [] => none
    | _ :: after => some (String.ofList (decodeValue (rest.takeWhile (· != quote))), after)
  match skipGap cs with
  | [] => none
  | '"' :: rest => quoted '"' rest
  | '\'' :: rest => quoted '\'' rest
  | rest =>
    let inValue (c : Char) : Bool := !isGap c && c != '>'
    some (String.ofList (decodeValue (rest.takeWhile inValue)), rest.dropWhile inValue)

/-- The attributes of a tag up to its end, whether a slash ends it, and what follows; none if the
text ends before.  The first attribute of a name counts.  Every step takes a character, so the
length of the text bounds the steps. -/
def readAttributes : (fuel : Nat) → (before : List (String × String)) → List Char →
    Option (List (String × String) × Bool × List Char)
  | 0, _, _ => none
  | fuel + 1, before, cs =>
    let isBetween (c : Char) : Bool := isGap c || c == '/'
    match cs.dropWhile isBetween with
    | [] => none
    | '>' :: rest => some (before, (cs.takeWhile isBetween).getLast? == some '/', rest)
    | c :: rest =>
      let inName (c : Char) : Bool := !endsName c && c != '='
      let name := tagName (c :: rest.takeWhile inName)
      let add (value : String) : List (String × String) :=
        if before.any fun a => a.1 == name then before else before ++ [(name, value)]
      match skipGap (rest.dropWhile inName) with
      | '=' :: after =>
        match readValue after with
        | some (value, after) => readAttributes fuel (add value) after
        | none => none
      | after => readAttributes fuel (add "") after

/-- A tag from its name on, and what follows it; none if the text ends before it does. -/
def readTag (cs : List Char) : Option (Tag × List Char) :=
  let inName (c : Char) : Bool := !endsName c
  let rest := cs.dropWhile inName
  (readAttributes (rest.length + 1) [] rest).map fun (attributes, selfClosing, after) =>
    ({ name := tagName (cs.takeWhile inName), attributes, selfClosing }, after)

/-- The text starts with `name` in either case, and a tag's name ends there: what follows. -/
def dropTagName? (name cs : List Char) : Option (List Char) :=
  let front := cs.take name.length
  let rest := cs.drop name.length
  if Text.lowerAscii front = name && nameEnds rest then some rest else none

/-! ### Comments -/

/-- A comment after its two opening hyphens: its text, and what follows it.  The end of the text
ends it too, and hyphens there are left out. -/
def readComment : List Char → List Char × List Char
  | '>' :: rest => ([], rest)
  | '-' :: '>' :: rest => ([], rest)
  | cs => go cs
where
  /-- The text up to a closing mark. -/
  go : List Char → List Char × List Char
    | [] => ([], [])
    | '-' :: '-' :: '>' :: rest => ([], rest)
    | '-' :: '-' :: '!' :: '>' :: rest => ([], rest)
    | ['-'] => ([], [])
    | ['-', '-'] => ([], [])
    | ['-', '-', '!'] => ([], [])
    | c :: rest =>
      let (text, after) := go rest
      (c :: text, after)

/-- The text up to a greater-than sign, and what follows the sign. -/
def readDeclaration (cs : List Char) : List Char × List Char :=
  (cs.takeWhile (· != '>'), (cs.dropWhile (· != '>')).drop 1)

/-- A comment that takes the text up to a greater-than sign. -/
def strayComment (cs : List Char) : Option Token × List Char :=
  let (text, rest) := readDeclaration cs
  (some (.comment (withoutNulls text)), rest)

/-! ### Scripts -/

/-- How far a script is inside what looks like a comment. -/
inductive ScriptDepth where
  | outside
  | inComment
  /-- Inside a nested script in a comment. -/
  | nested
  deriving DecidableEq, Repr

/-- The text of a script up to its closing tag, and what follows.  A closing tag of a script that a
comment in the script opens does not end it. -/
def readScript : ScriptDepth → List Char → List Char × List Char
  | _, [] => ([], [])
  | depth, c :: rest =>
    let here := c :: rest
    let closes := ((Text.dropHead? ['<', '/'] here).bind (dropTagName? "script".toList)).isSome
    let opens := ((Text.dropHead? ['<'] here).bind (dropTagName? "script".toList)).isSome
    let next : Option ScriptDepth :=
      match depth with
      | .outside =>
        if closes then none
        else some (if Text.startsWith "<!--".toList here then .inComment else .outside)
      | .inComment =>
        if closes then none
        else if Text.startsWith "-->".toList here then some .outside
        else some (if opens then .nested else .inComment)
      | .nested =>
        if Text.startsWith "-->".toList here then some .outside
        else some (if closes then .inComment else .nested)
    match next with
    | none => ([], here)
    | some depth =>
      let (text, after) := readScript depth rest
      (c :: text, after)

/-! ### Tokens -/

/-- The text at the front that is all blank or has no blank, without the characters of `stops`. -/
def readRun (stops : List Char) (c : Char) (rest : List Char) : Token × List Char :=
  let inRun (d : Char) : Bool := isGap d == isGap c && !stops.contains d
  (.text (withoutNulls (c :: rest.takeWhile inRun)), rest.dropWhile inRun)

/-- The token at an ampersand. -/
def readAmpersand (rest : List Char) : Token × List Char :=
  match readReference false rest with
  | some (characters, after) => (.text characters, after)
  | none => (.text ['&'], rest)

/-- The token at a less-than sign in markup. -/
def readAngle (rest : List Char) : Option Token × List Char :=
  match rest with
  | '!' :: cs =>
    match Text.dropHead? ['-', '-'] cs with
    | some after =>
      let (text, after) := readComment after
      (some (.comment (withoutNulls text)), after)
    | none =>
      if Text.lowerAscii (cs.take 7) = "doctype".toList then (none, (readDeclaration cs).2)
      else strayComment cs
  | '/' :: '>' :: cs => (none, cs)
  | '/' :: [] => (some (.text ['<', '/']), [])
  | '/' :: c :: cs =>
    if c.isAlpha then
      match readTag (c :: cs) with
      | some (tag, after) => (some (.closeTag tag.name), after)
      | none => (none, [])
    else strayComment (c :: cs)
  | c :: cs =>
    if c = '?' then strayComment (c :: cs)
    else if c.isAlpha then
      match readTag (c :: cs) with
      | some (tag, after) => (some (.openTag tag), after)
      | none => (none, [])
    else (some (.text ['<']), c :: cs)
  | [] => (some (.text ['<']), [])

/-- The token at a less-than sign in an element of plain text. -/
def readRawAngle (name : String) (rest : List Char) : Option Token × List Char :=
  match (Text.dropHead? ['/'] rest).bind (dropTagName? name.toList) with
  | none => (some (.text ['<']), rest)
  | some after =>
    match readAttributes (after.length + 1) [] after with
    | some (_, _, after) => (some (.closeTag name), after)
    | none => (none, [])

/-- The token at the front of a text of which `c` is the first character, and what follows it. -/
def readToken (content : Content) (c : Char) (rest : List Char) : Option Token × List Char :=
  let run (stops : List Char) : Option Token × List Char :=
    let (token, after) := readRun stops c rest
    (some token, after)
  let reference : Option Token × List Char :=
    let (token, after) := readAmpersand rest
    (some token, after)
  match content with
  | .plain => run []
  | .markup =>
    if c = '<' then readAngle rest
    else if c = '&' then reference
    else if c = '\x00' then (some .null, rest)
    else run ['<', '&', '\x00']
  | .referenced name =>
    if c = '<' then readRawAngle name rest
    else if c = '&' then reference
    else run ['<', '&']
  | .verbatim name => if c = '<' then readRawAngle name rest else run ['<']
  | .script =>
    match readScript .outside (c :: rest) with
    | ([], _) => readRawAngle "script" rest
    | (text, after) => (some (.text (withoutNulls text)), after)

/-- A character that is no part of a tag or a reference. -/
def Token.ofChar (c : Char) : Token := if c = '\x00' then .null else .text [c]

/-- Character data at the front of a text, one token for each character, and what follows its end
mark.  No tag and no reference is read in it. -/
def readCharacterData? (cs : List Char) : Option (List Token × List Char) :=
  (Text.dropHead? "<![CDATA[".toList cs).map fun after =>
    let (characters, rest) := (Text.splitAt? "]]>".toList after).getD (after, [])
    (characters.map Token.ofChar, rest)

/-- The text with each line end a line feed, and without a mark of byte order at its front. -/
def withLineFeeds (cs : List Char) : List Char :=
  go (match cs with
    | '\uFEFF' :: rest => rest
    | cs => cs)
where
  /-- Replaces the line ends. -/
  go : List Char → List Char
    | [] => []
    | '\r' :: '\n' :: rest => '\n' :: go rest
    | '\r' :: rest => '\n' :: go rest
    | c :: rest => c :: go rest

end MailTemplate.Markup
