import MailTemplate.Script.Token
import MailTemplate.Text.Affix
import MailTemplate.Text.Blank

/-!
# Attribute values in scripts

A value starts right after the equals sign of its key, and its first character tells its kind: a
quote starts a quoted text, a bracket or brace embedded JSON, a less-than sign inline markup, and
anything else a bare word.  Each scanner takes the value from the front of the text and returns it
with what is left.
-/

namespace MailTemplate.Script

/-- Why a token cannot be scanned. -/
inductive ScanFault where
  | unexpected
  | unterminatedString
  | unbalancedValue
  /-- Inline markup whose element of this name is not closed. -/
  | unclosedHtml (name : String)
  deriving DecidableEq, Repr

/-! ### Quoted texts -/

/-- The rest of a quoted text, after its opening quote: a backslash makes the next character stand
for itself. -/
def scanQuoted : List Char → Except ScanFault (List Char × List Char)
  | [] => .error .unterminatedString
  | '"' :: rest => .ok ([], rest)
  | '\\' :: c :: rest => do
    let (s, rest) ← scanQuoted rest
    return (c :: s, rest)
  | c :: rest =>
    if c = '\\' then .error .unterminatedString
    else do
      let (s, rest) ← scanQuoted rest
      return (c :: s, rest)

/-! ### Embedded JSON -/

/-- Where a scan of embedded JSON stands: between values, inside a string, or after a backslash
inside a string. -/
inductive StringState where
  | outside
  | inside
  | escaped
  deriving DecidableEq, Repr

/-- The text up to the bracket that closes the outermost one.  Brackets and braces count alike, and
not inside strings; `depth` of them are open. -/
def scanStructured (state : StringState) (depth : Nat) :
    List Char → Except ScanFault (List Char × List Char)
  | [] => .error .unbalancedValue
  | c :: rest =>
    let take (state : StringState) (depth : Nat) : Except ScanFault (List Char × List Char) := do
      let (s, rest) ← scanStructured state depth rest
      return (c :: s, rest)
    match state with
    | .escaped => take .inside depth
    | .inside =>
      if c = '\\' then take .escaped depth
      else if c = '"' then take .outside depth
      else take .inside depth
    | .outside =>
      if c = '"' then take .inside depth
      else if c = '[' ∨ c = '{' then take .outside (depth + 1)
      else if c = ']' ∨ c = '}' then
        if depth ≤ 1 then .ok ([c], rest) else take .outside (depth - 1)
      else take .outside depth

/-! ### Bare words -/

/-- A bare word ends before `c`, which `rest` follows. -/
def endsBare (form : Form) (c : Char) (rest : List Char) : Bool :=
  Text.isBlank c ||
    match form with
    | .brace => c == '{' || c == '}'
    | .tag => c == '>' || (c == '/' && rest.head? == some '>')

/-- The bare word at the front of a text, which may be empty. -/
def scanBare (form : Form) : List Char → List Char × List Char
  | [] => ([], [])
  | c :: rest =>
    if endsBare form c rest then ([], c :: rest)
    else
      let (s, after) := scanBare form rest
      (c :: s, after)

/-! ### Inline markup -/

/-- Elements without closing tag. -/
def voidElements : List (List Char) :=
  ["br".toList, "hr".toList, "img".toList, "input".toList, "meta".toList, "link".toList,
   "wbr".toList]

/-- The text starts with `head`, ASCII letters of the text taken in lower case. -/
def startsWithLower : (head cs : List Char) → Bool
  | [], _ => true
  | _ :: _, [] => false
  | h :: hs, c :: cs => h == c.toLower && startsWithLower hs cs

/-- A tag name ends before the text. -/
def endsName : List Char → Bool
  | [] => true
  | c :: _ => !c.isAlphanum

/-- The text starts with a tag opener `opener`, whose name ends there. -/
def startsTag (opener cs : List Char) : Bool :=
  startsWithLower opener cs && endsName (cs.drop opener.length)

/-- The text up to the first greater-than sign, that sign included; none if there is no such
sign. -/
def throughClose : List Char → Option (List Char × List Char)
  | [] => none
  | c :: rest =>
    if c = '>' then some ([c], rest) else (throughClose rest).map fun (s, r) => (c :: s, r)

/-- The text up to the end of the closing tag that matches an element of the given name.  `depth`
more elements of the name are open inside it, and `inTag` while a closing tag of the name is being
read; inside such a tag nothing counts but its end. -/
def scanToClose (name : List Char) (depth : Nat) (inTag : Bool) :
    List Char → Option (List Char × List Char)
  | [] => none
  | c :: rest =>
    let take (depth : Nat) (inTag : Bool) : Option (List Char × List Char) :=
      (scanToClose name depth inTag rest).map fun (s, r) => (c :: s, r)
    if inTag then
      if c = '>' then
        match depth with
        | 0 => some ([c], rest)
        | depth + 1 => take depth false
      else take depth true
    else if startsTag ('<' :: '/' :: name) (c :: rest) then take depth true
    else if startsTag ('<' :: name) (c :: rest) then take (depth + 1) false
    else take depth false

/-- One element of inline markup, after its less-than sign; the text taken includes that sign. -/
def scanElement (cs : List Char) : Except ScanFault (List Char × List Char) :=
  let name := Text.lowerAscii (cs.takeWhile Char.isAlphanum)
  if name.isEmpty then .error .unexpected
  else
    match throughClose ('<' :: cs) with
    | none => .error (.unclosedHtml (String.ofList name))
    | some (opening, rest) =>
      if (Text.dropTail? ['/', '>'] opening).isSome || voidElements.contains name then
        .ok (opening, rest)
      else
        match scanToClose name 0 false rest with
        | none => .error (.unclosedHtml (String.ofList name))
        | some (body, rest) => .ok (opening ++ body, rest)

/-- One element of inline markup and all that follow it without a gap, after the first less-than
sign.  Every element takes a character, so the length of the text bounds `fuel`. -/
def scanHtml : (fuel : Nat) → List Char → Except ScanFault (List Char × List Char)
  | 0, _ => .error .unexpected
  | fuel + 1, cs => do
    let (element, rest) ← scanElement cs
    match rest with
    | '<' :: '/' :: _ => return (element, rest)
    | '<' :: more => do
      let (siblings, rest) ← scanHtml fuel more
      return (element ++ siblings, rest)
    | _ => return (element, rest)

/-- The whole text is one value of inline markup. -/
def isInlineHtml (text : List Char) : Bool :=
  match text with
  | '<' :: rest =>
    match scanHtml text.length rest with
    | .ok (_, []) => true
    | _ => false
  | _ => false

/-! ### Values -/

/-- The value at the front of a text. -/
def scanValue (form : Form) (cs : List Char) : Except ScanFault (RawValue × List Char) :=
  match cs with
  | '"' :: rest => do
    let (s, rest) ← scanQuoted rest
    return (.quoted (String.ofList s), rest)
  | '[' :: _ => do
    let (s, rest) ← scanStructured .outside 0 cs
    return (.structured (String.ofList s), rest)
  | '{' :: _ => do
    let (s, rest) ← scanStructured .outside 0 cs
    return (.structured (String.ofList s), rest)
  | '<' :: rest => do
    let (s, rest) ← scanHtml cs.length rest
    return (.html (String.ofList s), rest)
  | _ =>
    let (s, rest) := scanBare form cs
    return (.bare (String.ofList s), rest)

end MailTemplate.Script
