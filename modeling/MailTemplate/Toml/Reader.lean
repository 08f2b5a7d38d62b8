import MailTemplate.Toml.Scalar

/-!
# Reading TOML texts

A text is read line by line into one table: key and value, or the header of the table that the lines
after it belong to.  What is repeated or contradicts what stands before is a fault at the start of
its line.
-/

namespace MailTemplate.Toml

mutual

/-- A value.  `depth` more arrays and tables may be opened; every step takes a character, so the
length of the text bounds `fuel`. -/
def readValue (fuel depth : Nat) (start : List Char) : Except Fault (Toml × List Char) :=
  match fuel with
  | 0 => fail start
  | fuel + 1 =>
    match start with
    | [] => fail []
    | '"' :: rest => do
      let (s, rest) ← readText '"' rest
      return (.text start.length (String.ofList s), rest)
    | '\'' :: rest => do
      let (s, rest) ← readText '\'' rest
      return (.text start.length (String.ofList s), rest)
    | '[' :: rest =>
      match depth with
      | 0 => fail start
      | depth + 1 => do
        let (items, rest) ← readItems fuel depth (skipLines rest) rest
        return (.array start.length items, rest)
    | '{' :: rest =>
      match depth with
      | 0 => fail start
      | depth + 1 => do
        let (entries, rest) ← readPairs fuel depth rest [] rest rest
        return (.table start.length .inline entries, rest)
    | 't' :: 'r' :: 'u' :: 'e' :: rest => .ok (.bool start.length true, rest)
    | 'f' :: 'a' :: 'l' :: 's' :: 'e' :: rest => .ok (.bool start.length false, rest)
    | c :: _ =>
      if c.isDigit || c == '+' || c == '-' then readNumeric start
      else
        match start with
        | 'i' :: 'n' :: 'f' :: _ => readNumber start
        | 'n' :: 'a' :: 'n' :: _ => readNumber start
        | _ => fail start

/-- The items of an array up to its closing bracket; `cs` is the text after the last comma or the
opening bracket and the blanks after it. -/
def readItems (fuel depth : Nat) (cs before : List Char) : Except Fault (List Toml × List Char) :=
  match fuel with
  | 0 => fail before
  | fuel + 1 =>
    match cs with
    | ']' :: rest => .ok ([], rest)
    | cs => do
      let (item, rest) ← readValue fuel depth cs
      match skipLines rest with
      | ',' :: rest => do
        let (items, rest) ← readItems fuel depth (skipLines rest) rest
        return (item :: items, rest)
      | ']' :: rest => return ([item], rest)
      | rest => fail rest

/-- The entries of an inline table up to its closing brace.  A repeated key is a fault at `opened`,
and a comma without an entry one at `comma`. -/
def readPairs (fuel depth : Nat) (opened : List Char) (entries : Entries)
    (comma cs : List Char) : Except Fault (Entries × List Char) :=
  match fuel with
  | 0 => fail cs
  | fuel + 1 => do
    match ← readPath? cs with
    | none =>
      match entries, skipGap cs with
      | [], '}' :: rest => return ([], rest)
      | [], rest => fail rest
      | _, _ => fail comma
    | some ((path, key), rest) =>
      let rest ← expect '=' rest
      let (value, rest) ← readValue fuel depth (skipGap rest)
      match insert path key value .inline entries with
      | none => fail opened
      | some entries =>
        match skipGap rest with
        | '}' :: rest => return (entries, rest)
        | ',' :: after => readPairs fuel depth opened entries (',' :: after) after
        | rest => fail rest

end

/-- What has been read of a text: its table, and the header of the last one opened. -/
structure Progress where
  root : Entries := []
  header : List Key := []

/-- A header, after its opening; `start` is the line from its front on. -/
def readHeader (start : List Char) (repeated : Bool) (cs : List Char) (p : Progress) :
    Except Fault (Progress × List Char) := do
  match ← readPath? cs with
  | none => fail (skipGap cs)
  | some ((path, key), rest) =>
    let rest ← if repeated then
        match rest with
        | ']' :: ']' :: after => pure after
        | rest => fail rest
      else expect ']' rest
    let rest ← readLineEnd rest
    let opened := if repeated then openItem path key start.length p.root
      else openTable path key start.length p.root
    match opened with
    | some root => return (⟨root, path ++ [key]⟩, rest)
    | none => fail start

/-- A line with a key and a value. -/
def readEntry (start : List Char) (p : Progress) : Except Fault (Progress × List Char) := do
  match ← readPath? start with
  | none => fail start
  | some ((path, key), rest) =>
    let rest ← expect '=' rest
    let rest := skipGap rest
    let (value, rest) ← readValue (rest.length + 1) nestingLimit rest
    let rest ← readLineEnd rest
    match insertUnder p.header path key value p.root with
    | some root => return ({ p with root }, rest)
    | none => fail start

/-- The lines of a text.  Every step takes a character, so the length of the text bounds `fuel`. -/
def readLines : (fuel : Nat) → Progress → List Char → Except Fault Entries
  | 0, p, _ => .ok p.root
  | fuel + 1, p, cs =>
    match skipGap cs with
    | [] => .ok p.root
    | '#' :: rest => do readLines fuel p (← readLineEnd ('#' :: rest))
    | '\n' :: rest => readLines fuel p rest
    | '\r' :: '\n' :: rest => readLines fuel p rest
    | '\r' :: rest => fail ('\r' :: rest)
    | ['['] => fail ['[']
    | '[' :: '[' :: rest => do
      let (p, rest) ← readHeader ('[' :: '[' :: rest) true rest p
      readLines fuel p rest
    | '[' :: rest => do
      let (p, rest) ← readHeader ('[' :: rest) false rest p
      readLines fuel p rest
    | start => do
      let (p, rest) ← readEntry start p
      readLines fuel p rest

/-- The table that a text writes, a mark of byte order at its front skipped. -/
def parse (source : List Char) : Except Fault Entries :=
  let cs := match source with
    | '\uFEFF' :: rest => rest
    | cs => cs
  readLines (cs.length + 1) {} cs

end MailTemplate.Toml
