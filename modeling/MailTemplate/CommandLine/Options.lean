import MailTemplate.Starter.Templates
import MailTemplate.Text.Affix

/-!
# Options of the command line

What the arguments of a command ask for.  Options have a long name, most also a letter; letters may
be joined.  An option may be given once, and one input may be named.  After a double hyphen nothing
is an option.
-/

namespace MailTemplate.CommandLine

/-- The forms in which a document is written. -/
inductive OutputFormat where
  | html
  | script
  | tags
  | json
  deriving DecidableEq, Repr

/-- The format of a name. -/
def OutputFormat.ofName? : String → Option OutputFormat
  | "html" => some html
  | "script" => some script
  | "tags" => some tags
  | "json" => some json
  | _ => none

/-- The options of a command. -/
structure Options where
  /-- The file to read; standard input if there is none. -/
  input : Option String := none
  /-- The file of settings. -/
  config : Option String := none
  format : Option OutputFormat := none
  mobile : Bool := false
  /-- The seed of the theme, in place of the document's own. -/
  theme : Option String := none
  /-- The image file of the logo. -/
  logo : Option String := none
  /-- The seed of a palette that is written instead of a document. -/
  palette : Option String := none
  /-- The name of the starter that is taken instead of input. -/
  starter : Option String := none
  grammar : Bool := false
  debug : Bool := false
  deriving DecidableEq, Repr

/-- Why arguments ask for no work. -/
inductive Refusal where
  | help
  | misuse
  deriving DecidableEq, Repr

/-- An option without a value. -/
inductive Flag where
  | mobile
  | grammar
  | debug
  | help
  deriving DecidableEq, Repr

/-- An option with a value. -/
inductive Slot where
  | config
  | format
  | theme
  | logo
  | palette
  | starter
  deriving DecidableEq, Repr

/-- An option. -/
inductive Parameter where
  | flag (flag : Flag)
  | slot (slot : Slot)
  deriving DecidableEq, Repr

/-- The option of a long name. -/
def Parameter.ofName? : String → Option Parameter
  | "mobile" => some (flag .mobile)
  | "grammar" => some (flag .grammar)
  | "debug" => some (flag .debug)
  | "help" => some (flag .help)
  | "config" => some (slot .config)
  | "format" => some (slot .format)
  | "theme" => some (slot .theme)
  | "logo" => some (slot .logo)
  | "palette" => some (slot .palette)
  | "starter" => some (slot .starter)
  | _ => none

/-- The option of a letter. -/
def Parameter.ofLetter? : Char → Option Parameter
  | 'm' => some (flag .mobile)
  | 'g' => some (flag .grammar)
  | 'd' => some (flag .debug)
  | 'h' => some (flag .help)
  | 'c' => some (slot .config)
  | 'f' => some (slot .format)
  | 't' => some (slot .theme)
  | 's' => some (slot .starter)
  | _ => none

namespace Options

/-- Sets something that may be set once. -/
def once {α : Type} (former : Option α) (value : α) : Except Refusal (Option α) :=
  if former.isSome then .error .misuse else .ok (some value)

/-- The name of a file, which is not empty. -/
def fileName (name : String) : Except Refusal String :=
  if name.isEmpty then .error .misuse else .ok name

/-- The options with a flag set. -/
def setFlag (o : Options) : Flag → Except Refusal Options
  | .mobile => if o.mobile then .error .misuse else .ok { o with mobile := true }
  | .grammar => if o.grammar then .error .misuse else .ok { o with grammar := true }
  | .debug => if o.debug then .error .misuse else .ok { o with debug := true }
  | .help => .error .help

/-- The options with a value set. -/
def setSlot (o : Options) (slot : Slot) (value : String) : Except Refusal Options :=
  match slot with
  | .config => return { o with config := ← once o.config (← fileName value) }
  | .logo => return { o with logo := ← once o.logo (← fileName value) }
  | .theme => return { o with theme := ← once o.theme value }
  | .palette => return { o with palette := ← once o.palette value }
  | .format =>
    match OutputFormat.ofName? value with
    | some format => return { o with format := ← once o.format format }
    | none => throw .misuse
  | .starter =>
    if (Starter.all.lookup value).isSome then return { o with starter := ← once o.starter value }
    else throw .misuse

/-- The options with the input named. -/
def setInput (o : Options) (name : String) : Except Refusal Options :=
  return { o with input := ← once o.input (← fileName name) }

/-- Reads the letters after a hyphen.  The rest after a letter that takes a value is that value, an
equals sign before it left out; without a rest the next argument is. -/
def setLetters (o : Options) : List Char → Except Refusal (Options × Option Slot)
  | [] => .ok (o, none)
  | letter :: rest =>
    match Parameter.ofLetter? letter with
    | none => .error .misuse
    | some (.flag flag) => do setLetters (← o.setFlag flag) rest
    | some (.slot slot) =>
      match rest with
      | [] => .ok (o, some slot)
      | '=' :: value => return (← o.setSlot slot (String.ofList value), none)
      | value => return (← o.setSlot slot (String.ofList value), none)

/-- Reads an option after its two hyphens: a value may follow an equals sign. -/
def setLong (o : Options) (cs : List Char) : Except Refusal (Options × Option Slot) :=
  let name := String.ofList (cs.takeWhile (· != '='))
  let value : Option String := match cs.dropWhile (· != '=') with
    | [] => none
    | _ :: value => some (String.ofList value)
  match Parameter.ofName? name, value with
  | some (.flag flag), none => return (← o.setFlag flag, none)
  | some (.slot slot), none => .ok (o, some slot)
  | some (.slot slot), some value => return (← o.setSlot slot value, none)
  | _, _ => .error .misuse

/-- Reads arguments; `awaited` is the option whose value the next one is. -/
def readFrom (o : Options) (awaited : Option Slot) : List String → Except Refusal Options
  | [] => if awaited.isSome then .error .misuse else .ok o
  | arg :: args =>
    match arg.toList, awaited with
    | '-' :: _ :: _, some _ => .error .misuse
    | ['-', '-'], none => args.foldlM setInput o
    | '-' :: '-' :: cs, none => do
      let (o, awaited) ← o.setLong cs
      readFrom o awaited args
    | '-' :: c :: cs, none => do
      let (o, awaited) ← o.setLetters (c :: cs)
      readFrom o awaited args
    | _, some slot => do readFrom (← o.setSlot slot arg) none args
    | _, none => do readFrom (← o.setInput arg) none args

/-- The options that arguments give. -/
def ofArguments (args : List String) : Except Refusal Options := readFrom {} none args

end Options

end MailTemplate.CommandLine
