import MailTemplate.CommandLine.Grammar
import MailTemplate.CommandLine.Options
import MailTemplate.Document.Codec
import MailTemplate.Page.Document
import MailTemplate.Script.Compile
import MailTemplate.Script.Report
import MailTemplate.Script.Writer
import MailTemplate.Settings
import MailTemplate.Text.Base64
import MailTemplate.Theme.Palette

/-!
# Running a command

What a command writes, as a function of its arguments and of the files and the standard input that
it finds.  Nothing is read that the options do not need: `run` asks for a file only when it comes to
it.
-/

namespace MailTemplate.CommandLine

/-! ### Files -/

/-- Why a file could not be read. -/
inductive FileFault where
  | missing
  | directory
  | notDirectory
  | denied
  /-- The file is not text in UTF-8. -/
  | notText
  /-- Any other reason, in words. -/
  | other (reason : String)
  deriving DecidableEq, Repr

/-- The fault in words. -/
def FileFault.message : FileFault → String
  | missing => "No such file or directory (os error 2)"
  | directory => "Is a directory (os error 21)"
  | notDirectory => "Not a directory (os error 20)"
  | denied => "Permission denied (os error 13)"
  | notText => "stream did not contain valid UTF-8"
  | other reason => reason

/-- What reading a file gives. -/
abbrev FileContent := Except FileFault ByteArray

/-- What a command finds. -/
structure Surroundings where
  file : String → FileContent
  input : FileContent

/-- The text of a file. -/
def textOf (content : FileContent) : Except FileFault String := do
  match String.fromUTF8? (← content) with
  | some text => return text
  | none => throw .notText

/-! ### Outcomes -/

/-- What a command leaves behind. -/
structure Outcome where
  code : Nat
  output : String := ""
  errors : String := ""
  deriving DecidableEq, Repr

/-- A command that failed, with a line that says why. -/
def Outcome.failed (line : String) : Outcome := { code := 1, errors := line ++ "\n" }

/-- A command that wrote something, with a line end after it. -/
def Outcome.wrote (text : String) : Outcome := { code := 0, output := text ++ "\n" }

/-! ### Logos -/

/-- The last part of a path. -/
def lastPart (path : List Char) : List Char :=
  ((Text.dropTails ['/'] path).reverse.takeWhile (· != '/')).reverse

/-- What follows the last point in the name of a file, which may not start with that point. -/
def extension? (path : List Char) : Option (List Char) :=
  let reversed := (lastPart path).reverse
  match reversed.dropWhile (· != '.') with
  | _ :: _ :: _ => some (reversed.takeWhile (· != '.')).reverse
  | _ => none

/-- The media type of an image file by its name. -/
def mediaType (path : String) : String :=
  match (extension? path.toList).map fun e => String.ofList (Text.lowerAscii e) with
  | some "png" => "image/png"
  | some "jpg" => "image/jpeg"
  | some "jpeg" => "image/jpeg"
  | some "gif" => "image/gif"
  | some "svg" => "image/svg+xml"
  | some "webp" => "image/webp"
  | _ => "application/octet-stream"

/-- An image as an address that holds it. -/
def dataAddress (path : String) (bytes : ByteArray) : String :=
  "data:" ++ mediaType path ++ ";base64," ++ String.ofList (Base64.encode bytes.toList)

/-! ### Steps -/

/-- The settings that a command works with. -/
def settingsFor (o : Options) (found : Surroundings) : Except Outcome Settings :=
  match o.config with
  | none => .ok {}
  | some path =>
    let failed (reason : String) : Except Outcome Settings :=
      .error (.failed ("Error loading config '" ++ path ++ "': " ++ reason))
    match textOf (found.file path) with
    | .error fault => failed ("Failed to read config file: " ++ fault.message)
    | .ok text =>
      match Settings.ofText text with
      | .error e => failed ("Failed to parse config TOML: " ++ e.message)
      | .ok settings => .ok settings

/-- The source that a command compiles. -/
def sourceFor (o : Options) (found : Surroundings) : Except Outcome String :=
  match o.input with
  | some path =>
    (textOf (found.file path)).mapError fun fault =>
      .failed ("Error reading file '" ++ path ++ "': " ++ fault.message)
  | none =>
    (textOf found.input).mapError fun fault =>
      .failed ("Error reading from stdin: " ++ fault.message)

/-- The document that a command works on. -/
def documentFor (o : Options) (found : Surroundings) : Except Outcome Document :=
  match o.starter.bind fun name => Starter.all.lookup name with
  | some draft => .ok draft.build
  | none => do
    let source ← sourceFor o found
    (Script.compile source).mapError fun e =>
      { code := 1, errors := e.report source (o.input.getD "<stdin>") }

/-- The company whose logo a command shows, if it names one. -/
def companyFor (o : Options) (found : Surroundings) : Except Outcome (Option Company) :=
  match o.logo with
  | none => .ok none
  | some path =>
    match found.file path with
    | .ok bytes => .ok (some { logo := some (dataAddress path bytes) })
    | .error fault => .error (.failed ("Error reading logo '" ++ path ++ "': " ++ fault.message))

/-- A document in the format that a command asks for. -/
def writeDocument (o : Options) (found : Surroundings) (settings : Settings) (d : Document) :
    Except Outcome String :=
  match o.format.getD .html with
  | .script => .ok (Script.write .brace d)
  | .tags => .ok (Script.write .tag d)
  | .json => .ok d.toJson.indented
  | .html => do
    let company ← companyFor o found
    return Page.ofDocument { mobile := o.mobile, company, settings := settings.render } d

/-- The document of a command, written. -/
def outputFor (o : Options) (found : Surroundings) : Except Outcome String := do
  let settings ← settingsFor o found
  let d ← documentFor o found
  let d := match o.theme with
    | some seed => { d with theme := some seed }
    | none => d
  writeDocument o found settings d

/-- What options lead to. -/
def runOptions (o : Options) (found : Surroundings) : Outcome :=
  if o.grammar then .wrote grammarText
  else
    match o.palette with
    | some seed => .wrote (Palette.ofSeed seed).toJson.indented
    | none =>
      match outputFor o found with
      | .ok text => .wrote text
      | .error outcome => outcome

/-- What arguments lead to. -/
def run (args : List String) (found : Surroundings) : Outcome :=
  match Options.ofArguments args with
  | .ok o => runOptions o found
  | .error .help => { code := 0 }
  | .error .misuse => { code := 2 }

end MailTemplate.CommandLine
