import MailTemplate.CommandLine.Run

/-!
# The command

Reads the files that the arguments name and the standard input, and writes what `run` answers.
-/

namespace MailTemplate.CommandLine

/-- A failure to read, as the fault that it reports. -/
def faultOf : IO.Error → FileFault
  | .noFileOrDirectory _ _ _ => .missing
  | .noSuchThing _ _ _ => .missing
  | .inappropriateType _ code _ => if code = 21 then .directory else .notDirectory
  | .permissionDenied _ _ _ => .denied
  | e => .other (toString e)

/-- The content of a file. -/
def readFile (path : String) : IO FileContent := do
  try
    return .ok (← IO.FS.readBinFile path)
  catch e => return .error (faultOf e)

/-- All of standard input. -/
partial def readInput (stream : IO.FS.Stream) (read : ByteArray) : IO ByteArray := do
  let chunk ← stream.read 65536
  if chunk.isEmpty then return read else readInput stream (read ++ chunk)

/-- The files that arguments name. -/
def namedFiles (args : List String) : List String :=
  match Options.ofArguments args with
  | .ok o => o.config.toList ++ o.input.toList ++ o.logo.toList
  | .error _ => []

/-- The options leave the work to standard input. -/
def needsInput (args : List String) : Bool :=
  match Options.ofArguments args with
  | .ok o => !o.grammar && o.palette.isNone && o.starter.isNone && o.input.isNone
  | .error _ => false

end MailTemplate.CommandLine

open MailTemplate.CommandLine

/-- Runs the command. -/
def main (args : List String) : IO UInt32 := do
  let files ← (namedFiles args).mapM fun path => return (path, ← readFile path)
  let input ← if needsInput args then readInput (← IO.getStdin) .empty else pure .empty
  let outcome := run args
    { file := fun path => (files.lookup path).getD (.error .missing), input := .ok input }
  IO.print outcome.output
  IO.eprint outcome.errors
  return outcome.code.toUInt32
