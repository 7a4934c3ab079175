import CSharpAudit.CSharp
import CSharpAudit.CommandLine.Run

/-!
The command. It asks for a path if none is given, reads the file and prints what the run over it
comes to.
-/

namespace CSharpAudit.CommandLine

/-- The failure behind a code of the system, which may be its number or the opposite of that. -/
def readErrorOfCode (code : UInt32) (text : String) : ReadError :=
  .ofNumber code.toInt32.toInt.natAbs text

def readErrorOf : IO.Error → ReadError
  | .noFileOrDirectory _ code text => readErrorOfCode code text
  | .invalidArgument _ code text => readErrorOfCode code text
  | .permissionDenied _ code text => readErrorOfCode code text
  | .resourceExhausted _ code text => readErrorOfCode code text
  | .inappropriateType _ code text => readErrorOfCode code text
  | .noSuchThing _ code text => readErrorOfCode code text
  | .otherError code text => readErrorOfCode code text
  | error => .other 5 (toString error)

def readFile (path : String) : IO (Except ReadError Bytes) := do
  match ← (IO.FS.readBinFile path).toBaseIO with
  | .ok content => return .ok content.toList
  | .error error => return .error (readErrorOf error)

/-- The surroundings of a run over a path. A path that names no file is not read: the run asks
for no file then, and the answer that stands here is never given. -/
def surroundings (typed : String) (path : Option String) : IO Surroundings := do
  let given := path.getD ""
  let file := cleanPath (Text.trim given)
  let content ←
    if Text.isBlankText given || Text.isBlankText file || file.toList.contains '\x00' then
      pure (.error .notFound)
    else readFile file
  return { read := fun _ => content, typed, grammar := CSharp.grammar }

def runWith (settings : Settings) : IO Outcome := do
  match settings.path with
  | some path => return settings.runOn (← surroundings "" (some path)) path
  | none =>
    IO.print pathPrompt
    (← IO.getStdout).flush
    let typed ← (← IO.getStdin).getLine
    return settings.runOnAnswer (← surroundings typed (typedLine? typed))

end CSharpAudit.CommandLine

open CSharpAudit.CommandLine

def main (words : List String) : IO UInt32 := do
  match Settings.ofWords words with
  | .error error =>
    IO.eprintln ("Error: " ++ error.message)
    return usageExitCode.toUInt32
  | .ok settings =>
    let outcome ← runWith settings
    IO.print outcome.output
    IO.eprint outcome.errorText
    return outcome.exitCode.toUInt32
