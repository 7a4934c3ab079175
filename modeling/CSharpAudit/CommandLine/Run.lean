import CSharpAudit.CommandLine.Arguments
import CSharpAudit.Document
import CSharpAudit.Engine
import CSharpAudit.Report
import CSharpAudit.Text.Case

/-!
A run of the command, as a function of its words, of what is typed and of what reading a file
gives. The settings are checked first; then a path is asked for if none is given; then the file is
read, parsed and analysed.
-/

namespace CSharpAudit.CommandLine

inductive UsageError
  | argument (error : ArgumentError)
  | unknownLevel (name : String)
  | unknownRules (ids : List String)
deriving DecidableEq, Repr

def UsageError.message : UsageError → String
  | .argument error => error.message
  | .unknownLevel name => "Invalid value for --log-level: Unknown log level: " ++ name
  | .unknownRules ids =>
    "Invalid value for --disable: Unknown rule id(s): " ++ String.intercalate ", " ids ++
      ". Known: " ++ String.intercalate ", " (sortedSet ruleIds)

structure Settings where
  path : Option String
  verbose : Bool
  disabled : List String
  threshold : Nat

def unknownRules (ids : List String) : List String :=
  sortedSet (ids.filter (fun id => !ruleIds.contains id))

/-- The settings that the words ask for. The level is checked before the rules. -/
def Settings.ofArguments (args : Arguments) : Except UsageError Settings :=
  match Log.threshold? (Text.upper args.logLevel) with
  | none => .error (.unknownLevel args.logLevel)
  | some threshold =>
    match unknownRules args.disabled with
    | [] => .ok { path := args.path, verbose := args.verbose, disabled := args.disabled, threshold }
    | unknown => .error (.unknownRules unknown)

def Settings.ofWords (words : List String) : Except UsageError Settings :=
  match Arguments.ofWords words with
  | .error e => .error (.argument e)
  | .ok args => Settings.ofArguments args

structure Outcome where
  exitCode : Nat
  output : String
  /-- Lines on the error stream, in the order of writing. -/
  errors : List String
deriving DecidableEq, Repr

namespace Outcome

def errorText (o : Outcome) : String :=
  String.join (o.errors.map (· ++ "\n"))

def after (o : Outcome) (output : String) : Outcome :=
  { o with output := output ++ o.output }

end Outcome

def pathPrompt : String := ".cs File path: "

def invalidPath : Outcome :=
  { exitCode := 1, output := AcquisitionError.Reason.blankPath.text ++ "\n", errors := [] }

def aborted : Outcome :=
  { exitCode := 1, output := "", errors := ["Aborted."] }

/-- The first line of what is typed, or nothing at the end of the input. -/
def typedLine? (typed : String) : Option String :=
  if typed = "" then none else some (String.ofList (typed.toList.takeWhile (· != '\n')))

/-- What a run reads from outside: files, what is typed, and the trees of sources. -/
structure Surroundings where
  read : String → Except ReadError Bytes
  typed : String
  grammar : Grammar

def Settings.config (s : Settings) : Config :=
  { disabled := s.disabled }

def Settings.engine (s : Settings) : Engine :=
  Engine.ofConfig s.config

def Settings.shown (s : Settings) (log : List Log.Record) : List String :=
  (log.filter (fun r => s.threshold ≤ r.level.severity)).map Log.Record.line

def Settings.report (s : Settings) (loaded : Logged (Except LoadError Document)) : Outcome :=
  match loaded.result with
  | .error error =>
    { exitCode := 1, output := "", errors := s.shown loaded.log ++ [error.report] }
  | .ok document =>
    let log := s.shown (loaded.log ++ s.engine.log document.tree)
    match s.engine.analyze document.tree with
    | .ok report => { exitCode := 0, output := report.printed s.verbose, errors := log }
    | .error error => { exitCode := 1, output := "", errors := log ++ [error.message] }

/-- A run over the file at a path. The document is asked for by the clean path, so blanks that only
separators and dots surround are no path either. -/
def Settings.runOn (s : Settings) (world : Surroundings) (path : String) : Outcome :=
  if Text.isBlankText path then invalidPath
  else s.report (Document.load world.read world.grammar (some (cleanPath (Text.trim path))))

def Settings.runOnAnswer (s : Settings) (world : Surroundings) : Outcome :=
  match typedLine? world.typed with
  | none => aborted
  | some path => s.runOn world path

def Settings.run (s : Settings) (world : Surroundings) : Outcome :=
  match s.path with
  | some path => s.runOn world path
  | none => (s.runOnAnswer world).after pathPrompt

def run (words : List String) (world : Surroundings) : Except UsageError Outcome :=
  (Settings.ofWords words).map (fun s => s.run world)

def usageExitCode : Nat := 2

def exitCode : Except UsageError Outcome → Nat
  | .error _ => usageExitCode
  | .ok outcome => outcome.exitCode

end CSharpAudit.CommandLine
