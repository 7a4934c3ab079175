/-!
Log records. What an operation logs is part of its result; nothing is written here.
-/

namespace CSharpAudit.Log

inductive Level
  | debug
  | info
  | warning
  | error
deriving DecidableEq, Repr

def Level.name : Level → String
  | .debug => "DEBUG"
  | .info => "INFO"
  | .warning => "WARNING"
  | .error => "ERROR"

def Level.severity : Level → Nat
  | .debug => 10
  | .info => 20
  | .warning => 30
  | .error => 40

structure Record where
  level : Level
  logger : String
  message : String
deriving DecidableEq, Repr

/-- The line of a record, without the clock time in front of it: that is no part of what an
operation comes to. -/
def Record.line (r : Record) : String :=
  "[" ++ r.level.name ++ "] " ++ r.logger ++ ": " ++ r.message

/-- The least severity that is shown, for a name of a level in capitals. -/
def threshold? (name : String) : Option Nat :=
  match name with
  | "CRITICAL" => some 50
  | "FATAL" => some 50
  | "ERROR" => some 40
  | "WARN" => some 30
  | "WARNING" => some 30
  | "INFO" => some 20
  | "DEBUG" => some 10
  | "NOTSET" => some 0
  | _ => none

end CSharpAudit.Log
