import CSharpAudit.Config
import CSharpAudit.Log
import CSharpAudit.Tree.Parse

/-!
The engine: a list of rules that run over a tree one after the other.
-/

namespace CSharpAudit

structure Engine where
  rules : List Rule

inductive RegistrationError
  | duplicate (id : String)
deriving DecidableEq, Repr

def RegistrationError.message : RegistrationError → String
  | .duplicate id => "Rule " ++ Text.quoted id ++ " is already registered"

namespace Engine

def ofConfig (c : Config) : Engine :=
  { rules := c.enabledRules }

/-- Adds a rule behind the others, unless one of them has its id. -/
def register (e : Engine) (r : Rule) : Except RegistrationError Engine :=
  if e.rules.any (fun other => other.id == r.id) then .error (.duplicate r.id)
  else .ok { rules := e.rules ++ [r] }

def blocks (e : Engine) (t : Tree) : Except PositionError (List (List Finding)) :=
  e.rules.mapM (fun r => r.detect t)

/-- Runs every rule. A match outside the source stops the run. -/
def analyze (e : Engine) (t : Tree) : Except PositionError Report := do
  let blocks ← e.blocks t
  return { findings := blocks.flatten }

def ruleRecord (r : Rule) (findings : Nat) : Log.Record :=
  ⟨.debug, "sharplint.engine", "Rule " ++ r.id ++ ": " ++ toString findings ++ " finding(s)"⟩

def summaryRecord (findings rules : Nat) : Log.Record :=
  ⟨.info, "sharplint.engine", "Analysis complete: " ++ toString findings ++ " finding(s) from " ++
    toString rules ++ " rule(s)"⟩

/-- One record for each rule up to the first that stops the run, and a summary of a whole run.
`total` counts the findings of the rules before. -/
def logFrom (t : Tree) (total ruleCount : Nat) : List Rule → List Log.Record
  | [] => [summaryRecord total ruleCount]
  | r :: rest =>
    match r.detect t with
    | .ok findings =>
      ruleRecord r findings.length :: logFrom t (total + findings.length) ruleCount rest
    | .error _ => []

def log (e : Engine) (t : Tree) : List Log.Record :=
  logFrom t 0 e.rules.length e.rules

end Engine

end CSharpAudit
