/-!
Findings and reports.
-/

namespace CSharpAudit

/-- A place in a source that a rule objects to. Lines and columns count from 1. -/
structure Finding where
  ruleId : String
  label : String
  line : Int
  column : Int
  snippet : String
deriving DecidableEq, Repr

/-- The findings of one run, by rule in the order of the rules, and by place within a rule. -/
structure Report where
  findings : List Finding
deriving DecidableEq, Repr

namespace Report

def problemFound (r : Report) : Bool :=
  !r.findings.isEmpty

def byRule (r : Report) (id : String) : List Finding :=
  r.findings.filter (fun f => f.ruleId == id)

end Report

end CSharpAudit
