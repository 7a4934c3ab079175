import CSharpAudit.Rule.Builtin

/-!
Which of the built-in rules run, and with which limits.
-/

namespace CSharpAudit

structure Config where
  maxParameters : Int := Rule.defaultLimit
  primitiveNames : List String := Rule.primitiveNames
  /-- Ids of rules to leave out. Unknown ids leave out nothing. -/
  disabled : List String := []

namespace Config

/-- All built-in rules, in the order in which their findings are reported. -/
def allRules (c : Config) : List Rule :=
  [Rule.publicField, Rule.publicWritableField, Rule.inferredPrimitive c.primitiveNames,
    Rule.longParameterList c.maxParameters, Rule.collapsibleIf]

def enabledRules (c : Config) : List Rule :=
  c.allRules.filter (fun r => !c.disabled.contains r.id)

def isEnabled (c : Config) (id : String) : Bool :=
  c.enabledRules.any (fun r => r.id == id)

end Config

def ruleIds : List String :=
  (Config.allRules {}).map Rule.id

/-- Distinct texts in the order of their code points. -/
def sortedSet (texts : List String) : List String :=
  texts.eraseDups.mergeSort (fun a b => decide (a ≤ b))

end CSharpAudit
