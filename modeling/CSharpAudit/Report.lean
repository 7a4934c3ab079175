import CSharpAudit.Finding

/-!
Reports as text: one line for each finding, and on request a hint for each rule and a summary.
-/

namespace CSharpAudit

def Finding.render (f : Finding) : String :=
  f.label ++ " found on line " ++ toString f.line ++ ": " ++ f.snippet

/-- How to mend what a built-in rule objects to. -/
def remedy? (ruleId : String) : Option String :=
  match ruleId with
  | "public-field" => some "Expose the value through a property instead of a public field."
  | "public-non-readonly-field" =>
    some "Mark the field readonly, or replace it with a property with a private setter."
  | "var-primitive-type" =>
    some "Spell out the primitive type instead of var (e.g. int count = 0;)."
  | "long-parameter-list" =>
    some "Group related parameters into a parameter object or split the method."
  | "collapsible-nested-if" => some "Merge the conditions: if (a && b) \x7b ... \x7d."
  | _ => none

def hintLine? (ruleId : String) : Option String :=
  (remedy? ruleId).map fun hint => "[Fix] [" ++ ruleId ++ "] " ++ hint

/-- Counts under keys, in the order in which the keys came up. -/
abbrev Tally := List (String × Nat)

namespace Tally

/-- One more under a key. A new key goes behind the others. -/
def add : Tally → String → Tally
  | [], key => [(key, 1)]
  | (k, n) :: rest, key => if k = key then (k, n + 1) :: rest else (k, n) :: add rest key

def ofKeys (keys : List String) : Tally :=
  keys.foldl add []

end Tally

/-- What a console makes of a line that is given to it. The lines of the findings do not go this
way: they are written as they are. -/
abbrev Console := String → String

namespace Console

def plain : Console := (· ++ "\n")

def write (console : Console) (lines : List String) : String :=
  String.join (lines.map console)

end Console

namespace Report

def noFindings : String := "No bad practice found"

def render (r : Report) : List String :=
  if r.problemFound then r.findings.map Finding.render else [noFindings]

/-- The hints of the rules that are not among the `seen` ones, each at the first finding of its
rule. -/
def hintsAfter (seen : List String) : List Finding → List String
  | [] => []
  | f :: rest =>
    if f.ruleId ∈ seen then hintsAfter seen rest
    else (hintLine? f.ruleId).toList ++ hintsAfter (f.ruleId :: seen) rest

def hintLines (r : Report) : List String :=
  hintsAfter [] r.findings

/-- The count of all findings, then that of each rule. -/
def summaryLine (r : Report) : String :=
  let total := r.findings.length
  let head := toString total ++ (if total = 1 then " finding" else " findings")
  let counts := (Tally.ofKeys (r.findings.map Finding.ruleId)).map fun (id, count) =>
    toString count ++ " " ++ id
  String.intercalate " | " (head :: counts)

/-- What is printed: the lines of the findings and, on request, the hints, an empty line and the
summary. -/
def printedOn (console : Console) (r : Report) (verbose : Bool) : String :=
  let lines := Console.write Console.plain r.render
  if verbose && r.problemFound then
    lines ++ Console.write console (r.hintLines ++ ["", r.summaryLine])
  else lines

def printed (r : Report) (verbose : Bool) : String :=
  r.printedOn Console.plain verbose

end Report

end CSharpAudit
