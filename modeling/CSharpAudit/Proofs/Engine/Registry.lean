import CSharpAudit.Proofs.Engine.Blocks
import Mathlib.Data.List.Induction
import Mathlib.Data.List.Nodup

/-!
Registration of rules, over runs of calls of any length. One call either adds a
rule with a new id behind the others or is refused, so the ids of an engine stay
apart and the engine keeps the first call for each new id. That ids stay apart
is what makes the findings under an id those of one rule.
-/

namespace CSharpAudit.Engine

def ids (e : Engine) : List String :=
  e.rules.map Rule.id

/-- The engine after a call to register a rule. A refused call makes no engine,
so the one at hand goes on. -/
def afterCall (e : Engine) (r : Rule) : Engine :=
  (e.register r).toOption.getD e

def afterCalls (e : Engine) (calls : List Rule) : Engine :=
  calls.foldl afterCall e

/-- The calls that bring a new id, each the first to do so: neither a rule of the
engine nor an earlier call has the id. -/
def firstCalls (e : Engine) (calls : List Rule) : List Rule :=
  (calls.zipIdx.filter fun c =>
    c.1.id ∉ e.ids ∧ c.1.id ∉ (calls.take c.2).map Rule.id).map Prod.fst

/-! One call. -/

theorem register_of_mem {e : Engine} {r : Rule} (h : r.id ∈ e.ids) :
    e.register r = .error (.duplicate r.id) := by
  obtain ⟨other, hother, hid⟩ := List.mem_map.mp h
  have htaken : e.rules.any (fun other => other.id == r.id) = true :=
    List.any_eq_true.mpr ⟨other, hother, beq_iff_eq.mpr hid⟩
  rw [register, if_pos htaken]

theorem register_of_not_mem {e : Engine} {r : Rule} (h : r.id ∉ e.ids) :
    e.register r = .ok ⟨e.rules ++ [r]⟩ := by
  have hfree : ¬ e.rules.any (fun other => other.id == r.id) = true := by
    intro hany
    obtain ⟨other, hother, hid⟩ := List.any_eq_true.mp hany
    exact h (List.mem_map.mpr ⟨other, hother, beq_iff_eq.mp hid⟩)
  rw [register, if_neg hfree]

theorem register_eq_ok_iff {e next : Engine} {r : Rule} :
    e.register r = .ok next ↔ r.id ∉ e.ids ∧ next = ⟨e.rules ++ [r]⟩ := by
  by_cases h : r.id ∈ e.ids
  · simp [register_of_mem h, h]
  · simp [register_of_not_mem h, h, eq_comm]

theorem register_eq_error_iff {e : Engine} {r : Rule} {error : RegistrationError} :
    e.register r = .error error ↔ r.id ∈ e.ids ∧ error = .duplicate r.id := by
  by_cases h : r.id ∈ e.ids
  · simp [register_of_mem h, h, eq_comm]
  · simp [register_of_not_mem h, h]

theorem afterCall_of_mem {e : Engine} {r : Rule} (h : r.id ∈ e.ids) : e.afterCall r = e := by
  rw [afterCall, register_of_mem h]
  rfl

theorem afterCall_of_not_mem {e : Engine} {r : Rule} (h : r.id ∉ e.ids) :
    e.afterCall r = ⟨e.rules ++ [r]⟩ := by
  rw [afterCall, register_of_not_mem h]
  rfl

theorem mem_ids_afterCall {e : Engine} {r : Rule} {id : String} :
    id ∈ (e.afterCall r).ids ↔ id ∈ e.ids ∨ id = r.id := by
  by_cases h : r.id ∈ e.ids
  · rw [afterCall_of_mem h]
    constructor
    · exact Or.inl
    · rintro (hid | rfl)
      · exact hid
      · exact h
  · rw [afterCall_of_not_mem h]
    simp [ids]

theorem nodup_ids_afterCall {e : Engine} (hids : e.ids.Nodup) (r : Rule) :
    (e.afterCall r).ids.Nodup := by
  by_cases h : r.id ∈ e.ids
  · rwa [afterCall_of_mem h]
  · rw [afterCall_of_not_mem h, ids, List.map_append, List.map_singleton]
    exact List.concat_eq_append ▸ List.Nodup.concat h hids

/-! Runs of calls. -/

theorem afterCalls_append_singleton (e : Engine) (calls : List Rule) (r : Rule) :
    e.afterCalls (calls ++ [r]) = (e.afterCalls calls).afterCall r := by
  rw [afterCalls, List.foldl_append]
  rfl

theorem mem_ids_afterCalls {e : Engine} {calls : List Rule} {id : String} :
    id ∈ (e.afterCalls calls).ids ↔ id ∈ e.ids ∨ id ∈ calls.map Rule.id := by
  induction calls using List.reverseRecOn with
  | nil => simp [afterCalls]
  | append_singleton calls r ih =>
      rw [afterCalls_append_singleton, mem_ids_afterCall, ih]
      simp [or_assoc]

theorem nodup_ids_afterCalls {e : Engine} (hids : e.ids.Nodup) (calls : List Rule) :
    (e.afterCalls calls).ids.Nodup := by
  induction calls using List.reverseRecOn with
  | nil => exact hids
  | append_singleton calls r ih =>
      rw [afterCalls_append_singleton]
      exact nodup_ids_afterCall ih r

theorem firstCalls_append_singleton (e : Engine) (calls : List Rule) (r : Rule) :
    e.firstCalls (calls ++ [r]) =
      e.firstCalls calls ++ if r.id ∈ (e.afterCalls calls).ids then [] else [r] := by
  have hearlier : calls.zipIdx.filter (fun c =>
        c.1.id ∉ e.ids ∧ c.1.id ∉ ((calls ++ [r]).take c.2).map Rule.id) =
      calls.zipIdx.filter fun c => c.1.id ∉ e.ids ∧ c.1.id ∉ (calls.take c.2).map Rule.id := by
    refine List.filter_congr fun c hc => ?_
    have hlt := List.snd_lt_of_mem_zipIdx hc
    rw [List.take_append_of_le_length (by omega)]
  rw [firstCalls, List.zipIdx_append, List.filter_append, List.map_append, hearlier]
  refine congrArg (e.firstCalls calls ++ ·) ?_
  have hnew : r.id ∈ (e.afterCalls calls).ids ↔ ¬ (r.id ∉ e.ids ∧ r.id ∉ calls.map Rule.id) := by
    rw [mem_ids_afterCalls]
    tauto
  simp only [List.zipIdx_singleton, Nat.zero_add, List.filter_singleton, List.take_left, hnew]
  by_cases h : r.id ∉ e.ids ∧ r.id ∉ calls.map Rule.id
  · rw [decide_eq_true h, if_neg (not_not_intro h)]
    rfl
  · rw [decide_eq_false h, if_pos h]
    rfl

theorem rules_afterCalls (e : Engine) (calls : List Rule) :
    (e.afterCalls calls).rules = e.rules ++ e.firstCalls calls := by
  induction calls using List.reverseRecOn with
  | nil => simp [afterCalls, firstCalls]
  | append_singleton calls r ih =>
      rw [afterCalls_append_singleton, firstCalls_append_singleton, ← List.append_assoc, ← ih]
      by_cases h : r.id ∈ (e.afterCalls calls).ids
      · rw [afterCall_of_mem h, if_pos h, List.append_nil]
      · rw [afterCall_of_not_mem h, if_neg h]

/-! Reports by rule. -/

theorem filter_rules_eq_nil {rules : List Rule} {id : String} (h : id ∉ rules.map Rule.id) :
    rules.filter (fun r => r.id == id) = [] := by
  rw [List.filter_eq_nil_iff]
  intro r hr hid
  exact h (beq_iff_eq.mp hid ▸ List.mem_map_of_mem hr)

theorem filter_rules_eq_singleton {rules : List Rule} (hids : (rules.map Rule.id).Nodup) {r : Rule}
    (hr : r ∈ rules) : rules.filter (fun other => other.id == r.id) = [r] := by
  induction rules with
  | nil => simp at hr
  | cons first rest ih =>
      obtain ⟨hfirst, hrest⟩ := List.nodup_cons.mp hids
      rcases List.mem_cons.mp hr with rfl | hr
      · simp [filter_rules_eq_nil hfirst]
      · have hne : first.id ≠ r.id := by
          intro hid
          exact hfirst (hid ▸ List.mem_map_of_mem hr)
        simp [hne, ih hrest hr]

theorem byRule_of_mem {rules : List Rule} (hids : (rules.map Rule.id).Nodup) {t : Tree}
    (ht : t.StartsInside) {r : Rule} (hr : r ∈ rules) :
    Report.byRule ⟨rules.flatMap fun r => r.block t⟩ r.id = r.block t := by
  rw [Report.byRule, filter_flatMap_block rules ht (· == r.id), filter_rules_eq_singleton hids hr,
    List.flatMap_singleton]

theorem byRule_of_not_mem {rules : List Rule} {t : Tree} (ht : t.StartsInside) {id : String}
    (hid : id ∉ rules.map Rule.id) :
    Report.byRule ⟨rules.flatMap fun r => r.block t⟩ id = [] := by
  rw [Report.byRule, filter_flatMap_block rules ht (· == id), filter_rules_eq_nil hid,
    List.flatMap_nil]

/-- A report that can be told apart by rule: what it holds under the id of a rule
is what that rule detects, and under any other id nothing. The log of the run has
one count for each rule, which is the number of its findings, and their sum. -/
structure ReportsByRule (e : Engine) (t : Tree) (report : Report) : Prop where
  detect_eq : ∀ r ∈ e.rules, r.detect t = .ok (report.byRule r.id)
  byRule_eq_nil : ∀ id ∉ e.ids, report.byRule id = []
  log_eq : e.log t =
    e.rules.map (fun r =>
      ⟨.debug, "sharplint.engine",
        "Rule " ++ r.id ++ ": " ++ toString (report.byRule r.id).length ++ " finding(s)"⟩) ++
      [⟨.info, "sharplint.engine",
        "Analysis complete: " ++ toString report.findings.length ++ " finding(s) from " ++
          toString e.rules.length ++ " rule(s)"⟩]
  sum_eq : (e.rules.map fun r => (report.byRule r.id).length).sum = report.findings.length

theorem reportsByRule {e : Engine} (hids : e.ids.Nodup) {t : Tree} (ht : t.StartsInside) :
    e.ReportsByRule t ⟨e.rules.flatMap fun r => r.block t⟩ := by
  have hcount : ∀ r ∈ e.rules,
      (Report.byRule ⟨e.rules.flatMap fun r => r.block t⟩ r.id).length = (r.block t).length :=
    fun r hr => by rw [byRule_of_mem hids ht hr]
  have htotal : (e.rules.map fun r => (r.block t).length).sum =
      (e.rules.flatMap fun r => r.block t).length :=
    List.length_flatMap.symm
  refine ⟨fun r hr => ?_, fun id hid => byRule_of_not_mem ht hid, ?_, ?_⟩
  · rw [byRule_of_mem hids ht hr]
    exact r.detect_eq_block ht
  · have hrecords : e.rules.map (fun r => ruleRecord r
          (Report.byRule ⟨e.rules.flatMap fun r => r.block t⟩ r.id).length) =
        e.rules.map fun r => ruleRecord r (r.block t).length :=
      List.map_congr_left fun r hr => congrArg (ruleRecord r) (hcount r hr)
    rw [log, logFrom_eq e.rules ht, htotal, Nat.zero_add, ← hrecords]
    rfl
  · rw [List.map_congr_left hcount, htotal]

/-- Over any run of calls, accepted and refused, the ids stay apart, and the rules
are those at the start and then the first call for each new id. A call is refused
exactly if its id is taken, and then nothing changes. At every point of the run
the report can be told apart by rule, and an accepted call prolongs it. -/
theorem registry_over_runs (e : Engine) (hids : e.ids.Nodup) (calls : List Rule) :
    (e.afterCalls calls).ids.Nodup ∧
    (e.afterCalls calls).rules = e.rules ++ e.firstCalls calls ∧
    (∀ r error, (e.afterCalls calls).register r = .error error →
      r.id ∈ (e.afterCalls calls).ids ∧ error = .duplicate r.id ∧
        e.afterCalls (calls ++ [r]) = e.afterCalls calls) ∧
    (∀ r next, (e.afterCalls calls).register r = .ok next →
      r.id ∉ (e.afterCalls calls).ids ∧ e.afterCalls (calls ++ [r]) = next) ∧
    ∀ t : Tree, t.StartsInside →
      ∃ report, (e.afterCalls calls).analyze t = .ok report ∧
        (e.afterCalls calls).ReportsByRule t report ∧
        ∀ r next, (e.afterCalls calls).register r = .ok next →
          ∃ longer, next.analyze t = .ok longer ∧ report.findings <+: longer.findings := by
  have hafter := nodup_ids_afterCalls hids calls
  refine ⟨hafter, rules_afterCalls e calls, fun r error h => ?_, fun r next h => ?_,
    fun t ht => ?_⟩
  · obtain ⟨hr, rfl⟩ := register_eq_error_iff.mp h
    rw [afterCalls_append_singleton, afterCall_of_mem hr]
    exact ⟨hr, rfl, rfl⟩
  · obtain ⟨hr, rfl⟩ := register_eq_ok_iff.mp h
    rw [afterCalls_append_singleton, afterCall_of_not_mem hr]
    exact ⟨hr, rfl⟩
  · refine ⟨_, analyze_eq_flatMap _ ht, reportsByRule hafter ht, fun r next h => ?_⟩
    obtain ⟨-, rfl⟩ := register_eq_ok_iff.mp h
    refine ⟨_, analyze_eq_flatMap _ ht, ?_⟩
    change _ <+: ((e.afterCalls calls).rules ++ [r]).flatMap _
    rw [List.flatMap_append]
    exact List.prefix_append _ _

def conditions : Rule :=
  .forKind "Conditions" "conditions" "Condition" .ifStatement none

/-- Two rules with new ids, a third with the id of the first, and one that
`twoRules` has already. -/
def fourCalls : List Rule :=
  [conditions, .publicWritableField, .forKind "Branches" "conditions" "Branch" .ifStatement none,
    .publicField]

def twoRules : Engine :=
  ⟨[.publicField, .collapsibleIf]⟩

/-- Of the four calls two are accepted, and each of two conditions is found once
by the new rule. -/
theorem registry_after_fourCalls :
    (twoRules.afterCalls fourCalls).ids =
        ["public-field", "collapsible-nested-if", "conditions", "public-non-readonly-field"] ∧
      (∃ report, (twoRules.afterCalls fourCalls).analyze smallProgram = .ok report ∧
        (report.byRule "conditions").length = 2 ∧ report.byRule "branches" = []) ∧
      (twoRules.afterCalls fourCalls).log smallProgram =
        [⟨.debug, "sharplint.engine", "Rule public-field: 1 finding(s)"⟩,
          ⟨.debug, "sharplint.engine", "Rule collapsible-nested-if: 1 finding(s)"⟩,
          ⟨.debug, "sharplint.engine", "Rule conditions: 2 finding(s)"⟩,
          ⟨.debug, "sharplint.engine", "Rule public-non-readonly-field: 1 finding(s)"⟩,
          ⟨.info, "sharplint.engine", "Analysis complete: 5 finding(s) from 4 rule(s)"⟩] := by
  have hids : (twoRules.afterCalls fourCalls).ids =
      ["public-field", "collapsible-nested-if", "conditions", "public-non-readonly-field"] := by
    decide
  obtain ⟨-, -, -, -, hreports⟩ := registry_over_runs twoRules (by decide) fourCalls
  obtain ⟨report, hreport, hbyRule, -⟩ := hreports smallProgram startsInside_smallProgram
  have hcount : ∀ r ∈ (twoRules.afterCalls fourCalls).rules,
      (report.byRule r.id).length = (smallProgram.root.strictlyBelow.filter fun n =>
        n.kind == r.kind && r.matches? n).length := by
    intro r hr
    have hdetect := hbyRule.detect_eq r hr
    rw [r.detect_eq_block startsInside_smallProgram, Except.ok.injEq] at hdetect
    rw [← hdetect, r.length_block startsInside_smallProgram]
  have htotal := hbyRule.sum_eq
  have hlog := hbyRule.log_eq
  rw [List.map_congr_left hcount] at htotal
  rw [← htotal, List.map_congr_left fun r hr => by rw [hcount r hr]] at hlog
  refine ⟨hids, ⟨report, hreport, ?_, hbyRule.byRule_eq_nil _ (by rw [hids]; decide)⟩, ?_⟩
  · exact (hcount conditions (List.mem_of_getElem? (i := 2) rfl)).trans (by decide)
  · exact hlog.trans (by decide)

end CSharpAudit.Engine
