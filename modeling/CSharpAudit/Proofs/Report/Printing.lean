import CSharpAudit.Proofs.Text.Distinct
import CSharpAudit.Report
import Mathlib.Algebra.BigOperators.Group.List.Lemmas
import Mathlib.Algebra.GroupWithZero.Nat
import Mathlib.Tactic.SplitIfs

/-!
What is printed of a report. The loop over the findings that gives the hints
remembers the rules it has seen, the one that counts keeps a tally. Both meet
the rules in the order of their first findings, so hints and counts agree with
each other, and the counts with the findings of each rule and with the total.
-/

namespace CSharpAudit

theorem sum_count_eraseDups (keys : List String) :
    (keys.eraseDups.map keys.count).sum = keys.length := by
  have hperm : keys.eraseDups.Perm keys.dedup := by
    refine (List.perm_ext_iff_of_nodup (distinctInOrder_eraseDups keys).nodup
      keys.nodup_dedup).mpr fun key => ?_
    rw [List.mem_eraseDups, List.mem_dedup]
  rw [(hperm.map _).sum_eq]
  exact List.sum_map_count_dedup_eq_length keys

namespace Tally

theorem add_map {ids : List String} (hids : ids.Nodup) (n : String → Nat) (key : String) :
    add (ids.map fun id => (id, n id)) key =
      if key ∈ ids then ids.map fun id => (id, if id = key then n id + 1 else n id)
      else (ids.map fun id => (id, n id)) ++ [(key, 1)] := by
  induction ids with
  | nil => rfl
  | cons id ids ih =>
      rw [List.nodup_cons] at hids
      rw [List.map_cons, add]
      by_cases hid : id = key
      · subst hid
        have hrest : (ids.map fun other => (other, if other = id then n other + 1 else n other)) =
            ids.map fun other => (other, n other) := by
          refine List.map_congr_left fun other hother => ?_
          have hne : other ≠ id := fun heq => hids.1 (heq ▸ hother)
          rw [if_neg hne]
        rw [if_pos rfl, if_pos List.mem_cons_self, List.map_cons, if_pos rfl, hrest]
      · rw [if_neg hid, ih hids.2, List.map_cons, if_neg hid]
        have hmem : key ∈ id :: ids ↔ key ∈ ids := by
          rw [List.mem_cons, or_iff_right fun heq => hid heq.symm]
        simp only [hmem]
        split_ifs
        · rfl
        · rfl

theorem ofKeys_eq (keys : List String) :
    ofKeys keys = keys.eraseDups.map fun key => (key, keys.count key) := by
  induction keys using List.reverseRecOn with
  | nil => rfl
  | append_singleton keys key ih =>
      have hcount (id : String) : (keys ++ [key]).count id =
          if id = key then keys.count id + 1 else keys.count id := by
        rw [List.count_append, List.count_singleton]
        split_ifs <;> simp_all
      rw [ofKeys, List.foldl_append, ← ofKeys, ih, List.foldl_cons, List.foldl_nil,
        add_map (distinctInOrder_eraseDups keys).nodup, eraseDups_append_singleton]
      simp only [List.mem_eraseDups, hcount]
      split_ifs with hkey
      · rfl
      · have hold : ∀ id ∈ keys.eraseDups, id ≠ key :=
          fun id hid heq => hkey (heq ▸ List.mem_eraseDups.mp hid)
        rw [List.map_append, List.map_singleton, if_pos rfl, List.count_eq_zero.mpr hkey]
        congr 1
        refine List.map_congr_left fun id hid => ?_
        rw [if_neg (hold id hid)]

example : ofKeys ["style", "public-field", "style"] = [("style", 2), ("public-field", 1)] := by
  decide

end Tally

/-! Texts that a console writes as they are. -/

namespace Text

def isControl (c : Char) : Bool :=
  c.toNat < 0x20 || (0x7F ≤ c.toNat && c.toNat < 0xA0)

def IsPlain (text : String) : Prop :=
  ∀ c ∈ text.toList, isControl c = false

instance (text : String) : Decidable (IsPlain text) :=
  List.decidableBAll (fun c => isControl c = false) text.toList

theorem isPlain_append {a b : String} : IsPlain (a ++ b) ↔ IsPlain a ∧ IsPlain b := by
  simp only [IsPlain, String.toList_append, List.forall_mem_append]

theorem isPlain_toString (n : Nat) : IsPlain (toString n) := by
  intro c hc
  change c ∈ (Nat.repr n).toList at hc
  rw [Nat.toList_repr] at hc
  have hdigit : 48 ≤ c.toNat ∧ c.toNat ≤ 57 :=
    Char.isDigit_iff_toNat.mp (Nat.isDigit_of_mem_toDigits (by decide) (by decide) hc)
  simp only [isControl, Bool.or_eq_false_iff, Bool.and_eq_false_iff, decide_eq_false_iff_not]
  omega

theorem isPlain_intercalate {mark : String} {texts : List String} (hmark : IsPlain mark)
    (htexts : ∀ text ∈ texts, IsPlain text) : IsPlain (String.intercalate mark texts) := by
  induction texts with
  | nil => exact fun c hc => absurd hc (by simp)
  | cons text rest ih =>
      rw [List.forall_mem_cons] at htexts
      cases rest with
      | nil =>
          rw [String.intercalate_singleton]
          exact htexts.1
      | cons next more =>
          rw [String.intercalate_cons_cons, isPlain_append, isPlain_append]
          exact ⟨⟨htexts.1, hmark⟩, ih htexts.2⟩

end Text

/-- The rules that have a remedy, with the hint for each. -/
def remedies : List (String × String) :=
  [("public-field", "Expose the value through a property instead of a public field."),
    ("public-non-readonly-field",
      "Mark the field readonly, or replace it with a property with a private setter."),
    ("var-primitive-type", "Spell out the primitive type instead of var (e.g. int count = 0;)."),
    ("long-parameter-list",
      "Group related parameters into a parameter object or split the method."),
    ("collapsible-nested-if", "Merge the conditions: if (a && b) \x7b ... \x7d.")]

theorem remedy?_eq_lookup (ruleId : String) : remedy? ruleId = remedies.lookup ruleId := by
  unfold remedy?
  split
  case h_6 hpublic hwritable hvar hlong hnested =>
    symm
    rw [List.lookup_eq_none_iff]
    simpa [remedies] using ⟨hpublic, hwritable, hvar, hlong, hnested⟩
  all_goals rfl

theorem isPlain_of_lookup_remedies {ruleId hint : String}
    (h : remedies.lookup ruleId = some hint) : Text.IsPlain hint := by
  have hall : ∀ remedy ∈ remedies, Text.IsPlain remedy.2 := by decide +kernel
  obtain ⟨before, after, hsplit, -⟩ := List.lookup_eq_some_iff.mp h
  exact hall (ruleId, hint) (hsplit ▸ List.mem_append_right before List.mem_cons_self)

theorem hintLine?_eq (ruleId : String) :
    hintLine? ruleId =
      (remedies.lookup ruleId).map fun hint => "[Fix] [" ++ ruleId ++ "] " ++ hint := by
  rw [hintLine?, remedy?_eq_lookup]

theorem Console.write_append (console : Console) (a b : List String) :
    Console.write console (a ++ b) = Console.write console a ++ Console.write console b := by
  rw [write, List.map_append, String.join_append]
  rfl

namespace Report

/-- The loop that gives the hints meets each new rule once, in order. -/
theorem hintsAfter_eq (seen : List String) (findings : List Finding) :
    hintsAfter seen findings =
      ((findings.map Finding.ruleId).filter (· ∉ seen)).eraseDups.filterMap hintLine? := by
  induction findings generalizing seen with
  | nil => rfl
  | cons f rest ih =>
      rw [hintsAfter, List.map_cons]
      by_cases hseen : f.ruleId ∈ seen
      · rw [if_pos hseen, List.filter_cons_of_neg (by simpa using hseen), ih]
      · have hrest : ((rest.map Finding.ruleId).filter (· ∉ seen)).filter (!· == f.ruleId) =
            (rest.map Finding.ruleId).filter (· ∉ f.ruleId :: seen) := by
          rw [List.filter_filter]
          refine List.filter_congr fun id _ => ?_
          rw [Bool.eq_iff_iff]
          simp
        rw [if_neg hseen, List.filter_cons_of_pos (by simpa using hseen), List.eraseDups_cons,
          hrest, ih, List.filterMap_cons]
        cases hintLine? f.ruleId <;> rfl

theorem hintLines_eq (r : Report) :
    r.hintLines = (r.findings.map Finding.ruleId).eraseDups.filterMap hintLine? := by
  rw [hintLines, hintsAfter_eq, List.filter_eq_self.mpr fun _ _ => by simp]

theorem count_ruleId (r : Report) (id : String) :
    (r.findings.map Finding.ruleId).count id = (r.byRule id).length := by
  rw [byRule, List.count, List.countP_map, List.countP_eq_length_filter]
  rfl

theorem summaryLine_eq (r : Report) :
    r.summaryLine = String.intercalate " | "
      ((toString r.findings.length ++ if r.findings.length = 1 then " finding" else " findings") ::
        (r.findings.map Finding.ruleId).eraseDups.map fun id =>
          toString (r.byRule id).length ++ " " ++ id) := by
  rw [summaryLine, Tally.ofKeys_eq, List.map_map]
  simp only [Function.comp_def, count_ruleId]

theorem isPlain_of_mem_hintLines {r : Report} (hids : ∀ f ∈ r.findings, Text.IsPlain f.ruleId)
    {line : String} (hline : line ∈ r.hintLines) : Text.IsPlain line := by
  rw [hintLines_eq, List.mem_filterMap] at hline
  obtain ⟨id, hid, hline⟩ := hline
  obtain ⟨f, hf, rfl⟩ := List.mem_map.mp (List.mem_eraseDups.mp hid)
  rw [hintLine?_eq, Option.map_eq_some_iff] at hline
  obtain ⟨hint, hhint, rfl⟩ := hline
  simp only [Text.isPlain_append]
  exact ⟨⟨⟨by decide, hids f hf⟩, by decide⟩, isPlain_of_lookup_remedies hhint⟩

theorem isPlain_summaryLine {r : Report} (hids : ∀ f ∈ r.findings, Text.IsPlain f.ruleId) :
    Text.IsPlain r.summaryLine := by
  rw [summaryLine_eq]
  refine Text.isPlain_intercalate (by decide) (List.forall_mem_cons.mpr ⟨?_, fun line hline => ?_⟩)
  · refine Text.isPlain_append.mpr ⟨Text.isPlain_toString _, ?_⟩
    split_ifs
    · decide
    · decide
  · obtain ⟨id, hid, rfl⟩ := List.mem_map.mp hline
    obtain ⟨f, hf, rfl⟩ := List.mem_map.mp (List.mem_eraseDups.mp hid)
    simp only [Text.isPlain_append]
    exact ⟨⟨Text.isPlain_toString _, by decide⟩, hids f hf⟩

/-- What is printed accounts for every finding. On a console that writes plain texts
as they are, the lines of the findings come first, and by default nothing else. On
request the hints of the rules that have one follow in the order of their first
findings, then an empty line and the summary. The summary counts the findings of
each rule, in the same order, and these counts add up to the total. -/
theorem printedOn_accounts_for_findings {console : Console}
    (hconsole : ∀ line, Text.IsPlain line → console line = line ++ "\n") {r : Report}
    (hids : ∀ f ∈ r.findings, Text.IsPlain f.ruleId) :
    r.printedOn console false = String.join (r.render.map (· ++ "\n")) ∧
    (r.findings = [] → r.printedOn console true = String.join (r.render.map (· ++ "\n"))) ∧
    (r.findings ≠ [] → ∃ ids,
      DistinctInOrder ids (r.findings.map Finding.ruleId) ∧
      r.printedOn console true = String.join ((r.render ++
        ids.filterMap (fun id =>
          (remedies.lookup id).map fun hint => "[Fix] [" ++ id ++ "] " ++ hint) ++
        ["", String.intercalate " | "
          ((toString r.findings.length ++
              if r.findings.length = 1 then " finding" else " findings") ::
            ids.map fun id => toString (r.byRule id).length ++ " " ++ id)]).map (· ++ "\n")) ∧
      (ids.map fun id => (r.byRule id).length).sum = r.findings.length) := by
  refine ⟨rfl, fun hnil => ?_, fun hne => ?_⟩
  · have hquiet : ¬ (true && r.problemFound) = true := by simp [problemFound, hnil]
    rw [printedOn, if_neg hquiet]
    rfl
  · refine ⟨_, distinctInOrder_eraseDups _, ?_, ?_⟩
    · have hplain : ∀ line ∈ r.hintLines ++ ["", r.summaryLine], Text.IsPlain line := by
        refine List.forall_mem_append.mpr ⟨fun line => isPlain_of_mem_hintLines hids, ?_⟩
        refine List.forall_mem_cons.mpr ⟨by decide, ?_⟩
        exact List.forall_mem_singleton.mpr (isPlain_summaryLine hids)
      have hwrite : Console.write console (r.hintLines ++ ["", r.summaryLine]) =
          Console.write Console.plain (r.hintLines ++ ["", r.summaryLine]) := by
        rw [Console.write, List.map_congr_left fun line hline => hconsole line (hplain line hline)]
        rfl
      have hverbose : (true && r.problemFound) = true := by simp [problemFound, hne]
      have hhints : (fun id => (remedies.lookup id).map fun hint =>
          "[Fix] [" ++ id ++ "] " ++ hint) = hintLine? := by
        funext id
        rw [hintLine?_eq]
      rw [hhints, ← hintLines_eq, ← summaryLine_eq, List.append_assoc, printedOn, if_pos hverbose,
        hwrite, ← Console.write_append]
      rfl
    · simp only [← count_ruleId]
      rw [sum_count_eraseDups, List.length_map]

/-- Two rules whose findings take turns. Only the second one has a hint. -/
def takingTurns : Report :=
  ⟨[⟨"style", "Style", 1, 1, "a"⟩, ⟨"public-field", "Public field", 2, 1, "b"⟩,
    ⟨"style", "Style", 3, 1, "c"⟩]⟩

/-- A console that leaves control characters out. -/
def quietConsole : Console :=
  fun line => String.ofList (line.toList.filter fun c => !Text.isControl c) ++ "\n"

theorem quietConsole_of_isPlain {line : String} (h : Text.IsPlain line) :
    quietConsole line = line ++ "\n" := by
  have hall : ∀ c ∈ line.toList, (!Text.isControl c) = true := fun c hc => by rw [h c hc]; rfl
  rw [quietConsole, List.filter_eq_self.mpr hall, String.ofList_toList]

theorem printedOn_accounts_takingTurns :
    (∀ f ∈ takingTurns.findings, Text.IsPlain f.ruleId) ∧
    takingTurns.printedOn quietConsole true =
      "Style found on line 1: a\n" ++
      "Public field found on line 2: b\n" ++
      "Style found on line 3: c\n" ++
      "[Fix] [public-field] Expose the value through a property instead of a public field.\n" ++
      "\n" ++
      "3 findings | 2 style | 1 public-field\n" := by
  have hids : ∀ f ∈ takingTurns.findings, Text.IsPlain f.ruleId := by decide
  obtain ⟨ids, hdistinct, hprinted, -⟩ :=
    (printedOn_accounts_for_findings (fun _ => quietConsole_of_isPlain) hids).2.2 (by decide)
  obtain rfl := hdistinct.eq_eraseDups
  exact ⟨hids, hprinted.trans (by decide +kernel)⟩

end Report

end CSharpAudit
