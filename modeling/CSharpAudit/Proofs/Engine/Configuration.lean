import CSharpAudit.Proofs.Engine.Blocks

/-!
What a configuration does to a report. Ids that are left out take their findings
with them and nothing else. A higher limit and fewer names of types make two of
the built-in rules match less, and a rule that matches less finds a part of what
it found before, in the same order.
-/

namespace CSharpAudit

theorem sublist_of_mapM {α β ε : Type} {f : α → Except ε β} {part items : List α}
    {few results : List β} (h : part.Sublist items) (hpart : part.mapM f = .ok few)
    (hitems : items.mapM f = .ok results) : few.Sublist results := by
  rw [mapM_eq_ok_iff] at hpart hitems
  induction h generalizing few results with
  | slnil =>
      obtain rfl := List.forall₂_nil_left_iff.mp hpart
      exact List.nil_sublist results
  | cons a _ ih =>
      obtain ⟨b, more, -, hmore, rfl⟩ := List.forall₂_cons_left_iff.mp hitems
      exact (ih hpart hmore).cons b
  | cons_cons a _ ih =>
      obtain ⟨b, more, hb, hmore, rfl⟩ := List.forall₂_cons_left_iff.mp hitems
      obtain ⟨c, fewer, hc, hfewer, rfl⟩ := List.forall₂_cons_left_iff.mp hpart
      obtain rfl : c = b := Except.ok.inj (hc.symm.trans hb)
      exact (ih hfewer hmore).cons_cons c

namespace Rule

/-- A rule that reports as another does, and matches nothing that the other does
not. -/
structure Narrows (r wide : Rule) : Prop where
  id : r.id = wide.id
  label : r.label = wide.label
  kind : r.kind = wide.kind
  matches? : ∀ n, r.matches? n = true → wide.matches? n = true

theorem Narrows.refl (r : Rule) : r.Narrows r :=
  ⟨rfl, rfl, rfl, fun _ h => h⟩

theorem Narrows.block_sublist {r wide : Rule} (h : r.Narrows wide) {t : Tree}
    (ht : t.StartsInside) : (r.block t).Sublist (wide.block t) := by
  have hnodes := matchedNodes_sublist h.kind h.matches? t
  have hfinding : r.finding t = wide.finding t := by
    funext n
    simp only [finding, h.id, h.label]
  have hpart := r.detect_eq_block ht
  rw [detect, hfinding] at hpart
  exact sublist_of_mapM hnodes hpart (wide.detect_eq_block ht)

theorem inferredPrimitive_narrows {few many : List String} (h : few ⊆ many) :
    (inferredPrimitive few).Narrows (inferredPrimitive many) := by
  refine ⟨rfl, rfl, rfl, fun n hn => ?_⟩
  simp only [inferredPrimitive, isPrimitive] at hn ⊢
  cases htype : n.childByField? "type" with
  | none => simp [htype] at hn
  | some type =>
      cases hname : type.name with
      | none => simp [htype, hname] at hn
      | some name =>
          simp only [htype, hname, Bool.and_eq_true, List.contains_iff_mem] at hn ⊢
          exact ⟨hn.1, h hn.2⟩

theorem longParameterList_narrows {low high : Int} (h : low ≤ high) :
    (longParameterList high).Narrows (longParameterList low) := by
  refine ⟨rfl, rfl, rfl, fun n hn => ?_⟩
  simp only [longParameterList, decide_eq_true_eq] at hn ⊢
  omega

end Rule

namespace Config

theorem enabledRules_eq (c : Config) :
    c.enabledRules = c.allRules.filter fun r => r.id ∉ c.disabled := by
  refine List.filter_congr fun r _ => ?_
  simp

theorem enabledRules_of_nil (limit : Int) (names : List String) :
    enabledRules ⟨limit, names, []⟩ = allRules ⟨limit, names, []⟩ := by
  rw [enabledRules_eq, List.filter_eq_self]
  intro r _
  exact decide_eq_true List.not_mem_nil

def fixedIds : List String :=
  ["public-field", "public-non-readonly-field", "collapsible-nested-if"]

theorem filter_enabledRules (c : Config) :
    c.enabledRules.filter (fun r => r.id ∈ fixedIds) =
      [Rule.publicField, Rule.publicWritableField, Rule.collapsibleIf].filter
        fun r => r.id ∉ c.disabled := by
  rw [enabledRules_eq, List.filter_comm]
  rfl

theorem allRules_narrows {low high : Int} (hlimit : low ≤ high) {few many : List String}
    (hnames : few ⊆ many) (disabled : List String) :
    List.Forall₂ Rule.Narrows (allRules ⟨high, few, disabled⟩)
      (allRules ⟨low, many, disabled⟩) :=
  .cons (.refl _) <| .cons (.refl _) <| .cons (Rule.inferredPrimitive_narrows hnames) <|
    .cons (Rule.longParameterList_narrows hlimit) <| .cons (.refl _) .nil

theorem enabledRules_narrows {low high : Int} (hlimit : low ≤ high) {few many : List String}
    (hnames : few ⊆ many) (disabled : List String) :
    List.Forall₂ Rule.Narrows (enabledRules ⟨high, few, disabled⟩)
      (enabledRules ⟨low, many, disabled⟩) := by
  refine List.rel_filter ?_ (allRules_narrows hlimit hnames disabled)
  intro r wide h
  simp [h.id]

end Config

namespace Engine

theorem flatMap_block_sublist {rules wide : List Rule} (h : List.Forall₂ Rule.Narrows rules wide)
    {t : Tree} (ht : t.StartsInside) :
    (rules.flatMap fun r => r.block t).Sublist (wide.flatMap fun r => r.block t) := by
  induction h with
  | nil => exact List.Sublist.refl _
  | cons hr _ ih =>
      rw [List.flatMap_cons, List.flatMap_cons]
      exact (hr.block_sublist ht).append ih

theorem analyze_ofConfig (c : Config) {t : Tree} (ht : t.StartsInside) :
    (ofConfig c).analyze t = .ok ⟨c.enabledRules.flatMap fun r => r.block t⟩ :=
  analyze_eq_flatMap c.enabledRules ht

theorem length_findings {c : Config} {t : Tree} (ht : t.StartsInside) {report : Report}
    (h : (ofConfig c).analyze t = .ok report) :
    report.findings.length = (c.enabledRules.map fun r =>
      (t.root.strictlyBelow.filter fun n => n.kind == r.kind && r.matches? n).length).sum := by
  obtain rfl := Except.ok.inj (h.symm.trans (analyze_ofConfig c ht))
  simp only [List.length_flatMap, Rule.length_block _ ht]

/-- To leave out rules is to leave out their findings. -/
theorem analyze_disabled (limit : Int) (names disabled : List String) (t : Tree)
    (ht : t.StartsInside) :
    ∃ report, (ofConfig ⟨limit, names, []⟩).analyze t = .ok report ∧
      (ofConfig ⟨limit, names, disabled⟩).analyze t =
        .ok ⟨report.findings.filter fun f => f.ruleId ∉ disabled⟩ := by
  refine ⟨_, analyze_ofConfig _ ht, ?_⟩
  rw [analyze_ofConfig _ ht, Config.enabledRules_of_nil,
    filter_flatMap_block _ ht (fun id => id ∉ disabled), Config.enabledRules_eq]
  rfl

/-- All five rules find something. An id that no rule has leaves out nothing. -/
theorem analyze_disabled_smallProgram :
    ∃ report, (ofConfig ⟨1, ["char"], []⟩).analyze smallProgram = .ok report ∧
      report.findings.length = 5 ∧
      (ofConfig ⟨1, ["char"], ["public-field", "no-such-rule"]⟩).analyze smallProgram =
        .ok ⟨report.findings.filter fun f => f.ruleId ∉ ["public-field", "no-such-rule"]⟩ := by
  obtain ⟨report, hreport, hdisabled⟩ := analyze_disabled 1 ["char"]
    ["public-field", "no-such-rule"] smallProgram startsInside_smallProgram
  refine ⟨report, hreport, ?_, hdisabled⟩
  rw [length_findings startsInside_smallProgram hreport]
  decide

/-- A higher limit and fewer names only take findings away, and only from the two
rules that they are meant for. -/
theorem analyze_loosened (disabled : List String) (low high : Int) (hlimit : low ≤ high)
    (few many : List String) (hnames : few ⊆ many) (t : Tree) (ht : t.StartsInside) :
    ∃ strict loose : Report,
      (ofConfig ⟨low, many, disabled⟩).analyze t = .ok strict ∧
      (ofConfig ⟨high, few, disabled⟩).analyze t = .ok loose ∧
      loose.findings.Sublist strict.findings ∧
      loose.findings.filter (fun f => f.ruleId ∈ Config.fixedIds) =
        strict.findings.filter (fun f => f.ruleId ∈ Config.fixedIds) := by
  refine ⟨_, _, analyze_ofConfig _ ht, analyze_ofConfig _ ht, ?_, ?_⟩
  · exact flatMap_block_sublist (Config.enabledRules_narrows hlimit hnames disabled) ht
  · have hfixed (c : Config) := filter_flatMap_block c.enabledRules ht
      fun id => id ∈ Config.fixedIds
    change List.filter _ (List.flatMap _ _) = List.filter _ (List.flatMap _ _)
    rw [hfixed, hfixed, Config.filter_enabledRules, Config.filter_enabledRules]

/-- With a limit of two parameters and without `char` among the names, three of
five findings stay. -/
theorem analyze_loosened_smallProgram :
    ∃ strict loose : Report,
      (ofConfig ⟨-1, ["int", "char"], ["no-such-rule"]⟩).analyze smallProgram = .ok strict ∧
      (ofConfig ⟨2, ["int"], ["no-such-rule"]⟩).analyze smallProgram = .ok loose ∧
      strict.findings.length = 5 ∧ loose.findings.length = 3 ∧
      loose.findings.Sublist strict.findings := by
  obtain ⟨strict, loose, hstrict, hloose, hsublist, -⟩ := analyze_loosened ["no-such-rule"] (-1) 2
    (by decide) ["int"] ["int", "char"] (by decide) smallProgram startsInside_smallProgram
  refine ⟨strict, loose, hstrict, hloose, ?_, ?_, hsublist⟩
  · rw [length_findings startsInside_smallProgram hstrict]
    decide
  · rw [length_findings startsInside_smallProgram hloose]
    decide

end Engine

end CSharpAudit
