import CSharpAudit.Config
import CSharpAudit.Report
import Mathlib.Data.List.Forall2

/-!
Reading a rendered report. The parts of a line are put together without quotes,
and still each line gives its label, its number and its snippet back: no label
of a built-in rule is the beginning of another one, and no number holds the
colon that ends it. The snippet is all the rest, so it may hold anything.
-/

namespace CSharpAudit

def builtinLabels : List String :=
  (Config.allRules {}).map Rule.label

theorem builtinLabels_prefixFree :
    ∀ a ∈ builtinLabels, ∀ b ∈ builtinLabels, a.toList <+: b.toList → a = b := by
  decide

theorem not_prefix_noFindings :
    ∀ label ∈ builtinLabels, ¬ label.toList <+: Report.noFindings.toList := by
  decide

theorem label_eq_of_append_eq {a b : String} (ha : a ∈ builtinLabels) (hb : b ∈ builtinLabels)
    {x y : List Char} (h : a.toList ++ x = b.toList ++ y) : a = b := by
  have hfirst : a.toList <+: b.toList ++ y := by
    rw [← h]
    exact List.prefix_append _ _
  rcases List.prefix_or_prefix_of_prefix hfirst (List.prefix_append _ _) with hab | hba
  · exact builtinLabels_prefixFree a ha b hb hab
  · exact (builtinLabels_prefixFree b hb a ha hba).symm

/-- A mark ends the first part of a text if that part does not hold it. What follows
the mark may hold it again. -/
theorem append_cons_inj_of_not_mem {mark : Char} {a b x y : List Char} (ha : mark ∉ a)
    (hb : mark ∉ b) (h : a ++ mark :: x = b ++ mark :: y) : a = b ∧ x = y := by
  -- where one part is longer, it goes on with the mark
  rcases List.append_eq_append_iff.mp h with ⟨more, rfl, hmore⟩ | ⟨more, rfl, hmore⟩
  · cases more with
    | nil => exact ⟨(List.append_nil a).symm, List.tail_eq_of_cons_eq hmore⟩
    | cons c more =>
        obtain ⟨rfl, -⟩ := List.cons.inj hmore
        exact absurd (List.mem_append_right a List.mem_cons_self) hb
  · cases more with
    | nil => exact ⟨List.append_nil b, (List.tail_eq_of_cons_eq hmore).symm⟩
    | cons c more =>
        obtain ⟨rfl, -⟩ := List.cons.inj hmore
        exact absurd (List.mem_append_right b List.mem_cons_self) ha

theorem not_mem_toList_repr {c : Char} (hc : ¬ c.isDigit = true) (k : Nat) :
    c ∉ (Nat.repr k).toList := by
  intro hmem
  rw [Nat.toList_repr] at hmem
  exact hc (Nat.isDigit_of_mem_toDigits (by decide) (by decide) hmem)

theorem toList_toString_negSucc (k : Nat) :
    (toString (Int.negSucc k)).toList = '-' :: (Nat.repr (k + 1)).toList := by
  change ("-" ++ Nat.repr (k + 1)).toList = _
  rw [String.toList_append]
  rfl

theorem colon_not_mem_toString (n : Int) : ':' ∉ (toString n).toList := by
  cases n with
  | ofNat k => exact not_mem_toList_repr (by decide) k
  | negSucc k =>
      rw [toList_toString_negSucc, List.mem_cons]
      exact not_or.mpr ⟨by decide, not_mem_toList_repr (by decide) _⟩

theorem eq_of_toList_repr_eq {j k : Nat} (h : (Nat.repr j).toList = (Nat.repr k).toList) :
    j = k := by
  rw [Nat.toList_repr, Nat.toList_repr] at h
  rw [← Nat.ofDigitChars_ten_toDigits (n := j), h, Nat.ofDigitChars_ten_toDigits]

/-- A number is told by its text: the digits give its amount, and only a negative one
has a sign. -/
theorem eq_of_toList_toString_eq {m n : Int} (h : (toString m).toList = (toString n).toList) :
    m = n := by
  have hsign (j k : Nat) : (toString (Int.ofNat j)).toList ≠ (toString (Int.negSucc k)).toList := by
    intro heq
    apply not_mem_toList_repr (c := '-') (by decide) j
    change '-' ∈ (toString (Int.ofNat j)).toList
    rw [heq, toList_toString_negSucc]
    exact List.mem_cons_self
  cases m with
  | ofNat j =>
      cases n with
      | ofNat k => exact congrArg Int.ofNat (eq_of_toList_repr_eq h)
      | negSucc k => exact absurd h (hsign j k)
  | negSucc j =>
      cases n with
      | ofNat k => exact absurd h.symm (hsign k j)
      | negSucc k =>
          rw [toList_toString_negSucc, toList_toString_negSucc] at h
          exact congrArg Int.negSucc (Nat.succ.inj (eq_of_toList_repr_eq (List.cons.inj h).2))

namespace Finding

theorem toList_render (f : Finding) :
    f.render.toList = f.label.toList ++ (" found on line ".toList ++
      ((toString f.line).toList ++ ':' :: ' ' :: f.snippet.toList)) := by
  simp [render]

def SameLine (f g : Finding) : Prop :=
  f.label = g.label ∧ f.line = g.line ∧ f.snippet = g.snippet

theorem SameLine.render_eq {f g : Finding} (h : SameLine f g) : f.render = g.render := by
  rw [render, render, h.1, h.2.1, h.2.2]

theorem sameLine_of_render_eq {f g : Finding} (hf : f.label ∈ builtinLabels)
    (hg : g.label ∈ builtinLabels) (h : f.render = g.render) : SameLine f g := by
  have hchars := congrArg String.toList h
  rw [toList_render, toList_render] at hchars
  have hlabel := label_eq_of_append_eq hf hg hchars
  rw [hlabel, List.append_cancel_left_eq, List.append_cancel_left_eq] at hchars
  obtain ⟨hline, hrest⟩ := append_cons_inj_of_not_mem (colon_not_mem_toString f.line)
    (colon_not_mem_toString g.line) hchars
  have hsnippet := List.tail_eq_of_cons_eq hrest
  exact ⟨hlabel, eq_of_toList_toString_eq hline, String.toList_injective hsnippet⟩

theorem render_ne_noFindings {f : Finding} (hf : f.label ∈ builtinLabels) :
    f.render ≠ Report.noFindings := by
  intro h
  apply not_prefix_noFindings f.label hf
  rw [← h, toList_render]
  exact List.prefix_append _ _

end Finding

namespace Report

theorem render_of_ne_nil {r : Report} (h : r.findings ≠ []) :
    r.render = r.findings.map Finding.render := by
  simp [render, problemFound, h]

theorem render_of_eq_nil {r : Report} (h : r.findings = []) : r.render = [noFindings] := by
  simp [render, problemFound, h]

theorem render_eq_noFindings_iff {r : Report} (hr : ∀ f ∈ r.findings, f.label ∈ builtinLabels) :
    r.render = [noFindings] ↔ r.findings = [] := by
  refine ⟨fun h => ?_, render_of_eq_nil⟩
  by_contra hne
  rw [render_of_ne_nil hne] at h
  obtain ⟨f, hf, hline⟩ := List.mem_map.mp (h ▸ List.mem_singleton_self noFindings)
  exact Finding.render_ne_noFindings (hr f hf) hline

theorem render_eq_iff_map_render_eq {r s : Report}
    (hr : ∀ f ∈ r.findings, f.label ∈ builtinLabels)
    (hs : ∀ f ∈ s.findings, f.label ∈ builtinLabels) :
    r.render = s.render ↔ r.findings.map Finding.render = s.findings.map Finding.render := by
  by_cases hnil : r.findings = []
  · rw [render_of_eq_nil hnil, hnil, List.map_nil, eq_comm, render_eq_noFindings_iff hs,
      List.nil_eq, List.map_eq_nil_iff]
  · by_cases hnil' : s.findings = []
    · rw [render_of_eq_nil hnil', hnil', List.map_nil, render_eq_noFindings_iff hr,
        List.map_eq_nil_iff]
    · rw [render_of_ne_nil hnil, render_of_ne_nil hnil']

theorem forall₂_sameLine {a b : List Finding} (ha : ∀ f ∈ a, f.label ∈ builtinLabels)
    (hb : ∀ f ∈ b, f.label ∈ builtinLabels) (h : a.map Finding.render = b.map Finding.render) :
    List.Forall₂ Finding.SameLine a b := by
  induction a generalizing b with
  | nil =>
      rw [List.map_nil, eq_comm, List.map_eq_nil_iff] at h
      rw [h]
      exact .nil
  | cons f a ih =>
      cases b with
      | nil => simp at h
      | cons g b =>
          rw [List.forall_mem_cons] at ha hb
          obtain ⟨hline, hrest⟩ := List.cons.inj h
          exact .cons (Finding.sameLine_of_render_eq ha.1 hb.1 hline) (ih ha.2 hb.2 hrest)

theorem map_render_eq_of_forall₂ {a b : List Finding} (h : List.Forall₂ Finding.SameLine a b) :
    a.map Finding.render = b.map Finding.render := by
  induction h with
  | nil => rfl
  | cons hline _ ih => rw [List.map_cons, List.map_cons, hline.render_eq, ih]

/-- Two reports of built-in rules are rendered alike exactly if they have as many
findings and these agree, one by one, in label, line and snippet. Only a report
without findings is rendered as one. -/
theorem rendered_alike_iff {r s : Report} (hr : ∀ f ∈ r.findings, f.label ∈ builtinLabels)
    (hs : ∀ f ∈ s.findings, f.label ∈ builtinLabels) :
    (r.render = s.render ↔
      List.Forall₂ (fun f g => f.label = g.label ∧ f.line = g.line ∧ f.snippet = g.snippet)
        r.findings s.findings) ∧
      (r.render = render ⟨[]⟩ ↔ r.findings = []) := by
  refine ⟨(render_eq_iff_map_render_eq hr hs).trans ?_, render_eq_noFindings_iff hr⟩
  exact ⟨forall₂_sameLine hr hs, map_render_eq_of_forall₂⟩

/-- One finding whose snippet goes on like the line of another one. -/
def lineInSnippet : Report :=
  ⟨[⟨"public-field", "Public field", 1, 1, "a\nPublic field found on line 2: b"⟩]⟩

def twoFields : Report :=
  ⟨[⟨"public-field", "Public field", 1, 1, "a"⟩, ⟨"public-field", "Public field", 2, 1, "b"⟩]⟩

/-- Once printed, the two cannot be told apart. Their lines can. -/
theorem rendered_apart_lineInSnippet :
    lineInSnippet.printed false = twoFields.printed false ∧
      lineInSnippet.render ≠ twoFields.render ∧ twoFields.render ≠ render ⟨[]⟩ := by
  refine ⟨by decide, fun h => ?_, fun h => ?_⟩
  · have hlines := (rendered_alike_iff (r := lineInSnippet) (s := twoFields) (by decide)
      (by decide)).1.mp h
    exact absurd hlines.length_eq (by decide)
  · have hempty := (rendered_alike_iff (r := twoFields) (s := twoFields) (by decide)
      (by decide)).2.mp h
    exact absurd hempty (by decide)

end Report

end CSharpAudit
