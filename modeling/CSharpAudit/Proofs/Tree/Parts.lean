import CSharpAudit.Proofs.Concrete.Visits
import CSharpAudit.Tree.OfConcrete
import Mathlib.Data.List.SplitBy
import Mathlib.Tactic.SplitIfs

/-!
The parts of a node and the groups that they form. Both groupings go through
the parts once and keep the group that is still open, and both are the cuts that
they ought to be: modifiers are gathered by the longest runs of neighbours, and
the members of a parameter list by the commas between them.
-/

namespace CSharpAudit.Node

theorem partsOf_eq_map (source : Bytes) (nodes : List Concrete.Node) :
    partsOf source nodes = nodes.map (fun n => ⟨n, ofConcrete source n⟩) :=
  eq_map_of_cons rfl (fun _ _ => rfl) nodes

theorem ofConcrete_eq (source : Bytes) (raw : Concrete.Node) :
    ofConcrete source raw = assemble source raw (partsOf source raw.children) := by
  cases raw
  rw [ofConcrete]

/-! Runs of modifiers. -/

def Part.sameRun (p q : Part) : Bool :=
  p.raw.sameRun q.raw

/-- What a run becomes: a list of modifiers, or the one node that stands alone. -/
def gathered (source : Bytes) (run : List Part) : List Node :=
  if run.any (·.raw.isModifier) then modifierLists source run else run.map Part.node

theorem isChain_sameRun {run : List Part} (h : ∀ p ∈ run, p.raw.isModifier = true) :
    run.IsChain (fun p q => p.sameRun q = true) := by
  induction run with
  | nil => exact .nil
  | cons p rest ih =>
      obtain ⟨hp, hrest⟩ := List.forall_mem_cons.mp h
      cases rest with
      | nil => exact .singleton p
      | cons q more =>
          refine .cons_cons ?_ (ih hrest)
          rw [Part.sameRun, Concrete.Node.sameRun, hp, hrest q List.mem_cons_self, Bool.and_self]

theorem flatMap_gathered_splitBy_run (source : Bytes) {run : List Part}
    (h : ∀ p ∈ run, p.raw.isModifier = true) :
    (run.splitBy Part.sameRun).flatMap (gathered source) = modifierLists source run := by
  cases run with
  | nil => rfl
  | cons first rest =>
      rw [List.splitBy_of_isChain (List.cons_ne_nil first rest) (isChain_sameRun h),
        List.flatMap_singleton, gathered,
        if_pos (List.any_eq_true.mpr ⟨first, List.mem_cons_self, h first List.mem_cons_self⟩)]

/-- The loop over the parts gathers the longest runs. `run` is the one that is
still open. -/
theorem gatherModifiers_eq_flatMap_splitBy (source : Bytes) {run : List Part}
    (hrun : ∀ p ∈ run, p.raw.isModifier = true) (parts : List Part) :
    gatherModifiers source run parts =
      ((run ++ parts).splitBy Part.sameRun).flatMap (gathered source) := by
  induction parts generalizing run with
  | nil => rw [gatherModifiers, List.append_nil, flatMap_gathered_splitBy_run source hrun]
  | cons p rest ih =>
      rw [gatherModifiers]
      split
      · next hp =>
        have hrun' : ∀ q ∈ run ++ [p], q.raw.isModifier = true := by
          simpa [or_imp, forall_and] using ⟨hrun, hp⟩
        rw [ih hrun', List.append_assoc, List.singleton_append]
      · next hp =>
        -- a part that is no modifier ends the run before it and opens none
        have hbefore : ∀ q ∈ run.getLast?, q.sameRun p = false := by
          intro q _
          simp [Part.sameRun, Concrete.Node.sameRun, hp]
        have halone : (p :: rest).splitBy Part.sameRun = [p] :: rest.splitBy Part.sameRun :=
          List.splitBy_append (l := [p]) (by simp [Part.sameRun, Concrete.Node.sameRun, hp])
        rw [List.splitBy_append_cons rest hbefore, List.flatMap_append,
          flatMap_gathered_splitBy_run source hrun, halone, ih (by simp)]
        simp [gathered, hp]

/-- The loop over the parts of a parameter list cuts at its commas and keeps
what is structural. `group` is what has been kept since the last comma. -/
theorem commaGroups_eq_splitOnP (group parts : List Part) :
    commaGroups group parts =
      ((parts.splitOnP (·.raw.isComma)).map (List.filter fun p => p.raw.isStructural)).modifyHead
        (group ++ ·) := by
  induction parts generalizing group with
  | nil => simp [commaGroups]
  | cons p rest ih =>
      obtain ⟨first, more, hrest⟩ := List.exists_cons_of_ne_nil
        (List.splitOnP_ne_nil (fun p : Part => p.raw.isComma) rest)
      rw [commaGroups, List.splitOnP_cons_eq_if_modifyHead]
      split
      · simp [ih, hrest]
      · split
        · next hp => simp [ih, hrest, hp]
        · next hp => simp [ih, hrest, hp]

/-! Parts in the place of parts: what the grouping looks at is kept, so the same
groups are formed. -/

theorem gatherModifiers_map {source source' : Bytes} {f : Part → Part} {g : Node → Node}
    (hmodifier : ∀ p, (f p).raw.isModifier = p.raw.isModifier) {run parts : List Part}
    (hnode : ∀ p ∈ parts, (f p).node = g p.node)
    (hlists : ∀ group : List Part, group.Sublist (run ++ parts) →
      modifierLists source' (group.map f) = (modifierLists source group).map g) :
    gatherModifiers source' (run.map f) (parts.map f) =
      (gatherModifiers source run parts).map g := by
  induction parts generalizing run with
  | nil => exact hlists run (List.sublist_append_left run [])
  | cons p rest ih =>
      obtain ⟨hp, hrest⟩ := List.forall_mem_cons.mp hnode
      rw [List.map_cons, gatherModifiers, gatherModifiers, hmodifier]
      split
      · have hrun : run.map f ++ [f p] = (run ++ [p]).map f := by
          rw [List.map_append, List.map_singleton]
        rw [hrun]
        exact ih hrest (by simpa using hlists)
      · have hlater : gatherModifiers source' [] (rest.map f) =
            (gatherModifiers source [] rest).map g :=
          @ih [] hrest fun group hgroup =>
            hlists group ((hgroup.cons p).trans (List.sublist_append_right run (p :: rest)))
        rw [hlists run (List.sublist_append_left run _), hp, hlater, List.map_append,
          List.map_cons]

theorem commaGroups_map {f : Part → Part} (hcomma : ∀ p, (f p).raw.isComma = p.raw.isComma)
    (hstructural : ∀ p, (f p).raw.isStructural = p.raw.isStructural) (group parts : List Part) :
    commaGroups (group.map f) (parts.map f) = (commaGroups group parts).map (List.map f) := by
  induction parts generalizing group with
  | nil => rfl
  | cons p rest ih =>
      have hgroup : group.map f ++ [f p] = (group ++ [p]).map f := by
        rw [List.map_append, List.map_singleton]
      have hnone : commaGroups [] (rest.map f) = (commaGroups [] rest).map (List.map f) := ih []
      rw [List.map_cons, commaGroups, commaGroups, hcomma, hstructural, hgroup, ih, ih, hnone]
      split_ifs <;> rfl

theorem flatMap_parameterOf_map {f : Part → Part} {g : Node → Node}
    (hcomma : ∀ p, (f p).raw.isComma = p.raw.isComma)
    (hstructural : ∀ p, (f p).raw.isStructural = p.raw.isStructural)
    (hparameter : ∀ group, parameterOf (group.map f) = (parameterOf group).map g)
    (parts : List Part) :
    (commaGroups [] (parts.map f)).flatMap parameterOf =
      ((commaGroups [] parts).flatMap parameterOf).map g := by
  have hgroups := commaGroups_map hcomma hstructural [] parts
  rw [List.map_nil] at hgroups
  rw [hgroups, List.flatMap_map, List.map_flatMap]
  simp only [hparameter]

end CSharpAudit.Node
