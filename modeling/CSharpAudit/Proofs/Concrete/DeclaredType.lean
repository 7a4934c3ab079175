import CSharpAudit.Proofs.Concrete.Visits
import CSharpAudit.Proofs.Tree.InferredType

/-!
The type that a declaration shows, as a relation. The rules say when an expression
shows a type, one rule for each form, and there is no rule for the other forms.
The initializer is told by where it stands: it is held by the first part of the
declarator that is an initializer clause or comes after an equals sign. A
declaration shows what the initializer of its first declarator shows, and the
inference word if that is nothing.
-/

namespace CSharpAudit.Concrete.Node

/-! Expressions. -/

def operand? (n : Node) : Option Node :=
  (n.children.filter isStructural).getLast?

/-- An expression shows a type by its form. -/
inductive Shows (source : Bytes) : Node → String → Prop
  | integer {n : Node} (h : n.type = "integer_literal") :
      Shows source n (integerType (n.text source))
  | real {n : Node} (h : n.type = "real_literal") : Shows source n (realType (n.text source))
  | character {n : Node} (h : n.type = "character_literal") : Shows source n "char"
  | string {n : Node} (h : n.type ∈ ["string_literal", "verbatim_string_literal",
      "raw_string_literal", "interpolated_string_expression"]) : Shows source n "string"
  | boolean {n : Node} (h : n.type = "boolean_literal") : Shows source n "bool"
  | written {n c : Node}
      (h : n.type ∈ ["cast_expression", "object_creation_expression", "default_expression"])
      (hc : n.childByField? "type" = some c) : Shows source n (Text.trim (c.text source))
  | wrapped {n o : Node} {t : String}
      (h : n.type ∈ ["parenthesized_expression", "prefix_unary_expression"])
      (ho : n.operand? = some o) (ht : Shows source o t) : Shows source n t

theorem mem_children_of_operand? {n o : Node} (h : n.operand? = some o) : o ∈ n.children :=
  (List.mem_filter.mp (List.mem_of_getLast? h)).1

theorem shownType_eq (source : Bytes) (n : Node) :
    n.shownType source =
      if n.type = "integer_literal" then integerType (n.text source)
      else if n.type = "real_literal" then realType (n.text source)
      else if n.type = "character_literal" then "char"
      else if n.type ∈ stringLiteralTypes then "string"
      else if n.type = "boolean_literal" then "bool"
      else if n.type ∈ typeNamingTypes then n.writtenType source
      else if n.type ∈ wrappingTypes then (n.operand?.map (shownType source)).getD inferenceWord
      else inferenceWord := by
  obtain ⟨type, span, field, named, missing, damaged, children⟩ := n
  simp only [shownType, lastShownType?_eq, List.contains_iff_mem, operand?, List.getLast?_map]

theorem Shows.shownType_eq {source : Bytes} {n : Node} {t : String} (h : Shows source n t) :
    n.shownType source = t := by
  induction h with
  | integer h => simp [Node.shownType_eq, h]
  | real h => simp [Node.shownType_eq, h]
  | character h => simp [Node.shownType_eq, h]
  | string h =>
      rw [Node.shownType_eq]
      simp only [List.mem_cons, List.not_mem_nil, or_false] at h
      rcases h with h | h | h | h <;> simp [h, stringLiteralTypes]
  | boolean h => simp [Node.shownType_eq, h, stringLiteralTypes]
  | written h hc =>
      rw [Node.shownType_eq]
      simp only [List.mem_cons, List.not_mem_nil, or_false] at h
      rcases h with h | h | h <;>
        simp [h, hc, stringLiteralTypes, typeNamingTypes, writtenType]
  | wrapped h ho _ ih =>
      rw [Node.shownType_eq]
      simp only [List.mem_cons, List.not_mem_nil, or_false] at h
      rcases h with h | h <;>
        simp [h, ho, ih, stringLiteralTypes, typeNamingTypes, wrappingTypes]

theorem shows_or_shownType_eq (source : Bytes) (n : Node) :
    Shows source n (n.shownType source) ∨ n.shownType source = inferenceWord := by
  induction n using Node.branching.induction with
  | step n ih =>
      rw [shownType_eq]
      split
      · next h => exact .inl (.integer h)
      split
      · next h => exact .inl (.real h)
      split
      · next h => exact .inl (.character h)
      split
      · next h => exact .inl (.string h)
      split
      · next h => exact .inl (.boolean h)
      split
      · next h =>
        rw [writtenType]
        split
        · next c hc => exact .inl (.written h hc)
        · exact .inr rfl
      split
      · next h =>
        cases ho : n.operand? with
        | none => exact .inr rfl
        | some o =>
            exact (ih o (mem_children_of_operand? ho)).imp (fun ht => .wrapped h ho ht) id
      · exact .inr rfl

/-! The initializer of a declarator. -/

/-- Whether a part of a declarator holds its initializer, told from the parts before
it: it is an initializer clause, or it is structural and comes after an equals sign. -/
def HoldsInitializer (before : List Node) (c : Node) : Prop :=
  c.type = "equals_value_clause" ∨
    c.isStructural = true ∧ c.type ≠ "=" ∧ ∃ e ∈ before, e.type = "="

/-- What a part holds: a clause its first structural child, every other part itself. -/
def Holds (c i : Node) : Prop :=
  if c.type = "equals_value_clause" then c.children.find? isStructural = some i else i = c

/-- The initializer among the parts that come after `before`: what the first part
holds that holds one. -/
def InitializerAfter (before parts : List Node) (i : Node) : Prop :=
  ∃ passed c rest, parts = passed ++ c :: rest ∧ HoldsInitializer (before ++ passed) c ∧
    (∀ earlier d later, passed = earlier ++ d :: later →
      ¬ HoldsInitializer (before ++ earlier) d) ∧ c.Holds i

theorem initializerAfter_nil {before : List Node} {i : Node} : ¬ InitializerAfter before [] i := by
  rintro ⟨passed, c, rest, hparts, -⟩
  simp at hparts

theorem initializerAfter_cons {before rest : List Node} {c i : Node} :
    InitializerAfter before (c :: rest) i ↔
      HoldsInitializer before c ∧ c.Holds i ∨
        ¬ HoldsInitializer before c ∧ InitializerAfter (before ++ [c]) rest i := by
  constructor
  · rintro ⟨passed, d, later, hparts, hholds, hfirst, hi⟩
    cases passed with
    | nil =>
        obtain ⟨rfl, rfl⟩ := List.cons.inj hparts
        exact .inl ⟨by simpa using hholds, hi⟩
    | cons e passed =>
        obtain ⟨rfl, rfl⟩ := List.cons.inj hparts
        refine .inr ⟨by simpa using hfirst [] c passed rfl, passed, d, later, rfl, ?_, ?_, hi⟩
        · simpa using hholds
        · intro earlier e later' hpassed
          simpa using hfirst (c :: earlier) e later' (by rw [hpassed, List.cons_append])
  · rintro (⟨hholds, hi⟩ | ⟨hc, passed, d, later, rfl, hholds, hfirst, hi⟩)
    · exact ⟨[], c, rest, rfl, by simpa using hholds, by simp, hi⟩
    · refine ⟨c :: passed, d, later, rfl, by simpa using hholds, ?_, hi⟩
      intro earlier e later' hpassed
      cases earlier with
      | nil =>
          obtain ⟨rfl, -⟩ := List.cons.inj hpassed
          simpa using hc
      | cons e' earlier =>
          obtain ⟨rfl, hrest⟩ := List.cons.inj hpassed
          simpa using hfirst earlier e later' hrest

/-- The search for an initializer finds the one that the positions tell. Its flag
says whether an equals sign has been passed. -/
theorem initializerAmong?_eq_some_iff {before parts : List Node} {i : Node} :
    initializerAmong? (before.any fun e => e.type == "=") parts = some i ↔
      InitializerAfter before parts i := by
  induction parts generalizing before with
  | nil => simp [initializerAmong?, initializerAfter_nil]
  | cons c rest ih =>
      have hany : (∃ e ∈ before, e.type = "=") ↔ before.any (fun e => e.type == "=") = true := by
        simp
      have hnext : ((before ++ [c]).any fun e => e.type == "=") =
          ((before.any fun e => e.type == "=") || c.type == "=") := by
        simp
      rw [initializerAfter_cons, ← ih, hnext, HoldsInitializer, Holds, hany, initializerAmong?]
      by_cases hequals : c.type = "="
      · simp [hequals]
      by_cases hclause : c.type = "equals_value_clause"
      · simp [hclause]
      have hsign : (c.type == "=") = false := beq_eq_false_iff_ne.mpr hequals
      cases before.any (fun e => e.type == "=") <;> cases c.isStructural <;>
        simp [hequals, hclause, hsign, eq_comm (a := c)]

/-! Declarations. -/

def IsFirstInitializer (n i : Node) : Prop :=
  ∃ d, n.children.find? (fun c => c.type == "variable_declarator") = some d ∧
    InitializerAfter [] d.children i

theorem firstInitializer?_eq_some_iff {n i : Node} :
    n.firstInitializer? = some i ↔ n.IsFirstInitializer i := by
  rw [firstInitializer?, Option.bind_eq_some_iff]
  refine exists_congr fun d => and_congr_right fun _ => ?_
  exact @initializerAmong?_eq_some_iff [] d.children i

/-- The type that a declaration shows: what its first initializer shows, or the
inference word if there is none that shows a type. -/
def Declares (source : Bytes) (n : Node) (t : String) : Prop :=
  (∃ i, n.IsFirstInitializer i ∧ Shows source i t) ∨
    (∀ i, n.IsFirstInitializer i → ∀ u, ¬ Shows source i u) ∧ t = "var"

theorem declares_iff {source : Bytes} {n : Node} {t : String} :
    n.Declares source t ↔ n.declaredType source = t := by
  rw [Declares, declaredType]
  simp only [← firstInitializer?_eq_some_iff]
  cases n.firstInitializer? with
  | none => simp [inferenceWord, eq_comm]
  | some i =>
      simp only [Option.some.injEq, exists_eq_left', forall_eq']
      constructor
      · rintro (hshows | ⟨hnone, rfl⟩)
        · exact hshows.shownType_eq
        · exact (shows_or_shownType_eq source i).resolve_left (hnone _)
      · rintro rfl
        rcases shows_or_shownType_eq source i with hshows | hword
        · exact .inl hshows
        · by_cases hany : ∃ u, Shows source i u
          · obtain ⟨u, hshows⟩ := hany
            exact .inl (hshows.shownType_eq ▸ hshows)
          · exact .inr ⟨not_exists.mp hany, hword⟩

/-- A declaration asks for the inference of one of the given types: the first child
that names its type asks for inference, and the type that it shows is among them. -/
def InfersOneOf (source : Bytes) (names : List String) (n : Node) : Prop :=
  (∃ c, n.children.find? namesType = some c ∧ c.asksForInference source = true) ∧
    ∃ t ∈ names, n.Declares source t

theorem infersOneOf_iff {source : Bytes} {names : List String} {n : Node} :
    n.InfersOneOf source names ↔
      (n.children.find? namesType).any (asksForInference source) = true ∧
        n.declaredType source ∈ names := by
  simp [InfersOneOf, declares_iff, Option.any_eq_true]

instance (source : Bytes) (names : List String) (n : Node) :
    Decidable (n.InfersOneOf source names) :=
  decidable_of_iff _ infersOneOf_iff.symm

end CSharpAudit.Concrete.Node
