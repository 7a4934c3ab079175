import CSharpAudit.Proofs.Tree.Conversions
import CSharpAudit.Proofs.Tree.Roles
import CSharpAudit.Proofs.Tree.Shape
import CSharpAudit.Rule.Builtin
import CSharpAudit.Tree.Parse

/-!
Parameters, counted on the concrete tree. A parameter list becomes one parameter for
each stretch between its own commas that holds anything structural, whether the
stretch is one parameter already or has to be wrapped in one. So the count is told by
the direct children of the list, and nothing below them has a say in it.
-/

namespace CSharpAudit

namespace Concrete.Node

/-- The stretches between the commas of a list that hold more than tokens and comments. -/
def filledSegments (n : Node) : List (List Node) :=
  (n.children.splitOnP isComma).filter fun segment => segment.any isStructural

/-- Where a method has its parameters: in the child with that role, or else in its first
parameter list. -/
def parametersOf? (n : Node) : Option Node :=
  (n.children.find? (plays "parameters")).or
    (n.children.find? fun c => c.isStructural && c.type == "parameter_list")

def TakesFrom (method list : Node) : Prop :=
  method.parametersOf? = some list ∧ list.type = "parameter_list"

/-- The number of parameters of a method. Outside of parameter lists commas mean nothing, and
only what was read as a parameter is one. -/
def declaredParameters (n : Node) : Nat :=
  match n.parametersOf? with
  | none => 0
  | some list =>
    if list.type = "parameter_list" then list.filledSegments.length
    else (list.children.filter fun c => c.isStructural && c.type == "parameter").length

theorem TakesFrom.declaredParameters_eq {method list : Node} (h : method.TakesFrom list) :
    method.declaredParameters = list.filledSegments.length := by
  simp [declaredParameters, h.1, h.2]

/-- The direct children of a node, without what stands below them. -/
def outline (n : Node) : List (Bool × String) :=
  n.children.map fun c => (c.named, c.type)

theorem length_filledSegments_of_outline {m n : Node} (h : m.outline = n.outline) :
    m.filledSegments.length = n.filledSegments.length := by
  have hchildren : List.Forall₂ (fun a b : Node => (a.named, a.type) = (b.named, b.type))
      m.children n.children := by
    rw [outline, outline, ← List.forall₂_eq_eq_eq, List.forall₂_map_left_iff,
      List.forall₂_map_right_iff] at h
    exact h
  have hsegments := forall₂_splitOnP (p := isComma) (q := isComma)
    (fun a b hab => by simp_all [isComma]) hchildren
  refine (List.rel_filter (fun s t hst => ?_) hsegments).length_eq
  induction hst with
  | nil => rfl
  | cons hab _ ih => simp_all [isStructural]

end Concrete.Node

namespace Node

theorem length_flatMap_parameterOf (groups : List (List Part)) :
    (groups.flatMap parameterOf).length = (groups.filter fun group => !group.isEmpty).length := by
  induction groups with
  | nil => rfl
  | cons group rest ih =>
      rw [List.flatMap_cons, List.length_append, ih]
      cases group with
      | nil => simp [parameterOf]
      | cons first more =>
          rw [parameterOf]
          split <;> simp [Nat.add_comm]

section ParameterList

variable {source : Bytes} {raw : Concrete.Node}

theorem length_children_of_parameter_list (hlist : raw.type = "parameter_list") :
    (ofConcrete source raw).children.length = raw.filledSegments.length := by
  have hformed : formed source raw = parameterOf := by
    funext group
    rw [formed, if_pos hlist]
  have hgroups : (raw.groups Part.raw (reachedParts source raw)).map (List.map Part.raw) =
      (raw.children.splitOnP Concrete.Node.isComma).map
        (List.filter Concrete.Node.isStructural) := by
    rw [← Concrete.Node.groups_map, map_raw_reachedParts, Concrete.Node.groups, if_pos hlist]
    rfl
  have hempty (segment : List Concrete.Node) :
      (!(segment.filter Concrete.Node.isStructural).isEmpty) =
        segment.any Concrete.Node.isStructural := by
    rw [Bool.eq_iff_iff]
    simp
  calc (ofConcrete source raw).children.length
      = ((raw.groups Part.raw (reachedParts source raw)).filter
          fun group => !group.isEmpty).length := by
        rw [children_ofConcrete, childrenOf_eq, hformed, length_flatMap_parameterOf]
    _ = (((raw.groups Part.raw (reachedParts source raw)).map (List.map Part.raw)).filter
          fun group => !group.isEmpty).length := by
        rw [List.filter_map, List.length_map]
        simp only [Function.comp_def, List.isEmpty_map]
    _ = raw.filledSegments.length := by
        rw [hgroups, List.filter_map, List.length_map, Concrete.Node.filledSegments]
        simp only [Function.comp_def, hempty]

theorem length_parameters_of_parameter_list (hlist : raw.type = "parameter_list") :
    ((ofConcrete source raw).childrenOfKind .parameter).length = raw.filledSegments.length := by
  have hkind : Kind.ofType raw.type = .parameterList :=
    (Kind.ofType_eq_iff (by decide) (by decide)).mpr hlist
  have hparameters := (arranged_of_parameterList source hkind).parameters (by simp [hkind])
  rw [childrenOfKind, List.filter_eq_self.mpr, length_children_of_parameter_list hlist]
  intro c hc
  simp [(hparameters c hc).1]

end ParameterList

end Node

namespace Rule

section Method

variable {source : Bytes} {n : Concrete.Node}

theorem parameterCount_ofConcrete (htype : n.type = "method_declaration") :
    parameterCount (Node.ofConcrete source n) = n.declaredParameters := by
  have hplain : n.IsPlain := by simp [Concrete.Node.IsPlain, htype]
  have hfound : ((Node.ofConcrete source n).childByField? "parameters").or
      ((Node.ofConcrete source n).childrenOfKind .parameterList).head? =
        n.parametersOf?.map (Node.ofConcrete source) := by
    rw [Node.childByField?_of_isPlain hplain,
      Node.childrenOfKind_ofConcrete source (by simp [htype]) (by decide), List.head?_map,
      List.head?_filter, ← Option.map_or]
    rfl
  rw [parameterCount, hfound, Concrete.Node.declaredParameters]
  cases n.parametersOf? with
  | none => rfl
  | some list =>
      simp only [Option.map_some]
      split
      · next hlist => exact Node.length_parameters_of_parameter_list hlist
      · next hlist =>
        rw [Node.childrenOfKind_ofConcrete source hlist (by decide), List.length_map]
        rfl

theorem longParameterList_matches_iff (limit : Int) (htype : n.type = "method_declaration") :
    (longParameterList limit).matches? (Node.ofConcrete source n) = true ↔
      limit < n.declaredParameters := by
  rw [longParameterList, decide_eq_true_iff, parameterCount_ofConcrete htype]

end Method

theorem isRead_kind_longParameterList (limit : Int) : (longParameterList limit).kind.IsRead :=
  show Kind.methodDeclaration.IsRead by decide

theorem matchedNodes_longParameterList_ofConcrete (limit : Int) (source : Bytes)
    (raw : Concrete.Node) :
    (longParameterList limit).matchedNodes ⟨Node.ofConcrete source raw, source⟩ =
      (((raw.visits source).tail.map Concrete.Node.Visit.node).filter fun n =>
        n.type = "method_declaration" ∧ limit < n.declaredParameters).map
          (Node.ofConcrete source) :=
  matchedNodes_eq_of_matches_iff (isRead_kind_longParameterList limit)
    (fun _ => longParameterList_matches_iff limit) raw

/-- The rule counts filled segments: below the root it objects to the methods that have
more of them than its limit, in the order in which they are reached. Only the direct
children of a list have a say in the count, whatever stands below them and around the
list. -/
theorem matchedNodes_longParameterList {source : Bytes} {raw : Concrete.Node} {tree : Tree}
    (h : Tree.ofRead source raw = .ok tree) :
    (∀ limit : Int, (longParameterList limit).matchedNodes tree =
        (((raw.visits source).tail.map Concrete.Node.Visit.node).filter fun n =>
          n.type = "method_declaration" ∧ limit < n.declaredParameters).map
            (Node.ofConcrete source)) ∧
      (∀ n ∈ (raw.visits source).tail.map Concrete.Node.Visit.node,
        n.type = "method_declaration" → ∀ list, n.TakesFrom list →
          n.declaredParameters = list.filledSegments.length ∧
            parameterCount (Node.ofConcrete source n) = list.filledSegments.length ∧
            ∀ limit : Int, Node.ofConcrete source n ∈ (longParameterList limit).matchedNodes tree ↔
              limit < list.filledSegments.length) ∧
      ∀ (other : Bytes) (m n : Concrete.Node), m.type = "method_declaration" →
        n.type = "method_declaration" → ∀ list list', m.TakesFrom list → n.TakesFrom list' →
          list.outline = list'.outline →
            parameterCount (Node.ofConcrete source m) =
              parameterCount (Node.ofConcrete other n) := by
  obtain ⟨-, rfl⟩ := Tree.ofRead_eq_ok_iff.mp h
  have hmatched (limit : Int) := matchedNodes_longParameterList_ofConcrete limit source raw
  refine ⟨hmatched, fun n hn htype list hlist => ?_, ?_⟩
  · have hcount : n.declaredParameters = list.filledSegments.length := hlist.declaredParameters_eq
    refine ⟨hcount, (parameterCount_ofConcrete htype).trans hcount, fun limit => ?_⟩
    rw [← hcount, ← longParameterList_matches_iff limit htype]
    exact ofConcrete_mem_matchedNodes_iff (isRead_kind_longParameterList limit) hn htype
  · intro other m n hm hn list list' hlist hlist' houtline
    rw [parameterCount_ofConcrete hm, parameterCount_ofConcrete hn, hlist.declaredParameters_eq,
      hlist'.declaredParameters_eq, Concrete.Node.length_filledSegments_of_outline houtline]

/-- A parameter with a comment behind it, a parameter that comes in parts, nothing
between two commas, and a parameter with a list of its own. -/
def mixedList : Concrete.Node :=
  .withField "parameters" (.branch "parameter_list" ⟨6, 41⟩
    [.token "(" ⟨6, 7⟩, .branch "parameter" ⟨7, 12⟩ [], .branch "comment" ⟨12, 17⟩ [],
     .token "," ⟨17, 18⟩, .token "params" ⟨18, 24⟩, .branch "array_type" ⟨25, 30⟩ [],
     .branch "identifier" ⟨30, 31⟩ [], .token "," ⟨31, 32⟩, .token "," ⟨32, 33⟩,
     .branch "parameter" ⟨33, 40⟩
      [.branch "parameter_list" ⟨34, 39⟩
        [.branch "parameter" ⟨35, 36⟩ [], .token "," ⟨36, 37⟩, .branch "parameter" ⟨37, 38⟩ []]],
     .token ")" ⟨40, 41⟩])

def mixedListMethod : Concrete.Node :=
  .branch "method_declaration" ⟨0, 42⟩
    [.branch "predefined_type" ⟨0, 4⟩ [], .withField "name" (.branch "identifier" ⟨5, 6⟩ []),
     mixedList, .token ";" ⟨41, 42⟩]

/-- The method with that list, and one whose list has no role. -/
def twoMethods : Concrete.Node :=
  .branch "declaration_list" ⟨0, 56⟩
    [mixedListMethod,
     .branch "method_declaration" ⟨42, 56⟩
      [.branch "predefined_type" ⟨42, 46⟩ [], .withField "name" (.branch "identifier" ⟨47, 48⟩ []),
       .branch "parameter_list" ⟨48, 55⟩ [.branch "parameter" ⟨49, 54⟩ []],
       .token ";" ⟨55, 56⟩]]

def twoMethodsSource : Bytes :=
  Utf8.encode "void M(int a/*,*/,params int[]b,,F(x,y)c);void N(int a);"

/-- The first has three parameters and the second has one. -/
theorem matchedNodes_longParameterList_twoMethods :
    ∃ tree, Tree.ofRead twoMethodsSource twoMethods = .ok tree ∧
      parameterCount (Node.ofConcrete twoMethodsSource mixedListMethod) = 3 ∧
      ((longParameterList 0).matchedNodes tree).map Node.span = [⟨0, 42⟩, ⟨42, 56⟩] ∧
      ((longParameterList 2).matchedNodes tree).map Node.span = [⟨0, 42⟩] ∧
      ((longParameterList 3).matchedNodes tree).map Node.span = [] := by
  have htree : Tree.ofRead twoMethodsSource twoMethods = .ok _ :=
    Tree.ofRead_eq_ok_iff.mpr ⟨by decide, rfl⟩
  obtain ⟨hmatched, hcounts, -⟩ := matchedNodes_longParameterList htree
  have hreached : ⟨mixedListMethod, true⟩ ∈ (twoMethods.visits twoMethodsSource).tail :=
    Concrete.Node.mem_tail_visits_of_child (by decide) List.mem_cons_self (by decide)
  have hthree : mixedList.filledSegments.length = 3 := by decide
  obtain ⟨-, hcount, -⟩ :=
    hcounts mixedListMethod (List.mem_map_of_mem hreached) rfl mixedList ⟨rfl, rfl⟩
  refine ⟨_, htree, hcount.trans hthree, ?_, ?_, ?_⟩
  all_goals
    rw [hmatched]
    decide +kernel

end Rule

end CSharpAudit
