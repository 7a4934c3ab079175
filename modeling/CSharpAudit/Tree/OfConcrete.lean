import CSharpAudit.Tree.Basic
import CSharpAudit.Tree.InferredType

/-!
From concrete trees to syntax trees. Named nodes stay and everything else goes. Three places are
reshaped: neighbouring modifiers become one list of modifiers, the parts of a parameter list
become one parameter for each group between commas, and the inference word of a declaration
becomes a placeholder that is named for the type its initializer shows.
-/

namespace CSharpAudit

namespace Node

structure Part where
  raw : Concrete.Node
  node : Node

def Part.withoutField (p : Part) : Node :=
  { p.node with field := none }

def spanOf (first : Part) (rest : List Part) : Span :=
  ⟨first.raw.span.start, ((first :: rest).getLastD first).raw.span.stop⟩

/-- The list that a run of modifiers forms; no modifiers form none. -/
def modifierLists (source : Bytes) : List Part → List Node
  | [] => []
  | first :: rest =>
    [{ kind := .modifierList
       span := spanOf first rest
       type := "modifier_list"
       field := none
       name := none
       modifiers := ((first :: rest).map (fun p => Text.trim (p.raw.text source))).eraseDups
       inferred := false
       children := (first :: rest).map Part.withoutField }]

/-- The parts in order, each run of modifiers gathered into one list. `run` holds the modifiers
met since the last other part. -/
def gatherModifiers (source : Bytes) (run : List Part) : List Part → List Node
  | [] => modifierLists source run
  | p :: rest =>
    if p.raw.isModifier then gatherModifiers source (run ++ [p]) rest
    else modifierLists source run ++ p.node :: gatherModifiers source [] rest

/-- The structural parts between commas. `group` holds those met since the last comma. -/
def commaGroups (group : List Part) : List Part → List (List Part)
  | [] => [group]
  | p :: rest =>
    if p.raw.isComma then group :: commaGroups [] rest
    else if p.raw.isStructural then commaGroups (group ++ [p]) rest
    else commaGroups group rest

/-- The parameter that a group forms. A group that is one parameter is taken as it is; the parts
of any other are wrapped in a parameter of their own. -/
def parameterOf : List Part → List Node
  | [] => []
  | first :: rest =>
    if rest.isEmpty && first.raw.type == "parameter" then [first.withoutField]
    else
      [{ kind := .parameter
         span := spanOf first rest
         type := "parameter"
         field := none
         name := none
         modifiers := []
         inferred := false
         children := (first :: rest).map Part.node }]

def asksForInference (n : Node) : Bool :=
  n.type == "implicit_type" || (n.kind == .identifier && n.name == some inferenceWord)

def placeholder (n : Node) (name : String) : Node :=
  { kind := .identifier
    span := n.span
    type := n.type
    field := some "type"
    name := some name
    modifiers := []
    inferred := true
    children := [] }

/-- The children of a declaration with the inference word replaced. Only the first child in the
role of the type is looked at. -/
def withInferredType (name : String) : List Node → List Node
  | [] => []
  | n :: rest =>
    if n.field = some "type" then
      (if n.asksForInference then n.placeholder name else n) :: rest
    else n :: withInferredType name rest

def childrenOf (source : Bytes) (kind : Kind) (raw : Concrete.Node) (parts : List Part) :
    List Node :=
  match kind with
  | .parameterList => (commaGroups [] parts).flatMap parameterOf
  | .variableDeclaration =>
    withInferredType (raw.declaredType source)
      (gatherModifiers source [] (parts.filter (fun p => p.raw.isStructural)))
  | _ => gatherModifiers source [] (parts.filter (fun p => p.raw.isStructural))

def assemble (source : Bytes) (raw : Concrete.Node) (parts : List Part) : Node :=
  let kind := Kind.ofType raw.type
  { kind
    span := raw.span
    type := raw.type
    field := raw.field
    name := if kind = .identifier then some (raw.text source) else none
    modifiers := []
    inferred := false
    children := childrenOf source kind raw parts }

mutual

def ofConcrete (source : Bytes) : Concrete.Node → Node
  | ⟨type, span, field, named, missing, damaged, children⟩ =>
    assemble source ⟨type, span, field, named, missing, damaged, children⟩
      (partsOf source children)

def partsOf (source : Bytes) : List Concrete.Node → List Part
  | [] => []
  | n :: rest => ⟨n, ofConcrete source n⟩ :: partsOf source rest

end

end Node

end CSharpAudit
