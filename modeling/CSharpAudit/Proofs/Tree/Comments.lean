import CSharpAudit.Engine
import CSharpAudit.Proofs.Tree.InferredType
import CSharpAudit.Proofs.Tree.Spans

/-!
Comments leave no trace. Each loop over the children of a concrete node, the
search for an initializer and for a named type, the choice of the last operand
and the grouping of modifiers and of parameters, steps over comments on its
own. So a concrete tree and the same tree with some of its comments cut out
become the same syntax tree.
-/

namespace CSharpAudit.Concrete.Node

mutual

/-- The tree without the comments at the chosen places and without what is
below them. The place of a node is the way to it from the root, told by the
numbers of the children that lead there. -/
def withoutComments (chosen : List Nat → Bool) (place : List Nat) : Node → Node
  | ⟨type, span, field, named, missing, damaged, children⟩ =>
    ⟨type, span, field, named, missing, damaged,
      withoutCommentsAmong chosen place 0 children⟩

/-- The children at a place, counted from `index` on, without chosen comments. -/
def withoutCommentsAmong (chosen : List Nat → Bool) (place : List Nat) (index : Nat) :
    List Node → List Node
  | [] => []
  | n :: rest =>
    if n.type = "comment" ∧ chosen (place ++ [index]) then
      withoutCommentsAmong chosen place (index + 1) rest
    else
      n.withoutComments chosen (place ++ [index]) ::
        withoutCommentsAmong chosen place (index + 1) rest

end

def head (n : Node) : Node :=
  { n with children := [] }

theorem head_eq {n m : Node} (h : n.head = m.head) :
    n.type = m.type ∧ n.span = m.span ∧ n.field = m.field ∧ n.named = m.named := by
  simp only [head, mk.injEq] at h
  exact ⟨h.1, h.2.1, h.2.2.1, h.2.2.2.1⟩

theorem head_withoutComments (chosen : List Nat → Bool) (place : List Nat) (n : Node) :
    (n.withoutComments chosen place).head = n.head := by
  cases n
  rfl

theorem children_withoutComments (chosen : List Nat → Bool) (place : List Nat) (n : Node) :
    (n.withoutComments chosen place).children =
      withoutCommentsAmong chosen place 0 n.children := by
  cases n
  rfl

theorem damaged_withoutComments (chosen : List Nat → Bool) (place : List Nat) (n : Node) :
    (n.withoutComments chosen place).damaged = n.damaged := by
  cases n
  rfl

/-- Children with related children in their place, some comments dropped. -/
inductive Thinned (R : Node → Node → Prop) : List Node → List Node → Prop
  | nil : Thinned R [] []
  | keep {n m : Node} {rest more : List Node} :
      R n m → Thinned R rest more → Thinned R (n :: rest) (m :: more)
  | drop {n : Node} {rest more : List Node} :
      n.type = "comment" → n.field = none → Thinned R rest more → Thinned R (n :: rest) more

theorem thinned_withoutCommentsAmong {R : Node → Node → Prop} {chosen : List Nat → Bool}
    {nodes : List Node} (hfields : ∀ n ∈ nodes, n.type = "comment" → n.field = none)
    (h : ∀ n ∈ nodes, ∀ place, R n (n.withoutComments chosen place)) (place : List Nat)
    (index : Nat) : Thinned R nodes (withoutCommentsAmong chosen place index nodes) := by
  induction nodes generalizing index with
  | nil => exact .nil
  | cons n rest ih =>
      obtain ⟨hfield, hfields⟩ := List.forall_mem_cons.mp hfields
      obtain ⟨hn, hrest⟩ := List.forall_mem_cons.mp h
      rw [withoutCommentsAmong]
      split
      · next hdrop => exact .drop hdrop.1 (hfield hdrop.1) (ih hfields hrest (index + 1))
      · exact .keep (hn _) (ih hfields hrest (index + 1))

namespace Thinned

variable {R : Node → Node → Prop} {a b : List Node} {γ : Type} {keep : Node → Bool} {f : Node → γ}

theorem map_filter (h : Thinned R a b)
    (hcomment : ∀ n : Node, n.type = "comment" → n.field = none → keep n = false)
    (hkeep : ∀ n m, R n m → keep n = keep m) (hf : ∀ n m, R n m → f n = f m) :
    (a.filter keep).map f = (b.filter keep).map f := by
  induction h with
  | nil => rfl
  | @keep n m rest more hnm _ ih =>
      rw [List.filter_cons, List.filter_cons, hkeep n m hnm]
      split
      · rw [List.map_cons, List.map_cons, ih, hf n m hnm]
      · exact ih
  | @drop n rest more htype hfield _ ih =>
      rw [List.filter_cons, hcomment n htype hfield]
      exact ih

theorem map_find? (h : Thinned R a b)
    (hcomment : ∀ n : Node, n.type = "comment" → n.field = none → keep n = false)
    (hkeep : ∀ n m, R n m → keep n = keep m) (hf : ∀ n m, R n m → f n = f m) :
    (a.find? keep).map f = (b.find? keep).map f := by
  rw [← List.head?_filter, ← List.head?_map, h.map_filter hcomment hkeep hf, List.head?_map,
    List.head?_filter]

end Thinned

/-! What is read off a concrete node. -/

theorem isStructural_comment {n : Node} (h : n.type = "comment") : n.isStructural = false := by
  simp [isStructural, h]

/-- Nodes that are the same for every reader: they are alike themselves,
become the same syntax node, show the same type, and show the same type
through what they hold as an initializer clause or as a declarator. -/
structure Alike (source : Bytes) (n m : Node) : Prop where
  head : n.head = m.head
  node : CSharpAudit.Node.ofConcrete source n = CSharpAudit.Node.ofConcrete source m
  shown : n.shownType source = m.shownType source
  clause : (n.children.find? isStructural).map (shownType source) =
    (m.children.find? isStructural).map (shownType source)
  initializer : (initializerAmong? false n.children).map (shownType source) =
    (initializerAmong? false m.children).map (shownType source)

namespace Alike

variable {source : Bytes} {n m : Node}

theorem type (h : Alike source n m) : n.type = m.type :=
  (head_eq h.head).1

theorem span (h : Alike source n m) : n.span = m.span :=
  (head_eq h.head).2.1

theorem field (h : Alike source n m) : n.field = m.field :=
  (head_eq h.head).2.2.1

theorem named (h : Alike source n m) : n.named = m.named :=
  (head_eq h.head).2.2.2

theorem isStructural (h : Alike source n m) : n.isStructural = m.isStructural := by
  rw [Node.isStructural, Node.isStructural, h.named, h.type]

end Alike

namespace Thinned

variable {source : Bytes} {a b : List Node}

theorem lastShownType?_eq (h : Thinned (Alike source) a b) :
    lastShownType? source a = lastShownType? source b := by
  rw [Node.lastShownType?_eq, Node.lastShownType?_eq,
    h.map_filter (fun _ htype _ => isStructural_comment htype) (fun _ _ hnm => hnm.isStructural)
      (fun _ _ hnm => hnm.shown)]

theorem clause_eq (h : Thinned (Alike source) a b) :
    (a.find? isStructural).map (shownType source) =
      (b.find? isStructural).map (shownType source) :=
  h.map_find? (fun _ htype _ => isStructural_comment htype) (fun _ _ hnm => hnm.isStructural)
    (fun _ _ hnm => hnm.shown)

theorem initializer_eq (h : Thinned (Alike source) a b) (afterEquals : Bool) :
    (initializerAmong? afterEquals a).map (shownType source) =
      (initializerAmong? afterEquals b).map (shownType source) := by
  induction h generalizing afterEquals with
  | nil => rfl
  | keep hnm _ ih =>
      rw [initializerAmong?, initializerAmong?, hnm.type, hnm.isStructural]
      split_ifs
      · exact ih true
      · exact hnm.clause
      · exact congrArg some hnm.shown
      · exact ih afterEquals
  | drop htype _ _ ih =>
      -- a comment is no equals sign, no clause and not structural
      rw [initializerAmong?, htype, isStructural_comment htype]
      simpa using ih afterEquals

/-- Comments carry no field, so the child that names a type is never one. -/
theorem writtenType_eq {n m : Node} (h : Thinned (Alike source) n.children m.children) :
    n.writtenType source = m.writtenType source := by
  rw [Node.writtenType_eq, Node.writtenType_eq, h.map_find?]
  · intro c _ hfield
    rw [hfield]
    rfl
  · intro c d hcd
    rw [hcd.field]
  · intro c d hcd
    rw [text, text, hcd.span]

theorem declaredType_eq {n m : Node} (h : Thinned (Alike source) n.children m.children) :
    n.declaredType source = m.declaredType source := by
  rw [Node.declaredType_eq, Node.declaredType_eq, h.map_find?]
  · intro c htype _
    rw [htype]
    rfl
  · intro c d hcd
    rw [hcd.type]
  · exact fun c d hcd => hcd.initializer

end Thinned

end CSharpAudit.Concrete.Node

namespace CSharpAudit.Node

/-! The groups that parts form, told without what is below their concrete
forms. -/

def Part.bare (p : Part) : Part :=
  { p with raw := p.raw.head }

def Part.inGroups (p : Part) : Bool :=
  p.raw.isComma || p.raw.isStructural

theorem spanOf_bare (first : Part) (rest : List Part) :
    spanOf first.bare (rest.map Part.bare) = spanOf first rest := by
  rw [spanOf_eq_hull, spanOf_eq_hull, List.map_map]
  rfl

theorem modifierLists_bare (source : Bytes) (run : List Part) :
    modifierLists source (run.map Part.bare) = modifierLists source run := by
  cases run with
  | nil => rfl
  | cons first rest =>
      simp only [List.map_cons, modifierLists, spanOf_bare, List.map_map]
      rfl

theorem gatherModifiers_bare (source : Bytes) (parts : List Part) :
    gatherModifiers source [] (parts.map Part.bare) = gatherModifiers source [] parts := by
  have hmap : gatherModifiers source ([].map Part.bare) (parts.map Part.bare) =
      (gatherModifiers source [] parts).map id := by
    apply gatherModifiers_map
    · exact fun _ => rfl
    · exact fun _ _ => rfl
    · intro group _
      rw [List.map_id, modifierLists_bare]
  rwa [List.map_id] at hmap

theorem parameterOf_bare (group : List Part) :
    parameterOf (group.map Part.bare) = parameterOf group := by
  cases group with
  | nil => rfl
  | cons first rest =>
      have hsingle : (rest.map Part.bare).isEmpty = rest.isEmpty := List.isEmpty_map
      have htype : first.bare.raw.type = first.raw.type := rfl
      rw [List.map_cons, parameterOf, parameterOf, hsingle, htype, spanOf_bare, ← List.map_cons,
        List.map_map]
      rfl

theorem flatMap_parameterOf_bare (parts : List Part) :
    (commaGroups [] (parts.map Part.bare)).flatMap parameterOf =
      (commaGroups [] parts).flatMap parameterOf := by
  have hmap := flatMap_parameterOf_map (f := Part.bare) (g := id) (fun _ => rfl) (fun _ => rfl)
    (fun group => by rw [List.map_id, parameterOf_bare]) parts
  rwa [List.map_id] at hmap

theorem commaGroups_filter (group parts : List Part) :
    commaGroups group (parts.filter Part.inGroups) = commaGroups group parts := by
  induction parts generalizing group with
  | nil => rfl
  | cons p rest ih =>
      rw [List.filter_cons, commaGroups]
      cases hcomma : p.raw.isComma with
      | true =>
          rw [Part.inGroups, hcomma, Bool.true_or, if_pos rfl, if_pos rfl, commaGroups, hcomma,
            if_pos rfl, ih]
      | false =>
          cases hstructural : p.raw.isStructural with
          | true => simp [Part.inGroups, commaGroups, hcomma, hstructural, ih]
          | false => simp [Part.inGroups, hcomma, hstructural, ih]

theorem childrenOf_congr {source : Bytes} (kind : Kind) {raw raw' : Concrete.Node}
    {parts parts' : List Part}
    (hdeclared : raw.declaredType source = raw'.declaredType source)
    (hstructural : (parts.filter (fun p => p.raw.isStructural)).map Part.bare =
      (parts'.filter (fun p => p.raw.isStructural)).map Part.bare)
    (hgroups : (parts.filter Part.inGroups).map Part.bare =
      (parts'.filter Part.inGroups).map Part.bare) :
    childrenOf source kind raw parts = childrenOf source kind raw' parts' := by
  have hgathered : gatherModifiers source [] (parts.filter (fun p => p.raw.isStructural)) =
      gatherModifiers source [] (parts'.filter (fun p => p.raw.isStructural)) := by
    rw [← gatherModifiers_bare, hstructural, gatherModifiers_bare]
  cases kind with
  | parameterList =>
      rw [childrenOf, childrenOf, ← commaGroups_filter [] parts, ← commaGroups_filter [] parts',
        ← flatMap_parameterOf_bare, hgroups, flatMap_parameterOf_bare]
  | variableDeclaration => rw [childrenOf, childrenOf, hdeclared, hgathered]
  | _ => exact hgathered

open Concrete.Node (Thinned Alike)

theorem map_filter_partsOf {source : Bytes} {a b : List Concrete.Node} {keep : Part → Bool}
    (h : Thinned (Alike source) a b) (hbare : ∀ p : Part, keep p.bare = keep p)
    (hcomment : ∀ p : Part, p.raw.type = "comment" → keep p = false) :
    ((partsOf source a).filter keep).map Part.bare =
      ((partsOf source b).filter keep).map Part.bare := by
  have hpart (n m : Concrete.Node) (hnm : Alike source n m) :
      (Part.mk n (ofConcrete source n)).bare = (Part.mk m (ofConcrete source m)).bare := by
    rw [Part.bare, Part.bare, hnm.head, hnm.node]
  rw [partsOf_eq_map, partsOf_eq_map, List.filter_map, List.filter_map, List.map_map,
    List.map_map]
  refine h.map_filter (fun n htype _ => hcomment _ htype) (fun n m hnm => ?_) hpart
  rw [Function.comp_apply, Function.comp_apply, ← hbare, hpart n m hnm, hbare]

theorem ofConcrete_congr {source : Bytes} {n m : Concrete.Node} (hhead : n.head = m.head)
    (h : Thinned (Alike source) n.children m.children) :
    ofConcrete source n = ofConcrete source m := by
  obtain ⟨htype, hspan, hfield, -⟩ := Concrete.Node.head_eq hhead
  have hchildren (kind : Kind) :
      childrenOf source kind n (partsOf source n.children) =
        childrenOf source kind m (partsOf source m.children) := by
    apply childrenOf_congr kind h.declaredType_eq
    · exact map_filter_partsOf h (fun _ => rfl)
        fun p htype => Concrete.Node.isStructural_comment htype
    · refine map_filter_partsOf h (fun _ => rfl) fun p htype => ?_
      simp [Part.inGroups, Concrete.Node.isComma, Concrete.Node.isStructural_comment htype, htype]
  rw [ofConcrete_eq, ofConcrete_eq, assemble, assemble]
  simp only [Concrete.Node.text, htype, hspan, hfield, hchildren]

end CSharpAudit.Node

namespace CSharpAudit.Concrete.Node

theorem Alike.of_thinned {source : Bytes} {n m : Node} (hhead : n.head = m.head)
    (h : Thinned (Alike source) n.children m.children) : Alike source n m where
  head := hhead
  node := CSharpAudit.Node.ofConcrete_congr hhead h
  shown := shownType_congr (head_eq hhead).1 (by rw [text, text, (head_eq hhead).2.1])
    h.writtenType_eq h.lastShownType?_eq
  clause := h.clause_eq
  initializer := h.initializer_eq false

theorem alike_withoutComments (source : Bytes) (chosen : List Nat → Bool) {n : Node}
    (hfields : ∀ c ∈ n.preorder, c.type = "comment" → c.field = none) (place : List Nat) :
    Alike source n (n.withoutComments chosen place) := by
  -- all readings go through one induction: a declaration reads the type that it shows
  -- off nodes further down, which have lost comments of their own
  induction n using Node.branching.induction generalizing place with
  | step n ih =>
      apply Alike.of_thinned (head_withoutComments chosen place n).symm
      rw [children_withoutComments]
      apply thinned_withoutCommentsAmong
      · intro c hc
        exact hfields c (branching.mem_of_child hc (branching.self_mem c))
      · intro c hc
        exact ih c hc fun m hm => hfields m (branching.mem_of_child hc hm)

end CSharpAudit.Concrete.Node

namespace CSharpAudit

/-- Comments never influence the analysis. Whichever comments are cut out of
what the grammar has read, the text has the same tree and every engine the same
report. -/
theorem Tree.parse_withoutComments (grammar : Grammar) (text : String)
    (chosen : List Nat → Bool) (hsound : (grammar (sourceOf text)).damaged = false)
    (hfields : ∀ c ∈ (grammar (sourceOf text)).preorder, c.type = "comment" → c.field = none) :
    ∃ tree tree', parse grammar text = .ok tree ∧
      parse (fun source => (grammar source).withoutComments chosen []) text = .ok tree' ∧
      tree' = tree ∧ ∀ e : Engine, e.analyze tree' = e.analyze tree := by
  let raw := grammar (sourceOf text)
  have halike : Concrete.Node.Alike (sourceOf text) raw (raw.withoutComments chosen []) :=
    Concrete.Node.alike_withoutComments (sourceOf text) chosen hfields []
  have hsound' : (raw.withoutComments chosen []).damaged = false := by
    rw [Concrete.Node.damaged_withoutComments, hsound]
  refine ⟨_, _, parse_eq_ok hsound, parse_eq_ok hsound', ?_⟩
  rw [← halike.node]
  exact ⟨rfl, fun _ => rfl⟩

def commentedDeclaration : Concrete.Node :=
  .branch "compilation_unit" ⟨0, 29⟩
    [.branch "comment" ⟨0, 4⟩ [],
     .branch "variable_declaration" ⟨4, 28⟩
       [.withField "type" (.branch "implicit_type" ⟨4, 7⟩ []),
        .branch "variable_declarator" ⟨8, 28⟩
          [.branch "identifier" ⟨8, 9⟩ [], .token "=" ⟨9, 10⟩, .branch "comment" ⟨10, 14⟩ [],
           .branch "parenthesized_expression" ⟨14, 28⟩
             [.token "(" ⟨14, 15⟩, .branch "comment" ⟨15, 19⟩ [],
              .branch "boolean_literal" ⟨19, 23⟩ [], .branch "comment" ⟨23, 27⟩ [],
              .token ")" ⟨27, 28⟩]]],
     .token ";" ⟨28, 29⟩]

/-- The declaration `var x=/**/(/**/true/**/);` behind a comment of its own still
declares a `bool` once all four comments are cut out. -/
theorem Tree.parse_withoutComments_commentedDeclaration :
    commentedDeclaration.preorder.length = 15 ∧
      (commentedDeclaration.withoutComments (fun _ => true) []).preorder.length = 11 ∧
      ∃ tree : Tree,
        parse (fun _ => commentedDeclaration) "/**/var x=/**/(/**/true/**/);" = .ok tree ∧
        parse (fun _ => commentedDeclaration.withoutComments (fun _ => true) [])
          "/**/var x=/**/(/**/true/**/);" = .ok tree ∧
        (tree.root.preorder.filter Node.inferred).map Node.name = [some "bool"] := by
  obtain ⟨tree, tree', hparse, hparse', hsame, -⟩ :=
    Tree.parse_withoutComments (fun _ => commentedDeclaration) "/**/var x=/**/(/**/true/**/);"
      (fun _ => true) rfl (by decide)
  refine ⟨by decide, by decide, tree, hparse, hsame ▸ hparse', ?_⟩
  obtain rfl := Except.ok.inj (hparse.symm.trans (parse_eq_ok rfl))
  decide

end CSharpAudit
