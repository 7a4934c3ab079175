import CSharpAudit.Proofs.Tree.Conversions
import CSharpAudit.Proofs.Tree.Roles
import CSharpAudit.Rule.Builtin
import CSharpAudit.Tree.Parse

/-!
Conditions that could be one, told on the concrete tree. The rule asks for the first
consequence of a condition, for a block, for the only child of the block, and for an
alternative; conversion keeps all four answers. So where conditions hold nothing but
the next one, down to one whose consequence is no block, all but the last are
reported.
-/

namespace CSharpAudit

namespace Concrete.Node

/-- The consequence of `outer` is a block with `inner` as its only structural child. -/
def HoldsOnly (outer inner : Node) : Prop :=
  ∃ block, outer.children.find? (plays "consequence") = some block ∧ block.type = "block" ∧
    block.children.filter isStructural = [inner]

def IsBareIf (n : Node) : Prop :=
  n.type = "if_statement" ∧ ∀ c ∈ n.children, c.plays "alternative" = false

instance (n : Node) : Decidable n.IsBareIf :=
  inferInstanceAs (Decidable (_ ∧ _))

def Collapses (n : Node) : Prop :=
  ∃ inner, n.HoldsOnly inner ∧ inner.IsBareIf

theorem collapses_iff_any {n : Node} :
    n.Collapses ↔ ((n.children.find? (plays "consequence")).any fun block =>
      block.type == "block" &&
        (match block.children.filter isStructural with
        | [inner] => decide inner.IsBareIf
        | _ => false)) = true := by
  rw [Option.any_eq_true, Collapses]
  constructor
  · rintro ⟨inner, ⟨block, hblock, htype, honly⟩, hbare⟩
    exact ⟨block, hblock, by simp [htype, honly, hbare]⟩
  · rintro ⟨block, hblock, htest⟩
    rw [Bool.and_eq_true, beq_iff_eq] at htest
    obtain ⟨htype, htest⟩ := htest
    split at htest
    · next inner honly =>
      exact ⟨inner, ⟨block, hblock, htype, honly⟩, of_decide_eq_true htest⟩
    · contradiction

instance (n : Node) : Decidable n.Collapses :=
  decidable_of_iff _ collapses_iff_any.symm

theorem isBareIf_iff {source : Bytes} {n : Node} (htype : n.type = "if_statement") :
    n.IsBareIf ↔ (CSharpAudit.Node.ofConcrete source n).childByField? "alternative" = none := by
  have hplain : n.IsPlain := by simp [IsPlain, htype]
  rw [CSharpAudit.Node.childByField?_of_isPlain hplain, Option.map_eq_none_iff, List.find?_eq_none]
  simp [IsBareIf, htype]

/-- Conditions without alternatives, each holding nothing but the next one. The
consequence of the last is no block. -/
inductive IfChain : List Node → Prop
  | last {n : Node} (hif : n.IsBareIf)
      (hbody : ∀ c, n.children.find? (plays "consequence") = some c → c.type ≠ "block") :
      IfChain [n]
  | nest {outer inner : Node} {rest : List Node} (hif : outer.IsBareIf)
      (hholds : outer.HoldsOnly inner) (hinner : IfChain (inner :: rest)) :
      IfChain (outer :: inner :: rest)

theorem HoldsOnly.visits_sublist {source : Bytes} {outer inner : Node}
    (h : outer.HoldsOnly inner) (hif : outer.IsBareIf) :
    (inner.visits source).Sublist (outer.visits source).tail := by
  obtain ⟨block, hfind, htype, honly⟩ := h
  have hplays := List.find?_some hfind
  have hinner : inner ∈ block.children.filter isStructural := by
    rw [honly]
    exact List.mem_singleton_self inner
  rw [List.mem_filter] at hinner
  have hblock : (block.visits source).Sublist (outer.visits source).tail := by
    refine visits_sublist_of_child (by simp [hif.1]) (List.mem_of_find?_eq_some hfind) ?_
    simp only [plays, Bool.and_eq_true] at hplays
    exact hplays.1.1
  have hwithin : (inner.visits source).Sublist (block.visits source).tail :=
    visits_sublist_of_child (by simp [htype]) hinner.1 hinner.2
  exact hwithin.trans ((List.tail_sublist _).trans hblock)

theorem IfChain.sublist_visits {source : Bytes} {ifs : List Node} (h : IfChain ifs) :
    ∀ first ∈ ifs.head?, ifs.Sublist ((first.visits source).map Visit.node) := by
  induction h with
  | last hif hbody =>
      rintro n ⟨⟩
      rw [visits_eq, List.map_cons]
      exact (List.nil_sublist _).cons_cons _
  | @nest outer inner rest hif hholds hinner ih =>
      rintro n ⟨⟩
      have hrest : (inner :: rest).Sublist ((outer.visits source).tail.map Visit.node) :=
        (ih inner rfl).trans ((hholds.visits_sublist hif).map Visit.node)
      rw [visits_eq, List.tail_cons] at hrest
      rw [visits_eq, List.map_cons]
      exact hrest.cons_cons _

theorem IfChain.isBareIf {ifs : List Node} (h : IfChain ifs) : ∀ n ∈ ifs, n.IsBareIf := by
  induction h with
  | last hif hbody => simpa using hif
  | nest hif hholds hinner ih => exact List.forall_mem_cons.mpr ⟨hif, ih⟩

theorem not_collapses {n : Node}
    (hbody : ∀ c, n.children.find? (plays "consequence") = some c → c.type ≠ "block") :
    ¬ n.Collapses := by
  rintro ⟨inner, ⟨block, hfind, htype, -⟩, -⟩
  exact hbody block hfind htype

theorem IfChain.not_collapses_getLast {ifs : List Node} (h : IfChain ifs) :
    ∀ n ∈ ifs.getLast?, ¬ n.Collapses := by
  induction h with
  | last hif hbody =>
      rintro n ⟨⟩
      exact not_collapses hbody
  | nest hif hholds hinner ih => simpa [List.getLast?_cons_cons] using ih

/-- All but the last condition of a chain collapse. -/
theorem IfChain.filter_collapses {ifs : List Node} (h : IfChain ifs) :
    ifs.filter (fun n => n.Collapses) = ifs.dropLast := by
  induction h with
  | last hif hbody => simp [not_collapses hbody]
  | @nest outer inner rest hif hholds hinner ih =>
      have houter : outer.Collapses := ⟨inner, hholds, hinner.isBareIf inner List.mem_cons_self⟩
      rw [List.filter_cons_of_pos (by simpa using houter), ih, List.dropLast_cons_cons]

theorem IfChain.sublist_tail_visits {source : Bytes} {raw first : Node} {rest : List Node}
    (h : IfChain (first :: rest)) (hfirst : first ∈ (raw.visits source).tail.map Visit.node) :
    (first :: rest).Sublist ((raw.visits source).tail.map Visit.node) := by
  obtain ⟨v, hv, rfl⟩ := List.mem_map.mp hfirst
  have hasks : v.node.asksForInference source = false := by
    simp [asksForInference, (h.isBareIf v.node List.mem_cons_self).1]
  have hentered := entered_of_mem_visits (List.mem_of_mem_tail hv) hasks
  exact (h.sublist_visits v.node rfl).trans ((visits_sublist_of_mem hv hentered).map Visit.node)

end Concrete.Node

namespace Rule

theorem isCollapsible_iff {n : Node} :
    isCollapsible n = true ↔
      ∃ body inner, n.childByField? "consequence" = some body ∧ body.kind = .block ∧
        (body.children = [inner] ∧ inner.kind = .ifStatement) ∧
          inner.childByField? "alternative" = none := by
  constructor
  · intro h
    rw [isCollapsible] at h
    split at h
    · contradiction
    · next body hbody =>
      rw [Bool.and_eq_true, beq_iff_eq] at h
      obtain ⟨hkind, h⟩ := h
      split at h
      · next inner hchildren =>
        rw [Bool.and_eq_true, beq_iff_eq, Option.isNone_iff_eq_none] at h
        exact ⟨body, inner, hbody, hkind, ⟨hchildren, h.1⟩, h.2⟩
      · contradiction
  · rintro ⟨body, inner, hbody, hkind, ⟨hchildren, hif⟩, halternative⟩
    simp [isCollapsible, hbody, hkind, hchildren, hif, halternative]

theorem isCollapsible_ofConcrete_iff {source : Bytes} {n : Concrete.Node}
    (htype : n.type = "if_statement") :
    isCollapsible (Node.ofConcrete source n) = true ↔ n.Collapses := by
  have hplain : n.IsPlain := by simp [Concrete.Node.IsPlain, htype]
  have hblockKind {block : Concrete.Node} :
      (Node.ofConcrete source block).kind = .block ↔ block.type = "block" := by
    rw [Node.kind_ofConcrete]
    exact Kind.ofType_eq_iff (by decide) (by decide)
  have honly {block : Concrete.Node} (hblock : block.type = "block") {inner : Node} :
      (Node.ofConcrete source block).children = [inner] ∧ inner.kind = .ifStatement ↔
        ∃ c, block.children.filter Concrete.Node.isStructural = [c] ∧ c.type = "if_statement" ∧
          Node.ofConcrete source c = inner :=
    Node.children_eq_singleton_iff (by simp [Concrete.Node.IsPlain, hblock]) (by decide) (by decide)
  rw [isCollapsible_iff, Node.childByField?_of_isPlain hplain]
  constructor
  · rintro ⟨body, inner, hbody, hkind, hinner, halternative⟩
    obtain ⟨block, hblock, rfl⟩ := Option.map_eq_some_iff.mp hbody
    have hkind := hblockKind.mp hkind
    obtain ⟨c, hc, hif, rfl⟩ := (honly hkind).mp hinner
    exact ⟨c, ⟨block, hblock, hkind, hc⟩, (Concrete.Node.isBareIf_iff hif).mpr halternative⟩
  · rintro ⟨c, ⟨block, hblock, hkind, hc⟩, hbare⟩
    obtain ⟨hchildren, hif⟩ := (honly hkind).mpr ⟨c, hc, hbare.1, rfl⟩
    exact ⟨_, _, Option.map_eq_some_iff.mpr ⟨block, hblock, rfl⟩, hblockKind.mpr hkind,
      ⟨hchildren, hif⟩, (Concrete.Node.isBareIf_iff hbare.1).mp hbare⟩

theorem matchedNodes_collapsibleIf_ofConcrete (source : Bytes) (raw : Concrete.Node) :
    collapsibleIf.matchedNodes ⟨Node.ofConcrete source raw, source⟩ =
      (((raw.visits source).tail.map Concrete.Node.Visit.node).filter fun n =>
        n.type = "if_statement" ∧ n.Collapses).map (Node.ofConcrete source) :=
  matchedNodes_eq_of_matches_iff (r := collapsibleIf) (by decide)
    (fun _ => isCollapsible_ofConcrete_iff) raw

/-- The rule decides by the concrete tree: below the root it objects to the
conditions that collapse, in the order in which they are reached. Of a chain of
conditions that starts below the root it reports all but the last, from the outside
in. -/
theorem matchedNodes_collapsibleIf {source : Bytes} {raw : Concrete.Node} {tree : Tree}
    (h : Tree.ofRead source raw = .ok tree) :
    collapsibleIf.matchedNodes tree =
        (((raw.visits source).tail.map Concrete.Node.Visit.node).filter fun n =>
          n.type = "if_statement" ∧ n.Collapses).map (Node.ofConcrete source) ∧
      (∀ n ∈ (raw.visits source).tail.map Concrete.Node.Visit.node, n.type = "if_statement" →
        (Node.ofConcrete source n ∈ collapsibleIf.matchedNodes tree ↔ n.Collapses)) ∧
      ∀ first rest, Concrete.Node.IfChain (first :: rest) →
        first ∈ (raw.visits source).tail.map Concrete.Node.Visit.node →
        (first :: rest).Sublist ((raw.visits source).tail.map Concrete.Node.Visit.node) ∧
          ((first :: rest).dropLast.map (Node.ofConcrete source)).Sublist
            (collapsibleIf.matchedNodes tree) ∧
          ∀ last ∈ (first :: rest).getLast?,
            Node.ofConcrete source last ∉ collapsibleIf.matchedNodes tree := by
  obtain ⟨-, rfl⟩ := Tree.ofRead_eq_ok_iff.mp h
  have hmatched := matchedNodes_collapsibleIf_ofConcrete source raw
  have hreported (n : Concrete.Node)
      (hn : n ∈ (raw.visits source).tail.map Concrete.Node.Visit.node)
      (htype : n.type = "if_statement") :
      Node.ofConcrete source n ∈ collapsibleIf.matchedNodes ⟨Node.ofConcrete source raw, source⟩ ↔
        n.Collapses :=
    (ofConcrete_mem_matchedNodes_iff (r := collapsibleIf) (by decide) hn htype).trans
      (isCollapsible_ofConcrete_iff htype)
  refine ⟨hmatched, hreported, fun first rest hchain hfirst => ?_⟩
  have hreached := hchain.sublist_tail_visits hfirst
  refine ⟨hreached, ?_, fun last hlast => ?_⟩
  · have houter : (first :: rest).filter (fun n => n.type = "if_statement" ∧ n.Collapses) =
        (first :: rest).dropLast := by
      rw [← hchain.filter_collapses]
      refine List.filter_congr fun n hn => ?_
      simp [(hchain.isBareIf n hn).1]
    rw [hmatched, ← houter]
    exact (hreached.filter _).map _
  · have hmem : last ∈ first :: rest := List.mem_of_mem_getLast? hlast
    rw [hreported last (hreached.subset hmem) (hchain.isBareIf last hmem).1]
    exact hchain.not_collapses_getLast last hlast

def conditionAt (start stop : Int) (consequence : Concrete.Node) : Concrete.Node :=
  .branch "if_statement" ⟨start, stop⟩
    [.token "if" ⟨start, start + 2⟩, .token "(" ⟨start + 2, start + 3⟩,
     .withField "condition" (.branch "identifier" ⟨start + 3, start + 4⟩ []),
     .token ")" ⟨start + 4, start + 5⟩, .withField "consequence" consequence]

/-- A block that holds one statement and a comment. -/
def blockAround (start stop : Int) (statement : Concrete.Node) : Concrete.Node :=
  .branch "block" ⟨start, stop⟩
    [.token "\x7b" ⟨start, start + 1⟩, .branch "comment" ⟨start + 1, start + 5⟩ [], statement,
     .token "\x7d" ⟨stop - 1, stop⟩]

def innermost : Concrete.Node :=
  conditionAt 20 27 (.branch "expression_statement" ⟨25, 27⟩
    [.branch "identifier" ⟨25, 26⟩ [], .token ";" ⟨26, 27⟩])

def middle : Concrete.Node :=
  conditionAt 10 28 (blockAround 15 28 innermost)

def outermost : Concrete.Node :=
  conditionAt 0 29 (blockAround 5 29 middle)

theorem ifChain_outermost : Concrete.Node.IfChain [outermost, middle, innermost] := by
  refine .nest (by decide) ⟨_, rfl, rfl, rfl⟩ (.nest (by decide) ⟨_, rfl, rfl, rfl⟩ ?_)
  refine .last (by decide) ?_
  rintro c ⟨⟩
  decide

def nestedSource : Bytes :=
  Utf8.encode "if(a)\x7b/**/if(b)\x7b/**/if(c)d;\x7d\x7d"

def nestedConditions : Concrete.Node :=
  .branch "compilation_unit" ⟨0, 29⟩ [outermost]

/-- Of three conditions in each other the two outer ones are reported. -/
theorem matchedNodes_collapsibleIf_nestedConditions :
    ∃ tree, Tree.ofRead nestedSource nestedConditions = .ok tree ∧
      (collapsibleIf.matchedNodes tree).map Node.span = [⟨0, 29⟩, ⟨10, 28⟩] ∧
      Node.ofConcrete nestedSource innermost ∉ collapsibleIf.matchedNodes tree := by
  have htree : Tree.ofRead nestedSource nestedConditions = .ok _ :=
    Tree.ofRead_eq_ok_iff.mpr ⟨by decide, rfl⟩
  obtain ⟨hmatched, -, hchains⟩ := matchedNodes_collapsibleIf htree
  have hreached : ⟨outermost, true⟩ ∈ (nestedConditions.visits nestedSource).tail :=
    Concrete.Node.mem_tail_visits_of_child (by decide) List.mem_cons_self (by decide)
  obtain ⟨-, -, hlast⟩ := hchains outermost [middle, innermost] ifChain_outermost
    (List.mem_map_of_mem hreached)
  refine ⟨_, htree, ?_, hlast innermost rfl⟩
  rw [hmatched]
  decide +kernel

end Rule

end CSharpAudit
