import Mathlib.Data.List.Induction
import Mathlib.Data.List.Nodup

/-!
Words in the order in which they come up. A list of words without its repetitions
is followed from the right, one more word at a time: a known word changes nothing,
a new one goes to the end.
-/

namespace CSharpAudit

/-- The keys of a list, each once, in the order in which they come up first. -/
structure DistinctInOrder (distinct keys : List String) : Prop where
  nodup : distinct.Nodup
  mem_iff : ∀ key, key ∈ distinct ↔ key ∈ keys
  ordered : distinct.Pairwise fun a b => keys.idxOf a < keys.idxOf b

/-- One more key changes nothing if it is known, and goes to the end if it is new. -/
theorem DistinctInOrder.append_singleton {distinct keys : List String}
    (h : DistinctInOrder distinct keys) (key : String) :
    DistinctInOrder (if key ∈ keys then distinct else distinct ++ [key]) (keys ++ [key]) := by
  have hidx {a : String} (ha : a ∈ distinct) : (keys ++ [key]).idxOf a = keys.idxOf a :=
    List.idxOf_append_of_mem ((h.mem_iff a).mp ha)
  have hordered :
      distinct.Pairwise fun a b => (keys ++ [key]).idxOf a < (keys ++ [key]).idxOf b := by
    refine h.ordered.imp_of_mem fun ha hb hlt => ?_
    rw [hidx ha, hidx hb]
    exact hlt
  split_ifs with hkey
  · refine ⟨h.nodup, fun a => ?_, hordered⟩
    rw [h.mem_iff, List.mem_append, List.mem_singleton]
    exact ⟨.inl, fun ha => ha.elim id fun heq => heq ▸ hkey⟩
  · have hnew : key ∉ distinct := fun hmem => hkey ((h.mem_iff key).mp hmem)
    refine ⟨?_, fun a => ?_, ?_⟩
    · exact h.nodup.append (List.nodup_singleton key) (List.disjoint_singleton.mpr hnew)
    · rw [List.mem_append, List.mem_append, h.mem_iff]
    · refine List.pairwise_append.mpr ⟨hordered, List.pairwise_singleton _ _, fun a ha b hb => ?_⟩
      obtain rfl := List.mem_singleton.mp hb
      rw [hidx ha, List.idxOf_append_of_notMem hkey]
      exact Nat.lt_of_lt_of_le (List.idxOf_lt_length_of_mem ((h.mem_iff a).mp ha))
        (Nat.le_add_right _ _)

theorem eraseDups_append_singleton (keys : List String) (key : String) :
    (keys ++ [key]).eraseDups = if key ∈ keys then keys.eraseDups else keys.eraseDups ++ [key] := by
  rw [List.eraseDups_append]
  split_ifs with h
  · simp [List.removeAll, h]
  · simp [List.removeAll, h, List.eraseDups_cons]

theorem distinctInOrder_eraseDups (keys : List String) : DistinctInOrder keys.eraseDups keys := by
  induction keys using List.reverseRecOn with
  | nil => exact ⟨List.nodup_nil, fun _ => Iff.rfl, .nil⟩
  | append_singleton keys key ih =>
      rw [eraseDups_append_singleton]
      exact ih.append_singleton key

theorem DistinctInOrder.eq_eraseDups {distinct keys : List String}
    (h : DistinctInOrder distinct keys) : distinct = keys.eraseDups := by
  have h' := distinctInOrder_eraseDups keys
  have hperm : distinct.Perm keys.eraseDups := by
    refine (List.perm_ext_iff_of_nodup h.nodup h'.nodup).mpr fun key => ?_
    rw [h.mem_iff, h'.mem_iff]
  refine hperm.eq_of_pairwise ?_ h.ordered h'.ordered
  intro a b _ _ hab hba
  exact absurd hba (Nat.lt_asymm hab)

end CSharpAudit
