import CSharpAudit.Source.Span
import Mathlib.Data.List.Chain

/-!
Spans of siblings inside the span of their parent. `Holds` says it span by
span; `Follow` says it along the list, which is the form in which siblings can
be dropped, cut into groups and replaced by the hulls of the groups.
-/

namespace CSharpAudit.Span

/-- A span that is not reversed and holds other spans, in order and without
overlap. -/
structure Holds (outer : Span) (inner : List Span) : Prop where
  start_le_stop : outer.start ≤ outer.stop
  contains : ∀ s ∈ inner, outer.contains s = true
  apart : inner.IsChain (fun a b => a.stop ≤ b.start)

instance (outer : Span) (inner : List Span) : Decidable (Holds outer inner) :=
  decidable_of_iff
    (outer.start ≤ outer.stop ∧ (∀ s ∈ inner, outer.contains s = true) ∧
      inner.IsChain (fun a b => a.stop ≤ b.start))
    ⟨fun ⟨h1, h2, h3⟩ => ⟨h1, h2, h3⟩, fun ⟨h1, h2, h3⟩ => ⟨h1, h2, h3⟩⟩

/-- Spans between `lo` and `hi`, none of them reversed, each starting where
the one before has ended or later. -/
def Follow (lo hi : Int) : List Span → Prop
  | [] => lo ≤ hi
  | s :: rest => lo ≤ s.start ∧ s.start ≤ s.stop ∧ Follow s.stop hi rest

theorem Follow.le {lo hi : Int} {spans : List Span} (h : Follow lo hi spans) : lo ≤ hi := by
  induction spans generalizing lo with
  | nil => exact h
  | cons s rest ih =>
      obtain ⟨hlo, hs, hrest⟩ := h
      have hhi := ih hrest
      omega

theorem Follow.mono_left {lo lo' hi : Int} {spans : List Span} (h : Follow lo hi spans)
    (hlo : lo' ≤ lo) : Follow lo' hi spans := by
  cases spans with
  | nil => exact Int.le_trans hlo h
  | cons s rest => exact ⟨Int.le_trans hlo h.1, h.2⟩

theorem follow_append {lo hi : Int} {a b : List Span} :
    Follow lo hi (a ++ b) ↔ ∃ mid, Follow lo mid a ∧ Follow mid hi b := by
  induction a generalizing lo with
  | nil =>
      constructor
      · intro h
        exact ⟨lo, Int.le_refl lo, h⟩
      · rintro ⟨mid, hlo, hb⟩
        exact hb.mono_left hlo
  | cons s rest ih =>
      simp only [List.cons_append, Follow, ih]
      constructor
      · rintro ⟨hlo, hs, mid, hrest, hb⟩
        exact ⟨mid, ⟨hlo, hs, hrest⟩, hb⟩
      · rintro ⟨mid, ⟨hlo, hs, hrest⟩, hb⟩
        exact ⟨hlo, hs, mid, hrest, hb⟩

theorem Follow.sublist {lo hi : Int} {a b : List Span} (h : Follow lo hi b)
    (hab : a.Sublist b) : Follow lo hi a := by
  induction hab generalizing lo with
  | slnil => exact h
  | cons s _ ih =>
      obtain ⟨hlo, hs, hrest⟩ := h
      exact ih (hrest.mono_left (Int.le_trans hlo hs))
  | cons_cons s _ ih =>
      obtain ⟨hlo, hs, hrest⟩ := h
      exact ⟨hlo, hs, ih hrest⟩

theorem Follow.bounds {lo hi : Int} {spans : List Span} (h : Follow lo hi spans) {s : Span}
    (hs : s ∈ spans) : lo ≤ s.start ∧ s.start ≤ s.stop ∧ s.stop ≤ hi := by
  obtain ⟨before, after, rfl⟩ := List.append_of_mem hs
  obtain ⟨mid, hbefore, hlo, hrange, hafter⟩ := follow_append.mp h
  exact ⟨Int.le_trans hbefore.le hlo, hrange, hafter.le⟩

theorem Follow.isChain {lo hi : Int} {spans : List Span} (h : Follow lo hi spans) :
    spans.IsChain (fun a b => a.stop ≤ b.start) := by
  induction spans generalizing lo with
  | nil => exact .nil
  | cons s rest ih =>
      obtain ⟨-, -, hrest⟩ := h
      cases rest with
      | nil => exact .singleton s
      | cons next more => exact .cons_cons hrest.1 (ih hrest)

theorem Follow.holds {outer : Span} {inner : List Span}
    (h : Follow outer.start outer.stop inner) : outer.Holds inner where
  start_le_stop := h.le
  contains s hs := by
    obtain ⟨hstart, -, hstop⟩ := h.bounds hs
    simp [Span.contains, hstart, hstop]
  apart := h.isChain

theorem follow_of_isChain {hi : Int} {first : Span} {rest : List Span}
    (hchain : (first :: rest).IsChain (fun a b => a.stop ≤ b.start))
    (hrest : ∀ s ∈ rest, s.start ≤ s.stop) (hhi : ∀ s ∈ first :: rest, s.stop ≤ hi) :
    Follow first.stop hi rest := by
  induction rest generalizing first with
  | nil => exact hhi first List.mem_cons_self
  | cons next more ih =>
      obtain ⟨hnext, hmore⟩ := List.isChain_cons_cons.mp hchain
      obtain ⟨hrange, hranges⟩ := List.forall_mem_cons.mp hrest
      exact ⟨hnext, hrange, ih hmore hranges (List.forall_mem_cons.mp hhi).2⟩

theorem Holds.follow {outer : Span} {inner : List Span} (h : outer.Holds inner)
    (hinner : ∀ s ∈ inner, s.start ≤ s.stop) : Follow outer.start outer.stop inner := by
  obtain ⟨hrange, hcontains, hapart⟩ := h
  simp only [Span.contains, Bool.and_eq_true, decide_eq_true_eq] at hcontains
  cases inner with
  | nil => exact hrange
  | cons first rest =>
      obtain ⟨hfirst, hrest⟩ := List.forall_mem_cons.mp hinner
      exact ⟨(hcontains first List.mem_cons_self).1, hfirst,
        follow_of_isChain hapart hrest fun s hs => (hcontains s hs).2⟩

def hull (first : Span) (rest : List Span) : Span :=
  ⟨first.start, (rest.getLastD first).stop⟩

/-- A group of siblings can be replaced by its hull, and keeps its order
inside the hull. -/
theorem Follow.hull {lo hi : Int} {first : Span} {rest : List Span}
    (h : Follow lo hi (first :: rest)) :
    Follow lo hi [Span.hull first rest] ∧
      Follow (Span.hull first rest).start (Span.hull first rest).stop (first :: rest) := by
  induction rest generalizing lo first with
  | nil =>
      obtain ⟨hlo, hrange, hhi⟩ := h
      exact ⟨⟨hlo, hrange, hhi⟩, Int.le_refl _, hrange, Int.le_refl _⟩
  | cons next more ih =>
      obtain ⟨hlo, hrange, hmore⟩ := h
      obtain ⟨⟨hnext, hhull, hhi⟩, hinside⟩ := ih hmore
      have hstop : (Span.hull first (next :: more)).stop = (Span.hull next more).stop := by
        rw [Span.hull, List.getLastD_cons]
        rfl
      refine ⟨⟨hlo, ?_, ?_⟩, Int.le_refl _, hrange, ?_⟩
      · change first.start ≤ _
        omega
      · rwa [hstop]
      · rw [hstop]
        exact hinside.mono_left hnext

end CSharpAudit.Span
