import CSharpAudit.Text.Case
import Mathlib.Data.List.Forall2

/-!
Words in any letter case. A word of small letters can be written with capitals in
some places, and these spellings are the texts whose small form is the word.
-/

namespace CSharpAudit.Text

/-- A spelling of a word: at each place its small letter or the capital of it. -/
def SpelledAs (word text : List Char) : Prop :=
  List.Forall₂ (fun small c => c = small ∨ c = small.toUpper) word text

theorem toNat_toLower (c : Char) :
    c.toLower.toNat = if 65 ≤ c.toNat ∧ c.toNat ≤ 90 then c.toNat + 32 else c.toNat := by
  have hcapital : 'A'.val ≤ c.val ∧ c.val ≤ 'Z'.val ↔ 65 ≤ c.toNat ∧ c.toNat ≤ 90 := by
    simp [UInt32.le_iff_toNat_le]
  by_cases h : 65 ≤ c.toNat ∧ c.toNat ≤ 90
  · have hlower : c.toLower.val = c.val + ('a'.val - 'A'.val) :=
      congrArg Char.val (dif_pos (hcapital.mpr h))
    have hshift : ('a'.val - 'A'.val).toNat = 32 := by decide
    rw [if_pos h, ← Char.toNat_val, hlower, UInt32.toNat_add, hshift, Char.toNat_val]
    omega
  · rw [if_neg h]
    exact congrArg Char.toNat (dif_neg (mt hcapital.mp h))

theorem toNat_toUpper (c : Char) :
    c.toUpper.toNat = if 97 ≤ c.toNat ∧ c.toNat ≤ 122 then c.toNat - 32 else c.toNat := by
  have hsmall : 'a'.val ≤ c.val ∧ c.val ≤ 'z'.val ↔ 97 ≤ c.toNat ∧ c.toNat ≤ 122 := by
    simp [UInt32.le_iff_toNat_le]
  by_cases h : 97 ≤ c.toNat ∧ c.toNat ≤ 122
  · have hupper : c.toUpper.val = c.val + ('A'.val - 'a'.val) := by
      change (dite ('a'.val ≤ c.val ∧ c.val ≤ 'z'.val) _ _ : Char).val = _
      rw [dif_pos (hsmall.mpr h)]
    have hshift : ('A'.val - 'a'.val).toNat = 2 ^ 32 - 32 := by decide
    rw [if_pos h, ← Char.toNat_val, hupper, UInt32.toNat_add, hshift, Char.toNat_val]
    omega
  · rw [if_neg h]
    exact congrArg Char.toNat (dif_neg (mt hsmall.mp h))

theorem toLower_eq_iff {c small : Char} (hsmall : small.isLower = true) :
    c.toLower = small ↔ c = small ∨ c = small.toUpper := by
  have hbounds : 97 ≤ small.toNat ∧ small.toNat ≤ 122 := by
    change (decide (97 ≤ small.toNat) && decide (small.toNat ≤ 122)) = true at hsmall
    simpa using hsmall
  simp only [← Char.toNat_inj, toNat_toLower, toNat_toUpper, hbounds, and_self, if_true]
  split <;> omega

/-- A letter that is of some kind in neither case is the small form of no character of
that kind. -/
theorem ne_toLower {P : Char → Prop} {c small : Char} (hc : P c) (hsmall : small.isLower = true)
    (hnot : ¬ P small ∧ ¬ P small.toUpper) : small ≠ c.toLower := by
  intro hsame
  rcases (toLower_eq_iff hsmall).mp hsame.symm with rfl | rfl
  · exact hnot.1 hc
  · exact hnot.2 hc

theorem spelledAs_iff {word text : List Char} (hword : ∀ small ∈ word, small.isLower = true) :
    SpelledAs word text ↔ lowerPlain text = word := by
  induction word generalizing text with
  | nil => simp [SpelledAs, lowerPlain]
  | cons small word ih =>
      rw [List.forall_mem_cons] at hword
      cases text with
      | nil => simp [SpelledAs, lowerPlain]
      | cons c text =>
          rw [SpelledAs, List.forall₂_cons, ← toLower_eq_iff hword.1, ← SpelledAs, ih hword.2]
          simp [lowerPlain]

theorem SpelledAs.forall_mem {P : Char → Prop} {word text : List Char} (h : SpelledAs word text)
    (hword : ∀ small ∈ word, P small ∧ P small.toUpper) : ∀ c ∈ text, P c := by
  induction h with
  | nil => simp
  | cons hfirst _ ih =>
      rw [List.forall_mem_cons] at hword
      refine List.forall_mem_cons.mpr ⟨?_, ih hword.2⟩
      rcases hfirst with rfl | rfl
      · exact hword.1.1
      · exact hword.1.2

end CSharpAudit.Text
