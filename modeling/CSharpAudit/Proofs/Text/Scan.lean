import CSharpAudit.Proofs.Text.Utf8

/-!
Searching a text from left to right for the words of a list. What a search finds is
told by places alone: no word stands before the first find, and the search goes on
behind it. So a text has exactly one search from each place. The search for the bytes
of some words in the bytes of a text finds exactly the bytes of what the search for
the words finds in the text, because a byte inside a character begins no character.
-/

namespace CSharpAudit.Text

open Utf8

section Search

variable {α : Type} [BEq α] {words : List (List α)} {text : List α}

/-- The word that stands at a place, and of several the one that comes first in the
list. -/
def wordAt? (words : List (List α)) (text : List α) (place : Nat) : Option (List α) :=
  words.find? (fun word => word.isPrefixOf (text.drop place))

structure Stretch where
  start : Nat
  stop : Nat
deriving DecidableEq, Repr

/-- What a search that begins at a place finds, from left to right and without
overlaps. -/
inductive Scan (words : List (List α)) (text : List α) : Nat → List Stretch → Prop
  | nothing {place : Nat} (hnone : ∀ i, place ≤ i → wordAt? words text i = none) :
      Scan words text place []
  | found {place first : Nat} {word : List α} {later : List Stretch} (hplace : place ≤ first)
      (hbefore : ∀ i, place ≤ i → i < first → wordAt? words text i = none)
      (hword : wordAt? words text first = some word)
      (hlater : Scan words text (first + word.length) later) :
      Scan words text place (⟨first, first + word.length⟩ :: later)

theorem wordAt?_of_length_le (hwords : [] ∉ words) {place : Nat} (h : text.length ≤ place) :
    wordAt? words text place = none := by
  rw [wordAt?, List.find?_eq_none, List.drop_eq_nil_of_le h]
  intro word hword
  cases word with
  | nil => exact absurd hword hwords
  | cons a word => simp

theorem length_pos_of_wordAt? (hwords : [] ∉ words) {place : Nat} {word : List α}
    (h : wordAt? words text place = some word) : 0 < word.length := by
  apply List.length_pos_iff.mpr
  rintro rfl
  exact hwords (List.mem_of_find?_eq_some h)

namespace Scan

theorem atEnd (hwords : [] ∉ words) {place : Nat} (h : text.length ≤ place) :
    Scan words text place [] :=
  .nothing fun _ hi => wordAt?_of_length_le hwords (Nat.le_trans h hi)

theorem skip {place : Nat} {found : List Stretch} (hnone : wordAt? words text place = none)
    (h : Scan words text (place + 1) found) : Scan words text place found := by
  have hextend {i : Nat} (hi : place ≤ i)
      (hlater : place + 1 ≤ i → wordAt? words text i = none) : wordAt? words text i = none := by
    rcases Nat.eq_or_lt_of_le hi with rfl | hlt
    · exact hnone
    · exact hlater hlt
  cases h with
  | nothing hafter => exact .nothing fun i hi => hextend hi (hafter i)
  | found hplace hbefore hword hlater =>
      exact .found (Nat.le_of_succ_le hplace)
        (fun i hi hlt => hextend hi fun hle => hbefore i hle hlt) hword hlater

theorem hit {place : Nat} {word : List α} {later : List Stretch}
    (hword : wordAt? words text place = some word)
    (hlater : Scan words text (place + word.length) later) :
    Scan words text place (⟨place, place + word.length⟩ :: later) :=
  .found (Nat.le_refl place) (fun _ hle hlt => absurd hlt (Nat.not_lt.mpr hle)) hword hlater

theorem exists_from (hwords : [] ∉ words) (text : List α) (place : Nat) :
    ∃ found, Scan words text place found := by
  by_cases hend : text.length ≤ place
  · exact ⟨[], atEnd hwords hend⟩
  · cases hword : wordAt? words text place with
    | none =>
        obtain ⟨found, hfound⟩ := exists_from hwords text (place + 1)
        exact ⟨found, hfound.skip hword⟩
    | some word =>
        have hpos := length_pos_of_wordAt? hwords hword
        obtain ⟨later, hlater⟩ := exists_from hwords text (place + word.length)
        exact ⟨_, hit hword hlater⟩
termination_by text.length - place

/-- Two searches from one place find the same: neither can be ahead of the other. -/
theorem unique {place : Nat} {a b : List Stretch} (ha : Scan words text place a)
    (hb : Scan words text place b) : a = b := by
  induction ha generalizing b with
  | nothing hnone =>
      cases hb with
      | nothing => rfl
      | found hplace _ hword _ =>
          rw [hnone _ hplace] at hword
          contradiction
  | @found place first word later hplace hbefore hword _ ih =>
      cases hb with
      | nothing hnone =>
          rw [hnone _ hplace] at hword
          contradiction
      | @found _ first' word' later' hplace' hbefore' hword' hlater' =>
          have hsame : first = first' := by
            rcases Nat.lt_trichotomy first first' with hlt | heq | hlt
            · rw [hbefore' first hplace hlt] at hword
              contradiction
            · exact heq
            · rw [hbefore first' hplace' hlt] at hword'
              contradiction
          subst hsame
          obtain rfl := Option.some.inj (hword.symm.trans hword')
          rw [ih hlater']

theorem iff_eq {place : Nat} {a b : List Stretch} (ha : Scan words text place a) :
    Scan words text place b ↔ b = a :=
  ⟨fun hb => hb.unique ha, fun h => h ▸ ha⟩

theorem stop_le [LawfulBEq α] (hwords : [] ∉ words) {place : Nat} {found : List Stretch}
    (h : Scan words text place found) : ∀ s ∈ found, s.stop ≤ text.length := by
  induction h with
  | nothing => simp
  | @found place first word later hplace hbefore hword _ ih =>
      have htest := List.find?_some hword
      have hlength := (List.isPrefixOf_iff_prefix.mp htest).length_le
      rw [List.length_drop] at hlength
      have hpos := length_pos_of_wordAt? hwords hword
      intro s hs
      rcases List.mem_cons.mp hs with rfl | hs
      · change first + word.length ≤ text.length
        omega
      · exact ih s hs

end Scan

end Search

/-! The same search in the bytes of a text. -/

/-- The offset at which the character of a place begins. -/
def byteOffset (text : List Char) (place : Nat) : Nat :=
  (encodeChars (text.take place)).length

def Stretch.inBytes (text : List Char) (s : Stretch) : Stretch :=
  ⟨byteOffset text s.start, byteOffset text s.stop⟩

theorem byteOffset_add (text : List Char) (place k : Nat) :
    byteOffset text (place + k) =
      byteOffset text place + byteOffset (text.drop place) k := by
  rw [byteOffset, List.take_add, encodeChars_append, List.length_append]
  rfl

theorem byteOffset_mono (text : List Char) {a b : Nat} (h : a ≤ b) :
    byteOffset text a ≤ byteOffset text b := by
  obtain ⟨k, rfl⟩ := Nat.exists_eq_add_of_le h
  rw [byteOffset_add]
  exact Nat.le_add_right _ _

theorem byteOffset_lt {text : List Char} {a b : Nat} (h : a < b) (ha : a < text.length) :
    byteOffset text a < byteOffset text b := by
  obtain ⟨k, rfl⟩ := Nat.exists_eq_add_of_lt h
  have hlength := length_le_length_encodeChars ((text.drop a).take (k + 1))
  rw [List.length_take, List.length_drop] at hlength
  rw [Nat.add_assoc, byteOffset_add]
  change _ < _ + (encodeChars ((text.drop a).take (k + 1))).length
  omega

theorem le_of_byteOffset_le {text : List Char} {a b : Nat} (hb : b < text.length)
    (h : byteOffset text a ≤ byteOffset text b) : a ≤ b := by
  by_contra hgt
  have hlt := byteOffset_lt (Nat.lt_of_not_le hgt) hb
  omega

theorem byteOffset_le_iff {text : List Char} {a b : Nat} (ha : a ≤ text.length) :
    byteOffset text a ≤ byteOffset text b ↔ a ≤ b := by
  refine ⟨fun hle => ?_, byteOffset_mono text⟩
  rcases Nat.lt_or_ge b text.length with hb | hb
  · exact le_of_byteOffset_le hb hle
  · exact Nat.le_trans ha hb

theorem byteOffset_le_length (text : List Char) (place : Nat) :
    byteOffset text place ≤ (encodeChars text).length := by
  calc byteOffset text place
      ≤ byteOffset text (place + text.length) := byteOffset_mono text (Nat.le_add_right _ _)
    _ = (encodeChars text).length := by
      rw [byteOffset, List.take_of_length_le (Nat.le_add_left _ _)]

theorem drop_byteOffset (text : List Char) (place : Nat) :
    (encodeChars text).drop (byteOffset text place) = encodeChars (text.drop place) := by
  have hsplit : encodeChars text =
      encodeChars (text.take place) ++ encodeChars (text.drop place) := by
    rw [← encodeChars_append, List.take_append_drop]
  rw [hsplit]
  exact List.drop_left

/-- The bytes of a word stand at the head of the bytes of a text exactly if the word
stands at the head of the text. -/
theorem encodeChars_prefix_iff {word text : List Char} :
    encodeChars word <+: encodeChars text ↔ word <+: text := by
  constructor
  · rintro ⟨rest, hrest⟩
    refine ⟨decodeChars rest, ?_⟩
    rw [← decodeChars_encodeChars_append, hrest, decodeChars_encodeChars]
  · rintro ⟨rest, rfl⟩
    exact ⟨encodeChars rest, (encodeChars_append word rest).symm⟩

theorem wordAt?_byteOffset (words : List (List Char)) (text : List Char) (place : Nat) :
    wordAt? (words.map encodeChars) (encodeChars text) (byteOffset text place) =
      (wordAt? words text place).map encodeChars := by
  rw [wordAt?, wordAt?, List.find?_map, drop_byteOffset]
  congr 2
  funext word
  rw [Bool.eq_iff_iff]
  exact List.isPrefixOf_iff_prefix.trans
    (encodeChars_prefix_iff.trans List.isPrefixOf_iff_prefix.symm)

theorem not_isContinuation_of_encodeChar {c : Char} {b : UInt8} {bs : Bytes}
    (h : String.utf8EncodeChar c = b :: bs) : isContinuation b = false := by
  obtain ⟨b', bs', hbytes, -, hfirst⟩ := exists_encodeChar_eq c
  obtain ⟨rfl, rfl⟩ := List.cons.inj (h.symm.trans hbytes)
  rw [← Bool.not_eq_true]
  intro hb
  have hpiece := hfirst []
  rw [Piece.first_of_isContinuation hb] at hpiece
  contradiction

/-- A byte of a text is the first of a character or continues one. -/
theorem exists_byteOffset_or_isContinuation {text : List Char} {offset : Nat}
    (h : offset < (encodeChars text).length) :
    (∃ place < text.length, offset = byteOffset text place) ∨
      ∃ b, (encodeChars text)[offset]? = some b ∧ isContinuation b = true := by
  induction text generalizing offset with
  | nil => simp at h
  | cons c text ih =>
      obtain ⟨b, bs, hbytes, hbs, -⟩ := exists_encodeChar_eq c
      have hnext (place : Nat) :
          byteOffset (c :: text) (place + 1) = bs.length + 1 + byteOffset text place := by
        rw [byteOffset, List.take_succ_cons, encodeChars_cons, hbytes, List.length_append]
        rfl
      rw [encodeChars_cons, hbytes, List.length_append, List.length_cons] at h
      rw [encodeChars_cons, hbytes]
      -- the first byte, the bytes that continue it, the bytes of the characters behind
      rcases Nat.lt_or_ge offset (bs.length + 1) with hlt | hge
      · cases offset with
        | zero => exact .inl ⟨0, Nat.zero_lt_succ _, rfl⟩
        | succ k =>
            have hk : k < bs.length := Nat.lt_of_succ_lt_succ hlt
            refine .inr ⟨bs[k], ?_, hbs _ (List.getElem_mem hk)⟩
            rw [List.cons_append, List.getElem?_cons_succ, List.getElem?_append_left hk,
              List.getElem?_eq_getElem hk]
      · obtain ⟨k, rfl⟩ := Nat.exists_eq_add_of_le hge
        have hk : k < (encodeChars text).length := by omega
        rcases ih hk with ⟨place, hplace, rfl⟩ | ⟨x, hx, hcont⟩
        · exact .inl ⟨place + 1, Nat.succ_lt_succ hplace, (hnext place).symm⟩
        · refine .inr ⟨x, ?_, hcont⟩
          rw [← hx, ← List.length_cons (a := b), List.getElem?_append_right (Nat.le_add_right _ _),
            Nat.add_sub_cancel_left]

theorem wordAt?_of_isContinuation {words : List (List Char)} (hwords : [] ∉ words)
    {source : Bytes} {offset : Nat} {b : UInt8} (hb : source[offset]? = some b)
    (hcont : isContinuation b = true) :
    wordAt? (words.map encodeChars) source offset = none := by
  rw [wordAt?, List.find?_eq_none]
  intro bytes hbytes hprefix
  obtain ⟨word, hword, rfl⟩ := List.mem_map.mp hbytes
  cases word with
  | nil => exact hwords hword
  | cons c word =>
      obtain ⟨first, bs, hfirst, -, -⟩ := exists_encodeChar_eq c
      obtain ⟨rest, hrest⟩ := List.isPrefixOf_iff_prefix.mp hprefix
      rw [← List.head?_drop, ← hrest, encodeChars_cons, hfirst] at hb
      obtain rfl : first = b := Option.some.inj hb
      rw [not_isContinuation_of_encodeChar hfirst] at hcont
      contradiction

/-- The bytes of a word stand only where the word stands in the text. -/
theorem exists_of_wordAt?_map_ne_none {words : List (List Char)} (hwords : [] ∉ words)
    {text : List Char} {offset : Nat}
    (h : wordAt? (words.map encodeChars) (encodeChars text) offset ≠ none) :
    ∃ place < text.length, offset = byteOffset text place ∧ wordAt? words text place ≠ none := by
  have hencoded : [] ∉ words.map encodeChars := by
    intro hmem
    obtain ⟨word, hword, hempty⟩ := List.mem_map.mp hmem
    have hlength := length_le_length_encodeChars word
    rw [hempty, List.length_nil, Nat.le_zero, List.length_eq_zero_iff] at hlength
    exact hwords (hlength ▸ hword)
  have hlt : offset < (encodeChars text).length := by
    rw [← Nat.not_le]
    exact fun hle => h (wordAt?_of_length_le hencoded hle)
  rcases exists_byteOffset_or_isContinuation hlt with ⟨place, hplace, rfl⟩ | ⟨b, hb, hcont⟩
  · refine ⟨place, hplace, rfl, fun hnone => h ?_⟩
    rw [wordAt?_byteOffset, hnone, Option.map_none]
  · exact absurd (wordAt?_of_isContinuation hwords hb hcont) h

theorem byteOffset_behind_word {words : List (List Char)} {text word : List Char} {place : Nat}
    (h : wordAt? words text place = some word) :
    byteOffset text (place + word.length) = byteOffset text place + (encodeChars word).length := by
  have htest := List.find?_some h
  have htake := List.prefix_iff_eq_take.mp (List.isPrefixOf_iff_prefix.mp htest)
  rw [byteOffset_add, byteOffset, byteOffset, ← htake]

/-- The search for the bytes of words in the bytes of a text finds the bytes of what
the search for the words finds in the text, and nothing else. -/
theorem Scan.inBytes {words : List (List Char)} (hwords : [] ∉ words) {text : List Char}
    {place : Nat} {found : List Stretch} (h : Scan words text place found) :
    Scan (words.map encodeChars) (encodeChars text) (byteOffset text place)
      (found.map (Stretch.inBytes text)) := by
  induction h with
  | nothing hnone =>
      refine .nothing fun offset hoffset => ?_
      by_contra hsome
      obtain ⟨i, hi, rfl, hword⟩ := exists_of_wordAt?_map_ne_none hwords hsome
      exact hword (hnone i (le_of_byteOffset_le hi hoffset))
  | @found place first word later hplace hbefore hword hlater ih =>
      change Scan _ _ _
        (⟨byteOffset text first, byteOffset text (first + word.length)⟩ :: later.map _)
      rw [byteOffset_behind_word hword] at ih ⊢
      refine .found (byteOffset_mono text hplace) (fun offset hoffset hlt => ?_) ?_ ih
      · by_contra hsome
        obtain ⟨i, hi, rfl, hearlier⟩ := exists_of_wordAt?_map_ne_none hwords hsome
        have hfirst : i < first := by
          by_contra hle
          have hbytes := byteOffset_mono text (Nat.le_of_not_lt hle)
          omega
        exact hearlier (hbefore i (le_of_byteOffset_le hi hoffset) hfirst)
      · rw [wordAt?_byteOffset, hword, Option.map_some]

end CSharpAudit.Text
