import CSharpAudit.Proofs.Text.Lines

/-!
The line terminators of a text, told from its characters. The line breaks of its
bytes are its terminators, and the line feeds of its bytes are those terminators
that hold one: a line feed alone or behind a carriage return.
-/

namespace CSharpAudit.Text

open Utf8

structure Terminator where
  chars : List Char
  stop : Nat
deriving DecidableEq, Repr

/-- The line terminators of a text that begins at `offset`, in order. A carriage
return and a line feed after it are one. -/
def terminatorsFrom (offset : Nat) : List Char → List Terminator
  | [] => []
  | '\r' :: '\n' :: rest => ⟨['\r', '\n'], offset + 2⟩ :: terminatorsFrom (offset + 2) rest
  | c :: rest =>
    let next := offset + (String.utf8EncodeChar c).length
    if isTerminator c then ⟨[c], next⟩ :: terminatorsFrom next rest else terminatorsFrom next rest

/-- A carriage return alone, a next-line character, a line separator or a
paragraph separator: the terminators without a line feed. -/
def Terminator.isFeedless (t : Terminator) : Bool :=
  t.chars ∈ [['\r'], ['\u0085'], ['\u2028'], ['\u2029']]

example : (terminatorsFrom 0 "é\r\n\r\u2028\n".toList).map
    (fun t => (t.stop, t.isFeedless)) = [(4, false), (5, true), (8, true), (9, false)] := by
  decide

theorem map_stop_terminatorsFrom (offset : Nat) (text : List Char) :
    (terminatorsFrom offset text).map Terminator.stop =
      lineStartsAfter offset (encodeChars text) := by
  fun_induction terminatorsFrom offset text with
  | case1 offset => simp [lineStartsAfter]
  | case2 offset rest ih =>
      have hbytes : encodeChars ('\r' :: '\n' :: rest) = [0x0D, 0x0A] ++ encodeChars rest := rfl
      rw [hbytes, lineStartsAfter_append_of_width _ _ (by simp) (by rfl), List.map_cons, ih]
      rfl
  | case3 offset c rest hcrlf next hc ih =>
      rw [lineStartsAfter_terminator hc hcrlf, List.map_cons, ih]
  | case4 offset c rest hcrlf next hc ih =>
      rw [encodeChars_cons, lineStartsAfter_encodeChar (by simpa using hc), ih]

/-- The offsets just after each line feed, for bytes that begin at `offset`. -/
def feedsAfter (offset : Nat) : Bytes → List Nat
  | [] => []
  | b :: rest =>
    if b = 0x0A then (offset + 1) :: feedsAfter (offset + 1) rest else feedsAfter (offset + 1) rest

theorem mem_feedsAfter {offset x : Nat} {bytes : Bytes} :
    x ∈ feedsAfter offset bytes ↔ ∃ i, bytes[i]? = some 0x0A ∧ x = offset + i + 1 := by
  induction bytes generalizing offset with
  | nil => simp [feedsAfter]
  | cons b rest ih =>
      rw [feedsAfter, ← Nat.or_exists_add_one]
      have hrest : x ∈ feedsAfter (offset + 1) rest ↔
          ∃ i, (b :: rest)[i + 1]? = some 0x0A ∧ x = offset + (i + 1) + 1 := by
        rw [ih]
        simp only [List.getElem?_cons_succ, Nat.add_right_comm offset 1, Nat.add_assoc]
      by_cases hb : b = 0x0A
      · rw [if_pos hb, List.mem_cons, hrest]
        simp [hb]
      · rw [if_neg hb, hrest]
        simp [hb]

theorem count_take_eq (offset : Nat) (bytes : Bytes) (m : Nat) :
    (bytes.take m).count 0x0A = (feedsAfter offset bytes).countP (fun x => x ≤ offset + m) := by
  induction bytes generalizing offset m with
  | nil => simp [feedsAfter]
  | cons b rest ih =>
      cases m with
      | zero =>
          rw [List.take_zero, List.count_nil, eq_comm, List.countP_eq_zero]
          intro x hx
          obtain ⟨i, -, rfl⟩ := mem_feedsAfter.mp hx
          simp only [decide_eq_true_eq]
          omega
      | succ m =>
          have hrest := ih (offset + 1) m
          rw [Nat.add_assoc, Nat.add_comm 1] at hrest
          rw [List.take_succ_cons, List.count_cons, hrest, feedsAfter]
          by_cases hb : b = 0x0A
          · simp [hb]
          · simp [hb]

theorem feedsAfter_append {bs : Bytes} (hbs : 0x0A ∉ bs) (rest : Bytes) (offset : Nat) :
    feedsAfter offset (bs ++ rest) = feedsAfter (offset + bs.length) rest := by
  induction bs generalizing offset with
  | nil => rfl
  | cons b bs ih =>
      obtain ⟨hb, hbs⟩ := List.ne_and_not_mem_of_not_mem_cons hbs
      rw [List.cons_append, feedsAfter, if_neg hb.symm, ih hbs, List.length_cons,
        Nat.add_assoc, Nat.add_comm 1]

theorem lineFeed_not_mem_encodeChar {c : Char} (hc : c ≠ '\n') :
    0x0A ∉ String.utf8EncodeChar c := by
  obtain ⟨b, bs, hbytes, hbs, -⟩ := exists_encodeChar_eq c
  intro hmem
  rw [hbytes] at hmem
  rcases List.mem_cons.mp hmem with rfl | hmem
  · have hhead : (encodeChars [c]).head? = some 0x0A := by
      rw [encodeChars_cons, hbytes]
      rfl
    obtain ⟨rest, hrest⟩ := head?_encodeChars_eq_lineFeed hhead
    exact hc (List.cons.inj hrest).1
  · exact absurd (hbs _ hmem) (by decide)

theorem isFeedless_singleton {c : Char} (hc : isTerminator c = true) (stop : Nat) :
    (Terminator.mk [c] stop).isFeedless = !(c == '\n') := by
  simp only [isTerminator, Bool.or_eq_true, beq_iff_eq] at hc
  rcases hc with (((rfl | rfl) | rfl) | rfl) | rfl <;> rfl

/-- The line feeds of the bytes belong to the terminators that hold one. -/
theorem map_stop_filter_terminatorsFrom (offset : Nat) (text : List Char) :
    ((terminatorsFrom offset text).filter fun t => !t.isFeedless).map Terminator.stop =
      feedsAfter offset (encodeChars text) := by
  fun_induction terminatorsFrom offset text with
  | case1 offset => rfl
  | case2 offset rest ih =>
      have hbytes : encodeChars ('\r' :: '\n' :: rest) = [0x0D] ++ 0x0A :: encodeChars rest := rfl
      rw [hbytes, feedsAfter_append (by decide), feedsAfter, if_pos rfl]
      exact congrArg ((offset + 2) :: ·) ih
  | case3 offset c rest hcrlf next hc ih =>
      by_cases hfeed : c = '\n'
      · subst hfeed
        have hbytes : encodeChars ('\n' :: rest) = 0x0A :: encodeChars rest := rfl
        rw [hbytes, feedsAfter, if_pos rfl]
        exact congrArg ((offset + 1) :: ·) ih
      · have hfeedless : (Terminator.mk [c] next).isFeedless = true := by
          rw [isFeedless_singleton hc]
          simp [hfeed]
        rw [List.filter_cons_of_neg (by simp [hfeedless]), ih, encodeChars_cons,
          feedsAfter_append (lineFeed_not_mem_encodeChar hfeed)]
  | case4 offset c rest hcrlf next hc ih =>
      have hne : c ≠ '\n' := by
        rintro rfl
        exact hc rfl
      rw [encodeChars_cons, feedsAfter_append (lineFeed_not_mem_encodeChar hne), ih]

def feedlessUpTo (text : List Char) (s : Nat) : Nat :=
  (terminatorsFrom 0 text).countP fun t => decide (t.stop ≤ s) && t.isFeedless

theorem feedlessUpTo_eq_zero_iff {text : List Char} {s : Nat} :
    feedlessUpTo text s = 0 ↔
      ∀ t ∈ terminatorsFrom 0 text, t.isFeedless = true → s < t.stop := by
  rw [feedlessUpTo, List.countP_eq_zero]
  refine forall₂_congr fun t _ => ?_
  rw [Bool.and_eq_true, decide_eq_true_eq, not_and', Nat.not_le]

theorem countP_lineStartsAfter (text : List Char) (s : Nat) :
    (lineStartsAfter 0 (encodeChars text)).countP (fun x => x ≤ s) =
      (feedsAfter 0 (encodeChars text)).countP (fun x => x ≤ s) + feedlessUpTo text s := by
  rw [← map_stop_terminatorsFrom, ← map_stop_filter_terminatorsFrom, List.countP_map,
    List.countP_map, Nat.add_comm]
  have hsplit := List.countP_eq_countP_filter_add (terminatorsFrom 0 text)
    ((fun x => decide (x ≤ s)) ∘ Terminator.stop) Terminator.isFeedless
  rw [hsplit, feedlessUpTo, List.countP_filter]
  rfl

theorem mem_lineStartsAfter_of_mem_feedsAfter {text : List Char} {offset x : Nat}
    (hx : x ∈ feedsAfter offset (encodeChars text)) :
    x ∈ lineStartsAfter offset (encodeChars text) := by
  rw [← map_stop_filter_terminatorsFrom] at hx
  rw [← map_stop_terminatorsFrom]
  exact (List.filter_sublist.map _).subset hx

/-- Up to an offset without other terminators, every line break is a line feed. -/
theorem mem_feedsAfter_of_mem_lineStartsAfter {text : List Char} {s x : Nat}
    (hnone : feedlessUpTo text s = 0) (hx : x ∈ lineStartsAfter 0 (encodeChars text))
    (hle : x ≤ s) : x ∈ feedsAfter 0 (encodeChars text) := by
  rw [← map_stop_terminatorsFrom] at hx
  obtain ⟨t, ht, rfl⟩ := List.mem_map.mp hx
  rw [← map_stop_filter_terminatorsFrom]
  refine List.mem_map_of_mem (List.mem_filter.mpr ⟨ht, ?_⟩)
  rw [Bool.not_eq_true', ← Bool.not_eq_true]
  intro hfeedless
  have hlater := feedlessUpTo_eq_zero_iff.mp hnone t ht hfeedless
  omega

end CSharpAudit.Text
