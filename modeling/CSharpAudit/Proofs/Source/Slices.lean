import CSharpAudit.Proofs.Source.Position
import CSharpAudit.Proofs.Text.Scan
import Mathlib.Data.List.Basic

/-!
Texts of slices that cut characters. A slice of the bytes of a text begins with
the bytes that continue a character whose start is cut off, and each of these is
read as one replacement character. Then come the characters that are whole, and at
last one more replacement character if the end of the slice lies inside a character.
So reading falls apart at every character boundary.
-/

namespace CSharpAudit

namespace Utf8

/-- Bytes that continue nothing are read one by one. -/
theorem decodeChars_continuations_append {bytes : Bytes}
    (hbytes : ∀ b ∈ bytes, isContinuation b = true) (rest : Bytes) :
    decodeChars (bytes ++ rest) =
      List.replicate bytes.length replacement ++ decodeChars rest := by
  induction bytes with
  | nil => rfl
  | cons b bytes ih =>
      rw [List.forall_mem_cons] at hbytes
      rw [List.cons_append, decodeChars, Piece.first_of_isContinuation hbytes.1]
      simp only [List.drop_zero]
      rw [ih hbytes.2, List.length_cons, List.replicate_succ, List.cons_append]

theorem Piece.first_take {b : UInt8} {bs : Bytes} {c : Char}
    (h : Piece.first b bs = .scalar c bs.length) {m : Nat} (hm : m < bs.length) :
    Piece.first b (bs.take m) = .illFormed m .truncated := by
  simp only [Piece.first] at h ⊢
  split_ifs at h ⊢ with hsmall
  · have hlength := (Piece.scalar.inj h).2
    omega
  · cases hlead : lead? b with
    | none => simp [hlead] at h
    | some l =>
        -- a whole character has all that its lead byte announces, the cut one has `m` of it
        simp only [hlead] at h ⊢
        split_ifs at h with hpresent
        have hall := (Piece.scalar.inj h).2
        have hcut : l.present (bs.take m) = m := by
          rw [Lead.present_take, hall, Nat.min_eq_right (Nat.le_of_lt hm)]
        rw [hcut, if_neg (by omega), if_pos (by rw [List.length_take]; omega)]

/-- The bytes of a character without the last ones are one ill-formed piece. -/
theorem decodeChars_take_encodeChar {c : Char} {k : Nat} (hpos : 0 < k)
    (hk : k < (String.utf8EncodeChar c).length) :
    decodeChars ((String.utf8EncodeChar c).take k) = [replacement] := by
  obtain ⟨b, bs, hbytes, -, hfirst⟩ := exists_encodeChar_eq c
  obtain ⟨m, rfl⟩ := Nat.exists_eq_add_of_le' hpos
  rw [hbytes, List.length_cons] at hk
  have hwhole := hfirst []
  rw [List.append_nil] at hwhole
  have hrest : (bs.take m).drop m = [] := by simp
  rw [hbytes, List.take_succ_cons, decodeChars, Piece.first_take hwhole (by omega)]
  simp only [hrest, decodeChars_nil]

theorem isBoundary_cons {c : Char} {text : List Char} {offset : Int} :
    IsBoundary (c :: text) offset ↔
      offset = 0 ∨ IsBoundary text (offset - (String.utf8EncodeChar c).length) := by
  constructor
  · rintro ⟨before, after, htext, rfl⟩
    cases before with
    | nil => exact .inl rfl
    | cons d before =>
        obtain ⟨rfl, rfl⟩ := List.cons.inj htext
        refine .inr ⟨before, after, rfl, ?_⟩
        rw [encodeChars_cons, List.length_append]
        omega
  · rintro (rfl | ⟨before, after, rfl, hoffset⟩)
    · exact ⟨[], c :: text, rfl, rfl⟩
    · refine ⟨c :: before, after, rfl, ?_⟩
      rw [encodeChars_cons, List.length_append]
      omega

/-- Behind an offset come bytes that continue a character, up to the first boundary,
and then whole characters. -/
theorem exists_firstBoundary (text : List Char) {s : Nat} (hs : s ≤ (encodeChars text).length) :
    ∃ before after stray, text = before ++ after ∧
      (encodeChars text).drop s = stray ++ encodeChars after ∧
      (∀ b ∈ stray, isContinuation b = true) ∧
      s + stray.length = (encodeChars before).length ∧
      ∀ b : Int, IsBoundary text b → s ≤ b → (encodeChars before).length ≤ b := by
  induction text generalizing s with
  | nil =>
      obtain rfl : s = 0 := Nat.le_zero.mp hs
      exact ⟨[], [], [], rfl, rfl, by simp, rfl, fun b _ hb => hb⟩
  | cons c text ih =>
      rw [encodeChars_cons, List.length_append] at hs
      rcases Nat.lt_or_ge s (String.utf8EncodeChar c).length with hlt | hge
      · rcases Nat.eq_zero_or_pos s with rfl | hpos
        · exact ⟨[], c :: text, [], rfl, rfl, by simp, rfl, fun b _ hb => hb⟩
        · obtain ⟨lead, bs, hbytes, hbs, -⟩ := exists_encodeChar_eq c
          refine ⟨[c], text, (String.utf8EncodeChar c).drop s, rfl, ?_, ?_, ?_, ?_⟩
          · rw [encodeChars_cons, List.drop_append_of_le_length (Nat.le_of_lt hlt)]
          · intro b hb
            obtain ⟨k, rfl⟩ := Nat.exists_eq_add_of_le' hpos
            rw [hbytes, List.drop_succ_cons] at hb
            exact hbs b (List.mem_of_mem_drop hb)
          · rw [List.length_drop, encodeChars_cons, encodeChars_nil, List.append_nil]
            omega
          · intro b hb hsb
            rcases isBoundary_cons.mp hb with rfl | hb
            · omega
            · have hle := hb.le_length.1
              rw [encodeChars_cons, encodeChars_nil, List.append_nil]
              omega
      · obtain ⟨before, after, stray, rfl, hdrop, hstray, hlength, hfirst⟩ :=
          ih (s := s - (String.utf8EncodeChar c).length) (by omega)
        refine ⟨c :: before, after, stray, rfl, ?_, hstray, ?_, ?_⟩
        · rw [encodeChars_cons, List.drop_append, List.drop_eq_nil_of_le hge, List.nil_append,
            hdrop]
        · rw [encodeChars_cons, List.length_append]
          omega
        · intro b hb hsb
          rw [encodeChars_cons, List.length_append]
          rcases isBoundary_cons.mp hb with rfl | hb
          · have hpos := length_encodeChar_pos c
            omega
          · have hle := hfirst _ hb (by omega)
            omega

end Utf8

namespace Text

open Utf8

/-- The characters of a text with the bytes that each of them takes, from `offset` on. -/
def placed (offset : Nat) : List Char → List (Stretch × Char)
  | [] => []
  | c :: text =>
    let next := offset + (String.utf8EncodeChar c).length
    (⟨offset, next⟩, c) :: placed next text

def charsWithin (text : List Char) (s e : Nat) : List Char :=
  ((placed 0 text).filter fun p => s ≤ p.1.start ∧ p.1.stop ≤ e).map Prod.snd

/-- The second offset lies inside a character that starts between the two. -/
def EndsInside (text : List Char) (s e : Nat) : Prop :=
  ∃ p ∈ placed 0 text, s ≤ p.1.start ∧ p.1.start < e ∧ e < p.1.stop

instance (text : List Char) (s e : Nat) : Decidable (EndsInside text s e) :=
  inferInstanceAs (Decidable (∃ p ∈ placed 0 text, s ≤ p.1.start ∧ p.1.start < e ∧ e < p.1.stop))

theorem placed_append (offset : Nat) (a b : List Char) :
    placed offset (a ++ b) = placed offset a ++ placed (offset + (encodeChars a).length) b := by
  induction a generalizing offset with
  | nil => rfl
  | cons c a ih =>
      rw [List.cons_append, placed, ih, placed, encodeChars_cons, List.length_append,
        Nat.add_assoc, List.cons_append]

theorem bounds_of_mem_placed {offset : Nat} {text : List Char} {p : Stretch × Char}
    (hp : p ∈ placed offset text) : offset ≤ p.1.start ∧ p.1.start < p.1.stop ∧
      p.1.stop ≤ offset + (encodeChars text).length := by
  induction text generalizing offset with
  | nil => contradiction
  | cons c text ih =>
      have hpos := length_encodeChar_pos c
      rw [encodeChars_cons, List.length_append]
      rcases List.mem_cons.mp hp with rfl | hp
      · simp only
        omega
      · have hbounds := ih hp
        omega

theorem isBoundary_of_mem_placed {offset : Nat} {text : List Char} {p : Stretch × Char}
    (hp : p ∈ placed offset text) : IsBoundary text (p.1.start - offset) := by
  induction text generalizing offset with
  | nil => contradiction
  | cons c text ih =>
      rw [isBoundary_cons]
      rcases List.mem_cons.mp hp with rfl | hp
      · exact .inl (Int.sub_self _)
      · refine .inr ?_
        have hrest := ih hp
        rw [Int.natCast_add, ← Int.sub_sub] at hrest
        exact hrest

theorem decodeChars_take_encodeChars (text : List Char) (offset e : Nat) :
    decodeChars ((encodeChars text).take (e - offset)) =
      ((placed offset text).filter fun p => p.1.stop ≤ e).map Prod.snd ++
        if ∃ p ∈ placed offset text, p.1.start < e ∧ e < p.1.stop then [replacement] else [] := by
  induction text generalizing offset with
  | nil => simp [placed]
  | cons c text ih =>
      rw [encodeChars_cons, placed]
      simp only [List.exists_mem_cons_iff]
      rcases Nat.lt_or_ge e (offset + (String.utf8EncodeChar c).length) with hlt | hge
      · -- the cut comes before the end of the first character, so all others are behind it
        have hbehind : ∀ p ∈ placed (offset + (String.utf8EncodeChar c).length) text,
            e < p.1.start ∧ p.1.start < p.1.stop := by
          intro p hp
          have hbounds := bounds_of_mem_placed hp
          omega
        have hnone : ¬ ∃ p ∈ placed (offset + (String.utf8EncodeChar c).length) text,
            p.1.start < e ∧ e < p.1.stop := by
          rintro ⟨p, hp, hstart, -⟩
          have hstart' := (hbehind p hp).1
          omega
        rw [List.take_append_of_le_length (by omega), List.filter_cons_of_neg (by simpa using hlt),
          List.filter_eq_nil_iff.mpr, List.map_nil, List.nil_append]
        · by_cases hinside : offset < e
          · rw [if_pos (.inl ⟨hinside, hlt⟩), decodeChars_take_encodeChar (by omega) (by omega)]
          · rw [if_neg (not_or.mpr ⟨fun h => hinside h.1, hnone⟩), Nat.sub_eq_zero_of_le (by omega),
              List.take_zero, decodeChars_nil]
        · intro p hp
          have hstop := hbehind p hp
          simp only [decide_eq_true_eq]
          omega
      · have htake : (String.utf8EncodeChar c ++ encodeChars text).take (e - offset) =
            String.utf8EncodeChar c ++
              (encodeChars text).take (e - (offset + (String.utf8EncodeChar c).length)) := by
          rw [List.take_append, List.take_of_length_le (by omega), Nat.sub_sub]
        have hhead : ¬ (offset < e ∧ e < offset + (String.utf8EncodeChar c).length) := by omega
        rw [htake, decodeChars_encodeChar_append, ih, List.filter_cons_of_pos (by simpa using hge)]
        simp only [hhead, false_or, List.map_cons, List.cons_append]

section FirstBoundary

variable {before after : List Char} {s : Nat}

theorem start_lt_of_mem_placed
    (hfirst : ∀ b : Int, IsBoundary (before ++ after) b → s ≤ b → (encodeChars before).length ≤ b)
    {p : Stretch × Char} (hp : p ∈ placed 0 before) : p.1.start < s := by
  by_contra hle
  have hmem : p ∈ placed 0 (before ++ after) := by
    rw [placed_append]
    exact List.mem_append_left _ hp
  have hboundary := hfirst _ (isBoundary_of_mem_placed hmem) (by omega)
  have hbounds := bounds_of_mem_placed hp
  omega

variable (hs : s ≤ (encodeChars before).length) (hbefore : ∀ p ∈ placed 0 before, p.1.start < s)

include hs hbefore

theorem charsWithin_append (e : Nat) :
    charsWithin (before ++ after) s e =
      ((placed (encodeChars before).length after).filter fun p => p.1.stop ≤ e).map Prod.snd := by
  rw [charsWithin, placed_append, Nat.zero_add, List.filter_append, List.filter_eq_nil_iff.mpr,
    List.nil_append]
  · congr 1
    refine List.filter_congr fun p hp => ?_
    have hbounds := bounds_of_mem_placed hp
    have hstart : s ≤ p.1.start := by omega
    simp only [hstart, true_and]
  · intro p hp
    have hstart := hbefore p hp
    simp only [decide_eq_true_eq]
    omega

theorem endsInside_append_iff (e : Nat) :
    EndsInside (before ++ after) s e ↔
      ∃ p ∈ placed (encodeChars before).length after, p.1.start < e ∧ e < p.1.stop := by
  rw [EndsInside, placed_append, Nat.zero_add]
  constructor
  · rintro ⟨p, hp, hstart, hinside⟩
    rcases List.mem_append.mp hp with hp | hp
    · exact absurd hstart (Nat.not_le.mpr (hbefore p hp))
    · exact ⟨p, hp, hinside⟩
  · rintro ⟨p, hp, hinside⟩
    have hbounds := bounds_of_mem_placed hp
    exact ⟨p, List.mem_append_right _ hp, by omega, hinside⟩

end FirstBoundary

theorem exists_decodeChars_slice (text : List Char) {s : Nat} (e : Nat)
    (hs : s ≤ (encodeChars text).length) :
    ∃ first : Nat, IsBoundary text first ∧ s ≤ first ∧
      (∀ b : Nat, IsBoundary text b → s ≤ b → first ≤ b) ∧
      decodeChars (((encodeChars text).drop s).take (e - s)) =
        List.replicate (min first e - s) replacement ++ charsWithin text s e ++
          if EndsInside text s e then [replacement] else [] := by
  obtain ⟨before, after, stray, rfl, hdrop, hstray, hlength, hfirst⟩ := exists_firstBoundary text hs
  have hle : s ≤ (encodeChars before).length := by omega
  have hbefore : ∀ p ∈ placed 0 before, p.1.start < s :=
    fun p hp => start_lt_of_mem_placed hfirst hp
  refine ⟨(encodeChars before).length, ⟨before, after, rfl, rfl⟩, hle, fun b hb hsb => ?_, ?_⟩
  · have hleast := hfirst b hb (by omega)
    omega
  · have htake : e - s - stray.length = e - (encodeChars before).length := by omega
    have hcount : (stray.take (e - s)).length = min (encodeChars before).length e - s := by
      rw [List.length_take]
      omega
    have hcut : ∀ b ∈ stray.take (e - s), isContinuation b = true :=
      fun b hb => hstray b (List.mem_of_mem_take hb)
    rw [hdrop, List.take_append, decodeChars_continuations_append hcut, htake,
      decodeChars_take_encodeChars, hcount, charsWithin_append hle hbefore, List.append_assoc]
    simp only [endsInside_append_iff hle hbefore]

theorem decodeChars_slice_append (text : List Char) {s b e : Nat} (hsb : s ≤ b) (hbe : b ≤ e)
    (hb : IsBoundary text b) :
    decodeChars (((encodeChars text).drop s).take (e - s)) =
      decodeChars (((encodeChars text).drop s).take (b - s)) ++
        decodeChars (((encodeChars text).drop b).take (e - b)) := by
  have hlength := hb.le_length.2
  obtain ⟨before, after, stray, rfl, hdrop, hstray, hstart, hfirst⟩ :=
    exists_firstBoundary text (s := s) (by omega)
  have hle := hfirst b hb (by omega)
  obtain ⟨upTo, rest, htext, hupTo⟩ := hb
  obtain ⟨between, rfl, rfl⟩ := exists_eq_append_of_length_encodeChars_le htext (by omega)
  rw [encodeChars_append, List.length_append] at hupTo
  -- up to the boundary there are stray bytes and whole characters, whatever follows
  have hread (more : Bytes) : decodeChars (stray ++ encodeChars between ++ more) =
      decodeChars (stray ++ encodeChars between) ++ decodeChars more := by
    rw [List.append_assoc, decodeChars_continuations_append hstray,
      decodeChars_continuations_append hstray, decodeChars_encodeChars_append,
      decodeChars_encodeChars, List.append_assoc]
  have hsplit : (encodeChars (before ++ (between ++ rest))).drop s =
      stray ++ encodeChars between ++ encodeChars rest := by
    rw [hdrop, encodeChars_append, List.append_assoc]
  have hstretch : (stray ++ encodeChars between).length = b - s := by
    rw [List.length_append]
    omega
  have hbehind : (encodeChars (before ++ (between ++ rest))).drop b = encodeChars rest := by
    rw [← Nat.add_sub_cancel' hsb, ← List.drop_drop, hsplit, ← hstretch, List.drop_left]
  have hcut : e - s = (stray ++ encodeChars between).length + (e - b) := by omega
  rw [hbehind, hsplit, hcut, List.take_length_add_append, ← hstretch, List.take_left]
  exact hread _

end Text

namespace Tree

theorem toList_textOf {t : Tree} {text : String} (ht : t.source = Utf8.encode text) {s e : Nat}
    (hs : s ≤ t.source.length) (he : e ≤ t.source.length) :
    (t.textOf ⟨s, e⟩).toList =
      Utf8.decodeChars (((Utf8.encodeChars text.toList).drop s).take (e - s)) := by
  rw [textOf, Span.text, Span.slice_of_le hs he, Utf8.decode, String.toList_ofList, ht]
  rfl

/-- The text of any span of a text, also of one that cuts characters. Up to the first
boundary each byte is a replacement character; then come the characters that lie
wholly in the span, and one replacement character if the span ends inside a
character that starts in it. Between boundaries this is the text that stands there,
and at every boundary the text of a span falls apart. -/
theorem textOf_any_span {t : Tree} {text : String} (ht : t.source = Utf8.encode text) {s e : Nat}
    (hse : s ≤ e) (he : e ≤ t.source.length) :
    (∃ first : Nat, Utf8.IsBoundary text.toList first ∧ s ≤ first ∧
      (∀ b : Nat, Utf8.IsBoundary text.toList b → s ≤ b → first ≤ b) ∧
      (t.textOf ⟨s, e⟩).toList =
        List.replicate (min first e - s) Utf8.replacement ++ Text.charsWithin text.toList s e ++
          if Text.EndsInside text.toList s e then [Utf8.replacement] else []) ∧
    (Utf8.IsBoundary text.toList s → Utf8.IsBoundary text.toList e →
      ∃ before between after, text.toList = before ++ between ++ after ∧
        s = (Utf8.encodeChars before).length ∧
        e = (Utf8.encodeChars (before ++ between)).length ∧
        t.textOf ⟨s, e⟩ = String.ofList between) ∧
    ∀ b : Nat, s ≤ b → b ≤ e → Utf8.IsBoundary text.toList b →
      t.textOf ⟨s, e⟩ = t.textOf ⟨s, b⟩ ++ t.textOf ⟨b, e⟩ := by
  have hs : s ≤ t.source.length := hse.trans he
  refine ⟨?_, ?_, fun b hsb hbe hb => ?_⟩
  · rw [toList_textOf ht hs he]
    rw [ht] at hs
    exact Text.exists_decodeChars_slice text.toList e hs
  · rintro ⟨before, after, htext, hstart⟩ ⟨upTo, rest, htext', hstop⟩
    obtain ⟨between, rfl, rfl⟩ :=
      Utf8.exists_eq_append_of_length_encodeChars_le (htext.symm.trans htext') (by omega)
    obtain rfl : s = (Utf8.encodeChars before).length := by omega
    obtain rfl : e = (Utf8.encodeChars (before ++ between)).length := by omega
    refine ⟨before, between, rest, htext', rfl, rfl, String.toList_injective ?_⟩
    rw [toList_textOf ht hs he, htext, Utf8.take_drop_encodeChars, Utf8.decodeChars_encodeChars,
      String.toList_ofList]
  · apply String.toList_injective
    rw [String.toList_append, toList_textOf ht hs he, toList_textOf ht hs (hbe.trans he),
      toList_textOf ht (hbe.trans he) he]
    exact Text.decodeChars_slice_append text.toList hsb hbe hb

def threeLetters : Tree where
  root :=
    { kind := .compilationUnit, span := ⟨0, 7⟩, type := "compilation_unit", field := none,
      name := none, modifiers := [], inferred := false, children := [] }
  source := Utf8.encode "é𝒳a"

theorem textOf_any_span_threeLetters :
    threeLetters.textOf ⟨1, 4⟩ = "\uFFFD\uFFFD" ∧
      threeLetters.textOf ⟨1, 4⟩ = threeLetters.textOf ⟨1, 2⟩ ++ threeLetters.textOf ⟨2, 4⟩ ∧
      ∃ before between after, "é𝒳a".toList = before ++ between ++ after ∧
        2 = (Utf8.encodeChars before).length ∧
        6 = (Utf8.encodeChars (before ++ between)).length ∧
        threeLetters.textOf ⟨2, 6⟩ = String.ofList between := by
  have hsource : threeLetters.source = Utf8.encode "é𝒳a" := rfl
  obtain ⟨⟨first, hfirst, hle, hleast, htext⟩, -, hapart⟩ :=
    textOf_any_span (s := 1) (e := 4) hsource (by decide) (by decide)
  obtain ⟨-, hexact, -⟩ := textOf_any_span (s := 2) (e := 6) hsource (by decide) (by decide)
  refine ⟨?_, hapart 2 (by decide) (by decide) (by decide), hexact (by decide) (by decide)⟩
  have htwo : first = 2 := by
    have hmost := hleast 2 (by decide) (by decide)
    have hone : first ≠ 1 := by
      rintro rfl
      exact absurd hfirst (by decide)
    omega
  subst htwo
  exact String.toList_injective (htext.trans (by decide))

end Tree

end CSharpAudit
