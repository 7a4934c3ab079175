import CSharpAudit.Text.Utf8
import Mathlib.Data.List.TakeWhile
import Mathlib.Tactic.SplitIfs

/-!
Reading UTF-8. What has been written is read back, also in front of other
bytes, so the bytes between two character boundaries hold exactly the
characters between them. A text has no more characters than bytes, and as many
only if it is ASCII. For bytes of any kind, reading a longer piece from the
same start never gives fewer characters.
-/

namespace CSharpAudit.Utf8

theorem isContinuation_iff (b : UInt8) :
    isContinuation b = true ↔ 0x80 ≤ b.toNat ∧ b.toNat ≤ 0xBF := by
  simp [isContinuation, UInt8.le_iff_toNat_le]

theorem toNat_tail (n : Nat) : (UInt8.ofNat (n % 0x40 + 0x80)).toNat = n % 0x40 + 0x80 := by
  rw [UInt8.toNat_ofNat']
  omega

theorem toNat_lead_two {v : Nat} (h : v ≤ 0x7ff) :
    (UInt8.ofNat (v / 64 % 0x20 + 0xc0)).toNat = v / 64 + 0xc0 := by
  rw [UInt8.toNat_ofNat']
  omega

theorem toNat_lead_three {v : Nat} (h : v ≤ 0xffff) :
    (UInt8.ofNat (v / 4096 % 0x10 + 0xe0)).toNat = v / 4096 + 0xe0 := by
  rw [UInt8.toNat_ofNat']
  omega

theorem toNat_lead_four {v : Nat} (h : v ≤ 0x10ffff) :
    (UInt8.ofNat (v / 262144 % 0x08 + 0xf0)).toNat = v / 262144 + 0xf0 := by
  rw [UInt8.toNat_ofNat']
  omega

theorem val_valid (c : Char) :
    c.val.toNat < 0xD800 ∨ 0xDFFF < c.val.toNat ∧ c.val.toNat < 0x110000 :=
  c.valid

theorem isContinuation_tail (n : Nat) :
    isContinuation (UInt8.ofNat (n % 0x40 + 0x80)) = true := by
  rw [isContinuation_iff, toNat_tail]
  omega

theorem lead?_two {b second : UInt8} (hb : 0xC2 ≤ b.toNat ∧ b.toNat ≤ 0xDF)
    (hsecond : isContinuation second = true) :
    ∃ l, lead? b = some l ∧ l.following = 1 ∧ l.low ≤ second ∧ second ≤ l.high := by
  refine ⟨⟨1, 0x80, 0xBF⟩, ?_, rfl, by simpa [isContinuation] using hsecond⟩
  simp only [lead?, UInt8.le_iff_toNat_le, UInt8.reduceToNat]
  rw [if_pos hb]

/-- The two side conditions exclude overlong forms and surrogates. -/
theorem lead?_three {b second : UInt8} (hb : 0xE0 ≤ b.toNat ∧ b.toNat ≤ 0xEF)
    (hsecond : isContinuation second = true)
    (hlong : b.toNat = 0xE0 → 0xA0 ≤ second.toNat)
    (hsurrogate : b.toNat = 0xED → second.toNat ≤ 0x9F) :
    ∃ l, lead? b = some l ∧ l.following = 2 ∧ l.low ≤ second ∧ second ≤ l.high := by
  rw [isContinuation_iff] at hsecond
  simp only [lead?, UInt8.le_iff_toNat_le, ← UInt8.toNat_inj, UInt8.reduceToNat]
  split_ifs with h1 h2 h3 h4
  · omega
  · exact ⟨_, rfl, rfl, hlong h2, hsecond.2⟩
  · exact ⟨_, rfl, rfl, hsecond.1, hsurrogate h3⟩
  · exact ⟨_, rfl, rfl, hsecond⟩
  all_goals omega

/-- The two side conditions exclude overlong forms and values beyond the last
code point. -/
theorem lead?_four {b second : UInt8} (hb : 0xF0 ≤ b.toNat ∧ b.toNat ≤ 0xF4)
    (hsecond : isContinuation second = true)
    (hlong : b.toNat = 0xF0 → 0x90 ≤ second.toNat)
    (hlast : b.toNat = 0xF4 → second.toNat ≤ 0x8F) :
    ∃ l, lead? b = some l ∧ l.following = 3 ∧ l.low ≤ second ∧ second ≤ l.high := by
  rw [isContinuation_iff] at hsecond
  simp only [lead?, UInt8.le_iff_toNat_le, ← UInt8.toNat_inj, UInt8.reduceToNat]
  split_ifs with h1 h2 h3 h4 h5 h6 h7
  any_goals omega
  · exact ⟨_, rfl, rfl, hlong h5, hsecond.2⟩
  · exact ⟨_, rfl, rfl, hsecond⟩
  · exact ⟨_, rfl, rfl, hsecond.1, hlast h7⟩

theorem Lead.present_append (l : Lead) (b : UInt8) (bs rest : Bytes)
    (hfirst : l.low ≤ b ∧ b ≤ l.high) (hlength : l.following = bs.length + 1)
    (hbs : ∀ c ∈ bs, isContinuation c = true) :
    l.present (b :: bs ++ rest) = l.following := by
  have htake : (bs ++ rest).take (l.following - 1) = bs := by
    rw [hlength, Nat.add_sub_cancel, List.take_left]
  simp only [List.cons_append, Lead.present, hfirst, and_self, if_true, htake]
  rw [List.takeWhile_eq_self_iff.mpr hbs, hlength]

theorem Piece.first_of_lead {b second : UInt8} {bs : Bytes} (rest : Bytes) (c : Char)
    (hb : 0x80 ≤ b.toNat)
    (hlead : ∃ l, lead? b = some l ∧ l.following = bs.length + 1 ∧
      l.low ≤ second ∧ second ≤ l.high)
    (hbs : ∀ x ∈ bs, isContinuation x = true)
    (hvalue : scalarValue b (second :: bs) = c.toNat) :
    Piece.first b (second :: bs ++ rest) = .scalar c (bs.length + 1) := by
  obtain ⟨l, hlead, hlength, hsecond⟩ := hlead
  have hpresent := Lead.present_append l second bs rest hsecond hlength hbs
  have htake : (second :: bs ++ rest).take (bs.length + 1) = second :: bs := by
    rw [← List.length_cons (a := second), List.take_left]
  have hlarge : ¬ b < 0x80 := by
    rw [UInt8.lt_iff_toNat_lt]
    exact Nat.not_lt.mpr hb
  simp only [Piece.first, hlarge, if_false, hlead]
  rw [hpresent, if_pos rfl, hlength, htake, hvalue, Char.ofNat_toNat]

/-- The bytes of a character are one piece, whatever follows them. -/
theorem exists_encodeChar_eq (c : Char) :
    ∃ b bs, String.utf8EncodeChar c = b :: bs ∧ (∀ x ∈ bs, isContinuation x = true) ∧
      ∀ rest, Piece.first b (bs ++ rest) = .scalar c bs.length := by
  have hv := val_valid c
  -- one case for each length; the bounds on the scalar rule out what the lead byte forbids
  fun_cases String.utf8EncodeChar c with
  | case1 v h =>
      have hb : (UInt8.ofNat v).toNat = v := by
        rw [UInt8.toNat_ofNat']
        omega
      have hsmall : UInt8.ofNat v < 0x80 := by
        rw [UInt8.lt_iff_toNat_lt, hb]
        exact Nat.lt_succ_of_le h
      refine ⟨_, _, rfl, by simp, fun rest => ?_⟩
      simp only [Piece.first, hsmall, if_true, hb, List.length_nil]
      rw [show v = c.toNat from rfl, Char.ofNat_toNat]
  | case2 v h1 h2 =>
      have hb := toNat_lead_two h2
      refine ⟨_, _, rfl, List.forall_mem_singleton.mpr (isContinuation_tail v), fun rest =>
        Piece.first_of_lead rest c (by omega) (lead?_two (by omega) (isContinuation_tail v))
          (by simp) ?_⟩
      simp only [scalarValue, Nat.pow_eq, List.foldl_cons, List.foldl_nil, List.length_cons,
        List.length_nil, hb, toNat_tail]
      change _ = v
      omega
  | case3 v h1 h2 h3 =>
      have hb := toNat_lead_three h3
      have hsecond := toNat_tail (v / 64)
      have htail : ∀ x ∈ [UInt8.ofNat (v % 0x40 + 0x80)], isContinuation x = true :=
        List.forall_mem_singleton.mpr (isContinuation_tail v)
      refine ⟨_, _, rfl, List.forall_mem_cons.mpr ⟨isContinuation_tail _, htail⟩, fun rest =>
        Piece.first_of_lead rest c (by omega)
          (lead?_three (by omega) (isContinuation_tail _) (by omega) (by omega)) htail ?_⟩
      simp only [scalarValue, Nat.pow_eq, List.foldl_cons, List.foldl_nil, List.length_cons,
        List.length_nil, hb, toNat_tail]
      change _ = v
      omega
  | case4 v h1 h2 h3 =>
      have hb := toNat_lead_four (v := v) (by omega)
      have hsecond := toNat_tail (v / 4096)
      have htail : ∀ x ∈ [UInt8.ofNat (v / 64 % 0x40 + 0x80), UInt8.ofNat (v % 0x40 + 0x80)],
          isContinuation x = true :=
        List.forall_mem_cons.mpr
          ⟨isContinuation_tail _, List.forall_mem_singleton.mpr (isContinuation_tail v)⟩
      refine ⟨_, _, rfl, List.forall_mem_cons.mpr ⟨isContinuation_tail _, htail⟩, fun rest =>
        Piece.first_of_lead rest c (by omega)
          (lead?_four (by omega) (isContinuation_tail _) (by omega) (by omega)) htail ?_⟩
      simp only [scalarValue, Nat.pow_eq, List.foldl_cons, List.foldl_nil, List.length_cons,
        List.length_nil, hb, toNat_tail]
      change _ = v
      omega

theorem lead?_of_isContinuation {b : UInt8} (hb : isContinuation b = true) : lead? b = none := by
  rw [isContinuation_iff] at hb
  simp only [lead?, UInt8.le_iff_toNat_le, ← UInt8.toNat_inj, UInt8.reduceToNat]
  iterate 7 rw [if_neg (by omega)]

theorem Piece.first_of_isContinuation {b : UInt8} (hb : isContinuation b = true) (rest : Bytes) :
    Piece.first b rest = .illFormed 0 .start := by
  have hlarge : ¬ b < 0x80 := by
    rw [UInt8.lt_iff_toNat_lt]
    exact Nat.not_lt.mpr ((isContinuation_iff b).mp hb).1
  simp only [Piece.first, hlarge, if_false, lead?_of_isContinuation hb]

@[simp] theorem encodeChars_nil : encodeChars [] = [] := rfl

@[simp] theorem encodeChars_cons (c : Char) (text : List Char) :
    encodeChars (c :: text) = String.utf8EncodeChar c ++ encodeChars text := rfl

@[simp] theorem encodeChars_append (a b : List Char) :
    encodeChars (a ++ b) = encodeChars a ++ encodeChars b :=
  List.flatMap_append

theorem length_encodeChar_pos (c : Char) : 0 < (String.utf8EncodeChar c).length := by
  rw [String.length_utf8EncodeChar]
  exact c.utf8Size_pos

theorem length_encodeChar_eq_one_iff (c : Char) :
    (String.utf8EncodeChar c).length = 1 ↔ ∀ b ∈ String.utf8EncodeChar c, b < 0x80 := by
  -- longer forms end with a byte that continues them
  have htail (n : Nat) {bytes : Bytes} (hmem : UInt8.ofNat (n % 0x40 + 0x80) ∈ bytes) :
      ¬ ∀ b ∈ bytes, b < 0x80 := by
    intro hascii
    have hlt := UInt8.lt_iff_toNat_lt.mp (hascii _ hmem)
    rw [toNat_tail] at hlt
    exact absurd hlt (by simp)
  fun_cases String.utf8EncodeChar c with
  | case1 v h =>
      have hsmall : UInt8.ofNat v < 0x80 := by
        rw [UInt8.lt_iff_toNat_lt, UInt8.toNat_ofNat']
        exact Nat.lt_of_le_of_lt (Nat.mod_le _ _) (Nat.lt_succ_of_le h)
      exact iff_of_true rfl (List.forall_mem_singleton.mpr hsmall)
  | case2 v h1 h2 => exact iff_of_false (by simp) (htail v (by simp))
  | case3 v h1 h2 h3 => exact iff_of_false (by simp) (htail v (by simp))
  | case4 v h1 h2 h3 => exact iff_of_false (by simp) (htail v (by simp))

theorem length_le_length_encodeChars (text : List Char) :
    text.length ≤ (encodeChars text).length := by
  induction text with
  | nil => simp
  | cons c text ih =>
      have hc := length_encodeChar_pos c
      rw [encodeChars_cons, List.length_append, List.length_cons]
      omega

theorem length_eq_length_encodeChars_iff (text : List Char) :
    text.length = (encodeChars text).length ↔ ∀ b ∈ encodeChars text, b < 0x80 := by
  induction text with
  | nil => simp
  | cons c text ih =>
      have hc := length_encodeChar_pos c
      have hrest := length_le_length_encodeChars text
      rw [encodeChars_cons, List.forall_mem_append, ← ih, ← length_encodeChar_eq_one_iff,
        List.length_append, List.length_cons]
      omega

@[simp] theorem decodeChars_nil : decodeChars [] = [] := by
  rw [decodeChars]

theorem decodeChars_encodeChar_append (c : Char) (rest : Bytes) :
    decodeChars (String.utf8EncodeChar c ++ rest) = c :: decodeChars rest := by
  obtain ⟨b, bs, hbytes, -, hfirst⟩ := exists_encodeChar_eq c
  rw [hbytes, List.cons_append, decodeChars, hfirst]
  simp

theorem decodeChars_encodeChars_append (text : List Char) (rest : Bytes) :
    decodeChars (encodeChars text ++ rest) = text ++ decodeChars rest := by
  induction text with
  | nil => simp
  | cons c text ih =>
      rw [encodeChars_cons, List.append_assoc, decodeChars_encodeChar_append, ih,
        List.cons_append]

@[simp] theorem decodeChars_encodeChars (text : List Char) :
    decodeChars (encodeChars text) = text := by
  simpa using decodeChars_encodeChars_append text []

/-! Character boundaries. -/

/-- An offset at which a character of the text begins or the text ends. -/
def IsBoundary (text : List Char) (offset : Int) : Prop :=
  ∃ before after, text = before ++ after ∧ offset = (encodeChars before).length

theorem isBoundary_iff_exists_take {text : List Char} {offset : Int} :
    IsBoundary text offset ↔
      ∃ k ∈ List.range (text.length + 1), offset = (encodeChars (text.take k)).length := by
  constructor
  · rintro ⟨before, after, rfl, hoffset⟩
    refine ⟨before.length, List.mem_range.mpr ?_, ?_⟩
    · simp only [List.length_append]
      omega
    · rw [List.take_left]
      exact hoffset
  · rintro ⟨k, -, hoffset⟩
    exact ⟨text.take k, text.drop k, (List.take_append_drop k text).symm, hoffset⟩

instance (text : List Char) (offset : Int) : Decidable (IsBoundary text offset) :=
  decidable_of_iff' _ isBoundary_iff_exists_take

theorem IsBoundary.le_length {text : List Char} {offset : Int} (h : IsBoundary text offset) :
    0 ≤ offset ∧ offset ≤ (encodeChars text).length := by
  obtain ⟨before, after, rfl, hoffset⟩ := h
  rw [encodeChars_append, List.length_append]
  omega

theorem exists_eq_append_of_length_encodeChars_le {a b c d : List Char} (h : a ++ b = c ++ d)
    (hle : (encodeChars a).length ≤ (encodeChars c).length) :
    ∃ between, c = a ++ between ∧ b = between ++ d := by
  -- where `c` is the shorter one, the bytes leave no room for a character between the two
  rcases List.append_eq_append_iff.mp h with ⟨between, rfl, rfl⟩ | ⟨between, rfl, rfl⟩
  · exact ⟨between, rfl, rfl⟩
  · cases between with
    | nil => exact ⟨[], by simp, by simp⟩
    | cons x more =>
        have hx := length_encodeChar_pos x
        simp only [encodeChars_append, encodeChars_cons, List.length_append] at hle
        omega

theorem take_drop_encodeChars (before between after : List Char) :
    ((encodeChars (before ++ (between ++ after))).drop (encodeChars before).length).take
      ((encodeChars (before ++ between)).length - (encodeChars before).length) =
      encodeChars between := by
  simp only [encodeChars_append, List.drop_left, List.length_append, Nat.add_sub_cancel_left,
    List.take_left]

/-- What lies between two boundaries are the bytes of some characters, and
none if the second comes first. -/
theorem IsBoundary.exists_between {before after : List Char} {stop : Nat}
    (h : IsBoundary (before ++ after) stop) :
    ∃ between, between <+: after ∧
      ((encodeChars (before ++ after)).drop (encodeChars before).length).take
        (stop - (encodeChars before).length) = encodeChars between := by
  obtain ⟨upTo, rest, htext, hstop⟩ := h
  obtain rfl : stop = (encodeChars upTo).length := by omega
  rcases Nat.le_total (encodeChars before).length (encodeChars upTo).length with hle | hle
  · obtain ⟨between, rfl, rfl⟩ := exists_eq_append_of_length_encodeChars_le htext hle
    exact ⟨between, List.prefix_append between rest, take_drop_encodeChars before between rest⟩
  · exact ⟨[], List.nil_prefix, by simp [Nat.sub_eq_zero_of_le hle]⟩

/-! Reading a part of some bytes from their start. -/

def Piece.extra : Piece → Nat
  | .scalar _ extra => extra
  | .illFormed extra _ => extra

theorem length_decodeChars_cons (b : UInt8) (rest : Bytes) :
    (decodeChars (b :: rest)).length =
      (decodeChars (rest.drop (Piece.first b rest).extra)).length + 1 := by
  rw [decodeChars]
  split
  · next h => simp [h, Piece.extra]
  · next h => simp [h, Piece.extra]

theorem Piece.extra_first (b : UInt8) (rest : Bytes) :
    (Piece.first b rest).extra =
      if b < 0x80 then 0 else ((lead? b).map (Lead.present · rest)).getD 0 := by
  simp only [Piece.first]
  split_ifs with h
  · rfl
  · cases lead? b with
    | none => rfl
    | some l =>
        simp only [Option.map_some, Option.getD_some]
        split_ifs <;> rfl

theorem Lead.present_take (l : Lead) (rest : Bytes) (m : Nat) :
    l.present (rest.take m) = min (l.present rest) m := by
  cases rest with
  | nil => simp [Lead.present]
  | cons b rest =>
      cases m with
      | zero => simp [Lead.present]
      | succ m =>
          simp only [List.take_succ_cons, Lead.present]
          split_ifs
          · rw [List.take_take, Nat.min_comm, ← List.take_take, ← List.take_takeWhile,
              List.length_take]
            omega
          · simp

/-- A cut shortens the first piece to what lies before the cut, and no more. -/
theorem Piece.extra_first_take (b : UInt8) (rest : Bytes) (m : Nat) :
    (Piece.first b (rest.take m)).extra = min (Piece.first b rest).extra m := by
  rw [Piece.extra_first, Piece.extra_first]
  split_ifs
  · simp
  · cases lead? b with
    | none => simp
    | some l => simp [Lead.present_take]

theorem length_decodeChars_take_le (bytes : Bytes) {j k : Nat} (hjk : j ≤ k) :
    (decodeChars (bytes.take j)).length ≤ (decodeChars (bytes.take k)).length := by
  -- after the first piece both cuts fall into the same remaining bytes
  have hcut (b : UInt8) (rest : Bytes) (m : Nat) :
      (decodeChars ((b :: rest).take (m + 1))).length =
        (decodeChars ((rest.drop (Piece.first b rest).extra).take
          (m - (Piece.first b rest).extra))).length + 1 := by
    rw [List.take_succ_cons, length_decodeChars_cons, Piece.extra_first_take, List.drop_take]
    congr 3
    by_cases h : (Piece.first b rest).extra ≤ m
    · rw [Nat.min_eq_left h]
    · rw [Nat.min_eq_right (by omega), Nat.sub_self, Nat.sub_eq_zero_of_le (by omega)]
      simp
  induction hn : bytes.length using Nat.strongRecOn generalizing bytes j k with
  | _ n ih =>
      cases bytes with
      | nil => simp
      | cons b rest =>
          cases j with
          | zero => simp
          | succ j =>
              obtain ⟨k, rfl⟩ : ∃ m, k = m + 1 := ⟨k - 1, by omega⟩
              rw [hcut, hcut]
              refine Nat.succ_le_succ (ih _ ?_ _ (by omega) rfl)
              rw [← hn, List.length_drop, List.length_cons]
              omega

end CSharpAudit.Utf8
