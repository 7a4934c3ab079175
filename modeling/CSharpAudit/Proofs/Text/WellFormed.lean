import CSharpAudit.Proofs.Text.Utf8
import CSharpAudit.Tree.Parse
import Mathlib.Data.List.Basic

/-!
Well-formed bytes. Bytes are well formed if a text is written that way. The strict
reader takes exactly those, and gives back the text: a lead byte admits the
following bytes of its characters and no others, so a piece that is read as a
character is the written form of that character. A byte-order mark is the written
form of one character, so it can be dropped from the bytes or from the text.
-/

namespace CSharpAudit

namespace Utf8

def WellFormed (bytes : Bytes) : Prop :=
  ∃ text : String, encode text = bytes

/-! One piece. -/

/-- What a lead byte says of the byte after it: it continues a character, and it
makes the form neither overlong nor a surrogate nor too large. -/
theorem second_of_lead? {b second : UInt8} {l : Lead} (hlead : lead? b = some l)
    (hsecond : l.low ≤ second ∧ second ≤ l.high) :
    isContinuation second = true ∧
      (l.following = 1 ∧ 0xC2 ≤ b.toNat ∧ b.toNat ≤ 0xDF ∨
       l.following = 2 ∧ 0xE0 ≤ b.toNat ∧ b.toNat ≤ 0xEF ∧
          (b.toNat = 0xE0 → 0xA0 ≤ second.toNat) ∧ (b.toNat = 0xED → second.toNat ≤ 0x9F) ∨
       l.following = 3 ∧ 0xF0 ≤ b.toNat ∧ b.toNat ≤ 0xF4 ∧
          (b.toNat = 0xF0 → 0x90 ≤ second.toNat) ∧ (b.toNat = 0xF4 → second.toNat ≤ 0x8F)) := by
  rw [isContinuation_iff]
  simp only [lead?, UInt8.le_iff_toNat_le, ← UInt8.toNat_inj, UInt8.reduceToNat] at hlead
  simp only [UInt8.le_iff_toNat_le] at hsecond
  split_ifs at hlead <;> obtain rfl := Option.some.inj hlead <;>
    simp only [UInt8.reduceToNat] at hsecond <;> simp <;> omega

theorem ofNat_eq_iff {n : Nat} {b : UInt8} (hn : n < 256) : UInt8.ofNat n = b ↔ n = b.toNat := by
  rw [← UInt8.toNat_inj, UInt8.toNat_ofNat', Nat.mod_eq_of_lt hn]

/-- The bytes of a scalar value, six bits in each byte after the first. -/
theorem encodeChar_ofNat {v : Nat} (h : v.isValidChar) :
    String.utf8EncodeChar (Char.ofNat v) =
      if v ≤ 0x7F then [UInt8.ofNat v]
      else if v ≤ 0x7FF then [UInt8.ofNat (v / 64 % 32 + 0xC0), UInt8.ofNat (v % 64 + 0x80)]
      else if v ≤ 0xFFFF then
        [UInt8.ofNat (v / 4096 % 16 + 0xE0), UInt8.ofNat (v / 64 % 64 + 0x80),
          UInt8.ofNat (v % 64 + 0x80)]
      else
        [UInt8.ofNat (v / 262144 % 8 + 0xF0), UInt8.ofNat (v / 4096 % 64 + 0x80),
          UInt8.ofNat (v / 64 % 64 + 0x80), UInt8.ofNat (v % 64 + 0x80)] := by
  have hval : (Char.ofNat v).val.toNat = v := by
    rw [Char.ofNat, dif_pos h]
    rfl
  simp only [String.utf8EncodeChar, hval]

section Forms

variable {b s t u : UInt8}

theorem encodeChar_one (hb : b < 0x80) : String.utf8EncodeChar (Char.ofNat b.toNat) = [b] := by
  have hb : b.toNat < 0x80 := UInt8.lt_iff_toNat_lt.mp hb
  rw [encodeChar_ofNat (.inl (by omega)), if_pos (by omega), UInt8.ofNat_toNat]

theorem encodeChar_two (hb : 0xC2 ≤ b.toNat ∧ b.toNat ≤ 0xDF) (hs : isContinuation s = true) :
    String.utf8EncodeChar (Char.ofNat (scalarValue b [s])) = [b, s] := by
  rw [isContinuation_iff] at hs
  have hvalue : scalarValue b [s] = (b.toNat - 0xC0) * 64 + (s.toNat - 0x80) := by
    simp only [scalarValue, Nat.pow_eq, List.foldl_cons, List.foldl_nil, List.length_cons,
      List.length_nil]
    omega
  rw [encodeChar_ofNat (.inl (by omega)), if_neg (by omega), if_pos (by omega)]
  simp only [List.cons.injEq, and_true]
  rw [ofNat_eq_iff (by omega), ofNat_eq_iff (by omega)]
  omega

theorem encodeChar_three (hb : 0xE0 ≤ b.toNat ∧ b.toNat ≤ 0xEF) (hs : isContinuation s = true)
    (ht : isContinuation t = true) (hlong : b.toNat = 0xE0 → 0xA0 ≤ s.toNat)
    (hsurrogate : b.toNat = 0xED → s.toNat ≤ 0x9F) :
    String.utf8EncodeChar (Char.ofNat (scalarValue b [s, t])) = [b, s, t] := by
  rw [isContinuation_iff] at hs ht
  have hvalue : scalarValue b [s, t] =
      (b.toNat - 0xE0) * 4096 + (s.toNat - 0x80) * 64 + (t.toNat - 0x80) := by
    simp only [scalarValue, Nat.pow_eq, List.foldl_cons, List.foldl_nil, List.length_cons,
      List.length_nil]
    omega
  have hvalid : (scalarValue b [s, t]).isValidChar := by
    rw [Nat.isValidChar]
    omega
  rw [encodeChar_ofNat hvalid, if_neg (by omega), if_neg (by omega), if_pos (by omega)]
  simp only [List.cons.injEq, and_true]
  rw [ofNat_eq_iff (by omega), ofNat_eq_iff (by omega), ofNat_eq_iff (by omega)]
  omega

theorem encodeChar_four (hb : 0xF0 ≤ b.toNat ∧ b.toNat ≤ 0xF4) (hs : isContinuation s = true)
    (ht : isContinuation t = true) (hu : isContinuation u = true)
    (hlong : b.toNat = 0xF0 → 0x90 ≤ s.toNat) (hlast : b.toNat = 0xF4 → s.toNat ≤ 0x8F) :
    String.utf8EncodeChar (Char.ofNat (scalarValue b [s, t, u])) = [b, s, t, u] := by
  rw [isContinuation_iff] at hs ht hu
  have hvalue : scalarValue b [s, t, u] =
      (b.toNat - 0xF0) * 262144 + (s.toNat - 0x80) * 4096 + (t.toNat - 0x80) * 64 +
        (u.toNat - 0x80) := by
    simp only [scalarValue, Nat.pow_eq, List.foldl_cons, List.foldl_nil, List.length_cons,
      List.length_nil]
    omega
  have hvalid : (scalarValue b [s, t, u]).isValidChar := by
    rw [Nat.isValidChar]
    omega
  rw [encodeChar_ofNat hvalid, if_neg (by omega), if_neg (by omega), if_neg (by omega)]
  simp only [List.cons.injEq, and_true]
  rw [ofNat_eq_iff (by omega), ofNat_eq_iff (by omega), ofNat_eq_iff (by omega),
    ofNat_eq_iff (by omega)]
  omega

end Forms

theorem Lead.exists_of_present_eq {l : Lead} {rest : Bytes} (h : l.present rest = l.following)
    (hpos : 0 < l.following) :
    ∃ second bs, rest.take l.following = second :: bs ∧ bs.length + 1 = l.following ∧
      (l.low ≤ second ∧ second ≤ l.high) ∧ ∀ c ∈ bs, isContinuation c = true := by
  cases rest with
  | nil => exact absurd h (by simp [Lead.present]; omega)
  | cons second rest =>
      rw [Lead.present] at h
      split at h
      · next hsecond =>
        have hlength : ((rest.take (l.following - 1)).takeWhile isContinuation).length =
            l.following - 1 := by omega
        have hpart : (rest.take (l.following - 1)).takeWhile isContinuation <+:
            rest.take (l.following - 1) := List.takeWhile_prefix _
        have hall : (rest.take (l.following - 1)).takeWhile isContinuation =
            rest.take (l.following - 1) := by
          have hle := List.length_take_le (l.following - 1) rest
          have hpartLe := hpart.length_le
          exact hpart.eq_of_length (by omega)
        refine ⟨second, rest.take (l.following - 1), ?_, ?_, hsecond, ?_⟩
        · rw [← List.take_succ_cons, Nat.sub_add_cancel hpos]
        · rw [← hall, hlength, Nat.sub_add_cancel hpos]
        · exact List.takeWhile_eq_self_iff.mp hall
      · omega

theorem following_pos_of_lead? {b : UInt8} {l : Lead} (hlead : lead? b = some l) :
    0 < l.following := by
  rw [lead?] at hlead
  split_ifs at hlead <;> obtain rfl := Option.some.inj hlead <;> decide

/-- The bytes of a lead byte and all that it announces are those of the character
that they are read as. -/
theorem encodeChar_of_lead {b : UInt8} {l : Lead} {rest : Bytes} (hlead : lead? b = some l)
    (hpresent : l.present rest = l.following) :
    String.utf8EncodeChar (Char.ofNat (scalarValue b (rest.take l.following))) =
      b :: rest.take l.following := by
  obtain ⟨second, bs, htake, hlength, hsecond, hbs⟩ :=
    Lead.exists_of_present_eq hpresent (following_pos_of_lead? hlead)
  obtain ⟨hs, htwo | hthree | hfour⟩ := second_of_lead? hlead hsecond
  · obtain rfl : bs = [] := List.eq_nil_of_length_eq_zero (by omega)
    rw [htake]
    exact encodeChar_two htwo.2 hs
  · obtain ⟨t, rfl⟩ := List.length_eq_one_iff.mp (show bs.length = 1 by omega)
    obtain ⟨-, hlow, hhigh, hlong, hsurrogate⟩ := hthree
    rw [htake]
    exact encodeChar_three ⟨hlow, hhigh⟩ hs (hbs t (by simp)) hlong hsurrogate
  · obtain ⟨t, u, rfl⟩ := List.length_eq_two.mp (show bs.length = 2 by omega)
    obtain ⟨-, hlow, hhigh, hlong, hlast⟩ := hfour
    rw [htake]
    exact encodeChar_four ⟨hlow, hhigh⟩ hs (hbs t (by simp)) (hbs u (by simp)) hlong hlast

theorem encodeChar_of_first_eq_scalar {b : UInt8} {rest : Bytes} {c : Char} {extra : Nat}
    (h : Piece.first b rest = .scalar c extra) :
    String.utf8EncodeChar c = b :: rest.take extra := by
  rw [Piece.first] at h
  split at h
  · next hb =>
    obtain ⟨rfl, rfl⟩ := Piece.scalar.inj h
    rw [List.take_zero]
    exact encodeChar_one hb
  · split at h
    · cases h
    · next l hlead =>
      dsimp only at h
      split_ifs at h with hpresent
      obtain ⟨rfl, rfl⟩ := Piece.scalar.inj h
      rw [hpresent]
      exact encodeChar_of_lead hlead hpresent

/-! The strict reader. -/

theorem decodeFrom_encodeChars (position : Nat) (text : List Char) :
    decodeFrom position (encodeChars text) = .ok text := by
  induction text generalizing position with
  | nil => rw [encodeChars_nil, decodeFrom]
  | cons c text ih =>
      obtain ⟨b, bs, hbytes, -, hfirst⟩ := exists_encodeChar_eq c
      rw [encodeChars_cons, hbytes, List.cons_append, decodeFrom, hfirst]
      simp only [List.drop_left, ih]
      rfl

theorem encodeChars_of_decodeFrom {position : Nat} {bytes : Bytes} {text : List Char}
    (h : decodeFrom position bytes = .ok text) : encodeChars text = bytes := by
  fun_induction decodeFrom position bytes generalizing text with
  | case1 position =>
      obtain rfl := Except.ok.inj h
      rfl
  | case2 position b rest c extra hfirst ih =>
      cases hrest : decodeFrom (position + 1 + extra) (rest.drop extra) with
      | error fault => simp [hrest, Except.map] at h
      | ok more =>
          rw [hrest] at h
          obtain rfl : c :: more = text := Except.ok.inj h
          rw [encodeChars_cons, encodeChar_of_first_eq_scalar hfirst, ih hrest, List.cons_append,
            List.take_append_drop]
  | case3 position b rest extra reason hfirst => cases h

/-- The strict reader is the inverse of writing. -/
theorem decode?_eq_ok_iff {bytes : Bytes} {text : String} :
    decode? bytes = .ok text ↔ encode text = bytes := by
  rw [decode?, encode]
  constructor
  · intro h
    cases hchars : decodeFrom 0 bytes with
    | error fault => simp [hchars, Except.map] at h
    | ok chars =>
        rw [hchars] at h
        obtain rfl : String.ofList chars = text := Except.ok.inj h
        rw [String.toList_ofList, encodeChars_of_decodeFrom hchars]
  · rintro rfl
    rw [decodeFrom_encodeChars]
    exact congrArg Except.ok String.ofList_toList

theorem wellFormed_iff {bytes : Bytes} : WellFormed bytes ↔ ∃ text, decode? bytes = .ok text := by
  simp only [decode?_eq_ok_iff, WellFormed]

theorem decode?_eq_error_iff {bytes : Bytes} :
    (∃ fault, decode? bytes = .error fault) ↔ ¬ WellFormed bytes := by
  rw [wellFormed_iff]
  cases decode? bytes <;> simp

/-! The byte-order mark. -/

theorem encodeChar_mark : String.utf8EncodeChar '\uFEFF' = byteOrderMark := by
  decide

theorem dropMark_append (rest : Bytes) : dropMark (byteOrderMark ++ rest) = rest := by
  rw [dropMark, if_pos (List.isPrefixOf_iff_prefix.mpr (List.prefix_append _ _))]
  rfl

theorem dropMark_eq_self {bytes : Bytes} (h : ¬ byteOrderMark <+: bytes) :
    dropMark bytes = bytes := by
  rw [dropMark, if_neg (by rwa [List.isPrefixOf_iff_prefix])]

theorem mark_prefix_dropMark_iff (bytes : Bytes) :
    byteOrderMark <+: dropMark bytes ↔ byteOrderMark ++ byteOrderMark <+: bytes := by
  by_cases h : byteOrderMark <+: bytes
  · obtain ⟨rest, rfl⟩ := h
    rw [dropMark_append, List.prefix_append_right_inj]
  · rw [dropMark_eq_self h]
    exact iff_of_false h fun h' => h ((List.prefix_append _ _).trans h')

theorem mark_prefix_encode_iff (text : String) :
    byteOrderMark <+: encode text ↔ ∃ rest, text.toList = '\uFEFF' :: rest := by
  constructor
  · rintro ⟨bytes, h⟩
    refine ⟨decodeChars bytes, ?_⟩
    rw [← decodeChars_encodeChars text.toList, ← encode, ← h, ← encodeChar_mark,
      decodeChars_encodeChar_append]
  · rintro ⟨rest, h⟩
    rw [encode, h, encodeChars_cons, encodeChar_mark]
    exact List.prefix_append _ _

theorem withoutMark_eq_self_iff (text : String) :
    withoutMark text = text ↔ ¬ byteOrderMark <+: encode text := by
  rw [mark_prefix_encode_iff, withoutMark]
  split
  · next rest h =>
    refine iff_of_false (fun heq => ?_) (fun hnone => hnone ⟨rest, h⟩)
    have hlength := congrArg List.length ((congrArg String.toList heq).trans h)
    rw [String.toList_ofList, List.length_cons] at hlength
    omega
  · next hnone => exact iff_of_true rfl fun ⟨rest, h⟩ => hnone rest h

theorem encode_withoutMark (text : String) :
    encode (withoutMark text) = dropMark (encode text) := by
  by_cases h : byteOrderMark <+: encode text
  · obtain ⟨rest, hrest⟩ := (mark_prefix_encode_iff text).mp h
    have hwithout : withoutMark text = String.ofList rest := by
      rw [withoutMark, hrest]
      rfl
    rw [hwithout, encode, encode, hrest, encodeChars_cons, encodeChar_mark, dropMark_append,
      String.toList_ofList]
  · rw [(withoutMark_eq_self_iff text).mpr h, dropMark_eq_self h]

theorem wellFormed_dropMark_iff (bytes : Bytes) :
    WellFormed (dropMark bytes) ↔ WellFormed bytes := by
  by_cases h : byteOrderMark <+: bytes
  · obtain ⟨rest, rfl⟩ := h
    rw [dropMark_append]
    constructor
    · rintro ⟨text, rfl⟩
      refine ⟨String.ofList ('\uFEFF' :: text.toList), ?_⟩
      rw [encode, String.toList_ofList, encodeChars_cons, encodeChar_mark, encode]
    · rintro ⟨text, h⟩
      refine ⟨withoutMark text, ?_⟩
      rw [encode_withoutMark, h, dropMark_append]
  · rw [dropMark_eq_self h]

@[simp] theorem decode_encode (text : String) : decode (encode text) = text := by
  rw [decode, encode, decodeChars_encodeChars, String.ofList_toList]

end Utf8

end CSharpAudit
