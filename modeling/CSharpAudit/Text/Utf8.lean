/-!
UTF-8 as bytes. `encode` writes a text, `decode` reads any bytes and puts one replacement
character in place of each maximal ill-formed piece, and `decode?` reads only well-formed bytes
and otherwise says where and why reading stopped. Both readers take the bytes apart with the same
`Piece.first`, so they agree on what is well formed.
-/

namespace CSharpAudit

abbrev Bytes := List UInt8

namespace Utf8

def encodeChars (text : List Char) : Bytes :=
  text.flatMap String.utf8EncodeChar

def encode (text : String) : Bytes :=
  encodeChars text.toList

/-- What a lead byte announces: how many bytes follow it, and the range of the first of these.
The range excludes overlong forms, surrogates and values beyond the last code point. -/
structure Lead where
  following : Nat
  low : UInt8
  high : UInt8
deriving DecidableEq, Repr

def lead? (b : UInt8) : Option Lead :=
  if 0xC2 ≤ b ∧ b ≤ 0xDF then some ⟨1, 0x80, 0xBF⟩
  else if b = 0xE0 then some ⟨2, 0xA0, 0xBF⟩
  else if b = 0xED then some ⟨2, 0x80, 0x9F⟩
  else if 0xE1 ≤ b ∧ b ≤ 0xEF then some ⟨2, 0x80, 0xBF⟩
  else if b = 0xF0 then some ⟨3, 0x90, 0xBF⟩
  else if 0xF1 ≤ b ∧ b ≤ 0xF3 then some ⟨3, 0x80, 0xBF⟩
  else if b = 0xF4 then some ⟨3, 0x80, 0x8F⟩
  else none

def isContinuation (b : UInt8) : Bool :=
  0x80 ≤ b && b ≤ 0xBF

/-- How many of the announced bytes stand at the head of `rest`. -/
def Lead.present (l : Lead) : Bytes → Nat
  | [] => 0
  | b :: rest =>
    if l.low ≤ b ∧ b ≤ l.high then
      ((rest.take (l.following - 1)).takeWhile isContinuation).length + 1
    else 0

/-- The code point of a lead byte and the bytes that follow it, six bits from each of these. -/
def scalarValue (b : UInt8) (following : Bytes) : Nat :=
  following.foldl (fun value c => value * 64 + c.toNat % 64)
    (b.toNat % Nat.pow 2 (6 - following.length))

inductive Reason
  | start
  | continuation
  | truncated
deriving DecidableEq, Repr

def Reason.message : Reason → String
  | .start => "invalid start byte"
  | .continuation => "invalid continuation byte"
  | .truncated => "unexpected end of data"

/-- The piece at the head of some bytes. `extra` counts its bytes after the first. -/
inductive Piece
  | scalar (value : Char) (extra : Nat)
  | illFormed (extra : Nat) (reason : Reason)
deriving DecidableEq, Repr

def Piece.first (b : UInt8) (rest : Bytes) : Piece :=
  if b < 0x80 then .scalar (Char.ofNat b.toNat) 0
  else
    match lead? b with
    | none => .illFormed 0 .start
    | some l =>
      let n := l.present rest
      if n = l.following then .scalar (Char.ofNat (scalarValue b (rest.take n))) n
      else if n = rest.length then .illFormed n .truncated
      else .illFormed n .continuation

def replacement : Char := '\uFFFD'

def decodeChars : Bytes → List Char
  | [] => []
  | b :: rest =>
    match Piece.first b rest with
    | .scalar c extra => c :: decodeChars (rest.drop extra)
    | .illFormed extra _ => replacement :: decodeChars (rest.drop extra)
termination_by bytes => bytes.length
decreasing_by all_goals simp only [List.length_drop, List.length_cons]; omega

def decode (bytes : Bytes) : String :=
  String.ofList (decodeChars bytes)

/-- The first ill-formed piece: its offset, its first byte and its bytes after that one. -/
structure Fault where
  position : Nat
  byte : UInt8
  extra : Nat
  reason : Reason
deriving DecidableEq, Repr

def decodeFrom (position : Nat) : Bytes → Except Fault (List Char)
  | [] => .ok []
  | b :: rest =>
    match Piece.first b rest with
    | .scalar c extra => (decodeFrom (position + 1 + extra) (rest.drop extra)).map (c :: ·)
    | .illFormed extra reason => .error ⟨position, b, extra, reason⟩
termination_by bytes => bytes.length
decreasing_by simp only [List.length_drop, List.length_cons]; omega

def decode? (bytes : Bytes) : Except Fault String :=
  (decodeFrom 0 bytes).map String.ofList

def hexDigits (width n : Nat) : String :=
  let digits := Nat.toDigits 16 n
  String.ofList (List.replicate (width - digits.length) '0' ++ digits)

def Fault.message (f : Fault) : String :=
  let place :=
    if f.extra = 0 then "byte 0x" ++ hexDigits 2 f.byte.toNat ++ " in position " ++ toString f.position
    else "bytes in position " ++ toString f.position ++ "-" ++ toString (f.position + f.extra)
  "'utf-8' codec can't decode " ++ place ++ ": " ++ f.reason.message

def byteOrderMark : Bytes := [0xEF, 0xBB, 0xBF]

def dropMark (bytes : Bytes) : Bytes :=
  if byteOrderMark.isPrefixOf bytes then bytes.drop 3 else bytes

end Utf8

end CSharpAudit
