import CSharpAudit.Text.Utf8

/-!
Lines of a source. A line ends at a carriage return, a line feed, the two together, a next-line
character, a line separator or a paragraph separator. The table holds the offset at which each
line starts and, for each offset, the number of its line.
-/

namespace CSharpAudit

/-- How many bytes the line break at the head takes, or zero. -/
def lineBreakWidth : Bytes → Nat
  | [] => 0
  | b :: rest =>
    if b = 0x0D then if rest.head? = some 0x0A then 2 else 1
    else if b = 0x0A then 1
    else if b = 0xC2 then if rest.head? = some 0x85 then 2 else 0
    else if b = 0xE2 then
      if rest.take 2 = [0x80, 0xA8] ∨ rest.take 2 = [0x80, 0xA9] then 3 else 0
    else 0

/-- The offsets just after each line break, for bytes that begin at `offset`. -/
def lineStartsAfter (offset : Nat) : Bytes → List Nat
  | [] => []
  | b :: rest =>
    match lineBreakWidth (b :: rest) with
    | 0 => lineStartsAfter (offset + 1) rest
    | extra + 1 => (offset + extra + 1) :: lineStartsAfter (offset + extra + 1) (rest.drop extra)
termination_by bytes => bytes.length
decreasing_by
  · simp
  · simp only [List.length_drop, List.length_cons]; omega

/-- The line numbers of the offsets up to, and without, `stop`, when lines start at `starts`: the
number of each line once for each offset from its start to the next. -/
def lineNumbersUpTo (stop : Nat) (starts : List Nat) : List Nat :=
  ((starts.zip (starts.tail ++ [stop])).zipIdx 1).flatMap fun ((start, next), line) =>
    List.replicate (next - start) line

structure LineTable where
  /-- Offsets of the first byte of each line, ascending. -/
  starts : List Nat
  /-- The line of each offset, counted from 1. The end of the source is an offset too. -/
  lineNumbers : List Nat
deriving DecidableEq, Repr

inductive PositionError
  | outside (offset : Int) (length : Nat)
  | noLine (line : Int)
deriving DecidableEq, Repr

def PositionError.message : PositionError → String
  | .outside offset length =>
    "offset " ++ toString offset ++ " outside source of " ++ toString length ++ " bytes"
  | .noLine _ => "list index out of range"

namespace LineTable

def ofBytes (source : Bytes) : LineTable :=
  let starts := 0 :: lineStartsAfter 0 source
  { starts, lineNumbers := lineNumbersUpTo (source.length + 1) starts }

def lineCount (t : LineTable) : Nat :=
  t.starts.length

def lineOf (t : LineTable) (offset : Int) : Except PositionError Nat :=
  if h : 0 ≤ offset ∧ offset < t.lineNumbers.length then
    .ok (t.lineNumbers.get ⟨offset.toNat, by omega⟩)
  else .error (.outside offset (t.lineNumbers.length - 1))

/-- The offset at which a line starts. Lines count from 1; zero and the negative numbers count
back from the last line. -/
def lineStart (t : LineTable) (line : Int) : Except PositionError Nat :=
  let index := line - 1
  let place := if index < 0 then index + t.starts.length else index
  if place < 0 then .error (.noLine line)
  else
    match t.starts[place.toNat]? with
    | some start => .ok start
    | none => .error (.noLine line)

end LineTable

end CSharpAudit
