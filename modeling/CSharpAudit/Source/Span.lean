import CSharpAudit.Text.Utf8

/-!
Ranges of bytes and what they cut out of a source. A bound may be any integer: a negative one
counts from the end, and what lies outside the source is left off, so every range cuts out
something.
-/

namespace CSharpAudit

/-- The bytes from `start` up to, and without, `stop`. -/
structure Span where
  start : Int
  stop : Int
deriving DecidableEq, Repr, Inhabited

namespace Span

def contains (outer inner : Span) : Bool :=
  outer.start ≤ inner.start && inner.stop ≤ outer.stop

/-- The offset that a bound denotes in a source of `length` bytes. -/
def clamp (length : Nat) (bound : Int) : Nat :=
  if bound < 0 then (bound + length).toNat else min bound.toNat length

def slice (s : Span) (source : Bytes) : Bytes :=
  let length := source.length
  let start := clamp length s.start
  (source.drop start).take (clamp length s.stop - start)

def text (s : Span) (source : Bytes) : String :=
  Utf8.decode (s.slice source)

end Span

end CSharpAudit
