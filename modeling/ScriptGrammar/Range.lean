/-!
# Ranges and spans

A range is half open, `[pos, stop)`. A span says the same as start and length.
-/

namespace ScriptGrammar

structure Range where
  pos : Nat
  stop : Nat
deriving DecidableEq, Inhabited

namespace Range

def empty (p : Nat) : Range := ⟨p, p⟩

variable (r : Range)

def ordered : Bool := r.pos ≤ r.stop

def length : Nat := r.stop - r.pos

def isEmpty : Bool := r.pos == r.stop

def contains (p : Nat) : Bool := r.pos ≤ p && p < r.stop

/-- An empty range on either end counts as covered. -/
def covers (other : Range) : Bool := r.pos ≤ other.pos && other.stop ≤ r.stop

/-- The smallest range that covers both. -/
def cover (other : Range) : Range := ⟨min r.pos other.pos, max r.stop other.stop⟩

def interval : String := s!"[{r.pos}, {r.stop})"

def dotted : String := s!"{r.pos}..{r.stop}"

end Range

structure Span where
  start : Nat
  length : Nat
deriving DecidableEq, Inhabited

namespace Span

def stop (s : Span) : Nat := s.start + s.length

def isEmpty (s : Span) : Bool := s.length == 0

def toRange (s : Span) : Range := ⟨s.start, s.stop⟩

end Span

def Range.toSpan (r : Range) : Span := ⟨r.pos, r.length⟩

theorem Range.toRange_toSpan (r : Range) (h : r.pos ≤ r.stop) : r.toSpan.toRange = r := by
  cases r; simp_all [toSpan, Span.toRange, Span.stop, length]

end ScriptGrammar
