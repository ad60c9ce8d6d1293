import ScriptGrammar.Source

/-!
# Lines

The offsets at which lines begin: 0, and the offset after each line terminator, a carriage
return followed by a line feed being one. Lines and columns count from 0, columns in bytes.
-/

namespace ScriptGrammar

structure Lines where
  starts : Array Nat
deriving Inhabited

namespace Lines

/-- The line starts that the bytes from `pos` on add. U+2028 and U+2029 take three bytes. -/
def startsFrom (pos : Nat) : List UInt8 → List Nat
  | 0x0d :: 0x0a :: bs => (pos + 2) :: startsFrom (pos + 2) bs
  | 0x0d :: bs => (pos + 1) :: startsFrom (pos + 1) bs
  | 0x0a :: bs => (pos + 1) :: startsFrom (pos + 1) bs
  | 0xe2 :: 0x80 :: 0xa8 :: bs => (pos + 3) :: startsFrom (pos + 3) bs
  | 0xe2 :: 0x80 :: 0xa9 :: bs => (pos + 3) :: startsFrom (pos + 3) bs
  | _ :: bs => startsFrom (pos + 1) bs
  | [] => []

def ofSource (src : Source) : Lines :=
  ⟨(0 :: startsFrom 0 src.text.toByteArray.data.toList).toArray⟩

variable (l : Lines)

def count : Nat := l.starts.size

def start (line : Nat) : Nat := l.starts.getD line 0

/-- Halves the lines `[lo, hi)` until one is left; line `lo` begins at or before `pos`. -/
def bisect (pos : Nat) : (fuel lo hi : Nat) → Nat
  | 0, lo, _ => lo
  | fuel + 1, lo, hi =>
    if hi ≤ lo + 1 then lo
    else
      let mid := (lo + hi) / 2
      if l.start mid ≤ pos then bisect pos fuel mid hi else bisect pos fuel lo mid

/-- The last line that begins at or before `pos`. -/
def lineOf (pos : Nat) : Nat := l.bisect pos l.count 0 l.count

def columnOf (pos : Nat) : Nat := pos - l.start (l.lineOf pos)

end Lines
end ScriptGrammar
