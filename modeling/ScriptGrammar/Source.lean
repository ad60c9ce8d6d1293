/-!
# Source text by byte offset

A source is its characters laid out by UTF-8 byte: the offset where a character begins holds
that character, the offsets inside a longer one hold nothing. Every position in this library
is such an offset. A cut is total; whether its ends are character boundaries is a separate
question, `sliceable`.
-/

namespace ScriptGrammar

/-- One entry per byte: the character that begins there, if one does. -/
def layout : List Char → List (Option Char)
  | [] => []
  | c :: cs => some c :: (List.replicate (c.utf8Size - 1) none ++ layout cs)

structure Source where
  text : String
  cells : Array (Option Char)
  cells_eq : cells.toList = layout text.toList

namespace Source

def fill (cells : Array (Option Char)) : List Char → Array (Option Char)
  | [] => cells
  | c :: cs => fill (cells.push (some c) ++ Array.replicate (c.utf8Size - 1) none) cs

theorem toList_fill (cells : Array (Option Char)) (cs : List Char) :
    (fill cells cs).toList = cells.toList ++ layout cs := by
  induction cs generalizing cells with
  | nil => simp [fill, layout]
  | cons c cs ih => simp [fill, layout, ih]

def ofString (text : String) : Source :=
  ⟨text, fill #[] text.toList, by simp [toList_fill]⟩

variable (src : Source)

def size : Nat := src.cells.size

/-- The character that begins at `p`. -/
def charAt? (p : Nat) : Option Char := src.cells.getD p none

/-- The same, seen by a reader that stops at `limit`. -/
def charBefore? (limit p : Nat) : Option Char :=
  if p < limit then src.charAt? p else none

def isBoundary (p : Nat) : Bool := p == src.size || (src.charAt? p).isSome

def sliceable (a b : Nat) : Bool := a ≤ b && src.isBoundary a && src.isBoundary b

/-- The characters that begin in `[a, b)`. -/
def chars (a b : Nat) : List Char := (src.cells.extract a b).toList.filterMap id

def slice (a b : Nat) : String := String.ofList (src.chars a b)

def slice? (a b : Nat) : Option String :=
  if src.sliceable a b then some (src.slice a b) else none

/-- The end of the run of characters satisfying `p` from `at`, read up to `limit`. -/
def runEnd (limit : Nat) (p : Char → Bool) : (fuel pos : Nat) → Nat
  | 0, pos => pos
  | fuel + 1, pos =>
    match src.charBefore? limit pos with
    | some c => if p c then runEnd limit p fuel (pos + c.utf8Size) else pos
    | none => pos

def skipWhile (limit : Nat) (p : Char → Bool) (pos : Nat) : Nat :=
  src.runEnd limit p (limit - pos) pos

/-- The first offset from `pos` on, below `limit`, at which `found` holds. -/
def seek (limit : Nat) (found : Nat → Bool) : (fuel pos : Nat) → Option Nat
  | 0, _ => none
  | fuel + 1, pos =>
    if pos < limit then if found pos then some pos else seek limit found fuel (pos + 1) else none

end Source
end ScriptGrammar
