import ScriptGrammar.Diagnostic
import ScriptGrammar.Flags
import ScriptGrammar.Letter
import ScriptGrammar.Source

/-!
# The scanner

A scanner holds a source, the offset it reads up to, the token it stands on, and the diagnostics
not yet collected. The token's end is the cursor. Reading a character off a boundary, or cutting
the text there, is not refused: it is noted in `torn`, which nothing clears.
-/

namespace ScriptGrammar

structure Token where
  kind : Kind := .unknown
  /-- Where the trivia before the token begins. -/
  fullStart : Nat := 0
  start : Nat := 0
  stop : Nat := 0
  /-- What the token stands for, escapes decoded. -/
  value : String := ""
  flags : TokenFlags := {}
deriving DecidableEq, Inhabited

def Token.range (t : Token) : Range := ⟨t.start, t.stop⟩

structure Scanner extends Token where
  source : Source
  limit : Nat
  keepsTrivia : Bool
  pending : Diagnostics := #[]
  torn : Bool := false

/-- What `Scanner.rewind` needs: the token, the limit and how many diagnostics were pending. -/
structure Bookmark where
  token : Token
  limit : Nat
  pending : Nat
deriving DecidableEq

namespace Scanner

def ofSource (source : Source) (keepsTrivia : Bool) : Scanner :=
  { source, limit := source.size, keepsTrivia }

variable (s : Scanner)

def bookmark : Bookmark := ⟨s.toToken, s.limit, s.pending.size⟩

/-- Goes back to a bookmark and drops the diagnostics reported since. -/
def rewind (b : Bookmark) : Scanner :=
  { s with toToken := b.token, limit := b.limit, pending := s.pending.truncate b.pending }

/-- Moves the cursor to `pos` and forgets the token. -/
def reset (pos : Nat) : Scanner :=
  { s with toToken := { fullStart := pos, start := pos, stop := pos } }

/-- Stands at the start of `[start, start + length)`, which is now all there is to read. -/
def narrow (start length : Nat) : Scanner :=
  ({ s with limit := min (start + length) s.source.size }).reset start

def charAt? (p : Nat) : Option Char := s.source.charBefore? s.limit p

/-- The character `k` bytes after the cursor. -/
def peek (k : Nat) : Option Char := s.charAt? (s.stop + k)

def atEnd : Bool := s.limit ≤ s.stop

def check (ok : Bool) : Scanner := { s with torn := s.torn || !ok }

/-- Notes that the character at `p` is read: both `p` and the limit must be boundaries. -/
def touch (p : Nat) : Scanner :=
  s.check (s.limit ≤ p || (s.source.isBoundary p && s.source.isBoundary s.limit))

/-- Notes that the text from `a` to `b` is cut out. -/
def cut (a b : Nat) : Scanner := s.check (s.source.sliceable a b)

def report (message : Message) (pos stop : Nat) (args : List String) : Scanner :=
  { s with pending := s.pending.report ⟨pos, stop⟩ message args }

/-- Ends the token `n` bytes further on, as one of kind `k`. -/
def take (n : Nat) (k : Kind) : Scanner := { s with stop := s.stop + n, kind := k }

def setValue : Scanner :=
  { s.cut s.start s.stop with value := s.source.slice s.start s.stop }

def begin : Scanner := { s with fullStart := s.stop, flags := {}, value := "" }

/-- A line terminator begins at `p`, and ends before `limit`. -/
def lineBreakAt (limit p : Nat) : Bool :=
  match s.source.charAt? p with
  | some c => isLineBreak c && p + c.utf8Size ≤ limit
  | none => false

/-- The first line terminator from `p` on, or the limit. -/
def lineEnd (p : Nat) : Nat :=
  (Source.seek s.limit (s.lineBreakAt s.limit) (s.limit - p) p).getD s.limit

/-- The source text of the token. -/
def text : String := s.source.slice s.start s.stop

end Scanner
end ScriptGrammar
