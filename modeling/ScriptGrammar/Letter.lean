import ScriptGrammar.Letter.Ranges

/-!
# Character classes

What ends a line, what is blank inside one, and what may begin or continue an identifier.
ASCII letters are told by rule; beyond ASCII the ranges decide.
-/

namespace ScriptGrammar

def inRanges (ranges : List (Nat × Nat)) (c : Char) : Bool :=
  ranges.any fun (lo, hi) => lo ≤ c.toNat && c.toNat ≤ hi

/-- Line feed, carriage return, line separator, paragraph separator. -/
def isLineBreak (c : Char) : Bool :=
  c == '\n' || c == '\r' || c == '\u2028' || c == '\u2029'

/-- Blank characters that do not end a line. -/
def isBlank (c : Char) : Bool :=
  c == ' ' || c == '\t' || c == '\x0b' || c == '\x0c' || c == '\u0085' || c == '\u00a0' ||
  c == '\u1680' || ('\u2000' ≤ c && c ≤ '\u200b') || c == '\u202f' || c == '\u205f' ||
  c == '\u3000' || c == '\ufeff'

def isSpace (c : Char) : Bool := isBlank c || isLineBreak c

def isAscii (c : Char) : Bool := c.toNat < 0x80

def isIdentifierStart (c : Char) : Bool :=
  if isAscii c then c.isAlpha || c == '_' || c == '$' else inRanges letterRanges c

def isIdentifierPart (c : Char) : Bool :=
  if isAscii c then c.isAlphanum || c == '_' || c == '$'
  else inRanges letterRanges c || inRanges markRanges c

def isOctalDigit (c : Char) : Bool := '0' ≤ c && c ≤ '7'

def isBinaryDigit (c : Char) : Bool := c == '0' || c == '1'

def isHexDigit (c : Char) : Bool :=
  c.isDigit || ('a' ≤ c && c ≤ 'f') || ('A' ≤ c && c ≤ 'F')

def hexDigitValue (c : Char) : Nat :=
  if c.isDigit then c.toNat - '0'.toNat
  else if 'a' ≤ c then c.toNat - 'a'.toNat + 10
  else c.toNat - 'A'.toNat + 10

/-- The number spelled by hexadecimal digits, most significant first. -/
def hexValue (digits : List Char) : Nat :=
  digits.foldl (fun n c => 16 * n + hexDigitValue c) 0

/-- The character with this code, if the code is a scalar value. -/
def charOfCode? (n : Nat) : Option Char :=
  if n.isValidChar then some (Char.ofNat n) else none

/-- The character with this code, or the replacement character. -/
def charOfCode (n : Nat) : Char := (charOfCode? n).getD '\ufffd'

theorem isIdentifierPart_of_isIdentifierStart {c : Char} (h : isIdentifierStart c) :
    isIdentifierPart c := by
  unfold isIdentifierStart at h
  unfold isIdentifierPart
  split at h <;> simp_all [Char.isAlphanum]
  rcases h with (h | h) | h <;> simp [h]

end ScriptGrammar
