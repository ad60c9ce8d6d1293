import ScriptGrammar.Kind.Spelling
import ScriptGrammar.Scanner

/-!
# Identifiers

A name is a run of identifier characters, each written plainly or as a Unicode escape. A name
written with an escape is never a keyword.
-/

namespace ScriptGrammar.Scanner

variable (s : Scanner)

/-- An escape of a character in an identifier: where its digits begin and end, and its length. -/
structure UnicodeEscape where
  first : Nat
  last : Nat
  length : Nat

/-- The escape at `p`, in four digits or in braces. -/
def escapeAt? (p : Nat) : Option UnicodeEscape :=
  if s.charAt? p == some '\x5c' && s.charAt? (p + 1) == some 'u' then
    if s.charAt? (p + 2) == some '\x7b' then
      let e := s.source.skipWhile s.limit isHexDigit (p + 3)
      if e == p + 3 || s.charAt? e != some '\x7d' then none else some ⟨p + 3, e, e + 1 - p⟩
    else if p + 6 ≤ s.limit &&
        (List.range 4).all (fun i => (s.charAt? (p + 2 + i)).any isHexDigit) then
      some ⟨p + 2, p + 6, 6⟩
    else none
  else none

/-- The character escaped at `p` and the length of the escape. -/
def unicodeEscape? (p : Nat) : Option (Char × Nat) := do
  let e ← s.escapeAt? p
  let c ← charOfCode? (hexValue (s.source.chars e.first e.last))
  return (c, e.length)

/-- Notes that the digits of an escape at `p` are cut out. -/
def touchEscape (p : Nat) : Scanner :=
  match s.escapeAt? p with
  | some e => s.cut e.first e.last
  | none => s

/-- Takes the identifier characters at the cursor and adds them to the value. -/
def takeParts : (fuel : Nat) → Scanner → Scanner
  | 0, s => s
  | fuel + 1, s =>
    if s.atEnd then s
    else if s.peek 0 == some '\x5c' then
      let s := s.touchEscape s.stop
      match s.unicodeEscape? s.stop with
      | some (c, length) =>
        if isIdentifierPart c then
          takeParts fuel { s with
            stop := s.stop + length, value := s.value.push c
            flags := { s.flags with unicodeEscape := true } }
        else s
      | none => s
    else
      let s := s.touch s.stop
      match s.peek 0 with
      | some c =>
        if isIdentifierPart c then
          takeParts fuel { s with stop := s.stop + c.utf8Size, value := s.value.push c }
        else s
      | none => s

def scanParts : Scanner :=
  let t := takeParts (s.limit - s.stop) s
  t.cut s.stop t.stop

def scanIdentifier : Scanner :=
  let s := s.scanParts
  { s with kind := if s.flags.unicodeEscape then .identifier else Kind.ofWord s.value }

def scanInvalidCharacter : Scanner :=
  let t := s.touch s.stop
  let length := ((s.peek 0).map Char.utf8Size).getD 1
  (t.take length .unknown).report .invalidCharacter s.stop (s.stop + length) []

/-- An identifier begins at `p`, plainly or by an escape. -/
def isIdentifierAt (p : Nat) : Bool :=
  if s.charAt? p == some '\x5c' then (s.unicodeEscape? p).any (fun e => isIdentifierStart e.1)
  else (s.charAt? p).any isIdentifierStart

/-- Notes that the character at `p` is read, plainly or as an escape. -/
def touchName (p : Nat) : Scanner :=
  if s.charAt? p == some '\x5c' then s.touchEscape p else s.touch p

/-- A name after a number sign; a sign alone is invalid. -/
def scanPrivateIdentifier : Scanner :=
  let t := s.touchName (s.stop + 1)
  if s.isIdentifierAt (s.stop + 1) then
    { ({ t with stop := s.stop + 1, value := "#" }).scanParts with kind := .privateIdentifier }
  else t.scanInvalidCharacter

end ScriptGrammar.Scanner
