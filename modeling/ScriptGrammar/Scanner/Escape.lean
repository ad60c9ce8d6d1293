import ScriptGrammar.Scanner

/-!
# Escape sequences

One escape sequence in a string or a template, decoded onto the token's value. An invalid one is
kept as written. Templates refuse octal escapes, and in a tagged template nothing is reported.
-/

namespace ScriptGrammar

/-- Where an escape sequence stands. -/
inductive EscapeContext where
  | string | template | taggedTemplate
deriving DecidableEq

def EscapeContext.isTemplate (c : EscapeContext) : Bool := c != .string

def EscapeContext.reports (c : EscapeContext) : Bool := c != .taggedTemplate

namespace Scanner

variable (s : Scanner)

def push (c : Char) : Scanner := { s with value := s.value.push c }

/-- Adds the source text from `p` to the cursor. -/
def pushRaw (p : Nat) : Scanner :=
  { s.cut p s.stop with value := s.value ++ s.source.slice p s.stop }

def reportIf (ok : Bool) (message : Message) (pos stop : Nat) (args : List String) : Scanner :=
  if ok then s.report message pos stop args else s

def markInvalidEscape : Scanner :=
  { s with flags := { s.flags with containsInvalidEscape := true } }

/-- Takes exactly `count` hexadecimal digits, or none at all. -/
def takeHex? (count : Nat) : Option (Nat × Scanner) :=
  if s.stop + count ≤ s.limit && (List.range count).all (fun i => (s.peek i).any isHexDigit) then
    some (hexValue (s.source.chars s.stop (s.stop + count)),
      { s.cut s.stop (s.stop + count) with stop := s.stop + count })
  else none

/-- Two hexadecimal digits, lower case. -/
def hexByte (n : Nat) : String :=
  String.ofList [Nat.digitChar (n / 16), Nat.digitChar (n % 16)]

/-- Up to `more` further octal digits. -/
def takeOctal : (more value : Nat) → Scanner → Nat × Scanner
  | 0, value, s => (value, s)
  | more + 1, value, s =>
    match s.peek 0 with
    | some d =>
      if isOctalDigit d then
        takeOctal more (8 * value + (d.toNat - '0'.toNat)) { s with stop := s.stop + 1 }
      else (value, s)
    | none => (value, s)

/-- An octal escape from `start` on, its first digit `first` taken. -/
def scanOctalEscape (context : EscapeContext) (start first : Nat) : Scanner :=
  let (value, s) := takeOctal (if first ≤ 3 then 2 else 1) first s
  if context.isTemplate then
    (s.markInvalidEscape.reportIf context.reports .octalEscape start s.stop
      ["\\x" ++ hexByte value]).pushRaw start
  else s.push (charOfCode value)

/-- A high surrogate, joined with an escaped low one that follows. -/
def pushPair? (unit : Nat) : Option Scanner := do
  guard (0xD800 ≤ unit && unit ≤ 0xDBFF && s.peek 0 == some '\x5c' && s.peek 1 == some 'u')
  let (low, t) ← ({ s with stop := s.stop + 2 }).takeHex? 4
  guard (0xDC00 ≤ low && low ≤ 0xDFFF)
  return t.push (charOfCode (0x10000 + (unit - 0xD800) * 1024 + (low - 0xDC00)))

/-- A code unit, with the one that follows where they are a pair. -/
def pushUnit (unit : Nat) : Scanner := (s.pushPair? unit).getD (s.push (charOfCode unit))

def badHexEscape (context : EscapeContext) (start : Nat) : Scanner :=
  (s.markInvalidEscape.reportIf context.reports .hexadecimalDigitExpected s.stop s.stop []).pushRaw
    start

/-- Takes the brace that closes an escape, or reports that it is missing. -/
def closeEscape (context : EscapeContext) : Bool × Scanner :=
  if s.peek 0 == some '\x7d' then (true, { s with stop := s.stop + 1 })
  else (false, s.reportIf context.reports .unterminatedUnicodeEscape s.stop s.stop [])

/-- An escape in braces from `start` on, the cursor on the opening one. -/
def scanBracedEscape (context : EscapeContext) (start : Nat) : Scanner :=
  let first := s.stop + 1
  let e := s.source.skipWhile s.limit isHexDigit first
  let code := hexValue (s.source.chars first e)
  let empty := e == first
  let large := !empty && 0x10FFFF < code
  let (closed, s) :=
    ({ s.cut first e with stop := e }
      |>.reportIf (empty && context.reports) .hexadecimalDigitExpected e e []
      |>.reportIf (large && context.reports) .unicodeEscapeOutOfRange first e []
      |>.closeEscape context)
  if !empty && !large && closed then
    ({ s with flags := { s.flags with extendedUnicodeEscape := true } }).push (charOfCode code)
  else s.markInvalidEscape.pushRaw start

/-- The escape of `c`, which has been taken; `start` is the offset of the backslash. -/
def scanEscaped (context : EscapeContext) (start : Nat) (c : Char) : Scanner :=
  if c == '0' && !(s.peek 0).any Char.isDigit then s.push '\x00'
  else if isOctalDigit c then s.scanOctalEscape context start (c.toNat - '0'.toNat)
  else if (c == '8' || c == '9') && context.isTemplate then s.markInvalidEscape.pushRaw start
  else match c with
    | 'b' => s.push '\x08'
    | 't' => s.push '\t'
    | 'n' => s.push '\n'
    | 'v' => s.push '\x0b'
    | 'f' => s.push '\x0c'
    | 'r' => s.push '\r'
    | 'x' =>
      match s.takeHex? 2 with
      | some (code, s) => s.push (charOfCode code)
      | none => s.badHexEscape context start
    | 'u' =>
      if s.peek 0 == some '\x7b' then s.scanBracedEscape context start
      else match s.takeHex? 4 with
        | some (unit, s) =>
          ({ s with flags := { s.flags with unicodeEscape := true } }).pushUnit unit
        | none => s.badHexEscape context start
    | '\r' => if s.peek 0 == some '\n' then { s with stop := s.stop + 1 } else s
    | c => if isLineBreak c then s else s.push c

/-- The escape sequence whose backslash is at the cursor. -/
def scanEscape (context : EscapeContext) : Scanner :=
  let start := s.stop
  let s := ({ s with stop := start + 1 }).touch (start + 1)
  match s.peek 0 with
  | some c => ({ s with stop := s.stop + c.utf8Size }).scanEscaped context start c
  | none => s.report .unexpectedEndOfText s.stop s.stop []

end Scanner
end ScriptGrammar
