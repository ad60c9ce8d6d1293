import ScriptGrammar.Scanner.Identifier

/-!
# Numbers

Decimal numbers with fraction and exponent, prefixed hexadecimal, binary and octal ones, and
legacy octal. Single underscores may stand between digits. What follows a number directly must
not begin an identifier.
-/

namespace ScriptGrammar.Scanner

/-- What the digits read so far allow next. -/
structure DigitRun where
  separatorAllowed : Bool := false
  afterSeparator : Bool := false
  any : Bool := false

def takeDigits (isDigit : Char → Bool) : (fuel : Nat) → DigitRun → Scanner → DigitRun × Scanner
  | 0, run, s => (run, s)
  | fuel + 1, run, s =>
    match s.peek 0 with
    | none => (run, s)
    | some '_' =>
      let t := { s with stop := s.stop + 1, flags := { s.flags with containsSeparator := true } }
      if run.separatorAllowed then
        takeDigits isDigit fuel
          { run with separatorAllowed := false, afterSeparator := true } t
      else if run.afterSeparator then
        takeDigits isDigit fuel run
          (t.report .consecutiveSeparators s.stop (s.stop + 1) [])
      else
        takeDigits isDigit fuel run (t.report .separatorNotAllowed s.stop (s.stop + 1) [])
    | some c =>
      if isDigit c then
        takeDigits isDigit fuel
          { separatorAllowed := true, afterSeparator := false, any := true }
          { s with stop := s.stop + 1 }
      else (run, s)

variable (s : Scanner)

/-- Takes digits and separators, and tells whether there was a digit. -/
def scanDigits (isDigit : Char → Bool) : Bool × Scanner :=
  let (run, s) := takeDigits isDigit (s.limit - s.stop) {} s
  (run.any,
    if run.afterSeparator then s.report .separatorNotAllowed (s.stop - 1) s.stop [] else s)

/-- Reports a word right after a number. The word stays for the next token. -/
def checkNumberEnd : Scanner :=
  let s := s.touch s.stop
  if (s.peek 0).any isIdentifierStart then
    let word := s.scanParts
    { s with torn := word.torn }.report .wordAfterNumber s.stop word.stop []
  else s

def finishNumber (bigIntAllowed : Bool) : Scanner :=
  let s :=
    if bigIntAllowed && s.peek 0 == some 'n' then s.take 1 .bigIntLiteral
    else s.take 0 .numericLiteral
  s.setValue.checkNumberEnd

/-- The digits after `0x`, `0b` or `0o`. -/
def scanRadix (isDigit : Char → Bool) (missing : Message) : Scanner :=
  match ({ s with stop := s.stop + 2 }).scanDigits isDigit with
  | (true, s) => s.finishNumber true
  | (false, s) => (s.report missing s.stop s.stop []).finishNumber true

def scanFraction : Bool × Scanner :=
  if s.peek 0 == some '.' then
    (true, (({ s with stop := s.stop + 1 }).scanDigits Char.isDigit).2)
  else (false, s)

def skipSign : Scanner :=
  if s.peek 0 == some '+' || s.peek 0 == some '-' then { s with stop := s.stop + 1 } else s

def scanExponent : Bool × Scanner :=
  if s.peek 0 == some 'e' || s.peek 0 == some 'E' then
    let s := { s with stop := s.stop + 1, flags := { s.flags with scientific := true } }
    match s.skipSign.scanDigits Char.isDigit with
    | (true, s) => (true, s)
    | (false, s) => (true, s.report .digitExpected s.stop s.stop [])
  else (false, s)

def scanDecimal : Scanner :=
  let s := if s.peek 0 == some '.' then s else (s.scanDigits Char.isDigit).2
  let (hasPoint, s) := s.scanFraction
  let (hasExponent, s) := s.scanExponent
  s.finishNumber (!hasPoint && !hasExponent)

/-- A zero and more digits: octal if all of them are, else decimal with a leading zero. -/
def scanLeadingZero : Scanner :=
  let e := s.source.skipWhile s.limit Char.isDigit (s.stop + 1)
  if (s.source.chars (s.stop + 1) e).all isOctalDigit then
    ({ s with stop := e, kind := .numericLiteral, flags := { s.flags with octal := true } }
      ).setValue.checkNumberEnd
  else ({ s with flags := { s.flags with containsLeadingZero := true } }).scanDecimal

def scanNumber : Scanner :=
  if s.peek 0 == some '0' then
    match s.peek 1 with
    | some 'x' | some 'X' =>
      ({ s with flags := { s.flags with hexSpecifier := true } }).scanRadix
        isHexDigit .hexadecimalDigitExpected
    | some 'b' | some 'B' =>
      ({ s with flags := { s.flags with binarySpecifier := true } }).scanRadix
        isBinaryDigit .digitExpected
    | some 'o' | some 'O' =>
      ({ s with flags := { s.flags with octalSpecifier := true } }).scanRadix
        isOctalDigit .digitExpected
    | some c =>
      if c.isDigit then (s.check (s.stop + 1 ≤ s.limit)).scanLeadingZero else s.scanDecimal
    | none => s.scanDecimal
  else s.scanDecimal

end ScriptGrammar.Scanner
