import ScriptGrammar.Kind.Class
import ScriptGrammar.Scanner.Scan

/-!
# Reading a token again

The grammar knows more than the scanner: that a `>` continues, that a `/` opens a regular
expression, that a `}` goes on with a template. Each reading applies to its own tokens and leaves
any other alone.
-/

namespace ScriptGrammar.Scanner

variable (s : Scanner)

def rescanGreater : Scanner :=
  if s.kind != .greaterThanToken then s
  else if s.peek 0 == some '>' then
    if s.peek 1 == some '>' then
      if s.peek 2 == some '=' then s.take 3 .greaterThanGreaterThanGreaterThanEqualsToken
      else s.take 2 .greaterThanGreaterThanGreaterThanToken
    else if s.peek 1 == some '=' then s.take 2 .greaterThanGreaterThanEqualsToken
    else s.take 1 .greaterThanGreaterThanToken
  else if s.peek 0 == some '=' then s.take 1 .greaterThanEqualsToken
  else s

/-- The end of a regular expression body from `p` on, and whether its slash was found. -/
def patternEnd : (fuel p : Nat) → (escaped inClass : Bool) → Nat × Bool
  | 0, p, _, _ => (p, false)
  | fuel + 1, p, escaped, inClass =>
    if s.lineBreakAt s.limit p then (p, false)
    else match s.charAt? p with
      | none => (p, false)
      | some c =>
        let next := p + c.utf8Size
        if escaped then patternEnd fuel next false inClass
        else if c == '/' && !inClass then (next, true)
        else if c == '[' then patternEnd fuel next false true
        else if c == '\x5c' then patternEnd fuel next true inClass
        else if c == ']' then patternEnd fuel next false false
        else patternEnd fuel next false inClass

def rescanSlash : Scanner :=
  if s.kind != .slashToken && s.kind != .slashEqualsToken then s
  else
    let first := s.start + 1
    let (e, closed) := s.patternEnd (s.limit - first + 1) first false false
    let s := s.check (e ≤ s.limit || e == first)
    let s :=
      if closed then s
      else ({ s with flags := { s.flags with unterminated := true } }).report
        .unterminatedRegularExpression s.start e []
    let s := s.touch e
    ({ s with
      stop := s.source.skipWhile s.limit isIdentifierPart e
      kind := .regularExpressionLiteral }).setValue

/-- A template piece again, its escapes reported unless the template is tagged. -/
def rescanTemplate (tagged : Bool) : Scanner :=
  if s.kind != .closeBraceToken && s.kind != .templateHead &&
      s.kind != .noSubstitutionTemplateLiteral then s
  else
    ({ s with
      stop := s.start
      flags := { s.flags with
        extendedUnicodeEscape := false, unicodeEscape := false, containsInvalidEscape := false
        unterminated := false } }).scanTemplate (!tagged)

end ScriptGrammar.Scanner
