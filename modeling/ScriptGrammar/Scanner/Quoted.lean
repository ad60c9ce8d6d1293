import ScriptGrammar.Scanner.Escape

/-!
# Strings and templates

A string ends at its quote and may not hold a line feed or carriage return. A template piece
runs to the closing backtick or to the next substitution; its line breaks read as line feeds.
-/

namespace ScriptGrammar.Scanner

def takeString (quote : Char) : (fuel : Nat) → Scanner → Scanner
  | 0, s => s
  | fuel + 1, s =>
    match s.peek 0 with
    | none => s
    | some c =>
      if c == quote || c == '\n' || c == '\r' then s
      else if c == '\x5c' then takeString quote fuel (s.scanEscape .string)
      else takeString quote fuel ({ s with stop := s.stop + c.utf8Size }.push c)

variable (s : Scanner)

def markUnterminated (message : Message) : Scanner :=
  ({ s with flags := { s.flags with unterminated := true } }).report message s.stop s.stop []

def scanString (quote : Char) : Scanner :=
  let first := s.stop + 1
  let s := takeString quote (s.limit - first) { s with stop := first }
  let s := (s.check (s.stop ≤ s.limit)).cut first s.stop
  if s.peek 0 == some quote then s.take 1 .stringLiteral
  else (s.take 0 .stringLiteral).markUnterminated .unterminatedString

/-- How a template piece ends: at the backtick, at a substitution, or not at all. -/
inductive PieceEnd where
  | closed | substitution | unterminated
deriving DecidableEq

def takeTemplate (context : EscapeContext) : (fuel : Nat) → Scanner → PieceEnd × Scanner
  | 0, s => (.unterminated, s)
  | fuel + 1, s =>
    match s.peek 0 with
    | none => (.unterminated, s)
    | some c =>
      if c == '\x60' then (.closed, s)
      else if c == '$' && s.peek 1 == some '\x7b' then (.substitution, s)
      else if c == '\x5c' then takeTemplate context fuel (s.scanEscape context)
      else if c == '\r' then
        let length := if s.peek 1 == some '\n' then 2 else 1
        takeTemplate context fuel ({ s with stop := s.stop + length }.push '\n')
      else takeTemplate context fuel ({ s with stop := s.stop + c.utf8Size }.push c)

/-- The piece that begins at the cursor with a backtick or a closing brace. -/
def scanTemplate (reportsEscapes : Bool) : Scanner :=
  let fresh := s.peek 0 == some '\x60'
  let context := if reportsEscapes then EscapeContext.template else .taggedTemplate
  let first := s.stop + 1
  let s := { s.check (s.stop < s.source.size) with stop := first, value := "" }
  let (ending, s) := takeTemplate context (s.limit - first + 1) s
  let s := (s.check (s.stop ≤ s.limit)).cut first s.stop
  let last : Kind := if fresh then .noSubstitutionTemplateLiteral else .templateTail
  match ending with
  | .closed => s.take 1 last
  | .substitution => s.take 2 (if fresh then .templateHead else .templateMiddle)
  | .unterminated => (s.take 0 last).markUnterminated .unterminatedTemplate

end ScriptGrammar.Scanner
