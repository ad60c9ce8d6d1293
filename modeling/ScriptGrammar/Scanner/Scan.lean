import ScriptGrammar.Scanner.Number
import ScriptGrammar.Scanner.Quoted
import ScriptGrammar.Scanner.Trivia

/-!
# The next token

`scan` takes the next token, chosen by its first character. Trivia is passed over, leaving its
mark in the token's flags, or comes as tokens of its own. A `>` is always taken alone.
-/

namespace ScriptGrammar.Scanner

/-- Punctuators of one character that no further character extends. -/
def loneToken? : Char → Option Kind
  | '(' => some .openParenToken
  | ')' => some .closeParenToken
  | '\x7b' => some .openBraceToken
  | '\x7d' => some .closeBraceToken
  | '[' => some .openBracketToken
  | ']' => some .closeBracketToken
  | ';' => some .semicolonToken
  | ',' => some .commaToken
  | ':' => some .colonToken
  | '~' => some .tildeToken
  | '@' => some .atToken
  | '>' => some .greaterThanToken
  | _ => none

variable (s : Scanner)

def scanDot : Scanner :=
  if s.peek 1 == some '.' && s.peek 2 == some '.' then s.take 3 .dotDotDotToken
  else if (s.peek 1).any Char.isDigit then s.scanNumber
  else s.take 1 .dotToken

def scanQuestion : Scanner :=
  if s.peek 1 == some '?' then
    if s.peek 2 == some '=' then s.take 3 .questionQuestionEqualsToken
    else s.take 2 .questionQuestionToken
  else if s.peek 1 == some '.' && !(s.peek 2).any Char.isDigit then s.take 2 .questionDotToken
  else s.take 1 .questionToken

def scanLess : Scanner :=
  if s.peek 1 == some '<' then
    if s.peek 2 == some '=' then s.take 3 .lessThanLessThanEqualsToken
    else s.take 2 .lessThanLessThanToken
  else if s.peek 1 == some '=' then s.take 2 .lessThanEqualsToken
  else s.take 1 .lessThanToken

def scanEquals : Scanner :=
  if s.peek 1 == some '=' then
    if s.peek 2 == some '=' then s.take 3 .equalsEqualsEqualsToken
    else s.take 2 .equalsEqualsToken
  else if s.peek 1 == some '>' then s.take 2 .equalsGreaterThanToken
  else s.take 1 .equalsToken

def scanExclamation : Scanner :=
  if s.peek 1 == some '=' then
    if s.peek 2 == some '=' then s.take 3 .exclamationEqualsEqualsToken
    else s.take 2 .exclamationEqualsToken
  else s.take 1 .exclamationToken

/-- An operator that may be doubled, or followed by `=`, or both. -/
def scanDoubled (c : Char) (one two oneEquals twoEquals : Kind) : Scanner :=
  if s.peek 1 == some c then
    if s.peek 2 == some '=' then s.take 3 twoEquals else s.take 2 two
  else if s.peek 1 == some '=' then s.take 2 oneEquals
  else s.take 1 one

/-- An operator that may be doubled or followed by `=`. -/
def scanStep (c : Char) (one two oneEquals : Kind) : Scanner :=
  if s.peek 1 == some c then s.take 2 two
  else if s.peek 1 == some '=' then s.take 2 oneEquals
  else s.take 1 one

def scanWithEquals (one oneEquals : Kind) : Scanner :=
  if s.peek 1 == some '=' then s.take 2 oneEquals else s.take 1 one

def scanWord : Scanner :=
  let t := s.touchName s.stop
  if s.isIdentifierAt s.stop then t.scanIdentifier else t.scanInvalidCharacter

def scanOperatorOrWord (c : Char) : Scanner :=
  match c with
  | '.' => s.scanDot
  | '?' => s.scanQuestion
  | '<' => s.scanLess
  | '=' => s.scanEquals
  | '!' => s.scanExclamation
  | '+' => s.scanStep '+' .plusToken .plusPlusToken .plusEqualsToken
  | '-' => s.scanStep '-' .minusToken .minusMinusToken .minusEqualsToken
  | '*' => s.scanDoubled '*' .asteriskToken .asteriskAsteriskToken .asteriskEqualsToken
      .asteriskAsteriskEqualsToken
  | '/' => s.scanWithEquals .slashToken .slashEqualsToken
  | '%' => s.scanWithEquals .percentToken .percentEqualsToken
  | '&' => s.scanDoubled '&' .ampersandToken .ampersandAmpersandToken .ampersandEqualsToken
      .ampersandAmpersandEqualsToken
  | '|' => s.scanDoubled '|' .barToken .barBarToken .barEqualsToken .barBarEqualsToken
  | '^' => s.scanWithEquals .caretToken .caretEqualsToken
  | '\x27' | '\x22' => s.scanString c
  | '\x60' => s.scanTemplate false
  | '#' => s.scanPrivateIdentifier
  | _ => if c.isDigit then s.scanNumber else s.scanWord

def scanToken : Scanner :=
  match s.peek 0 with
  | some c =>
    match loneToken? c with
    | some k => s.take 1 k
    | none => s.scanOperatorOrWord c
  | none => s.scanInvalidCharacter

def scanFrom : (fuel : Nat) → Scanner → Scanner
  | 0, s => s
  | fuel + 1, s =>
    let s := { s with start := s.stop }
    if s.atEnd then { s with kind := .endOfFileToken }
    else match s.scanTrivia with
      | (true, s) => if s.keepsTrivia then s else scanFrom fuel s
      | (false, s) => s.scanToken

def scan : Scanner :=
  let s := s.begin
  scanFrom (s.limit - s.stop + 1) s

end ScriptGrammar.Scanner
