import ScriptGrammar.Parse.Name
import ScriptGrammar.Tier

/-!
# What a token may begin

Questions about the tokens at the cursor, answered without moving it.
-/

namespace ScriptGrammar

/-- A semicolon may be left out here, or stands here. -/
def Parse.State.atSemicolon (s : Parse.State) : Bool :=
  s.token == .semicolonToken || s.token == .closeBraceToken || s.token == .endOfFileToken ||
    s.onNewLine

def Parse.State.atLiteralPropertyName (s : Parse.State) : Bool :=
  s.token.startsPropertyName && s.token != .privateIdentifier

def Parse.State.atBinding (s : Parse.State) : Bool :=
  s.token == .openBraceToken || s.token == .openBracketToken || s.atIdentifier

def Parse.State.atHeritage (s : Parse.State) : Bool :=
  s.token == .extendsKeyword || s.token == .implementsKeyword

namespace Parser

def canEndStatement : Parser Bool := read (·.atSemicolon)

def startsLeftHandSide : Parser Bool := do
  if ← isAt .importKeyword then
    nextIsAny [.openParenToken, .lessThanToken, .dotToken]
  else read fun s => s.token.startsLeftHandSide || s.atIdentifier

/-- A unary operand may begin here. -/
def startsOperand : Parser Bool := do
  startsLeftHandSide <||> read fun s => s.token.startsExpression || s.atIdentifier

/-- A stray binary operator counts too: it begins an expression with an error. -/
def startsExpression : Parser Bool := do
  startsOperand <||> read fun s =>
    s.token.binaryTier.isValid && Tier.comma.looserThan s.token.binaryTier

def isNumber : Parser Bool := isAtAny [.numericLiteral, .bigIntLiteral]

/-- A type begins here, an opening parenthesis aside. -/
def startsPlainType (inParameter : Bool) : Parser Bool := do
  let k ← token
  match k with
  | .functionKeyword => return !inParameter
  | .minusToken => if inParameter then return false else aheadNext isNumber
  | .openParenToken => return false
  | _ => if k.isIdentifierLike then isIdentifier else return k.startsType

def startsParameter : Parser Bool :=
  (read (·.token.startsParameter)) <||> startsPlainType true

/-- A type begins here. After an opening parenthesis a parameter or another type must. -/
def startsType : Parser Bool := do
  if !(← isAt .openParenToken) then startsPlainType false
  else ahead <| loop false fun _ => do
    next
    if ← isAt .closeParenToken <||> startsParameter then return .done true
    else if ← isAt .openParenToken then return .again false
    else return .done (← startsPlainType false)

/-- `await using` and a name, on one line; the cursor is on the token after `await`. -/
def isUsingName : Parser Bool := do
  if (← isAt .usingKeyword) && !(← onNewLine) then
    next
    isIdentifierOnLine
  else return false

/-- Walks over modifiers to the word that decides. -/
def declarationWalk : Parser Bool := loop false fun _ => do
  let k ← token
  if !k.startsDeclaration then return .done false
  match k with
  | .varKeyword | .letKeyword | .constKeyword | .functionKeyword | .classKeyword | .enumKeyword =>
    return .done true
  | .usingKeyword => return .done (← aheadNext isIdentifierOnLine)
  | .awaitKeyword => return .done (← aheadNext isUsingName)
  | .interfaceKeyword | .typeKeyword =>
    next
    return .done (← isIdentifierOnLine)
  | .moduleKeyword | .namespaceKeyword =>
    next
    return .done (← read fun s => !s.onNewLine && (s.atIdentifier || s.token == .stringLiteral))
  | .abstractKeyword | .accessorKeyword | .asyncKeyword | .declareKeyword | .privateKeyword
  | .protectedKeyword | .publicKeyword | .readonlyKeyword =>
    next
    if ← onNewLine then return .done false
    if k == .declareKeyword && (← isAt .typeKeyword) then return .done true
    return .again false
  | .globalKeyword =>
    next
    return .done (← isAtAny [.openBraceToken, .identifier, .exportKeyword])
  | .importKeyword =>
    next
    return .done (← read fun s =>
      [.stringLiteral, .asteriskToken, .openBraceToken].contains s.token || s.token.isWord)
  | .exportKeyword =>
    next
    let current ← if ← isAt .typeKeyword then aheadNext token else token
    if [.equalsToken, .asteriskToken, .openBraceToken, .defaultKeyword, .asKeyword,
        .atToken].contains current then
      return .done true
    return .again false
  | .staticKeyword =>
    next
    return .again false
  | _ => return .done false

def startsDeclaration : Parser Bool := ahead declarationWalk

def startsStatement : Parser Bool := do
  let k ← token
  if k.startsStatement then return true
  match k with
  | .importKeyword =>
    startsDeclaration <||> nextIsAny [.openParenToken, .lessThanToken, .dotToken]
  | .constKeyword | .exportKeyword => startsDeclaration
  | .accessorKeyword | .publicKeyword | .privateKeyword | .protectedKeyword | .staticKeyword
  | .readonlyKeyword | .abstractKeyword | .overrideKeyword =>
    startsDeclaration <||> (do return !(← aheadNext isWordOnLine))
  | _ => startsExpression

/-- Whether a member of an interface or object type begins at the cursor. Moves it. -/
def typeMemberWalk : Parser Bool := do
  if ← isAtAny [.openParenToken, .lessThanToken, .getKeyword, .setKeyword] then return true
  let named ← loop false fun seen => do
    if ← read (·.token.isModifier) then
      next
      return .again true
    return .done seen
  if ← isAt .openBracketToken then return true
  let named ← if ← read (·.atLiteralPropertyName) then do next; pure true else pure named
  return named && (← read fun s =>
    [.openParenToken, .lessThanToken, .questionToken, .colonToken, .commaToken].contains s.token ||
      s.atSemicolon)

/-- Whether a class member begins at the cursor. Moves it. -/
def classMemberWalk : Parser Bool := do
  if ← isAt .atToken then return true
  -- The last modifier passed over, and whether one of them decides.
  let passed ← loop (none, false) fun (word, _) => do
    let k ← token
    if !k.isModifier then return .done (word, false)
    if [.publicKeyword, .privateKeyword, .protectedKeyword, .readonlyKeyword, .staticKeyword,
        .overrideKeyword, .accessorKeyword].contains k then
      return .done (word, true)
    next
    return .again (some k, false)
  if passed.2 then return true
  if ← isAt .asteriskToken then return true
  let k ← token
  let word ←
    if ← read fun s => s.atLiteralPropertyName || s.token == .privateIdentifier then do
      next
      pure (some k)
    else pure passed.1
  if ← isAt .openBracketToken then return true
  match word with
  | none => return false
  | some w =>
    if !w.isKeywordToken || w == .getKeyword || w == .setKeyword then return true
    read fun s =>
      [.openParenToken, .lessThanToken, .exclamationToken, .colonToken, .equalsToken,
        .questionToken].contains s.token || s.atSemicolon

end Parser
end ScriptGrammar
