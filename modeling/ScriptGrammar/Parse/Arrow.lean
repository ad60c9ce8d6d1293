import ScriptGrammar.Parse.Signature

/-!
# Arrow functions

A parenthesis may open a parameter list or an expression. A short look ahead often tells; where
it does not, the function is tried, and given up as soon as it stops reading as one.
-/

namespace ScriptGrammar

/-- Whether an arrow function begins. -/
inductive ArrowGuess where
  | yes | maybe | no
deriving DecidableEq

namespace Parser

/-- Behind a parenthesis and a name. Moves the cursor. -/
def arrowAfterName : Parser ArrowGuess := do
  match ← nextToken with
  | .colonToken => return .yes
  | .questionToken =>
    next
    if ← isAtAny [.colonToken, .commaToken, .equalsToken, .closeParenToken] then return .yes
    return .no
  | .commaToken | .equalsToken | .closeParenToken => return .maybe
  | _ => return .no

/-- Behind an opening parenthesis. Moves the cursor. -/
def arrowAfterParen : Parser ArrowGuess := do
  let k ← token
  match k with
  | .closeParenToken =>
    next
    if ← isAtAny [.equalsGreaterThanToken, .colonToken, .openBraceToken] then return .yes
    return .no
  | .openBracketToken | .openBraceToken => return .maybe
  | .dotDotDotToken => return .yes
  | _ =>
    if ← pure (k.isModifier && k != .asyncKeyword) <&&> aheadNext isIdentifier then
      return if (← nextToken) == .asKeyword then .no else .yes
    if !(← isIdentifier) && k != .thisKeyword then return .no
    arrowAfterName

/-- Behind a `<`, which opens type parameters or an element. Moves the cursor. -/
def arrowAfterAngle : Parser ArrowGuess := do
  if !(← isIdentifier <||> isAt .constKeyword) then return .no
  if !(← options).isJsx then return .maybe
  match ← nextToken with
  | .extendsKeyword =>
    next
    if ← isAtAny [.equalsToken, .greaterThanToken, .slashToken] then return .no
    return .yes
  | .commaToken | .equalsToken => return .yes
  | _ => return .no

/-- Moves the cursor. -/
def arrowWalk : Parser ArrowGuess := do
  if ← accept .asyncKeyword then
    if (← onNewLine) || !(← isAtAny [.openParenToken, .lessThanToken]) then return .no
  let opening ← token
  next
  if opening == .openParenToken then arrowAfterParen else arrowAfterAngle

/-- A name and an arrow behind `async`. Moves the cursor. -/
def asyncArrowWalk : Parser Bool := do
  if ← isIdentifierOnLine then return (← nextToken) == .equalsGreaterThanToken
  return false

variable [Grammar]

def arrowModifiers : Parser (Option (List Node)) := do
  return (← acceptToken .asyncKeyword).map ([·])

/-- An arrow ends the line its parameters are on. -/
def arrowToken : Parser Node := do
  if ← read fun s => s.token == .equalsGreaterThanToken && s.onNewLine then
    reportHere .lineBreakBeforeArrow []
  expectToken .equalsGreaterThanToken

def arrowBody (flags : SignatureFlags) (arrowTypes : Bool) : Parser Node := do
  if ← isAt .openBraceToken then functionBlock flags (expect .openBraceToken)
  else inFunction false flags.await (assignment arrowTypes)

def buildArrow (start : Parse.NodeStart) (mods : Option (List Node)) (sig : Signature)
    (arrow body : Node) : Parser Node :=
  buildModified .arrowFunction start mods .none
    (sig.slots ++ [.one .equalsGreaterThanToken arrow, .one .body body])

/-- An arrow function from its modifiers on. If `tried`, it is given up at the first error or at
what cannot follow its parameters. In `a ? (b): c => d` the result type is the other branch,
unless another colon follows or `arrowTypes` holds. -/
def parenthesizedArrow (tried arrowTypes : Bool) : Parser (Option Node) := do
  let start ← nodeStart
  let errors ← read (·.diagnostics.size)
  let mods ← arrowModifiers
  let flags : SignatureFlags := { await := mods.isSome }
  let typeParams ← typeParameters
  if ← read fun s => tried && s.token != .openParenToken then return none
  let params ← parameters flags
  if ← read fun s => tried && errors < s.diagnostics.size then return none
  let hasResult ← isAt .colonToken
  let result ← returnType false
  if ← read fun s => tried && (errors < s.diagnostics.size || s.onNewLine ||
      !([.equalsGreaterThanToken, .openBraceToken].contains s.token)) then
    return none
  let arrow ← arrowToken
  let body ← arrowBody flags arrowTypes
  if ← read fun s => !arrowTypes && hasResult && s.token != .colonToken then return none
  return some (← buildArrow start mods ⟨typeParams, params, result⟩ arrow body)

def parenthesizedArrow? (arrowTypes : Bool) : Parser (Option Node) := do
  if !(← isAtAny [.openParenToken, .lessThanToken, .asyncKeyword]) then return none
  match ← ahead arrowWalk with
  | .no => return none
  | .yes => parenthesizedArrow false true
  | .maybe => attempt (parenthesizedArrow true arrowTypes)

/-- A function of one bare parameter, which is read already. -/
def simpleArrow (start : Parse.NodeStart) (mods : Option (List Node)) (name : Node)
    (arrowTypes : Bool) : Parser Node := do
  let inner ← read (·.nodeStartAt name.info)
  let parameter ← build .parameter inner
    (.optList .modifiers none :: parameterSlots none name none none none)
  let arrow ← arrowToken
  let body ← arrowBody { await := mods.isSome } arrowTypes
  buildArrow start mods ⟨none, [parameter], none⟩ arrow body

def simpleArrow? (arrowTypes : Bool) : Parser (Option Node) := do
  if ← isAt .asyncKeyword <&&> aheadNext asyncArrowWalk then
    let start ← nodeStart
    let mods ← arrowModifiers
    let name ← identifier
    return some (← simpleArrow start mods name arrowTypes)
  if ← isIdentifier <&&> nextIs .equalsGreaterThanToken then
    let start ← nodeStart
    let name ← identifier
    return some (← simpleArrow start none name arrowTypes)
  return none

end Parser
end ScriptGrammar
