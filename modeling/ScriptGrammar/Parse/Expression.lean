import ScriptGrammar.Parse.Arrow
import ScriptGrammar.Parse.Postfix

/-!
# Operators

Unary operators, and one loop for all that stand between operands: binary, conditional,
assignment, `as` and `satisfies`. The loop goes by tiers.
-/

namespace ScriptGrammar

/-- What an assignment may not have on its left. -/
def Kind.isOperation : Kind → Bool
  | .prefixUnaryExpression | .postfixUnaryExpression | .deleteExpression | .typeOfExpression
  | .voidExpression | .awaitExpression | .binaryExpression | .conditionalExpression
  | .arrowFunction | .yieldExpression | .spreadElement | .asExpression | .satisfiesExpression
  | .typeAssertionExpression | .omittedExpression => true
  | _ => false

namespace Parser

variable [Grammar]

def operand : Parser Node := Grammar.parse .unary

def buildUnary (kind : Kind) (start : Parse.NodeStart) (operator : Kind) (operand : Node) :
    Parser Node :=
  buildWith kind start (.operator operator) [.one .operand operand]

/-- `await` is an operator in an asynchronous function, and elsewhere before an operand on its
line. -/
def isAwait : Parser Bool := do
  if !(← isAt .awaitKeyword) then return false
  if (← context).await then return true
  aheadNext do if ← onNewLine then return false else startsOperand

/-- An operand without a unary operator other than `++` and `--`. -/
def update : Parser Node := do
  let start ← nodeStart
  let k ← token
  if k == .plusPlusToken || k == .minusMinusToken then
    next
    let e ← leftHandSide
    buildUnary .prefixUnaryExpression start k e
  else if k == .lessThanToken && (← options).isJsx then
    let e ← Grammar.parse (.element true)
    postfixes start e true
  else
    let e ← leftHandSide
    let k ← token
    if k.postfixTier == .update && !(← onNewLine) then
      next
      buildUnary .postfixUnaryExpression start k e
    else return e

def typeAssertion : Parser Node := do
  let start ← nodeStart
  let _ ← expect .lessThanToken
  let type ← type
  let _ ← expect .greaterThanToken
  let e ← operand
  build .typeAssertionExpression start [.one .typeNode type, .one .expression e]

/-- The operator at the cursor, already known, and its operand. -/
def unaryOperation (kind : Kind) : Parser Node := do
  let start ← nodeStart
  let k ← token
  next
  let e ← operand
  buildUnary kind start k e

def unaryWorker : Parser Node := do
  match ← token with
  | .plusToken | .minusToken | .tildeToken | .exclamationToken =>
    unaryOperation .prefixUnaryExpression
  | .deleteKeyword => unaryOperation .deleteExpression
  | .typeOfKeyword => unaryOperation .typeOfExpression
  | .voidKeyword => unaryOperation .voidExpression
  | .lessThanToken => typeAssertion
  | .awaitKeyword => if ← isAwait then unaryOperation .awaitExpression else update
  | _ => update

def unaryStep : Parser Node := nested unaryWorker missingIdentifier

/-- The current token is no prefix operator. -/
def startsUpdate : Parser Bool := do
  match ← token with
  | .plusToken | .minusToken | .tildeToken | .exclamationToken | .deleteKeyword
  | .typeOfKeyword | .voidKeyword => return false
  | .awaitKeyword => return !(← isAwait)
  | .lessThanToken => return (← options).isJsx
  | _ => return true

def unary : Parser Node := do
  if ← startsUpdate then update else operand

def conditionalRest (start : Parse.NodeStart) (condition : Node) (arrowTypes : Bool) :
    Parser Node := do
  let question ← takeToken
  let yes ← allowingIn (assignment false)
  let hasColon ← isAt .colonToken
  let colon ← expectToken .colonToken
  let no ← if hasColon then assignment arrowTypes else missingIdentifier
  build .conditionalExpression start
    [.one .condition condition, .one .questionToken question, .one .whenTrue yes,
      .one .colonToken colon, .one .whenFalse no]

def buildBinary (start : Parse.NodeStart) (left operator right : Node) : Parser Node :=
  build .binaryExpression start
    [.one .left left, .one .operatorToken operator, .one .right right]

/-- One operator of kind `k` and what stands behind it, if `k` may follow `left` here. -/
def operation? (start : Parse.NodeStart) (left : Node) (k : Kind) (arrowTypes : Bool) :
    Parser (Option Node) := do
  if k == .inKeyword && (← context).disallowIn then return none
  if k == .asKeyword || k == .satisfiesKeyword then
    if ← onNewLine then return none
    next
    let type ← type
    return some (← build (if k == .asKeyword then .asExpression else .satisfiesExpression) start
      [.one .expression left, .one .typeNode type])
  if k == .questionToken then
    return some (← conditionalRest start left arrowTypes)
  if k.isAssignment then
    if left.kind.isOperation then return none
    let operator ← takeToken
    let right ← assignment arrowTypes
    return some (← buildBinary start left operator right)
  let operator ← takeToken
  let min := if k.isRightAssociative then k.binaryTier else k.binaryTier.next
  let right ← Grammar.parse (.binary min arrowTypes)
  return some (← buildBinary start left operator right)

/-- The operators behind `left` that bind at least as tightly as `min`. -/
def binaryRest (start : Parse.NodeStart) (min : Tier) (left : Node) (arrowTypes : Bool) :
    Parser Node :=
  loop left fun left => do
    if ← isAt .greaterThanToken then reread .greater
    let k ← token
    let tier := k.binaryTier
    if !tier.isValid || tier.looserThan min || tier == .comma then return .done left
    match ← operation? start left k arrowTypes with
    | some node => return .again node
    | none => return .done left

def binaryStep (min : Tier) (arrowTypes : Bool) : Parser Node := do
  let start ← nodeStart
  let left ← unary
  binaryRest start min left arrowTypes

/-- `yield` is an operator in a generator, and elsewhere before a word or a literal on its
line. -/
def isYield : Parser Bool := do
  if !(← isAt .yieldKeyword) then return false
  if (← context).yield then return true
  aheadNext (read fun s => !s.onNewLine && (s.token.isWord ||
    [.numericLiteral, .bigIntLiteral, .stringLiteral].contains s.token))

def yieldExpression : Parser Node := do
  let start ← nodeStart
  let _ ← expect .yieldKeyword
  let more ← (do return !(← onNewLine)) <&&> (isAt .asteriskToken <||> startsExpression)
  let star ← if more then acceptToken .asteriskToken else pure none
  let e ← optionally more (assignment true)
  build .yieldExpression start [.opt .asteriskToken star, .opt .expression e]

def assignmentWorker (arrowTypes : Bool) : Parser Node := do
  if ← isYield then
    return ← yieldExpression
  if let some arrow ← parenthesizedArrow? arrowTypes then return arrow
  if let some arrow ← simpleArrow? arrowTypes then return arrow
  Grammar.parse (.binary .assignment arrowTypes)

def assignmentStep (arrowTypes : Bool) : Parser Node :=
  nested (assignmentWorker arrowTypes) missingIdentifier

end Parser
end ScriptGrammar
