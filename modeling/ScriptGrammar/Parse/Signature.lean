import ScriptGrammar.Parse.Modifier

/-!
# Signatures and bodies

Type parameters, parameters, result types and function bodies, property names, and the members
that object literals, classes and interfaces share.
-/

namespace ScriptGrammar.Parser

variable [Grammar]

/-- Statements in braces. If `opening` finds no brace, the block is empty. -/
def blockAfter (kind : Kind) (opening : Parser Bool) : Parser Node := do
  let start ← nodeStart
  let statements ←
    if ← opening then do
      let statements ← listOf .blockStatements statement
      let _ ← expect .closeBraceToken
      pure statements
    else pure []
  build kind start [.list .statements statements]

def block : Parser Node := blockAfter .block (expect .openBraceToken)

/-- A brace, or else the report that a body or a semicolon is missing. -/
def expectBody : Parser Bool := do
  if ← accept .openBraceToken then return true
  reportHere .braceOrSemicolonExpected []
  return false

def functionBlock (flags : SignatureFlags) (opening : Parser Bool) : Parser Node :=
  inContext ({ · with yield := flags.yield, await := flags.await, decorator := false })
    (blockAfter .block opening)

/-- Members of a type may end with a comma. -/
def typeMemberEnd : Parser Unit := do
  if ← accept .commaToken then return
  semicolon

/-- A body, or a semicolon in its place. -/
def functionBody (flags : SignatureFlags) : Parser (Option Node) := do
  if !(← isAt .openBraceToken) then
    if flags.type then
      typeMemberEnd
      return none
    if ← canEndStatement then
      semicolon
      return none
  return some (← functionBlock flags expectBody)

def typeParameter : Parser Node := do
  let start ← nodeStart
  let mods ← modifiers { constAllowed := true }
  let name ← identifier
  let bound ← after .extendsKeyword type
  let default ← after .equalsToken type
  buildModified .typeParameter start mods .none
    [.one .name name, .opt .constraint bound, .opt .defaultType default]

def typeParameters : Parser (Option (List Node)) := do
  if !(← isAt .lessThanToken) then return none
  return some
    (← bracketed .typeParameters .lessThanToken .greaterThanToken typeParameter).elements

def parameterSlots (dots : Option Node) (name : Node) (question type init : Option Node) :
    List Slot :=
  [.opt .dotDotDotToken dots, .one .name name, .opt .questionToken question,
    .opt .declaredType type, .opt .initializer init]

def parameter : Parser Node := do
  let start ← nodeStart
  let mods ← modifiers { decorators := true }
  if ← isAt .thisKeyword then
    let name ← identifierIf true none
    let type ← typeAfterColon
    -- A `this` parameter does not carry its modifiers' flags.
    build .parameter start (.optList .modifiers mods :: parameterSlots none name none type none)
  else
    let dots ← acceptToken .dotDotDotToken
    let name ← binding
    -- A modifier with no name behind it is skipped.
    if name.kind == .identifier && name.isMissing && mods.isNone then
      if ← read (·.token.isModifier) then next
    let question ← acceptToken .questionToken
    let type ← typeAfterColon
    let init ← initializer
    buildModified .parameter start mods .none (parameterSlots dots name question type init)

def parameters (flags : SignatureFlags) : Parser (List Node) := do
  if !(← expect .openParenToken) then return []
  let list ← inFunction flags.yield flags.await (delimited .parameters parameter)
  checkRestComma list
  let _ ← expect .closeParenToken
  return list.elements

/-- A name and `is`, on one line. -/
def predicateName : Parser (Option Node) := do
  let name ← identifier
  if ← read fun s => s.token == .isKeyword && !s.onNewLine then
    next
    return some name
  return none

/-- A type, or a predicate on a parameter. -/
def typeOrPredicate : Parser Node := do
  let start ← nodeStart
  let name ← if ← isIdentifier then attempt predicateName else pure none
  let type ← type
  match name with
  | some name =>
    build .typePredicate start
      [.opt .assertsModifier none, .one .parameterName name, .opt .typeNode (some type)]
  | none => return type

def resultType : Parser Node := withConditionalTypes true typeOrPredicate

/-- A result type after a colon. In a type an arrow is taken for the colon, with an error. -/
def returnType (inType : Bool) : Parser (Option Node) := do
  if ← accept .colonToken then return some (← resultType)
  if ← pure inType <&&> isAt .equalsGreaterThanToken then
    reportExpected .colonToken
    next
    return some (← resultType)
  return none

/-- Type parameters, parameters and result. -/
structure Signature where
  typeParameters : Option (List Node)
  parameters : List Node
  result : Option Node

def signature (flags : SignatureFlags) (inType : Bool) : Parser Signature := do
  let typeParams ← typeParameters
  let params ← parameters flags
  return ⟨typeParams, params, ← returnType inType⟩

def Signature.slots (s : Signature) : List Slot :=
  [.optList .typeParameters s.typeParameters, .list .parameters s.parameters,
    .opt .returnType s.result]

/-- The flags a star and modifiers give. -/
def flagsOf (star : Option Node) (mods : Option (List Node)) : SignatureFlags :=
  { yield := star.isSome, await := (modifierFlags mods).contains .async }

def computedPropertyName : Parser Node := do
  let start ← nodeStart
  let _ ← expect .openBracketToken
  let e ← expressionWithIn
  let _ ← expect .closeBracketToken
  build .computedPropertyName start [.one .expression e]

def propertyName : Parser Node := do
  match ← token with
  | .stringLiteral | .numericLiteral | .bigIntLiteral => literal
  | .openBracketToken => computedPropertyName
  | .privateIdentifier => privateIdentifier
  | _ => identifierName

/-- `get` or `set` before a member name, and which accessor it makes. -/
def accessorKeyword : Parser (Option Kind) := do
  let k ← token
  let kind : Option Kind := match k with
    | .getKeyword => some .getAccessor
    | .setKeyword => some .setAccessor
    | _ => none
  if kind.isNone then return none
  if ← attemptIf (do next; read (·.token.followsModifier)) then return kind
  return none

def accessor (start : Parse.NodeStart) (mods : Option (List Node)) (kind : Kind)
    (flags : SignatureFlags) : Parser Node := do
  let name ← propertyName
  let sig ← signature {} false
  let body ← functionBody flags
  buildModified kind start mods .none (.one .name name :: sig.slots ++ [.opt .body body])

def methodMember (start : Parse.NodeStart) (mods : Option (List Node)) (star : Option Node)
    (name : Node) (question : Option Node) : Parser Node := do
  let flags := flagsOf star mods
  let sig ← signature flags false
  let body ← functionBody flags
  buildModified .methodDeclaration start mods .none
    ([.opt .asteriskToken star, .one .name name, .opt .questionToken question] ++ sig.slots ++
      [.opt .body body])

/-- Behind an opening bracket, what reads as a parameter. Moves the cursor. -/
def indexSignatureWalk : Parser Bool := do
  next
  if ← isAtAny [.dotDotDotToken, .closeBracketToken] then return true
  if ← read (·.token.isModifier) then
    next
    if ← isIdentifier then return true
  else if !(← isIdentifier) then return false
  else next
  if ← isAtAny [.colonToken, .commaToken] then return true
  if !(← isAt .questionToken) then return false
  next
  isAtAny [.colonToken, .commaToken, .closeBracketToken]

def isIndexSignature : Parser Bool := isAt .openBracketToken <&&> ahead indexSignatureWalk

def indexSignature (start : Parse.NodeStart) (mods : Option (List Node)) : Parser Node := do
  let list ← bracketed .parameters .openBracketToken .closeBracketToken parameter
  let type ← typeAfterColon
  typeMemberEnd
  buildModified .indexSignature start mods .none
    [.list .parameters list.elements, .opt .declaredType type]

end ScriptGrammar.Parser
