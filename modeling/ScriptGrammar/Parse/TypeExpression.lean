import ScriptGrammar.Parse.Signature

/-!
# Type expressions

Types climb the same tiers as values: `extends` binds loosest, then `|`, `&`, the prefix
operators, and `[]` tightest.
-/

namespace ScriptGrammar.Parser

variable [Grammar]

def typeOperand (min : Tier) : Parser Node := Grammar.parse (.typeOperand min)

/-- A type written with a keyword. With a dot behind it the keyword is a name. -/
def keywordNoDot : Parser (Option Node) := do
  let node ← takeToken
  if ← isAt .dotToken then return none
  return some node

def literalType (negative : Bool) : Parser Node := do
  let start ← nodeStart
  let node ←
    if negative then do
      let inner ← nodeStart
      next
      let operand ← literal
      buildWith .prefixUnaryExpression inner (.operator .minusToken) [.one .operand operand]
    else if ← isAtAny [.trueKeyword, .falseKeyword, .nullKeyword] then takeToken
    else literal
  build .literalType start [.one .literal node]

def typeReference : Parser Node := do
  let start ← nodeStart
  let name ← entityName true (some .typeExpected)
  let typeArgs ← typeArgumentsOnLine?
  build .typeReference start [.one .typeName name, .optList .typeArguments typeArgs]

def typeQuery : Parser Node := do
  let start ← nodeStart
  let _ ← expect .typeOfKeyword
  let name ← entityName true none
  let typeArgs ← typeArgumentsOnLine?
  build .typeQuery start [.one .exprName name, .optList .typeArguments typeArgs]

def importType : Parser Node := do
  let start ← nodeStart
  let isTypeOf ← accept .typeOfKeyword
  let _ ← expect .importKeyword
  let _ ← expect .openParenToken
  let argument ← type
  let _ ← expect .closeParenToken
  let qualifier ← after .dotToken (entityName true (some .typeExpected))
  let typeArgs ← typeArgumentsOnLine?
  buildWith .importType start (.typeOf isTypeOf)
    [.one .argument argument, .opt .qualifier qualifier, .optList .typeArguments typeArgs]

def parenthesizedType : Parser Node := do
  let start ← nodeStart
  let _ ← expect .openParenToken
  let inner ← type
  let _ ← expect .closeParenToken
  build .parenthesizedType start [.one .typeNode inner]

def templateLiteralType : Parser Node := do
  let start ← nodeStart
  let head ← templatePiece false
  let spans ← templateSpans .templateLiteralTypeSpan .typeNode false type
  build .templateLiteralType start [.one .head head, .list .spans spans]

/-- `this` as a type. -/
def thisNode : Parser Node := do
  let start ← nodeStart
  next
  return .leaf (← close .thisType start) .none

def buildPredicate (start : Parse.NodeStart) (asserts : Option Node) (name : Node)
    (type : Option Node) : Parser Node :=
  build .typePredicate start
    [.opt .assertsModifier asserts, .one .parameterName name, .opt .typeNode type]

def thisTypeOrPredicate : Parser Node := do
  let start ← nodeStart
  let this ← thisNode
  if ← read fun s => s.token == .isKeyword && !s.onNewLine then
    next
    let type ← type
    buildPredicate start none this (some type)
  else return this

def assertsPredicate : Parser Node := do
  let start ← nodeStart
  let asserts ← expectToken .assertsKeyword
  let name ← if ← isAt .thisKeyword then thisNode else identifier
  let type ← after .isKeyword type
  buildPredicate start (some asserts) name type

/-- A call or construct signature. -/
def signatureMember (start : Parse.NodeStart) (kind : Kind) : Parser Node := do
  if kind == .constructSignature then
    let _ ← expect .newKeyword
  let sig ← signature { type := true } true
  typeMemberEnd
  build kind start sig.slots

def propertyOrMethodSignature (start : Parse.NodeStart) (mods : Option (List Node)) :
    Parser Node := do
  let name ← propertyName
  let question ← acceptToken .questionToken
  if ← isAtAny [.openParenToken, .lessThanToken] then
    let sig ← signature { type := true } true
    typeMemberEnd
    buildModified .methodSignature start mods .none
      ([.one .name name, .opt .questionToken question] ++ sig.slots)
  else
    let type ← typeAfterColon
    typeMemberEnd
    buildModified .propertySignature start mods .none
      [.one .name name, .opt .questionToken question, .opt .declaredType type]

def typeMember : Parser Node := do
  let start ← nodeStart
  if ← isAtAny [.openParenToken, .lessThanToken] then
    return ← signatureMember start .callSignature
  if ← isAt .newKeyword <&&> nextIsAny [.openParenToken, .lessThanToken] then
    return ← signatureMember start .constructSignature
  let mods ← keywordModifiers
  if let some kind ← accessorKeyword then
    return ← accessor start mods kind { type := true }
  if ← isIndexSignature then
    return ← indexSignature start mods
  propertyOrMethodSignature start mods

/-- The members of an object type or an interface, in braces. -/
def typeMembers : Parser (List Node) := do
  if !(← expect .openBraceToken) then return []
  let members ← listOf .typeMembers typeMember
  let _ ← expect .closeBraceToken
  return members

def typeLiteral : Parser Node := do
  let start ← nodeStart
  let members ← typeMembers
  build .typeLiteral start [.list .members members]

/-- Behind a brace, the bracket and the `in` of a mapped type. Moves the cursor. -/
def mappedTypeWalk : Parser Bool := do
  next
  if ← isAtAny [.plusToken, .minusToken] then return (← nextToken) == .readonlyKeyword
  let _ ← accept .readonlyKeyword
  if !(← accept .openBracketToken) then return false
  if !(← isIdentifier) then return false
  return (← nextToken) == .inKeyword

/-- `word`, or a sign and `word`. The node is the first token. -/
def signed (word : Kind) : Parser (Option Node) := do
  if !(← isAtAny [word, .plusToken, .minusToken]) then return none
  let node ← takeToken
  if node.kind != word then
    let _ ← expect word
  return some node

def buildTypeParameter (start : Parse.NodeStart) (name : Node) (bound : Option Node) :
    Parser Node :=
  build .typeParameter start [.optList .modifiers none, .one .name name, .opt .constraint bound,
    .opt .defaultType none]

def mappedType : Parser Node := do
  let start ← nodeStart
  let _ ← expect .openBraceToken
  let readonlyToken ← signed .readonlyKeyword
  let _ ← expect .openBracketToken
  let inner ← nodeStart
  let name ← identifierName
  let _ ← expect .inKeyword
  let bound ← type
  let parameter ← buildTypeParameter inner name (some bound)
  let nameType ← after .asKeyword type
  let _ ← expect .closeBracketToken
  let question ← signed .questionToken
  let type ← typeAfterColon
  semicolon
  let _ ← expect .closeBraceToken
  build .mappedType start
    [.opt .readonlyToken readonlyToken, .one .typeParameter parameter, .opt .nameType nameType,
      .opt .questionToken question, .opt .typeNode type]

/-- `name:`, `name?:` or `...name:`. Moves the cursor. -/
def tupleNameWalk : Parser Bool := do
  let _ ← accept .dotDotDotToken
  if !(← isWord) then return false
  match ← nextToken with
  | .colonToken => return true
  | .questionToken => return (← nextToken) == .colonToken
  | _ => return false

def tupleElementType : Parser Node := do
  let start ← nodeStart
  if ← accept .dotDotDotToken then
    let type ← type
    build .restType start [.one .typeNode type]
  else
    let type ← type
    if ← accept .questionToken then build .optionalType start [.one .typeNode type]
    else return type

def tupleElement : Parser Node := do
  if !(← ahead tupleNameWalk) then tupleElementType
  else
    let start ← nodeStart
    let dots ← acceptToken .dotDotDotToken
    let name ← identifierName
    let question ← acceptToken .questionToken
    let _ ← expect .colonToken
    let type ← tupleElementType
    build .namedTupleMember start
      [.opt .dotDotDotToken dots, .one .name name, .opt .questionToken question,
        .one .typeNode type]

def tupleType : Parser Node := do
  let start ← nodeStart
  let list ← bracketed .tupleElementTypes .openBracketToken .closeBracketToken tupleElement
  build .tupleType start [.list .elements list.elements]

/-- Passes over the beginning of a parameter. -/
def parameterWalk : Parser Bool := do
  if ← read (·.token.isModifier) then
    let _ ← keywordModifiers
  if ← isIdentifier <||> isAt .thisKeyword then
    next
    return true
  if ← isAtAny [.openBracketToken, .openBraceToken] then
    let errors ← read (·.diagnostics.size)
    let _ ← binding
    return ← read (·.diagnostics.size == errors)
  return false

/-- Behind a parenthesis, what only a parameter list continues so. Moves the cursor. -/
def functionTypeWalk : Parser Bool := do
  next
  if ← isAtAny [.closeParenToken, .dotDotDotToken] then return true
  if !(← parameterWalk) then return false
  if ← isAtAny [.colonToken, .commaToken, .questionToken, .equalsToken] then return true
  if ← accept .closeParenToken then isAt .equalsGreaterThanToken
  else return false

def startsFunctionType : Parser Bool := do
  match ← token with
  | .lessThanToken | .newKeyword => return true
  | .openParenToken => ahead functionTypeWalk
  | .abstractKeyword => nextIs .newKeyword
  | _ => return false

def functionType : Parser Node := do
  let start ← nodeStart
  let mods ← acceptToken .abstractKeyword
  let kind : Kind := if ← accept .newKeyword then .constructorType else .functionType
  let typeParams ← typeParameters
  let params ← parameters { type := true }
  let _ ← expect .equalsGreaterThanToken
  let result ← resultType
  buildModified kind start (mods.map ([·])) .none
    [.optList .typeParameters typeParams, .list .parameters params, .one .returnType result]

def primaryType : Parser Node := do
  match ← token with
  | .anyKeyword | .unknownKeyword | .stringKeyword | .numberKeyword | .bigIntKeyword
  | .symbolKeyword | .booleanKeyword | .undefinedKeyword | .neverKeyword | .objectKeyword =>
    match ← attempt keywordNoDot with
    | some node => return node
    | none => typeReference
  | .voidKeyword => takeToken
  | .noSubstitutionTemplateLiteral | .stringLiteral | .numericLiteral | .bigIntLiteral
  | .trueKeyword | .falseKeyword | .nullKeyword => literalType false
  | .minusToken => if ← aheadNext isNumber then literalType true else typeReference
  | .thisKeyword => thisTypeOrPredicate
  | .typeOfKeyword => if ← nextIs .importKeyword then importType else typeQuery
  | .openBraceToken => if ← ahead mappedTypeWalk then mappedType else typeLiteral
  | .openBracketToken => tupleType
  | .openParenToken => parenthesizedType
  | .importKeyword => importType
  | .assertsKeyword => if ← aheadNext isWordOnLine then assertsPredicate else typeReference
  | .templateHead => templateLiteralType
  | _ => typeReference

/-- The bound of an inferred type, unless its `extends` begins a conditional type. -/
def inferBound : Parser (Option Node) := do
  if !(← accept .extendsKeyword) then return none
  let bound ← withConditionalTypes false type
  if ← read fun s => s.context.disallowConditionalTypes || s.token != .questionToken then
    return some bound
  return none

def inferType : Parser Node := do
  let start ← nodeStart
  let _ ← expect .inferKeyword
  let inner ← nodeStart
  let name ← identifier
  let bound ← attempt inferBound
  let parameter ← buildTypeParameter inner name bound
  build .inferType start [.one .typeParameter parameter]

def typeOperator : Parser Node := do
  let start ← nodeStart
  let k ← token
  match k with
  | .keyOfKeyword | .uniqueKeyword | .readonlyKeyword =>
    next
    let operand ← typeOperand .member
    buildWith .typeOperator start (.operator k) [.one .typeNode operand]
  | .inferKeyword => inferType
  | _ => withConditionalTypes true primaryType

/-- The members of a union or an intersection behind the first one. -/
def typeMembersBehind (start : Parse.NodeStart) (operator : Kind) (first : Node) :
    Parser Node := do
  let types ← loop [first] fun types => do
    if ← accept operator then
      return .again ((← typeOperand operator.typeTier.next) :: types)
    return .done types
  build (if operator == .barToken then .unionType else .intersectionType) start
    [.list .types types.reverse]

def arrayOrIndexedType (start : Parse.NodeStart) (object : Node) : Parser Node := do
  let _ ← expect .openBracketToken
  if ← startsType then
    let index ← type
    let _ ← expect .closeBracketToken
    build .indexedAccessType start [.one .objectType object, .one .indexType index]
  else
    let _ ← expect .closeBracketToken
    build .arrayType start [.one .elementType object]

/-- A conditional type. What stands behind `extends` is no conditional type itself. -/
def conditionalType (start : Parse.NodeStart) (checked : Node) : Parser Node := do
  let _ ← expect .extendsKeyword
  let bound ← withConditionalTypes false type
  let _ ← expect .questionToken
  let yes ← withConditionalTypes true type
  let _ ← expect .colonToken
  let no ← withConditionalTypes true type
  build .conditionalType start
    [.one .checkType checked, .one .extendsType bound, .one .trueType yes, .one .falseType no]

/-- The operators behind `left` that bind at least as tightly as `min`. -/
def typeRest (start : Parse.NodeStart) (min : Tier) (left : Node) : Parser Node :=
  loop left fun left => do
    let k ← token
    if !k.typeTier.isValid || k.typeTier.looserThan min then return .done left
    match k with
    | .openBracketToken =>
      if ← onNewLine then return .done left
      return .again (← arrayOrIndexedType start left)
    | .barToken | .ampersandToken => return .again (← typeMembersBehind start k left)
    | .extendsKeyword =>
      if ← read fun s => s.context.disallowConditionalTypes || s.onNewLine then
        return .done left
      return .done (← conditionalType start left)
    | _ => return .done left

/-- A leading `|` or `&` makes a union or an intersection even of one member. -/
def typeOperandStep (min : Tier) : Parser Node := do
  let start ← nodeStart
  let k ← token
  let left ←
    if (k == .barToken || k == .ampersandToken) && !k.typeTier.looserThan min then do
      next
      let first ← typeOperand k.typeTier.next
      typeMembersBehind start k first
    else typeOperator
  typeRest start min left

def typeStep : Parser Node :=
  nested
    (inFunction false false do
      if ← startsFunctionType then functionType else typeOperand .conditional)
    missingType

end ScriptGrammar.Parser
