import ScriptGrammar.Parse.TypeExpression

/-!
# Functions, classes and named types

Functions as declarations and as expressions, classes with their members, interfaces, type
aliases and enumerations.
-/

namespace ScriptGrammar.Parser

variable [Grammar]

def buildFunction (kind : Kind) (start : Parse.NodeStart) (mods : Option (List Node))
    (star name : Option Node) (sig : Signature) (body : Option Node) : Parser Node :=
  buildModified kind start mods .none
    ([.opt .asteriskToken star, .opt .name name] ++ sig.slots ++ [.opt .body body])

/-- A declared function. Only a default export may be without a name. -/
def functionDeclaration (start : Parse.NodeStart) (mods : Option (List Node)) :
    Parser Node := do
  let _ ← expect .functionKeyword
  let star ← acceptToken .asteriskToken
  let named ← pure !((modifierFlags mods).contains .default) <||> isIdentifier
  let name ← optionally named identifier
  let flags := flagsOf star mods
  let sig ← signature flags false
  let body ← functionBody flags
  buildFunction .functionDeclaration start mods star name sig body

def functionExpression : Parser Node := do
  let start ← nodeStart
  let mods ← inContext ({ · with decorator := false }) keywordModifiers
  let _ ← expect .functionKeyword
  let star ← acceptToken .asteriskToken
  let flags := flagsOf star mods
  let name ← inFunction flags.yield flags.await do optionally (← isIdentifier) identifier
  let sig ← signature flags false
  let body ← functionBlock flags (expect .openBraceToken)
  buildFunction .functionExpression start mods star name sig (some body)

def expressionWithTypeArguments : Parser Node := do
  let start ← nodeStart
  let e ← leftHandSide
  let typeArgs ← typeArguments?
  build .expressionWithTypeArguments start
    [.one .expression e, .optList .typeArguments typeArgs]

def heritageClause : Parser Node := do
  let start ← nodeStart
  let k ← token
  next
  let list ← delimited .heritageClauseElement expressionWithTypeArguments
  buildWith .heritageClause start (.introducer k) [.list .types list.elements]

def heritageClauses : Parser (List Node) := do
  if ← read (·.atHeritage) then listOf .heritageClauses heritageClause else return []

/-- A property. The mark behind its name is `question` or an exclamation mark. -/
def propertyDeclaration (start : Parse.NodeStart) (mods : Option (List Node)) (name : Node)
    (question : Option Node) : Parser Node := do
  let mark ←
    if ← read fun s => question.isSome || s.onNewLine then pure question
    else acceptToken .exclamationToken
  let type ← typeAfterColon
  let init ←
    inContext ({ · with yield := false, await := false, disallowIn := false }) initializer
  semicolon
  buildModified .propertyDeclaration start mods .none
    [.one .name name, .opt .postfixToken mark, .opt .declaredType type, .opt .initializer init]

def propertyOrMethod (start : Parse.NodeStart) (mods : Option (List Node)) : Parser Node := do
  let star ← acceptToken .asteriskToken
  let name ← propertyName
  let question ← acceptToken .questionToken
  if ← pure star.isSome <||> isAtAny [.openParenToken, .lessThanToken] then
    methodMember start mods star name question
  else propertyDeclaration start mods name question

def staticBlock (start : Parse.NodeStart) : Parser Node := do
  let _ ← expect .staticKeyword
  let body ← inFunction false true block
  build .classStaticBlockDeclaration start [.one .body body]

def isConstructorName : Parser Bool := do
  match ← token with
  | .constructorKeyword => nextIsAny [.openParenToken, .lessThanToken]
  | .stringLiteral =>
    read (·.scanner.value == "constructor") <&&> nextIs .openParenToken
  | _ => return false

/-- A constructor. Type parameters are read and dropped. -/
def constructorMember (start : Parse.NodeStart) (mods : Option (List Node)) : Parser Node := do
  next
  let sig ← signature {} false
  let body ← functionBody {}
  buildModified .constructor start mods .none
    [.list .parameters sig.parameters, .opt .returnType sig.result, .opt .body body]

/-- The current token begins the name of a property or method, or its star. -/
def startsMemberName : Parser Bool := read fun s =>
  s.token.isWord || [.stringLiteral, .numericLiteral, .bigIntLiteral, .privateIdentifier,
    .asteriskToken, .openBracketToken].contains s.token

def classMember : Parser Node := do
  let start ← nodeStart
  if ← accept .semicolonToken then
    return ← build .semicolonClassElement start []
  let mods ← modifiers { decorators := true, constAllowed := true, staticBlocks := true }
  if ← isAt .staticKeyword <&&> nextIs .openBraceToken then
    return ← staticBlock start
  if let some kind ← accessorKeyword then
    return ← accessor start mods kind {}
  if ← isConstructorName then
    return ← constructorMember start mods
  if ← isIndexSignature then
    return ← indexSignature start mods
  if ← startsMemberName then
    return ← propertyOrMethod start mods
  -- Modifiers with no member behind them make a property without a name.
  reportHere .declarationExpected []
  let name ← missingIdentifier
  propertyDeclaration start mods name none

/-- `implements` begins a clause and is not the name of the class. -/
def isImplementsClause : Parser Bool := isAt .implementsKeyword <&&> aheadNext isWord

def classLike (kind : Kind) (start : Parse.NodeStart) (mods : Option (List Node)) :
    Parser Node := do
  let _ ← expect .classKeyword
  let named ← isIdentifier <&&> (do return !(← isImplementsClause))
  let name ← optionally named identifier
  let typeParams ← typeParameters
  let heritage ← heritageClauses
  let members ←
    if ← expect .openBraceToken then do
      let members ← listOf .classMembers classMember
      let _ ← expect .closeBraceToken
      pure members
    else pure []
  buildModified kind start mods .none
    [.opt .name name, .optList .typeParameters typeParams, .list .heritageClauses heritage,
      .list .members members]

def classExpression : Parser Node := do
  let start ← nodeStart
  classLike .classExpression start none

def interfaceDeclaration (start : Parse.NodeStart) (mods : Option (List Node)) :
    Parser Node := do
  let _ ← expect .interfaceKeyword
  let name ← identifier
  let typeParams ← typeParameters
  let heritage ← heritageClauses
  let members ← typeMembers
  buildModified .interfaceDeclaration start mods .none
    [.one .name name, .optList .typeParameters typeParams, .list .heritageClauses heritage,
      .list .members members]

def typeAliasDeclaration (start : Parse.NodeStart) (mods : Option (List Node)) :
    Parser Node := do
  let _ ← expect .typeKeyword
  let name ← identifier
  let typeParams ← typeParameters
  let _ ← expect .equalsToken
  let type ← type
  semicolon
  buildModified .typeAliasDeclaration start mods .none
    [.one .name name, .optList .typeParameters typeParams, .one .typeNode type]

def enumMember : Parser Node := do
  let start ← nodeStart
  let name ← propertyName
  let init ← allowingIn initializer
  build .enumMember start [.one .name name, .opt .initializer init]

def enumDeclaration (start : Parse.NodeStart) (mods : Option (List Node)) : Parser Node := do
  let _ ← expect .enumKeyword
  let name ← identifier
  let members ←
    if ← expect .openBraceToken then do
      let list ← inFunction false false (delimited .enumMembers enumMember)
      let _ ← expect .closeBraceToken
      pure list.elements
    else pure []
  buildModified .enumDeclaration start mods .none [.one .name name, .list .members members]

end ScriptGrammar.Parser
