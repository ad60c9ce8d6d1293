import ScriptGrammar.Parse.Binding
import ScriptGrammar.Parse.Class

/-!
# Namespaces, imports and exports

And the choice among all declarations, once their modifiers are read.
-/

namespace ScriptGrammar.Parser

variable [Grammar]

def moduleBlock : Parser Node := blockAfter .moduleBlock (expect .openBraceToken)

def buildModule (start : Parse.NodeStart) (mods : Option (List Node))
    (mark : NodeFlags → NodeFlags) (name : Node) (body : Option Node) : Parser Node := do
  let info ← close .moduleDeclaration start
  return .ofSlots { info with flags := mark info.flags, modifiers := modifierFlags mods } .none
    [.optList .modifiers mods, .one .name name, .opt .body body]

/-- What stands behind a namespace's name: a dot and a nested namespace, or the block. -/
def namespaceBody (named : Bool) : Parser Node := do
  if ← accept .dotToken then Grammar.parse (.namespaceTail named) else moduleBlock

/-- A nested namespace, from its name on. `named` tells that the word was `namespace`. -/
def namespaceTailStep (named : Bool) : Parser Node := do
  let start ← nodeStart
  let name ← identifierName
  let body ← namespaceBody named
  buildModule start none ({ · with nestedNamespace := true, namespaceForm := named }) name
    (some body)

/-- A module under a quoted name, or the global scope. -/
def ambientModule (start : Parse.NodeStart) (mods : Option (List Node)) : Parser Node := do
  let isGlobal ← isAt .globalKeyword
  let name ← if isGlobal then identifier else literal
  let body ←
    if ← isAt .openBraceToken then pure (some (← moduleBlock))
    else do
      semicolon
      pure none
  buildModule start mods ({ · with globalAugmentation := isGlobal }) name body

def moduleDeclaration (start : Parse.NodeStart) (mods : Option (List Node)) : Parser Node := do
  if ← isAt .globalKeyword then
    return ← ambientModule start mods
  let named ← accept .namespaceKeyword
  if !named then
    let _ ← expect .moduleKeyword
    if ← isAt .stringLiteral then
      return ← ambientModule start mods
  let name ← identifier
  let body ← namespaceBody named
  buildModule start mods ({ · with namespaceForm := named }) name (some body)

def moduleExportName : Parser Node := do
  if ← isAt .stringLiteral then literal else identifierName

def moduleSpecifier : Parser Node := do
  if ← isAt .stringLiteral then literal else expression

def importAttribute : Parser Node := do
  let start ← nodeStart
  let name ← moduleExportName
  let _ ← expect .colonToken
  let value ← assignment true
  build .importAttribute start [.one .name name, .one .value value]

def importAttributes : Parser (Option Node) := do
  let k ← token
  if !(k == .withKeyword || k == .assertKeyword) || (← onNewLine) then return none
  let start ← nodeStart
  next
  let list ←
    bracketed .importAttributes .openBraceToken .closeBraceToken importAttribute
  return some
    (← buildWith .importAttributes start (.introducer k) [.list .elements list.elements])

/-- The range of the current token if it is a reserved word. -/
def reservedHere : Parser (Option Range) := read fun s =>
  if s.token.isKeywordToken && !s.atIdentifier then some s.tokenRange else none

/-- What has been read of a specifier. -/
structure Specifier where
  typeOnly : Bool := false
  property : Option Node := none
  name : Node
  /-- Where `name` stands, if it is a reserved word. -/
  reserved : Option Range
  /-- Another name may follow behind `as`. -/
  renames : Bool := true

def specifierName : Parser Specifier := do
  let reserved ← reservedHere
  return { name := ← moduleExportName, reserved }

/-- Behind the word `type`: it marks the specifier unless it is itself the name, which only the
words behind it tell. -/
def afterTypeWord (s : Specifier) : Parser Specifier := do
  if ← isAt .asKeyword then
    let firstAs ← identifierName
    if ← isAt .asKeyword then
      let secondAs ← identifierName
      if ← isWord then
        let t ← specifierName
        return { t with typeOnly := true, property := some firstAs, renames := false }
      return { s with property := some s.name, name := secondAs, renames := false }
    if ← isWord then
      let t ← specifierName
      return { t with property := some s.name, renames := false }
    return { s with typeOnly := true, name := firstAs }
  if ← isWord <||> isAt .stringLiteral then
    let t ← specifierName
    return { t with typeOnly := true }
  return s

/-- One name in the braces of an import or export. An import binds its name, so that must not be
a reserved word. -/
def specifier (kind : Kind) : Parser Node := do
  let start ← nodeStart
  let s ← specifierName
  let s ← if s.name.nameText == "type" then afterTypeWord s else pure s
  let s ←
    if ← pure s.renames <&&> accept .asKeyword then do
      let t ← specifierName
      pure { t with typeOnly := s.typeOnly, property := some s.name }
    else pure s
  if kind == .importSpecifier then
    if let some range := s.reserved then report range .identifierExpected []
  buildWith kind start (.typeOnly s.typeOnly) [.opt .propertyName s.property, .one .name s.name]

def namedSpecifiers (kind elementKind : Kind) : Parser Node := do
  let start ← nodeStart
  let list ← bracketed .importOrExportSpecifiers .openBraceToken .closeBraceToken
    (specifier elementKind)
  build kind start [.list .elements list.elements]

def namespaceImport : Parser Node := do
  let start ← nodeStart
  let _ ← expect .asteriskToken
  let _ ← expect .asKeyword
  let name ← identifier
  build .namespaceImport start [.one .name name]

def importClause (start : Parse.NodeStart) (name : Option Node) (typeOnly : Bool) :
    Parser Node := do
  let bindings ←
    if ← pure name.isNone <||> accept .commaToken then do
      let node ←
        if ← isAt .asteriskToken then namespaceImport
        else namedSpecifiers .namedImports .importSpecifier
      pure (some node)
    else pure none
  buildWith .importClause start (.typeOnly typeOnly)
    [.opt .name name, .opt .namedBindings bindings]

def moduleReference : Parser Node := do
  if ← isAt .requireKeyword <&&> nextIs .openParenToken then
    let start ← nodeStart
    let _ ← expect .requireKeyword
    let _ ← expect .openParenToken
    let e ← moduleSpecifier
    let _ ← expect .closeParenToken
    build .externalModuleReference start [.one .expression e]
  else entityName false none

def importEquals (start : Parse.NodeStart) (mods : Option (List Node)) (name : Node)
    (typeOnly : Bool) : Parser Node := do
  let _ ← expect .equalsToken
  let reference ← moduleReference
  semicolon
  buildModified .importEqualsDeclaration start mods (.typeOnly typeOnly)
    [.one .name name, .one .moduleReference reference]

/-- Behind `import type`: the word marks the import and is not what it binds. -/
def typeMarksImport : Parser Bool := do
  let marks ← (do return !(← isAt .fromKeyword)) <||>
    (isIdentifier <&&> nextIsAny [.fromKeyword, .equalsToken])
  if !marks then return false
  isIdentifier <||> isAtAny [.asteriskToken, .openBraceToken]

def importDeclaration (start : Parse.NodeStart) (mods : Option (List Node)) : Parser Node := do
  let _ ← expect .importKeyword
  let clauseStart ← nodeStart
  let first ← optionally (← isIdentifier) identifier
  let typeOnly ← pure (first.any (·.nameText == "type")) <&&> typeMarksImport
  let name ← if typeOnly then optionally (← isIdentifier) identifier else pure first
  if let some name := name then
    if !(← isAtAny [.commaToken, .fromKeyword]) then
      return ← importEquals start mods name typeOnly
  let clause ←
    if ← pure name.isSome <||> isAtAny [.asteriskToken, .openBraceToken] then do
      let clause ← importClause clauseStart name typeOnly
      let _ ← expect .fromKeyword
      pure (some clause)
    else pure none
  let source ← moduleSpecifier
  let attributes ← importAttributes
  semicolon
  buildModified .importDeclaration start mods .none
    [.opt .importClause clause, .one .moduleSpecifier source, .opt .attributes attributes]

def exportAssignment (start : Parse.NodeStart) (mods : Option (List Node)) : Parser Node := do
  let isEquals ← accept .equalsToken
  if !isEquals then
    let _ ← expect .defaultKeyword
  let e ← inContext ({ · with await := true }) (assignment true)
  semicolon
  buildModified .exportAssignment start mods (.exportEquals isEquals) [.one .expression e]

def namespaceExport (start : Parse.NodeStart) : Parser Node := do
  let _ ← expect .asKeyword
  let _ ← expect .namespaceKeyword
  let name ← identifier
  semicolon
  build .namespaceExportDeclaration start [.one .name name]

/-- What is exported, and from where. -/
def exportClause : Parser (Option Node × Option Node) := do
  let start ← nodeStart
  if ← accept .asteriskToken then
    let clause ←
      if ← accept .asKeyword then do
        let name ← moduleExportName
        pure (some (← build .namespaceExport start [.one .name name]))
      else pure none
    let _ ← expect .fromKeyword
    return (clause, some (← moduleSpecifier))
  let clause ← namedSpecifiers .namedExports .exportSpecifier
  if ← read fun s => s.token == .fromKeyword || (s.token == .stringLiteral && !s.onNewLine) then
    let _ ← expect .fromKeyword
    return (some clause, some (← moduleSpecifier))
  return (some clause, none)

def exportDeclaration (start : Parse.NodeStart) (mods : Option (List Node)) : Parser Node :=
  inContext ({ · with await := true }) do
    let typeOnly ← accept .typeKeyword
    let (clause, source) ← exportClause
    let attributes ← if source.isSome then importAttributes else pure none
    semicolon
    buildModified .exportDeclaration start mods (.typeOnly typeOnly)
      [.opt .exportClause clause, .opt .moduleSpecifier source, .opt .attributes attributes]

def missingDeclaration (start : Parse.NodeStart) (mods : Option (List Node)) : Parser Node := do
  reportHere .declarationExpected []
  buildModified .missingDeclaration start mods .none []

/-- The declaration that the current token begins. -/
def declarationAfter (start : Parse.NodeStart) (mods : Option (List Node)) : Parser Node := do
  match ← token with
  | .varKeyword | .letKeyword | .constKeyword | .usingKeyword | .awaitKeyword =>
    variableStatement start mods
  | .functionKeyword => functionDeclaration start mods
  | .classKeyword => classLike .classDeclaration start mods
  | .interfaceKeyword => interfaceDeclaration start mods
  | .typeKeyword => typeAliasDeclaration start mods
  | .enumKeyword => enumDeclaration start mods
  | .globalKeyword | .moduleKeyword | .namespaceKeyword => moduleDeclaration start mods
  | .importKeyword => importDeclaration start mods
  | .exportKeyword =>
    match ← nextToken with
    | .defaultKeyword | .equalsToken => exportAssignment start mods
    | .asKeyword => namespaceExport start
    | _ => exportDeclaration start mods
  | _ => missingDeclaration start mods

/-- Decorators and modifiers, and the declaration they apply to. -/
def declaration : Parser Node := do
  let start ← nodeStart
  let mods ← modifiers { decorators := true }
  declarationAfter start mods

end ScriptGrammar.Parser
