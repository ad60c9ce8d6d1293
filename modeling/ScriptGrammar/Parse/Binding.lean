import ScriptGrammar.Parse.Signature

/-!
# Bindings

Names and patterns that take a value apart, and the declarations that bind them.
-/

namespace ScriptGrammar.Parser

variable [Grammar]

def buildBindingElement (start : Parse.NodeStart) (dots property : Option Node) (name : Node) :
    Parser Node := do
  let init ← initializer
  build .bindingElement start
    [.opt .dotDotDotToken dots, .opt .propertyName property, .one .name name,
      .opt .initializer init]

/-- An element of an array pattern; a comma stands for one left out. -/
def arrayBindingElement : Parser Node := do
  let start ← nodeStart
  if ← isAt .commaToken then build .omittedExpression start []
  else
    let dots ← acceptToken .dotDotDotToken
    let name ← binding
    buildBindingElement start dots none name

def objectBindingElement : Parser Node := do
  let start ← nodeStart
  let dots ← acceptToken .dotDotDotToken
  if ← isIdentifier then
    let first ← identifier
    if ← accept .colonToken then
      let name ← binding
      buildBindingElement start dots (some first) name
    else buildBindingElement start dots none first
  else
    let property ← propertyName
    let _ ← expect .colonToken
    let name ← binding
    buildBindingElement start dots (some property) name

def bindingPattern (kind : Kind) (c : ListContext) (opening closing : Kind)
    (element : Parser Node) : Parser Node := do
  let start ← nodeStart
  let list ← bracketed c opening closing element
  checkRestComma list
  build kind start [.list .elements list.elements]

def bindingStep : Parser Node := do
  match ← token with
  | .openBracketToken =>
    bindingPattern .arrayBindingPattern .arrayBindingElements .openBracketToken
      .closeBracketToken arrayBindingElement
  | .openBraceToken =>
    bindingPattern .objectBindingPattern .objectBindingElements .openBraceToken
      .closeBraceToken objectBindingElement
  | _ => identifier

/-- One variable. An exclamation mark behind its name is taken if `exclaims`. -/
def variableDeclaration (exclaims : Bool) : Parser Node := do
  let start ← nodeStart
  let name ← binding
  let exclamation ←
    if ← read fun s => exclaims && name.kind == .identifier && s.token == .exclamationToken &&
        !s.onNewLine then
      pure (some (← takeToken))
    else pure none
  let type ← typeAfterColon
  let init ← if ← isAtAny [.inKeyword, .ofKeyword] then pure none else initializer
  build .variableDeclaration start
    [.one .name name, .opt .exclamationToken exclamation, .opt .declaredType type,
      .opt .initializer init]

/-- Takes the words that introduce variables, and tells which they were. -/
def variableKeyword : Parser (NodeFlags → NodeFlags) := do
  let k ← token
  if k == .awaitKeyword then next
  next
  match k with
  | .letKeyword => return ({ · with letKind := true })
  | .constKeyword => return ({ · with constKind := true })
  | .usingKeyword => return ({ · with usingKind := true })
  | .awaitKeyword => return ({ · with awaitUsingKind := true })
  | _ => return id

/-- A single name and a parenthesis. Moves the cursor. -/
def soleNameWalk : Parser Bool := do
  if !(← isIdentifier) then return false
  return (← nextToken) == .closeParenToken

/-- Variables joined by commas. The head of a loop may declare none: `for (let of xs)`. -/
def variableDeclarationList (inLoopHead : Bool) : Parser Node := do
  let start ← nodeStart
  let mark ← variableKeyword
  let declarations ←
    if ← isAt .ofKeyword <&&> aheadNext soleNameWalk then pure []
    else do
      let list ← inContext ({ · with disallowIn := inLoopHead })
        (delimited .variableDeclarations (variableDeclaration !inLoopHead))
      pure list.elements
  let info ← close .variableDeclarationList start
  return .ofSlots { info with flags := mark info.flags } .none [.list .declarations declarations]

def variableStatement (start : Parse.NodeStart) (mods : Option (List Node)) : Parser Node := do
  let list ← variableDeclarationList false
  semicolon
  buildModified .variableStatement start mods .none [.one .declarationList list]

end ScriptGrammar.Parser
