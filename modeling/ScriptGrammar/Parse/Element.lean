import ScriptGrammar.Parse.Grammar

/-!
# Elements

Between tags the tokens are content; inside a tag they are plain, and names may hold hyphens.
The token behind a tag that closes an element is content again if the element is a child.
-/

namespace ScriptGrammar

/-- The name in a tag, by which a closing tag is matched with its opening one. -/
inductive TagName where
  | this
  | word (text : String)
  | pair (space name : String)
  | member (object : TagName) (name : String)
deriving DecidableEq

namespace Parser

variable [Grammar]

def nextContent : Parser Unit := advance .content

/-- Reads a token that a tag left behind as content. -/
def enterContent : Parser Unit := do
  if !(← isAtAny [.jsxText, .jsxTextAllWhiteSpaces, .conflictMarkerTrivia, .lessThanToken,
      .lessThanSlashToken, .openBraceToken]) then
    reread .content

/-- The `>` that closes a tag. -/
def closeAngle (inExpression : Bool) : Parser Unit := do
  if !(← isAt .greaterThanToken) then reportExpected .greaterThanToken
  else if inExpression then next
  else nextContent

def tagIdentifier : Parser Node := do
  reread .tagName
  identifierName

/-- A name, or two joined by a colon. -/
def tagWord : Parser (Node × TagName) := do
  let start ← nodeStart
  let first ← tagIdentifier
  if !(← accept .colonToken) then return (first, .word first.nameText)
  let second ← tagIdentifier
  let node ← build .jsxNamespacedName start [.one .namespaceName first, .one .name second]
  return (node, .pair first.nameText second.nameText)

/-- `this` or a name, and members of it. A name with a colon has none. -/
def tagName : Parser (Node × TagName) := do
  let start ← nodeStart
  let first ← if ← isAt .thisKeyword then pure (← takeToken, .this) else tagWord
  if first.1.kind == .jsxNamespacedName then return first
  loop first fun (node, tag) => do
    if ← accept .dotToken then
      let name ← identifierName
      let node ← build .propertyAccessExpression start
        [.one .expression node, .opt .questionDotToken none, .one .name name]
      return .again (node, .member tag name.nameText)
    return .done (node, tag)

/-- An expression in braces, which as a child may be left out or spread. -/
def elementExpression (inExpression : Bool) : Parser Node := do
  let start ← nodeStart
  let _ ← expect .openBraceToken
  let (dots, e) ←
    if ← isAt .closeBraceToken then pure (none, none)
    else do
      let dots ← if inExpression then pure none else acceptToken .dotDotDotToken
      pure (dots, some (← expression))
  if ← read fun s => inExpression || s.token != .closeBraceToken then
    let _ ← expect .closeBraceToken
  else nextContent
  build .jsxExpression start [.opt .dotDotDotToken dots, .opt .expression e]

/-- The value behind the equals sign at the cursor. -/
def attributeValue : Parser (Option Node) := do
  advance .attributeValue
  match ← token with
  | .stringLiteral => return some (← literal)
  | .openBraceToken => return some (← elementExpression true)
  | .lessThanToken => return some (← Grammar.parse (.element true))
  | _ =>
    reportExpected .openBraceToken
    return none

def tagAttribute : Parser Node := do
  let start ← nodeStart
  if ← accept .openBraceToken then
    let _ ← expect .dotDotDotToken
    let e ← expression
    let _ ← expect .closeBraceToken
    build .jsxSpreadAttribute start [.one .expression e]
  else
    let (name, _) ← tagWord
    let init ← if ← isAt .equalsToken then attributeValue else pure none
    build .jsxAttribute start [.one .name name, .opt .initializer init]

def tagAttributes : Parser Node := do
  let start ← nodeStart
  let properties ← listOf .jsxAttributes tagAttribute
  build .jsxAttributes start [.list .properties properties]

/-- An opening tag, and its name if it has one. -/
structure Opening where
  node : Node
  /-- The name as a node and as it is matched; a fragment has none. -/
  name : Option (Node × TagName)

def openingTag (inExpression : Bool) : Parser Opening := do
  let start ← nodeStart
  let _ ← expect .lessThanToken
  if ← isAt .greaterThanToken then
    nextContent
    return ⟨← build .jsxOpeningFragment start [], none⟩
  let (name, tag) ← tagName
  let typeArgs ← typeArguments?
  let attributes ← tagAttributes
  let slots := [.one .tagName name, .optList .typeArguments typeArgs, .one .attributes attributes]
  if ← isAt .greaterThanToken then
    nextContent
    return ⟨← build .jsxOpeningElement start slots, some (name, tag)⟩
  let _ ← expect .slashToken
  closeAngle inExpression
  return ⟨← build .jsxSelfClosingElement start slots, some (name, tag)⟩

/-- The source text of a node. -/
def textOf (node : Node) : Parser String :=
  read fun s => s.scanner.source.slice node.range.pos node.range.stop

def closingTag (name : Node) (tag : TagName) (inExpression : Bool) : Parser Node := do
  if ← isAt .endOfFileToken then
    let info ← closeMissing .jsxClosingElement
    let missing ← missingIdentifier
    return .ofSlots info .none [.one .tagName missing]
  let start ← nodeStart
  let _ ← expect .lessThanSlashToken
  let (closing, closingTag) ← tagName
  if closingTag != tag then report closing.range .closingTagMismatch [← textOf name]
  closeAngle inExpression
  build .jsxClosingElement start [.one .tagName closing]

def closingFragment (inExpression : Bool) : Parser Node := do
  if ← isAt .endOfFileToken then
    return .leaf (← closeMissing .jsxClosingFragment) .none
  let start ← nodeStart
  let _ ← expect .lessThanSlashToken
  closeAngle inExpression
  build .jsxClosingFragment start []

def contentText : Parser Node := do
  let start ← nodeStart
  let blank ← isAt .jsxTextAllWhiteSpaces
  let text ← read (·.scanner.value)
  nextContent
  return .leaf (← close .jsxText start) (.content text blank)

def child : Parser Node := do
  enterContent
  match ← token with
  | .openBraceToken => elementExpression false
  | .lessThanToken => Grammar.parse (.element false)
  | _ => contentText

/-- What stands up to the closing tag. An element left open is reported at its name. -/
def childList (name : Option Node) : Parser (List Node) := do
  let children ← listOf .jsxChildren child
  if ← isAt .endOfFileToken then
    match name with
    | some name => report name.range .elementNotClosed [← textOf name]
    | none => reportExpected .lessThanSlashToken
  return children

/-- An element, with or without content, or a fragment. -/
def elementStep (inExpression : Bool) : Parser Node := do
  let start ← nodeStart
  let opening ← openingTag inExpression
  match opening.name with
  | none =>
    let children ← childList none
    let closing ← closingFragment inExpression
    build .jsxFragment start
      [.one .openingFragment opening.node, .list .children children,
        .one .closingFragment closing]
  | some (name, tag) =>
    if opening.node.kind == .jsxSelfClosingElement then return opening.node
    let children ← childList (some name)
    let closing ← closingTag name tag inExpression
    build .jsxElement start
      [.one .openingElement opening.node, .list .children children,
        .one .closingElement closing]

end Parser
end ScriptGrammar
