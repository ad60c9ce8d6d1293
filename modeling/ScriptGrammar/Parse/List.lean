import ScriptGrammar.Parse.Start

/-!
# Lists

Every repeated construct is read by one of two loops. The lists that are open decide how an
unexpected token is met: one of them may use it, and then the inner list ends; else it is
skipped.
-/

namespace ScriptGrammar

namespace ListContext

def all : List ListContext := [.sourceElements, .blockStatements, .switchClauses,
  .switchClauseStatements, .typeMembers, .classMembers, .enumMembers, .heritageClauseElement,
  .variableDeclarations, .objectBindingElements, .arrayBindingElements, .argumentExpressions,
  .objectLiteralMembers, .jsxAttributes, .jsxChildren, .arrayLiteralMembers, .parameters,
  .typeParameters, .typeArguments, .tupleElementTypes, .heritageClauses,
  .importOrExportSpecifiers, .importAttributes]

/-- What is said of a token that can neither continue nor end the list. -/
def complaint : ListContext → Message
  | .sourceElements | .blockStatements => .declarationOrStatementExpected
  | .switchClauseStatements => .statementExpected
  | .switchClauses => .caseOrDefaultExpected
  | .typeMembers => .propertyOrSignatureExpected
  | .classMembers => .classMemberExpected
  | .enumMembers => .enumMemberExpected
  | .heritageClauseElement => .expressionExpected
  | .variableDeclarations => .variableDeclarationExpected
  | .objectBindingElements => .propertyPatternExpected
  | .arrayBindingElements => .elementPatternExpected
  | .argumentExpressions => .argumentExpressionExpected
  | .objectLiteralMembers => .propertyAssignmentExpected
  | .arrayLiteralMembers => .expressionOrCommaExpected
  | .parameters => .parameterDeclarationExpected
  | .typeParameters => .typeParameterDeclarationExpected
  | .typeArguments => .typeArgumentExpected
  | .tupleElementTypes => .typeExpected
  | .heritageClauses => .unexpectedToken
  | .jsxAttributes | .jsxChildren | .importOrExportSpecifiers | .importAttributes =>
    .identifierExpected

def allowsTrailingComma (c : ListContext) : Bool :=
  c != .typeArguments && c != .variableDeclarations && c != .heritageClauseElement

end ListContext

/-- The current token ends a list. -/
def Parse.State.endsList (s : Parse.State) (c : ListContext) : Bool :=
  let k := s.token
  k == .endOfFileToken ||
  match c with
  | .blockStatements | .switchClauses | .typeMembers | .classMembers | .enumMembers
  | .objectLiteralMembers | .objectBindingElements | .importOrExportSpecifiers
  | .importAttributes => k == .closeBraceToken
  | .switchClauseStatements => [.closeBraceToken, .caseKeyword, .defaultKeyword].contains k
  | .heritageClauseElement => [.openBraceToken, .extendsKeyword, .implementsKeyword].contains k
  | .variableDeclarations =>
    s.atSemicolon || [.inKeyword, .ofKeyword, .equalsGreaterThanToken].contains k
  | .typeParameters =>
    [.greaterThanToken, .openParenToken, .openBraceToken, .extendsKeyword,
      .implementsKeyword].contains k
  | .argumentExpressions => [.closeParenToken, .semicolonToken].contains k
  | .arrayLiteralMembers | .tupleElementTypes | .arrayBindingElements => k == .closeBracketToken
  | .parameters => [.closeParenToken, .closeBracketToken].contains k
  | .typeArguments => k != .commaToken
  | .heritageClauses => [.openBraceToken, .closeBraceToken].contains k
  | .jsxAttributes => [.greaterThanToken, .slashToken].contains k
  | .jsxChildren => k == .lessThanSlashToken
  | .sourceElements => false

namespace Parser

/-- An element of the list may begin here; with more care after an error. -/
def startsElement (c : ListContext) (recovering : Bool) : Parser Bool := do
  let k ← token
  match c with
  | .sourceElements | .blockStatements | .switchClauseStatements =>
    if k == .semicolonToken && recovering then return false else startsStatement
  | .switchClauses => return k == .caseKeyword || k == .defaultKeyword
  | .typeMembers => ahead typeMemberWalk
  | .classMembers =>
    ahead classMemberWalk <||> pure (k == .semicolonToken && !recovering)
  | .enumMembers => read fun s => k == .openBracketToken || s.atLiteralPropertyName
  | .objectLiteralMembers =>
    match k with
    | .openBracketToken | .asteriskToken | .dotDotDotToken => return true
    | .dotToken => return recovering
    | _ => read (·.atLiteralPropertyName)
  | .objectBindingElements =>
    read fun s => [.openBracketToken, .dotDotDotToken].contains k || s.atLiteralPropertyName
  | .heritageClauseElement =>
    if ← read (·.atHeritage) then return false
    else if recovering then isIdentifier
    else startsLeftHandSide
  | .variableDeclarations => read (·.atBinding)
  | .arrayBindingElements =>
    read fun s => [.commaToken, .dotDotDotToken].contains k || s.atBinding
  | .typeParameters => read fun s => [.inKeyword, .constKeyword].contains k || s.atIdentifier
  | .arrayLiteralMembers =>
    if [.commaToken, .dotToken, .dotDotDotToken].contains k then return true else startsExpression
  | .argumentExpressions =>
    if k == .dotDotDotToken then return true else startsExpression
  | .parameters => startsParameter
  | .typeArguments | .tupleElementTypes =>
    if k == .commaToken then return true else startsType
  | .heritageClauses => read (·.atHeritage)
  | .importOrExportSpecifiers =>
    if ← pure (k == .fromKeyword) <&&> nextIs .stringLiteral then return false
    else return k == .stringLiteral || k.isWord
  | .jsxAttributes => return k.isWord || k == .openBraceToken
  | .jsxChildren => return true
  | .importAttributes => return k == .stringLiteral || k.isWord

/-- Some open list can use the current token. -/
def wantedBy : List ListContext → Parser Bool
  | [] => return false
  | c :: cs => do
    if ← read (·.lists.contains c) then
      if ← startsElement c true <||> read (·.endsList c) then return true
    wantedBy cs

/-- Reports an unexpected token. Ends the list if an open one wants the token, else skips it. -/
def complain (c : ListContext) : Parser Bool := do
  reportHere c.complaint []
  if ← wantedBy ListContext.all then return true
  next
  return false

def listTurn (c : ListContext) (element : Parser Node) (found : List Node) :
    Parser (Turn (List Node)) := do
  if ← read (·.endsList c) then return .done found
  if ← startsElement c false then
    let pos ← read (·.tokenPos)
    let node ← element
    -- An element that took nothing must not stall the loop.
    if ← read fun s => s.tokenPos == pos && !s.endsList c then
      reportHere c.complaint []
      next
    return .again (node :: found)
  if ← complain c then return .done found
  return .again found

/-- Elements up to what ends the list, with nothing between them. -/
def listOf (c : ListContext) (element : Parser Node) : Parser (List Node) := inList c do
  let found ← loop [] (listTurn c element)
  return found.reverse

/-- A list with commas, and the comma after its last element. -/
structure Delimited where
  elements : List Node := []
  trailingComma : Option Range := none

/-- Takes what stands between two elements, or reports that a comma is missing. -/
def separator (c : ListContext) (pos : Nat) : Parser Unit := do
  let _ ← expect .commaToken
  if c == .objectLiteralMembers then
    if ← read fun s => s.token == .semicolonToken && !s.onNewLine then next
  if ← read (·.tokenPos == pos) then next

def delimitedTurn (c : ListContext) (element : Parser Node) (found : Delimited) :
    Parser (Turn Delimited) := do
  if ← startsElement c false then
    let pos ← read (·.tokenPos)
    let node ← element
    let found : Delimited := { elements := node :: found.elements }
    if ← isAt .commaToken then
      let comma ← read (·.tokenRange)
      next
      return .again { found with trailingComma := some comma }
    if ← read (·.endsList c) then return .done found
    separator c pos
    return .again found
  if ← read (·.endsList c) then return .done found
  if ← complain c then return .done found
  return .again found

/-- Elements with commas between them. -/
def delimited (c : ListContext) (element : Parser Node) : Parser Delimited := do
  let found ← inList c (loop {} (delimitedTurn c element))
  if let some comma := found.trailingComma then
    if !c.allowsTrailingComma then report comma .trailingComma []
  return { found with elements := found.elements.reverse }

/-- A list in brackets. Without the opening one there is no list. -/
def bracketed (c : ListContext) (opening closing : Kind) (element : Parser Node) :
    Parser Delimited := do
  if ← expect opening then
    let found ← delimited c element
    let _ ← expect closing
    return found
  return {}

/-- Reports a comma after a rest element. -/
def checkRestComma (list : Delimited) : Parser Unit := do
  if let (some comma, some last) := (list.trailingComma, list.elements.getLast?) then
    if (last.childAs? .dotDotDotToken).isSome then report comma .trailingCommaAfterRest []

/-- A semicolon, written or left out. -/
def acceptSemicolon : Parser Bool := do
  if ← canEndStatement then
    let _ ← accept .semicolonToken
    return true
  return false

/-- The end of a statement: a semicolon, or what may stand for it. -/
def semicolon : Parser Unit := do
  if ← acceptSemicolon then return
  if ← pure (← options).looseSemicolons <&&> startsStatement then return
  let _ ← expect .semicolonToken

end Parser
end ScriptGrammar
