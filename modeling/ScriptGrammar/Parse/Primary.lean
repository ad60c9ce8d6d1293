import ScriptGrammar.Parse.Class

/-!
# Primary expressions

Names, literals, and what stands in brackets of any kind.
-/

namespace ScriptGrammar.Parser

variable [Grammar]

def nameOperand : Parser Node := identifierOr .expressionExpected

def parenthesized : Parser Node := do
  let start ← nodeStart
  let _ ← expect .openParenToken
  let e ← expressionWithIn
  let _ ← expect .closeParenToken
  build .parenthesizedExpression start [.one .expression e]

def arrayLiteral : Parser Node := do
  let start ← nodeStart
  let list ← bracketed .arrayLiteralMembers .openBracketToken .closeBracketToken argument
  build .arrayLiteralExpression start [.list .elements list.elements]

/-- A name alone, or with a default as in an assignment pattern. -/
def shorthandProperty (start : Parse.NodeStart) (name : Node) : Parser Node := do
  let init ← after .equalsToken assignmentWithIn
  build .shorthandPropertyAssignment start
    [.one .name name, .opt .objectAssignmentInitializer init]

def propertyAssignment (start : Parse.NodeStart) (name : Node) : Parser Node := do
  let _ ← expect .colonToken
  let init ← assignmentWithIn
  build .propertyAssignment start [.one .name name, .one .initializer init]

def objectProperty (start : Parse.NodeStart) (mods : Option (List Node)) : Parser Node := do
  let star ← acceptToken .asteriskToken
  let plain ← isIdentifier
  let name ← propertyName
  let question ← acceptToken .questionToken
  if ← pure star.isSome <||> isAtAny [.openParenToken, .lessThanToken] then
    methodMember start mods star name question
  else if ← read fun s => name.kind == .identifier && plain && s.token != .colonToken then
    shorthandProperty start name
  else propertyAssignment start name

def objectMember : Parser Node := do
  let start ← nodeStart
  if ← accept .dotDotDotToken then
    let e ← assignmentWithIn
    return ← build .spreadAssignment start [.one .expression e]
  let mods ← modifiers { decorators := true }
  if let some kind ← accessorKeyword then
    return ← accessor start mods kind {}
  objectProperty start mods

def objectLiteral : Parser Node := do
  let start ← nodeStart
  let list ← bracketed .objectLiteralMembers .openBraceToken .closeBraceToken objectMember
  build .objectLiteralExpression start [.list .properties list.elements]

def metaProperty (start : Parse.NodeStart) (keyword : Kind) : Parser Node := do
  let name ← identifierName
  buildWith .metaProperty start (.metaKeyword keyword) [.one .name name]

/-- `import` as what is called, or `import.meta`. -/
def importOperand : Parser Node := do
  let start ← nodeStart
  let keyword ← takeToken
  if ← accept .dotToken then metaProperty start .importKeyword else return keyword

/-- `new` with what it applies to and its arguments, or `new.target`. -/
def newExpression : Parser Node := do
  let start ← nodeStart
  let _ ← expect .newKeyword
  if ← accept .dotToken then metaProperty start .newKeyword
  else
    let inner ← nodeStart
    let first ← Grammar.parse .primary
    let target ← postfixes inner first false
    let typeArgs ←
      if ← isAt .lessThanToken then attempt (valueTypeArguments false) else pure none
    let args ← optionally (← isAt .openParenToken) arguments
    build .newExpression start
      [.one .expression target, .optList .typeArguments typeArgs, .optList .arguments args]

def regularExpression : Parser Node := do
  reread .slash
  if ← isAt .regularExpressionLiteral then literal else nameOperand

def primaryStep : Parser Node := do
  match ← token with
  | .numericLiteral | .bigIntLiteral | .stringLiteral => literal
  | .noSubstitutionTemplateLiteral => templatePiece false
  | .thisKeyword | .superKeyword | .nullKeyword | .trueKeyword | .falseKeyword => takeToken
  | .importKeyword => importOperand
  | .openParenToken => parenthesized
  | .openBracketToken => arrayLiteral
  | .openBraceToken => objectLiteral
  | .asyncKeyword =>
    if ← aheadNext (read fun s => s.token == .functionKeyword && !s.onNewLine) then
      functionExpression
    else nameOperand
  | .functionKeyword => functionExpression
  | .classKeyword => classExpression
  | .newKeyword => newExpression
  | .slashToken | .slashEqualsToken => regularExpression
  | .templateHead => templateExpression false
  | .privateIdentifier => privateIdentifier
  | _ => nameOperand

end ScriptGrammar.Parser
