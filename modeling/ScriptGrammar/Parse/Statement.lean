import ScriptGrammar.Parse.Module

/-!
# Statements
-/

namespace ScriptGrammar.Parser

variable [Grammar]

/-- A condition, in parentheses unless they may be left out. -/
def condition : Parser Node := do
  if ← read fun s => s.options.looseParens && s.token != .openParenToken then expressionWithIn
  else
    let _ ← expect .openParenToken
    let e ← expressionWithIn
    let _ ← expect .closeParenToken
    return e

def ifStatement : Parser Node := do
  let start ← nodeStart
  let _ ← expect .ifKeyword
  let e ← condition
  let yes ← statement
  let no ← after .elseKeyword statement
  build .ifStatement start
    [.one .expression e, .one .thenStatement yes, .opt .elseStatement no]

/-- A loop with its condition at the end. No semicolon need follow it. -/
def doStatement : Parser Node := do
  let start ← nodeStart
  let _ ← expect .doKeyword
  let body ← statement
  let _ ← expect .whileKeyword
  let e ← condition
  let _ ← accept .semicolonToken
  build .doStatement start [.one .statement body, .one .expression e]

def whileStatement : Parser Node := do
  let start ← nodeStart
  let _ ← expect .whileKeyword
  let e ← condition
  let body ← statement
  build .whileStatement start [.one .expression e, .one .statement body]

def withStatement : Parser Node := do
  let start ← nodeStart
  let _ ← expect .withKeyword
  let _ ← expect .openParenToken
  let e ← expressionWithIn
  let _ ← expect .closeParenToken
  let body ← statement
  build .withStatement start [.one .expression e, .one .statement body]

def isLetDeclaration : Parser Bool := aheadNext (read (·.atBinding))

/-- The head of a loop declares variables. -/
def startsLoopVariables : Parser Bool := do
  match ← token with
  | .varKeyword | .constKeyword => return true
  | .letKeyword => isLetDeclaration
  | .usingKeyword => aheadNext do
    if ← isAt .ofKeyword then return false else isIdentifierOnLine
  | .awaitKeyword => aheadNext isUsingName
  | _ => return false

def loopInitializer : Parser (Option Node) := do
  if ← isAt .semicolonToken then return none
  if ← startsLoopVariables then
    return some (← variableDeclarationList true)
  return some (← disallowingIn expression)

/-- The rest of a loop over the members of a value. -/
def memberLoop (start : Parse.NodeStart) (awaits : Option Node) (init : Node) (isOf : Bool) :
    Parser Node := do
  let e ← if isOf then assignmentWithIn else expressionWithIn
  let _ ← expect .closeParenToken
  let body ← statement
  build (if isOf then .forOfStatement else .forInStatement) start
    [.opt .awaitModifier awaits, .one .initializer init, .one .expression e,
      .one .statement body]

/-- The rest of a loop with three clauses, each of which may be left out. -/
def clauseLoop (start : Parse.NodeStart) (init : Option Node) : Parser Node := do
  let _ ← expect .semicolonToken
  let condition ←
    optionally (!(← isAtAny [.semicolonToken, .closeParenToken])) expressionWithIn
  let _ ← expect .semicolonToken
  let step ← optionally (!(← isAt .closeParenToken)) expressionWithIn
  let _ ← expect .closeParenToken
  let body ← statement
  build .forStatement start
    [.opt .initializer init, .opt .condition condition, .opt .incrementor step,
      .one .statement body]

def forStatement : Parser Node := do
  let start ← nodeStart
  let _ ← expect .forKeyword
  let awaits ← acceptToken .awaitKeyword
  let _ ← expect .openParenToken
  let init ← loopInitializer
  if let some node := init then
    let isOf ← if awaits.isSome then expect .ofKeyword else accept .ofKeyword
    if ← pure isOf <||> accept .inKeyword then
      return ← memberLoop start awaits node isOf
  clauseLoop start init

def jumpStatement (kind : Kind) : Parser Node := do
  let start ← nodeStart
  next
  let label ← optionally (!(← canEndStatement)) identifier
  semicolon
  build kind start [.opt .label label]

def returnStatement : Parser Node := do
  let start ← nodeStart
  let _ ← expect .returnKeyword
  let e ← optionally (!(← canEndStatement)) expressionWithIn
  semicolon
  build .returnStatement start [.opt .expression e]

/-- What is thrown stands on the line of `throw`. -/
def throwStatement : Parser Node := do
  let start ← nodeStart
  let _ ← expect .throwKeyword
  let e ←
    if ← onNewLine then do
      reportHere .lineBreakNotPermitted []
      missingIdentifier
    else expressionWithIn
  semicolon
  build .throwStatement start [.one .expression e]

def switchClause : Parser Node := do
  let start ← nodeStart
  let isCase ← accept .caseKeyword
  let e ← optionally isCase expressionWithIn
  if !isCase then
    let _ ← expect .defaultKeyword
  let _ ← expect .colonToken
  let statements ← listOf .switchClauseStatements statement
  build (if isCase then .caseClause else .defaultClause) start
    [.opt .expression e, .list .statements statements]

def caseBlock : Parser Node := do
  let start ← nodeStart
  let _ ← expect .openBraceToken
  let clauses ← listOf .switchClauses switchClause
  let _ ← expect .closeBraceToken
  build .caseBlock start [.list .clauses clauses]

def switchStatement : Parser Node := do
  let start ← nodeStart
  let _ ← expect .switchKeyword
  let e ← condition
  let cases ← caseBlock
  build .switchStatement start [.one .expression e, .one .caseBlock cases]

def catchClause : Parser Node := do
  let start ← nodeStart
  let _ ← expect .catchKeyword
  let caught ← after .openParenToken do
    let declared ← variableDeclaration false
    let _ ← expect .closeParenToken
    return declared
  let body ← block
  build .catchClause start [.opt .variableDeclaration caught, .one .block body]

/-- A block behind `finally`. One is wanted where no handler stands before it. -/
def finallyBlock (handled : Bool) : Parser (Option Node) := do
  if ← accept .finallyKeyword then
    return some (← block)
  if handled || (← options).bareTry then return none
  reportHere .catchOrFinallyExpected []
  return some (← block)

/-- Guarded statements. A handler alone is read as one too, so that its block is kept. -/
def tryStatement : Parser Node := do
  let start ← nodeStart
  let _ ← expect .tryKeyword
  let body ← block
  let handler ← optionally (← isAt .catchKeyword) catchClause
  let last ← finallyBlock handler.isSome
  build .tryStatement start
    [.one .tryBlock body, .opt .catchClause handler, .opt .finallyBlock last]

/-- A name alone reads as a misspelt word; behind anything else a semicolon is missing. -/
def reportNoSemicolon (e : Node) : Parser Unit := do
  if e.kind == .identifier && !e.isMissing then
    if !(← isAt .unknown) then report e.range .unexpectedWord []
  else reportExpected .semicolonToken

def expressionStatement : Parser Node := do
  let start ← nodeStart
  let e ← expressionWithIn
  if ← pure (e.kind == .identifier && !e.isMissing) <&&> accept .colonToken then
    let body ← statement
    return ← build .labeledStatement start [.one .label e, .one .statement body]
  if !(← acceptSemicolon) then
    if !(← pure (← options).looseSemicolons <&&> startsStatement) then reportNoSemicolon e
  build .expressionStatement start [.one .expression e]

def emptyStatement : Parser Node := do
  let start ← nodeStart
  let _ ← expect .semicolonToken
  build .emptyStatement start []

def debuggerStatement : Parser Node := do
  let start ← nodeStart
  let _ ← expect .debuggerKeyword
  semicolon
  build .debuggerStatement start []

/-- `p`, if the word at the cursor begins what it looks like. -/
def statementIf (begins : Parser Bool) (p : Parse.NodeStart → Parser Node) : Parser Node := do
  if ← begins then
    let start ← nodeStart
    p start
  else expressionStatement

def statementWorker : Parser Node := do
  match ← token with
  | .semicolonToken => emptyStatement
  | .openBraceToken => block
  | .varKeyword => statementIf (pure true) (variableStatement · none)
  | .letKeyword => statementIf isLetDeclaration (variableStatement · none)
  | .awaitKeyword => statementIf (aheadNext isUsingName) (variableStatement · none)
  | .usingKeyword => statementIf (aheadNext isIdentifierOnLine) (variableStatement · none)
  | .functionKeyword => statementIf (pure true) (functionDeclaration · none)
  | .classKeyword => statementIf (pure true) (classLike .classDeclaration · none)
  | .ifKeyword => ifStatement
  | .doKeyword => doStatement
  | .whileKeyword => whileStatement
  | .forKeyword => forStatement
  | .continueKeyword => jumpStatement .continueStatement
  | .breakKeyword => jumpStatement .breakStatement
  | .returnKeyword => returnStatement
  | .withKeyword => withStatement
  | .switchKeyword => switchStatement
  | .throwKeyword => throwStatement
  | .tryKeyword | .catchKeyword | .finallyKeyword => tryStatement
  | .debuggerKeyword => debuggerStatement
  | .atToken => declaration
  | .asyncKeyword | .interfaceKeyword | .typeKeyword | .moduleKeyword | .namespaceKeyword
  | .declareKeyword | .constKeyword | .enumKeyword | .exportKeyword | .importKeyword
  | .privateKeyword | .protectedKeyword | .publicKeyword | .abstractKeyword | .accessorKeyword
  | .staticKeyword | .readonlyKeyword | .overrideKeyword | .globalKeyword =>
    statementIf startsDeclaration fun _ => declaration
  | _ => expressionStatement

/-- An empty statement where the nesting is too deep. -/
def refusedStatement : Parser Node := do
  let e ← missingIdentifier
  let start ← read (·.nodeStartAt e.info)
  build .expressionStatement start [.one .expression e]

def statementStep : Parser Node := nested statementWorker refusedStatement

end ScriptGrammar.Parser
