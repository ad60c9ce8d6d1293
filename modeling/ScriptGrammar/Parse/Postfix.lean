import ScriptGrammar.Parse.Grammar

/-!
# Forms after an operand

Member access, indexing, calls, non-null marks and tagged templates, from left to right. Links
after a `?.` are marked as part of an optional chain.
-/

namespace ScriptGrammar.Parser

variable [Grammar]

def spreadElement : Parser Node := do
  let start ← nodeStart
  let _ ← expect .dotDotDotToken
  let e ← assignmentWithIn
  build .spreadElement start [.one .expression e]

/-- An argument or an array element; a comma stands for one left out. -/
def argument : Parser Node := do
  match ← token with
  | .dotDotDotToken => spreadElement
  | .commaToken =>
    let start ← nodeStart
    build .omittedExpression start []
  | _ => assignmentWithIn

def arguments : Parser (List Node) := do
  return (← bracketed .argumentExpressions .openParenToken .closeParenToken argument).elements

/-- A template head or a template without substitutions. Bad escapes are reported unless the
template is tagged. -/
def templatePiece (tagged : Bool) : Parser Node := do
  if ← read fun s => !tagged && s.scanner.flags.containsInvalidEscape then
    reread (.template false)
  literal

/-- The piece that closes a substitution, or a placeholder if no brace does. -/
def templateRest (tagged : Bool) : Parser Node := do
  if ← isAt .closeBraceToken then
    reread (.template tagged)
    literal
  else
    reportExpected .closeBraceToken
    return .leaf (← closeMissing .templateTail) (.literal "" {})

/-- Spans of a template, each one `inner` and the piece behind it. -/
def templateSpans (kind : Kind) (part : Part) (tagged : Bool) (inner : Parser Node) :
    Parser (List Node) := do
  let spans ← loop [] fun spans => do
    let start ← nodeStart
    let node ← inner
    let piece ← templateRest tagged
    let span ← build kind start [.one part node, .one .literal piece]
    if piece.kind == .templateMiddle then return .again (span :: spans)
    return .done (span :: spans)
  return spans.reverse

def templateExpression (tagged : Bool) : Parser Node := do
  let start ← nodeStart
  let head ← templatePiece tagged
  let spans ← templateSpans .templateSpan .expression tagged expressionWithIn
  build .templateExpression start [.one .head head, .list .spans spans]

def buildLink (kind : Kind) (start : Parse.NodeStart) (chain : Bool) (slots : List Slot) :
    Parser Node := do
  let info ← close kind start
  return .ofSlots { info with flags := { info.flags with optionalChain := chain } } .none slots

def taggedTemplate (start : Parse.NodeStart) (tag : Node) (typeArgs : Option (List Node)) :
    Parser Node := do
  let template ←
    if ← isAt .noSubstitutionTemplateLiteral then templatePiece true else templateExpression true
  build .taggedTemplateExpression start
    [.one .tag tag, .optList .typeArguments typeArgs, .one .template template]

/-- Type arguments of a value: a clean list, and behind it a call or a template if `continued`;
otherwise the `<` compares. -/
def valueTypeArguments (continued : Bool) : Parser (Option (List Node)) := do
  if !(← isAt .lessThanToken) then return none
  let errors ← read (·.diagnostics.size)
  next
  let list ← delimited .typeArguments type
  if ← read fun s => s.token != .greaterThanToken || errors < s.diagnostics.size then return none
  next
  if continued && !(← isAtAny [.openParenToken, .noSubstitutionTemplateLiteral, .templateHead]) then
    return none
  return some list.elements

/-- A chain of links under construction. -/
structure Chain where
  target : Node
  /-- A `?.` has been passed. -/
  optional : Bool

variable (start : Parse.NodeStart) (c : Chain) (questionDot : Option Node)

def propertyLink : Parser Node := do
  let name ← memberName
  buildLink .propertyAccessExpression start c.optional
    [.one .expression c.target, .opt .questionDotToken questionDot, .one .name name]

def indexLink : Parser Node := do
  let _ ← expect .openBracketToken
  let index ←
    if ← isAt .closeBracketToken then do
      reportHere .expressionExpected []
      missingIdentifier
    else expressionWithIn
  let _ ← expect .closeBracketToken
  buildLink .elementAccessExpression start c.optional
    [.one .expression c.target, .opt .questionDotToken questionDot,
      .one .argumentExpression index]

def callLink (typeArgs : Option (List Node)) : Parser Node := do
  let args ← arguments
  buildLink .callExpression start c.optional
    [.one .expression c.target, .opt .questionDotToken questionDot,
      .optList .typeArguments typeArgs, .list .arguments args]

/-- A link that begins with `<`, if the `<` opens type arguments. -/
def angleLink? : Parser (Option Node) := do
  match ← attempt (valueTypeArguments true) with
  | some typeArgs =>
    if ← isAt .openParenToken then return some (← callLink start c questionDot (some typeArgs))
    return some (← taggedTemplate start c.target (some typeArgs))
  | none =>
    if questionDot.isSome then return some (← propertyLink start c questionDot)
    return none

/-- The link at the cursor, if there is one. -/
def link? (calls : Bool) : Parser (Option Node) := do
  match ← token, questionDot.isSome with
  | .dotToken, false =>
    next
    return some (← propertyLink start c none)
  | .openBracketToken, chained =>
    if (← context).decorator && !chained then return none
    return some (← indexLink start c questionDot)
  | .openParenToken, chained =>
    if calls then return some (← callLink start c questionDot none)
    optionally chained (propertyLink start c questionDot)
  | .lessThanToken, chained =>
    if calls then angleLink? start c questionDot
    else optionally chained (propertyLink start c questionDot)
  | .noSubstitutionTemplateLiteral, false | .templateHead, false =>
    return some (← taggedTemplate start c.target none)
  | .exclamationToken, false =>
    if ← onNewLine then return none
    next
    return some (← buildLink .nonNullExpression start c.optional [.one .expression c.target])
  | _, chained => optionally chained (propertyLink start c questionDot)

omit c questionDot in
/-- The links behind `first`. Without `calls` this is what `new` applies to. -/
def postfixes (first : Node) (calls : Bool) : Parser Node := do
  let c ← loop { target := first, optional := false : Chain } fun c => do
    let k ← token
    let tier := k.postfixTier
    if !tier.isValid || tier.looserThan .member then return .done c
    if k == .questionDotToken then
      if !calls then return .done c
      let questionDot ← takeToken
      let c := { c with optional := true }
      match ← link? start c (some questionDot) calls with
      | some node => return .again { c with target := node }
      | none => return .done c
    match ← link? start c none calls with
    | some node => return .again { c with target := node }
    | none => return .done c
  return c.target

omit start c questionDot in
/-- A primary expression and the links behind it. -/
def leftHandSide : Parser Node := do
  let start ← nodeStart
  let first ← Grammar.parse .primary
  postfixes start first true

end ScriptGrammar.Parser
