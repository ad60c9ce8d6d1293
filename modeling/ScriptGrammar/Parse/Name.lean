import ScriptGrammar.Parse.Parser

/-!
# Names and literals

Leaves of the tree that carry text. A name that is not there is reported and stands in as an
empty placeholder, whose empty name is entered too.
-/

namespace ScriptGrammar

/-- The current token may be used as an identifier here. -/
def Parse.State.atIdentifier (s : Parse.State) : Bool :=
  match s.token with
  | .yieldKeyword => !s.context.yield
  | .awaitKeyword => !s.context.await
  | k => k.isIdentifierLike

namespace Parser

def isIdentifier : Parser Bool := read (·.atIdentifier)

def isWord : Parser Bool := read (·.token.isWord)

/-- An identifier on the line of the token before it. -/
def isIdentifierOnLine : Parser Bool := read fun s => s.atIdentifier && !s.onNewLine

def isWordOnLine : Parser Bool := read fun s => s.token.isWord && !s.onNewLine

def missingIdentifier : Parser Node := do
  let info ← closeMissing .identifier
  enterName ""
  return .leaf info (.name "" none)

/-- Takes the current token as an identifier if `ok`; otherwise reports `message`, or what fits
the token. -/
def identifierIf (ok : Bool) (message : Option Message) : Parser Node := do
  if ok then
    let start ← nodeStart
    let k ← token
    let text ← read (·.scanner.value)
    next
    let info ← close .identifier start
    enterName text
    return .leaf info (.name text (if k == .identifier then none else some k))
  else
    let k ← token
    let usual := if k.isReserved then Message.identifierNotReservedExpected else .identifierExpected
    reportHere (message.getD usual) [← read (·.scanner.text)]
    missingIdentifier

def identifier : Parser Node := do
  identifierIf (← isIdentifier) none

def identifierOr (message : Message) : Parser Node := do
  identifierIf (← isIdentifier) (some message)

/-- An identifier or any keyword. -/
def identifierName : Parser Node := do
  identifierIf (← isWord) none

/-- The name after a dot. A word on the next line with another word behind it reads as a new
statement, so nothing is taken. -/
def nameAfterDot (anyWord : Bool) : Parser Node := do
  if ← onNewLine <&&> isWord <&&> aheadNext isWordOnLine then
    reportHere .identifierExpected []
    missingIdentifier
  else if anyWord then identifierName
  else identifier

def privateIdentifier : Parser Node := do
  let start ← nodeStart
  let text ← read (·.scanner.value)
  next
  let info ← close .privateIdentifier start
  enterName text
  return .leaf info (.privateName text)

/-- The current token as a literal: number, string, regular expression or template piece. -/
def literal : Parser Node := do
  let start ← nodeStart
  let k ← token
  let text ← read (·.scanner.value)
  let flags ← read (·.scanner.flags)
  next
  return .leaf (← close k start)
    (.literal text { flags with precedingLineBreak := false, precedingDocComment := false })

def memberName : Parser Node := do
  if ← isAt .privateIdentifier then privateIdentifier else nameAfterDot true

/-- Names joined by dots. Any word may be a name if `anyWord`. -/
def entityName (anyWord : Bool) (message : Option Message) : Parser Node := do
  let start ← nodeStart
  let first ← identifierIf (← if anyWord then isWord else isIdentifier) message
  loop first fun left => do
    if ← accept .dotToken then
      let right ← nameAfterDot anyWord
      return .again (← build .qualifiedName start [.one .left left, .one .right right])
    return .done left

end Parser
end ScriptGrammar
