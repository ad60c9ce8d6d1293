import ScriptGrammar.NameTable
import ScriptGrammar.Scanner.Markup
import ScriptGrammar.Scanner.Rescan
import ScriptGrammar.Tree

/-!
# The state of a parse

The scanner, the diagnostics and names so far, the grammar around the cursor, and what closing a
node needs to know: where the last token ended, where the last placeholder stands, which node
last had an error. A checkpoint holds what an abandoned attempt gives back; names it entered stay.
Three fields that no parser looks at say what happened on the way: what was reported, whether a
recursion ran out, whether a loop stood still.
-/

namespace ScriptGrammar

/-- Each switch relaxes one rule. -/
structure Options where
  variant : Variant := .standard
  /-- Conditions without parentheses. -/
  looseParens : Bool := false
  /-- Statements on one line without a semicolon between them. -/
  looseSemicolons : Bool := false
  /-- A `try` with neither `catch` nor `finally`. -/
  bareTry : Bool := false
deriving DecidableEq, Inhabited

def Options.isJsx (o : Options) : Bool := o.variant == .jsx

/-- What a list is a list of. -/
inductive ListContext where
  | sourceElements | blockStatements | switchClauses | switchClauseStatements | typeMembers
  | classMembers | enumMembers | heritageClauseElement | variableDeclarations
  | objectBindingElements | arrayBindingElements | argumentExpressions | objectLiteralMembers
  | jsxAttributes | jsxChildren | arrayLiteralMembers | parameters | typeParameters
  | typeArguments | tupleElementTypes | heritageClauses | importOrExportSpecifiers
  | importAttributes
deriving DecidableEq, Inhabited

/-- How the next token is read: plainly, as content between tags, as an attribute value. -/
inductive Reading where
  | plain | content | attributeValue
deriving DecidableEq

def Reading.apply : Reading → Scanner → Scanner
  | .plain, s => s.scan
  | .content, s => s.scanContent
  | .attributeValue, s => s.scanAttributeValue

/-- How the token at the cursor is read again. -/
inductive Rereading where
  | greater | slash | template (tagged : Bool) | content | tagName
deriving DecidableEq

def Rereading.apply : Rereading → Scanner → Scanner
  | .greater, s => s.rescanGreater
  | .slash, s => s.rescanSlash
  | .template tagged, s => s.rescanTemplate tagged
  | .content, s => s.rescanContent
  | .tagName, s => s.scanTagName

namespace Parse

/-- Where a node began. -/
structure NodeStart where
  pos : Nat
  /-- The number of diagnostics before its first token. -/
  diagnostics : Nat
  /-- The id its first descendant has or will have. -/
  firstNode : Nat
  inheritsError : Bool
deriving DecidableEq

structure State where
  options : Options
  scanner : Scanner
  names : NameTable := {}
  diagnostics : Diagnostics := #[]
  /-- All that was ever reported: in attempts given up, and where another report stood already. -/
  reports : Diagnostics := #[]
  context : Context := {}
  /-- The lists being parsed. -/
  lists : List ListContext := []
  nodeCount : Nat := 0
  /-- How deep the guarded productions are nested. -/
  depth : Nat := 0
  /-- How many attempts are open. -/
  attempts : Nat := 0
  /-- The number of diagnostics before those of the current token, and of those. -/
  tokenErrorsAt : Nat := 0
  tokenErrors : Nat := 0
  /-- The end of the last token taken. -/
  prevEnd : Nat := 0
  /-- The position of the latest placeholder; nodes around it stretch that far. -/
  missingAt : Nat := 0
  /-- The latest node closed with an error. -/
  lastError : Option Nat := none
  /-- An error waits for the next node to be closed. -/
  errorPending : Bool := false
  /-- Set if a recursion bound was ever reached. -/
  exhausted : Bool := false
  /-- Set if a loop ever went on after a turn that took no token. -/
  stalled : Bool := false

structure Checkpoint where
  scanner : Bookmark
  diagnostics : Nat
  tokenErrorsAt : Nat
  tokenErrors : Nat
  prevEnd : Nat
  missingAt : Nat
  lastError : Option Nat
  nodeCount : Nat
  errorPending : Bool
deriving DecidableEq

namespace State

def ofSource (options : Options) (names : NameTable) (src : Source) : State :=
  { options, names, scanner := Scanner.ofSource src false }

variable (s : State)

def token : Kind := s.scanner.kind

def tokenPos : Nat := s.scanner.start

def tokenRange : Range := s.scanner.range

def onNewLine : Bool := s.scanner.flags.precedingLineBreak

/-- Takes the token at the cursor and reads the next one. -/
def advance (r : Reading) : State :=
  let next := r.apply s.scanner
  { s with
    scanner := { next with pending := #[] }
    prevEnd := s.scanner.stop
    diagnostics := s.diagnostics ++ next.pending
    reports := s.reports ++ next.pending
    tokenErrorsAt := s.diagnostics.size
    tokenErrors := next.pending.size }

/-- Reads the token at the cursor again. Its new errors count as the token's own if no other
error came in between. -/
def reread (r : Rereading) : State :=
  let again := r.apply s.scanner
  let diagnostics := s.diagnostics ++ again.pending
  { s with
    scanner := { again with pending := #[] }
    diagnostics
    reports := s.reports ++ again.pending
    tokenErrors :=
      if s.diagnostics.size == s.tokenErrorsAt + s.tokenErrors then
        diagnostics.size - s.tokenErrorsAt
      else s.tokenErrors }

/-- Reports, unless the last diagnostic begins at the same position. -/
def report (range : Range) (message : Message) (args : List String) : State :=
  { s with
    diagnostics :=
      if s.diagnostics.back?.any (·.range.pos == range.pos) then s.diagnostics
      else s.diagnostics.report range message args
    reports := s.reports.report range message args
    errorPending := true }

/-- A diagnostic came after the first `mark`, those of the current token aside. -/
def hasErrorSince (mark : Nat) : Bool :=
  mark < s.tokenErrorsAt || s.tokenErrorsAt + s.tokenErrors < s.diagnostics.size

def nodeStart : NodeStart :=
  { pos := s.tokenPos, diagnostics := s.tokenErrorsAt, firstNode := s.nodeCount
    inheritsError := false }

/-- The start of a node whose first child was there before it. -/
def nodeStartAt (first : NodeInfo) : NodeStart :=
  { pos := first.range.pos, diagnostics := s.tokenErrorsAt, firstNode := first.id + 1
    inheritsError := first.flags.containsError }

/-- Closes a node at the end of the last token. A node that took no token is empty, and what
encloses it stretches to it. -/
def close (kind : Kind) (start : NodeStart) : NodeInfo × State :=
  let missingAt := if s.prevEnd < start.pos then start.pos else s.missingAt
  let stop := max (max s.prevEnd start.pos) missingAt
  let below := s.lastError.any (start.firstNode ≤ ·)
  let containsError :=
    s.errorPending || start.inheritsError || below || s.hasErrorSince start.diagnostics
  let info : NodeInfo :=
    { kind, range := ⟨start.pos, stop⟩, id := s.nodeCount
      flags := { context := s.context, hasError := s.errorPending, containsError } }
  (info, { s with
    missingAt
    nodeCount := s.nodeCount + 1
    lastError := if containsError then some s.nodeCount else s.lastError
    errorPending := false })

/-- An empty placeholder at the current token. -/
def closeMissing (kind : Kind) : NodeInfo × State :=
  let start := s.nodeStart
  let (info, t) := s.close kind start
  ({ info with
      range := .empty start.pos
      flags := { info.flags with missing := true, hasError := true, containsError := true } },
    { t with missingAt := start.pos, lastError := some info.id })

def enterName (name : String) : State := { s with names := (s.names.enter name).2 }

def starve : State := { s with exhausted := true }

/-- Notes whether the last token taken ends behind `before`. -/
def checkTurn (before : Nat) : State := { s with stalled := s.stalled || s.prevEnd ≤ before }

def checkpoint : Checkpoint :=
  { scanner := s.scanner.bookmark, diagnostics := s.diagnostics.size
    tokenErrorsAt := s.tokenErrorsAt, tokenErrors := s.tokenErrors, prevEnd := s.prevEnd
    missingAt := s.missingAt, lastError := s.lastError, nodeCount := s.nodeCount
    errorPending := s.errorPending }

def openAttempt : State := { s with attempts := s.attempts + 1 }

def closeAttempt : State := { s with attempts := s.attempts - 1 }

def rollback (c : Checkpoint) : State :=
  { s.closeAttempt with
    scanner := s.scanner.rewind c.scanner
    diagnostics := s.diagnostics.truncate c.diagnostics
    tokenErrorsAt := c.tokenErrorsAt
    tokenErrors := c.tokenErrors
    prevEnd := c.prevEnd
    missingAt := c.missingAt
    lastError := c.lastError
    nodeCount := c.nodeCount
    errorPending := c.errorPending }

def withContext (c : Context) : State := { s with context := c }

def withLists (l : List ListContext) : State := { s with lists := l }

def withDepth (n : Nat) : State := { s with depth := n }

end State
end Parse
end ScriptGrammar
