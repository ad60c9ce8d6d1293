import ScriptGrammar.Parse.Postfix

/-!
# Modifiers and decorators

A keyword is a modifier only if what follows can be modified by it. A list of modifiers that is
empty counts as not written.
-/

namespace ScriptGrammar

/-- The flags of a list of modifiers. -/
def modifierFlags (modifiers : Option (List Node)) : ModifierFlags :=
  (modifiers.getD []).foldl
    (fun flags m =>
      flags.union (if m.kind == .decorator then .decorator else .ofKind m.kind)) {}

/-- A list, or nothing if it is empty. -/
def someNonempty (nodes : List Node) : Option (List Node) :=
  if nodes.isEmpty then none else some nodes

namespace Parser

/-- Closes a node that carries modifiers. -/
def buildModified (kind : Kind) (start : Parse.NodeStart) (modifiers : Option (List Node))
    (detail : Detail) (slots : List Slot) : Parser Node := do
  let info ← close kind start
  return .ofSlots { info with modifiers := modifierFlags modifiers } detail
    (.optList .modifiers modifiers :: slots)

def nextFollowsOnLine : Parser Bool := do
  next
  read fun s => !s.onNewLine && s.token.followsModifier

def followsExport : Parser Bool := read fun s =>
  !([.asteriskToken, .asKeyword, .openBraceToken].contains s.token) && s.token.followsModifier

def nextFollowsDefault : Parser Bool := do
  match ← nextToken with
  | .classKeyword | .functionKeyword | .interfaceKeyword | .atToken => return true
  | .abstractKeyword => aheadNext (read fun s => s.token == .classKeyword && !s.onNewLine)
  | .asyncKeyword => aheadNext (read fun s => s.token == .functionKeyword && !s.onNewLine)
  | _ => return false

/-- Takes the keyword and tells whether what follows makes it a modifier. -/
def nextFollowsModifier : Parser Bool := do
  match ← token with
  | .constKeyword => return (← nextToken) == .enumKeyword
  | .exportKeyword =>
    match ← nextToken with
    | .defaultKeyword => ahead nextFollowsDefault
    | .typeKeyword => aheadNext followsExport
    | _ => followsExport
  | .defaultKeyword => nextFollowsDefault
  | .staticKeyword =>
    next
    read (·.token.followsModifier)
  | _ => nextFollowsOnLine

/-- Goes past the tokens `p` takes if its answer is yes. -/
def attemptIf (p : Parser Bool) : Parser Bool := do
  return (← attempt do if ← p then return some () else return none).isSome

/-- Which words a list of modifiers may hold. -/
structure ModifierRules where
  decorators : Bool := false
  /-- `const` modifies whatever follows on its line. -/
  constAllowed : Bool := false
  /-- `static` before a brace opens a block and is no modifier. -/
  staticBlocks : Bool := false

def modifier? (rules : ModifierRules) (seenStatic : Bool) : Parser (Option Node) := do
  let start ← nodeStart
  let k ← token
  let taken ←
    if k == .constKeyword && rules.constAllowed then attemptIf nextFollowsOnLine
    else if ← pure (rules.staticBlocks && k == .staticKeyword) <&&> nextIs .openBraceToken then
      pure false
    else if seenStatic && k == .staticKeyword then pure false
    else if !k.isModifier then pure false
    else attemptIf nextFollowsModifier
  if taken then return some (.leaf (← close k start) .none)
  return none

def decorator [Grammar] : Parser Node := do
  let start ← nodeStart
  let _ ← expect .atToken
  let e ← inContext ({ · with decorator := true }) leftHandSide
  build .decorator start [.one .expression e]

/-- Modifiers read by `next?`, which is told whether `static` was seen. -/
def modifierList (next? : Bool → Parser (Option Node)) : Parser (Option (List Node)) := do
  let (_, found) ← loop (false, []) fun (seenStatic, found) => do
    match ← next? seenStatic with
    | some m => return .again (seenStatic || m.kind == .staticKeyword, m :: found)
    | none => return .done (seenStatic, found)
  return someNonempty found.reverse

/-- Keyword modifiers only. -/
def keywordModifiers : Parser (Option (List Node)) := modifierList (modifier? {})

def modifiers [Grammar] (rules : ModifierRules) : Parser (Option (List Node)) :=
  modifierList fun seenStatic => do
    if ← pure rules.decorators <&&> isAt .atToken then return some (← decorator)
    modifier? rules seenStatic

end Parser
end ScriptGrammar
