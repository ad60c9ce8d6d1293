import ScriptGrammar.Parse.Moves
import ScriptGrammar.Kind.Class
import ScriptGrammar.Kind.Spelling

/-!
# Parsers

A parser is a function on states that makes moves only. The primitives are the moves; the rest
of the grammar is put together from them.
-/

namespace ScriptGrammar

structure Parser (α : Type) where
  run : Parse.State → α × Parse.State
  moves : ∀ s, Parse.Moves s (run s).2

namespace Parser

open Parse

variable {α β : Type}

@[inline] protected def pure (a : α) : Parser α := ⟨fun s => (a, s), fun s => .refl s⟩

@[inline] protected def bind (p : Parser α) (f : α → Parser β) : Parser β where
  run s :=
    let r := p.run s
    (f r.1).run r.2
  moves s := .trans (p.moves s) ((f (p.run s).1).moves (p.run s).2)

instance : Monad Parser where
  pure := Parser.pure
  bind := Parser.bind

/-- Looks at the state. -/
@[inline] def read (f : State → α) : Parser α := ⟨fun s => (f s, s), fun s => .refl s⟩

/-- A parser built only when it runs. -/
@[inline] def delay (p : Unit → Parser α) : Parser α :=
  ⟨fun s => (p ()).run s, fun s => (p ()).moves s⟩

@[inline] def advance (r : Reading) : Parser Unit :=
  ⟨fun s => ((), s.advance r), fun s => .advance r s⟩

@[inline] def reread (r : Rereading) : Parser Unit :=
  ⟨fun s => ((), s.reread r), fun s => .reread r s⟩

@[inline] def report (range : Range) (message : Message) (args : List String) : Parser Unit :=
  ⟨fun s => ((), s.report range message args), fun s => .report range message args s⟩

@[inline] def close (kind : Kind) (start : NodeStart) : Parser NodeInfo :=
  ⟨fun s => s.close kind start, fun s => .close kind start s⟩

@[inline] def closeMissing (kind : Kind) : Parser NodeInfo :=
  ⟨fun s => s.closeMissing kind, fun s => .closeMissing kind s⟩

@[inline] def enterName (name : String) : Parser Unit :=
  ⟨fun s => ((), s.enterName name), fun s => .enterName name s⟩

@[inline] def starve : Parser Unit := ⟨fun s => ((), s.starve), fun s => .starve s⟩

/-- Runs `p` in a changed context. -/
@[inline] def inContext (f : Context → Context) (p : Parser α) : Parser α where
  run s :=
    let (a, t) := p.run (s.withContext (f s.context))
    (a, t.withContext s.context)
  moves s := .inContext (f s.context) (p.moves _)

/-- Runs `p` as part of a list. -/
@[inline] def inList (c : ListContext) (p : Parser α) : Parser α where
  run s :=
    let (a, t) := p.run (s.withLists (s.lists.insert c))
    (a, t.withLists s.lists)
  moves s := .inList (s.lists.insert c) (p.moves _)

/-- How deep guarded productions may be nested. -/
def maxDepth : Nat := 200

/-- Runs `p` one level deeper, or, at the limit, reports and runs `refused`. -/
@[inline] def nested (p refused : Parser α) : Parser α where
  run s :=
    if s.depth < maxDepth then
      let (a, t) := p.run (s.withDepth (s.depth + 1))
      (a, t.withDepth s.depth)
    else refused.run (s.report s.tokenRange .nestingTooDeep [])
  moves s := by
    split
    · exact .nested (p.moves _)
    · exact .trans (.report _ _ _ s) (refused.moves _)

/-- Runs `p` and goes back. -/
@[inline] def ahead (p : Parser α) : Parser α where
  run s :=
    let (a, t) := p.run s.openAttempt
    (a, t.rollback s.checkpoint)
  moves _ := .rolledBack (p.moves _)

/-- Runs `p` and goes back if it found nothing. -/
@[inline] def attempt (p : Parser (Option α)) : Parser (Option α) where
  run s :=
    match p.run s.openAttempt with
    | (some a, t) => (some a, t.closeAttempt)
    | (none, t) => (none, t.rollback s.checkpoint)
  moves s := by
    have h := p.moves s.openAttempt
    split
    · next t heq => rw [heq] at h; exact .kept h
    · next t heq => rw [heq] at h; exact .rolledBack h

/-- Whether a loop goes on. -/
inductive Turn (α : Type) where
  | again (a : α)
  | done (a : α)

def turns (body : α → Parser (Turn α)) : (fuel : Nat) → α → State → α × State
  | 0, a, s => (a, s.starve)
  | fuel + 1, a, s =>
    match (body a).run s with
    | (.again b, t) => turns body fuel b (t.checkTurn s.prevEnd)
    | (.done b, t) => (b, t)

theorem moves_turns (body : α → Parser (Turn α)) (fuel : Nat) (a : α) (s : State) :
    Moves s (turns body fuel a s).2 := by
  induction fuel generalizing a s with
  | zero => exact .starve s
  | succ fuel ih =>
    have h := (body a).moves s
    simp only [turns]
    split
    · next b t heq => rw [heq] at h; exact .trans h (.trans (.checkTurn _ t) (ih b _))
    · next b t heq => rw [heq] at h; exact h

/-- More turns than a loop over this source takes. -/
def turnBound (s : State) : Nat := 4 * (s.scanner.source.size + 4)

/-- Repeats `body` until it is done. -/
def loop (a : α) (body : α → Parser (Turn α)) : Parser α :=
  ⟨fun s => turns body (turnBound s) a s, fun s => moves_turns body _ a s⟩

def token : Parser Kind := read (·.token)

def nodeStart : Parser NodeStart := read (·.nodeStart)

def onNewLine : Parser Bool := read (·.onNewLine)

def options : Parser Options := read (·.options)

def context : Parser Context := read (·.context)

def next : Parser Unit := advance .plain

/-- Takes the token and tells the kind of the one after it. -/
def nextToken : Parser Kind := do
  next
  token

/-- `p` from the next token on, without going there. -/
def aheadNext (p : Parser α) : Parser α := ahead do
  next
  p

def isAt (k : Kind) : Parser Bool := read (·.token == k)

def isAtAny (ks : List Kind) : Parser Bool := read fun s => ks.contains s.token

def nextIs (k : Kind) : Parser Bool := aheadNext (isAt k)

def nextIsAny (ks : List Kind) : Parser Bool := aheadNext (isAtAny ks)

def reportHere (message : Message) (args : List String) : Parser Unit := do
  report (← read (·.tokenRange)) message args

def reportExpected (k : Kind) : Parser Unit := reportHere .expected [k.displayName]

/-- Takes a token of kind `k` if it is there. -/
def accept (k : Kind) : Parser Bool := do
  if ← isAt k then
    next
    return true
  return false

/-- Takes a token of kind `k`, or reports that it is missing. -/
def expect (k : Kind) : Parser Bool := do
  if ← accept k then return true
  reportExpected k
  return false

/-- The current token as a node. -/
def takeToken : Parser Node := do
  let start ← nodeStart
  let k ← token
  next
  return .leaf (← close k start) .none

def acceptToken (k : Kind) : Parser (Option Node) := do
  if ← isAt k then return some (← takeToken)
  return none

/-- A token of kind `k` as a node, or a placeholder for it. -/
def expectToken (k : Kind) : Parser Node := do
  if ← isAt k then takeToken
  else
    reportExpected k
    return .leaf (← closeMissing k) .none

/-- Closes a node and fills its slots. -/
def build (kind : Kind) (start : NodeStart) (slots : List Slot) : Parser Node := do
  return .ofSlots (← close kind start) .none slots

def buildWith (kind : Kind) (start : NodeStart) (detail : Detail) (slots : List Slot) :
    Parser Node := do
  return .ofSlots (← close kind start) detail slots

/-- Runs `p` if `c` holds. -/
def optionally (c : Bool) (p : Parser α) : Parser (Option α) := do
  if c then return some (← p) else return none

/-- Runs `p` after a token of kind `k`. -/
def after (k : Kind) (p : Parser α) : Parser (Option α) := do
  optionally (← accept k) p

end Parser
end ScriptGrammar
