import ScriptGrammar.Proofs.Chain.Scan
import ScriptGrammar.Proofs.Parse.Attempt
import ScriptGrammar.Proofs.Parse.Openers

/-!
# The cursor on a chain

A parse along a chain is on a name, on the operator behind one, or at the end. Taking a token leads
from one to the next, and nothing is ever reported. What a look ahead or a given-up attempt leaves
behind makes no difference.
-/

namespace ScriptGrammar

open Parse

variable {src : Source} {s t : State} {o : Operator} {n : PlainName}
  {r : List (Operator × PlainName)}

/-- Nothing that a chain depends on differs. -/
structure Unmoved (s t : State) : Prop where
  scanner : t.scanner = s.scanner
  prevEnd : t.prevEnd = s.prevEnd
  diagnostics : t.diagnostics = s.diagnostics
  options : t.options = s.options
  context : t.context = s.context

namespace Unmoved

theorem refl (s : State) : Unmoved s s := ⟨rfl, rfl, rfl, rfl, rfl⟩

theorem openAttempt (s : State) : Unmoved s s.openAttempt := ⟨rfl, rfl, rfl, rfl, rfl⟩

theorem withDepth (s : State) (depth : Nat) : Unmoved s (s.withDepth depth) :=
  ⟨rfl, rfl, rfl, rfl, rfl⟩

theorem restored (h : Restored s t) : Unmoved s t := by
  rw [h.same]
  exact ⟨rfl, rfl, rfl, rfl, rfl⟩

end Unmoved

/-- What tells the tokens behind type arguments, and the brace that may be read as a template. -/
def callOpeners : List Char := ['(', '\x7d', '\x60']

/-- The cursor is on a token of a source without these openers, in the plain grammar, and nothing
was reported so far. -/
structure Calm (src : Source) (s : State) : Prop where
  clear : s.Clear
  filled : s.scanner.Filled
  follows : s.scanner.fullStart = s.prevEnd
  source : s.scanner.source = src
  skips : s.scanner.keepsTrivia = false
  bare : src.Avoids callOpeners
  unopened : s.token.Avoids callOpeners
  options : s.options = {}
  context : s.context = {}
  silent : s.diagnostics = #[]

namespace Calm

theorem unmoved (h : Calm src s) (same : Unmoved s t) : Calm src t := by
  obtain ⟨scanner, prevEnd, diagnostics, options, context⟩ := same
  obtain ⟨⟨sound, quiet⟩, filled, follows, source, skips, bare, unopened, plain, loose, silent⟩ := h
  refine ⟨⟨?_, ?_⟩, ?_, ?_, ?_, ?_, bare, ?_, options.trans plain, context.trans loose,
    diagnostics.trans silent⟩ <;> simp only [State.token, scanner, prevEnd]
  all_goals assumption

theorem prevEnd_le_size (h : Calm src s) : s.prevEnd ≤ src.size := by
  rw [← h.follows, ← h.source]
  exact Source.le_size_of_isBoundary h.clear.sound.fullStart

/-- Where the scanner reports nothing, taking a token changes nothing else. -/
theorem advance (h : Calm src s) (quiet : s.scanner.scan.pending = s.scanner.pending) :
    Calm src (s.advance .plain) := by
  have frame := frame_advance .plain h.clear
  have follows := Reading.plain.follows h.clear.sound
  have bare : s.scanner.source.Avoids callOpeners := h.source ▸ h.bare
  refine ⟨frame.clear, follows.filled, follows.fullStart, frame.scanner.source.trans h.source,
    frame.scanner.keepsTrivia.trans h.skips, h.bare, Scanner.avoids_scan bare,
    h.options, h.context, ?_⟩
  show s.diagnostics ++ s.scanner.scan.pending = #[]
  rw [quiet, h.clear.quiet, h.silent]
  rfl

theorem reread (h : Calm src s) : Calm src (s.reread .greater) := by
  have frame := frame_reread .greater h.clear
  have bare : s.scanner.source.Avoids callOpeners := h.source ▸ h.bare
  obtain ⟨_, filled, _, full⟩ := Rereading.greater.stays h.clear.sound
  refine ⟨frame.clear, filled h.filled, full.trans h.follows, frame.scanner.source.trans h.source,
    frame.scanner.keepsTrivia.trans h.skips, h.bare,
    Scanner.avoids_reread .greater (fun _ => by decide) bare h.unopened, h.options, h.context, ?_⟩
  show s.diagnostics ++ s.scanner.rescanGreater.pending = #[]
  rw [Scanner.pending_rescanGreater, h.clear.quiet, h.silent]
  rfl

theorem lt_advance (h : Calm src s) (more : s.token ≠ .endOfFileToken) :
    s.prevEnd < (s.advance .plain).prevEnd :=
  Nat.lt_of_le_of_lt (h.follows ▸ h.clear.sound.fullStart_le) (h.filled more)

end Calm

/-- The cursor is on the name `n`, with `r` behind it. -/
structure AtName (src : Source) (s : State) (n : PlainName) (r : List (Operator × PlainName)) :
    Prop extends Calm src s where
  here : s.scanner.OnName n r

structure AtOperator (src : Source) (s : State) (o : Operator) (n : PlainName)
    (r : List (Operator × PlainName)) : Prop extends Calm src s where
  here : s.scanner.OnOperator o n r

/-- The cursor is on what stands behind a name. -/
structure AtRest (src : Source) (s : State) (r : List (Operator × PlainName)) :
    Prop extends Calm src s where
  here : s.scanner.Behind r

theorem AtName.unmoved (h : AtName src s n r) (same : Unmoved s t) : AtName src t n r :=
  ⟨h.toCalm.unmoved same, same.scanner ▸ h.here⟩

theorem AtRest.unmoved (h : AtRest src s r) (same : Unmoved s t) : AtRest src t r :=
  ⟨h.toCalm.unmoved same, same.scanner ▸ h.here⟩

theorem AtName.token (h : AtName src s n r) : s.token = .identifier := h.here.kind

theorem AtOperator.token (h : AtOperator src s o n r) : s.token = o.kind := h.here.kind

theorem Scanner.OnName.withPending {s : Scanner} (h : s.OnName n r) (d : Diagnostics) :
    ({ s with pending := d } : Scanner).OnName n r :=
  ⟨h.kind, h.value, h.faces.whole, h.faces.text⟩

theorem Scanner.Behind.withPending {s : Scanner} (h : s.Behind r) (d : Diagnostics) :
    ({ s with pending := d } : Scanner).Behind r := by
  cases r with
  | nil => exact h
  | cons p r =>
    show (Scanner.rescanGreater _).OnOperator _ _ _
    rw [Scanner.rescanGreater_withPending]
    exact ⟨h.kind, h.faces.whole, h.faces.text⟩

/-- Behind a name stands an operator, or the end. -/
theorem AtName.advance (h : AtName src s n r) : AtRest src (s.advance .plain) r := by
  obtain ⟨behind, quiet⟩ := Scanner.behind_scan h.here.faces h.skips
  exact ⟨h.toCalm.advance quiet, behind.withPending #[]⟩

/-- Behind an operator stands a name. -/
theorem AtOperator.advance (h : AtOperator src s o n r) : AtName src (s.advance .plain) n r := by
  obtain ⟨name, quiet⟩ := Scanner.onName_scan h.here.faces h.skips
  exact ⟨h.toCalm.advance quiet, name.withPending #[]⟩

theorem AtRest.reread (h : AtRest src s ((o, n) :: r)) :
    AtOperator src (s.reread .greater) o n r :=
  ⟨h.toCalm.reread, h.here.kind, h.here.faces.whole, h.here.faces.text⟩

/-- An operator that is no `>` comes whole. -/
theorem AtRest.whole (h : AtRest src s ((o, n) :: r)) (away : s.token ≠ .greaterThanToken) :
    AtOperator src s o n r := by
  refine ⟨h.toCalm, ?_⟩
  rcases Scanner.rescanGreater_cases s.scanner with same | ⟨angle, _⟩
  · have here : s.scanner.rescanGreater.OnOperator o n r := h.here
    rwa [same] at here
  · exact absurd angle away

/-- An operator taken whole is not read on. -/
theorem AtOperator.rest (h : AtOperator src s o n r) : AtRest src s ((o, n) :: r) := by
  refine ⟨h.toCalm, ?_⟩
  have blank : s.scanner.peek 0 = some ' ' := h.here.faces.peek
  have same : s.scanner.rescanGreater = s.scanner := by simp [Scanner.rescanGreater, blank]
  show s.scanner.rescanGreater.OnOperator o n r
  rw [same]
  exact h.here

/-- The token behind a name: the end, a `>`, or a whole operator. -/
theorem AtRest.token (h : AtRest src s r) : s.token = .endOfFileToken ∨
    s.token = .greaterThanToken ∨ ∃ o : Operator, s.token = o.kind := by
  cases r with
  | nil => exact .inl h.here
  | cons p r =>
    by_cases angle : s.token = .greaterThanToken
    · exact .inr (.inl angle)
    · exact .inr (.inr ⟨p.1, (h.whole angle).token⟩)

end ScriptGrammar
