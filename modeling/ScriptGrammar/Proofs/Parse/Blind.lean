import ScriptGrammar.Parse.Start
import ScriptGrammar.Proofs.Parse.Leads

/-!
# Questions that see the source only

Whether a statement begins at the cursor is decided by the scanner, the context and the options.
What was reported or named before makes no difference, so a question that is asked again after a
report has the same answer.
-/

namespace ScriptGrammar

open Parse ScriptGrammar.Parser

variable {α β : Type} {s t : State}

/-- The states differ in nothing a question looks at. -/
structure Alike (s t : State) : Prop where
  scanner : t.scanner = s.scanner
  context : t.context = s.context
  options : t.options = s.options

theorem Alike.token (h : Alike s t) : t.token = s.token := congrArg (·.kind) h.scanner

theorem Alike.onNewLine (h : Alike s t) : t.onNewLine = s.onNewLine :=
  congrArg (·.flags.precedingLineBreak) h.scanner

theorem Alike.atIdentifier (h : Alike s t) : t.atIdentifier = s.atIdentifier := by
  simp only [State.atIdentifier, h.token, h.context]

/-- The answer, and what of the state behind it matters, depend on what matters alone. -/
def Blind (p : Parser α) : Prop :=
  ∀ s t, Alike s t → (p.run t).1 = (p.run s).1 ∧ Alike (p.run s).2 (p.run t).2

namespace Blind

variable {p q : Parser α} {f : α → Parser β}

theorem pure (a : α) : Blind (Pure.pure a) := fun _ _ alike => ⟨rfl, alike⟩

theorem read {f : State → α} (h : ∀ s t, Alike s t → f t = f s) : Blind (Parser.read f) :=
  fun s t alike => ⟨h s t alike, alike⟩

theorem bind (h : Blind p) (k : ∀ a, Blind (f a)) : Blind (p >>= f) := by
  intro s t alike
  obtain ⟨same, alike⟩ := h s t alike
  show ((f (p.run t).1).run (p.run t).2).1 = ((f (p.run s).1).run (p.run s).2).1 ∧
    Alike ((f (p.run s).1).run (p.run s).2).2 ((f (p.run t).1).run (p.run t).2).2
  rw [same]
  exact k _ _ _ alike

theorem ite {c : Prop} [Decidable c] (yes : Blind p) (no : Blind q) :
    Blind (if c then p else q) := by
  split
  · exact yes
  · exact no

theorem or {p q : Parser Bool} (h : Blind p) (k : Blind q) : Blind (p <||> q) := by
  apply h.bind
  intro b
  cases b with
  | true => exact pure _
  | false => exact k

theorem next : Blind Parser.next := by
  intro s t alike
  refine ⟨rfl, ?_, alike.context, alike.options⟩
  show (t.advance .plain).scanner = (s.advance .plain).scanner
  simp only [State.advance, alike.scanner]

theorem ahead (h : Blind p) : Blind (Parser.ahead p) := by
  intro s t alike
  obtain ⟨same, inner⟩ :=
    h s.openAttempt t.openAttempt ⟨alike.scanner, alike.context, alike.options⟩
  refine ⟨same, ?_, inner.context, inner.options⟩
  show (State.rollback _ _).scanner = (State.rollback _ _).scanner
  simp only [State.rollback, State.checkpoint, alike.scanner, inner.scanner]

theorem aheadNext (h : Blind p) : Blind (Parser.aheadNext p) := (next.bind fun _ => h).ahead

theorem loop {a : α} {body : α → Parser (Turn α)} (h : ∀ a, Blind (body a)) :
    Blind (Parser.loop a body) := by
  have turns (fuel : Nat) (a : α) (s t : State) (alike : Alike s t) :
      (Parser.turns body fuel a t).1 = (Parser.turns body fuel a s).1 ∧
        Alike (Parser.turns body fuel a s).2 (Parser.turns body fuel a t).2 := by
    induction fuel generalizing a s t with
    | zero => exact ⟨rfl, alike.scanner, alike.context, alike.options⟩
    | succ fuel ih =>
      have step := h a s t alike
      cases fromS : (body a).run s with
      | mk x u =>
        cases fromT : (body a).run t with
        | mk y v =>
          rw [fromS, fromT] at step
          obtain ⟨rfl, alike⟩ := step
          simp only [Parser.turns, fromS, fromT]
          cases y with
          | again b => exact ih b _ _ ⟨alike.scanner, alike.context, alike.options⟩
          | done b => exact ⟨rfl, alike⟩
  intro s t alike
  have bound : turnBound t = turnBound s := by simp only [turnBound, alike.scanner]
  have all := turns (turnBound s) a s t alike
  show (Parser.turns body (turnBound t) a t).1 = _ ∧ Alike _ (Parser.turns body (turnBound t) a t).2
  rw [bound]
  exact all

end Blind

theorem blind_isAt (k : Kind) : Blind (isAt k) := .read fun _ _ alike => by rw [alike.token]

theorem blind_isAtAny (ks : List Kind) : Blind (isAtAny ks) :=
  .read fun _ _ alike => by rw [alike.token]

theorem blind_token : Blind token := .read fun _ _ alike => alike.token

theorem blind_onNewLine : Blind onNewLine := .read fun _ _ alike => alike.onNewLine

theorem blind_nextIsAny (ks : List Kind) : Blind (nextIsAny ks) := (blind_isAtAny ks).aheadNext

theorem blind_isIdentifierOnLine : Blind isIdentifierOnLine :=
  .read fun _ _ alike => by simp only [alike.onNewLine, alike.atIdentifier]

theorem blind_startsExpression : Blind startsExpression := by
  have leftHandSide : Blind startsLeftHandSide := by
    refine (blind_isAt _).bind fun _ => .ite (blind_nextIsAny _) (.read fun _ _ alike => ?_)
    simp only [alike.token, alike.atIdentifier]
  have operand : Blind startsOperand := by
    refine leftHandSide.or (.read fun _ _ alike => ?_)
    simp only [alike.token, alike.atIdentifier]
  exact operand.or (.read fun _ _ alike => by rw [alike.token])

theorem blind_isUsingName : Blind isUsingName := by
  refine (blind_isAt _).bind fun _ => blind_onNewLine.bind fun _ => .ite ?_ (.pure _)
  exact Blind.next.bind fun _ => blind_isIdentifierOnLine

theorem blind_declarationWalk : Blind declarationWalk := by
  refine .loop fun _ => blind_token.bind fun k => .ite (.pure _) ?_
  have deciding {f : State → Bool} (h : ∀ s t, Alike s t → f t = f s) :
      Blind (next >>= fun _ => read f >>= fun b => pure (Turn.done b)) :=
    Blind.next.bind fun _ => (Blind.read h).bind fun _ => .pure _
  split
  case h_7 => exact blind_isIdentifierOnLine.aheadNext.bind fun _ => .pure _
  case h_8 => exact blind_isUsingName.aheadNext.bind fun _ => .pure _
  case h_9 | h_10 =>
    exact deciding fun _ _ alike => by simp only [alike.onNewLine, alike.atIdentifier]
  case h_11 | h_12 =>
    exact deciding fun _ _ alike => by simp only [alike.onNewLine, alike.atIdentifier, alike.token]
  case h_13 | h_14 | h_15 | h_16 | h_17 | h_18 | h_19 | h_20 =>
    refine Blind.next.bind fun _ => blind_onNewLine.bind fun _ => .ite (.pure _) ?_
    exact (blind_isAt _).bind fun _ => .ite (.pure _) (.pure _)
  case h_21 | h_22 => exact deciding fun _ _ alike => by simp only [alike.token]
  case h_23 =>
    refine Blind.next.bind fun _ => (blind_isAt _).bind fun _ => .ite ?_ ?_
    · exact blind_token.aheadNext.bind fun _ => .ite (.pure _) (.pure _)
    · exact blind_token.bind fun _ => .ite (.pure _) (.pure _)
  case h_24 => exact Blind.next.bind fun _ => .pure _
  all_goals exact .pure _

theorem blind_startsStatement : Blind startsStatement := by
  have declaration : Blind startsDeclaration := blind_declarationWalk.ahead
  have worded : Blind (aheadNext isWordOnLine >>= fun b => pure !b) := by
    refine Blind.bind (Blind.aheadNext (.read fun _ _ alike => ?_)) fun _ => .pure _
    simp only [alike.token, alike.onNewLine]
  refine blind_token.bind fun k => .ite (.pure _) ?_
  split
  · exact declaration.or (blind_nextIsAny _)
  · exact declaration
  · exact declaration
  all_goals first
    | exact declaration.or worded
    | exact blind_startsExpression

end ScriptGrammar
