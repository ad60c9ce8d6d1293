import ScriptGrammar.Proofs.Parse.Frame

/-!
# Attempts leave no trace

Whatever a parser does ahead of the cursor, and whatever it does in an attempt that finds
nothing, the state afterwards is the state before, with names added at most. The parser is any
one at all and may open attempts of its own; the state is any that a parse can come to.
-/

namespace ScriptGrammar.Parse

variable {s t : State}

/-- The states that a parse of some source may come to, those inside a context, a list, a
nesting or an attempt included. -/
inductive Reached : State → Prop where
  | start (options names src) : Reached (.ofSource options names src)
  | moves {s t : State} : Reached s → Moves s t → Reached t
  | inContext (c) {s : State} : Reached s → Reached (s.withContext c)
  | inList (l) {s : State} : Reached s → Reached (s.withLists l)
  | nested {s : State} : Reached s → Reached (s.withDepth (s.depth + 1))
  | attempt {s : State} : Reached s → Reached s.openAttempt

theorem clear_ofSource (options : Options) (names : NameTable) (src : Source) :
    (State.ofSource options names src).Clear := by
  have first : src.isBoundary 0 := Source.isBoundary_zero
  exact ⟨⟨⟨rfl, first⟩, first, first, Nat.le_refl _, Nat.le_refl _, fun h => (by cases h),
    fun h => (by cases h)⟩, rfl⟩

theorem Reached.clear (h : Reached s) : s.Clear := by
  induction h with
  | start options names src => exact clear_ofSource options names src
  | moves _ move clear => exact (move.frame clear).clear
  | inContext | inList | nested | attempt => next clear => exact ⟨clear.sound, clear.quiet⟩

theorem Reached.run {α : Type} (h : Reached s) (p : Parser α) : Reached (p.run s).2 :=
  .moves h (p.moves s)

/-- `t` is `s` with more names. What tells of the way is not taken back: what was reported by the
way, and the marks of a bound reached. -/
structure Restored (s t : State) : Prop where
  same : t = { s with
    names := t.names, reports := t.reports, exhausted := t.exhausted, stalled := t.stalled }
  names : ∃ more, t.names.names = s.names.names ++ more
  reports : ∃ more, t.reports = s.reports ++ more

theorem restored_rollback (h : s.Clear) (m : Moves s.openAttempt t) :
    Restored s (t.rollback s.checkpoint) := by
  have frame := m.frame (s := s.openAttempt) ⟨h.sound, h.quiet⟩
  exact ⟨rollback_eq h frame, frame.names, frame.reports⟩

theorem restored_ahead {α : Type} (h : s.Clear) (p : Parser α) : Restored s ((p.ahead).run s).2 :=
  restored_rollback h (p.moves s.openAttempt)

theorem restored_attempt {α : Type} (h : s.Clear) (p : Parser (Option α))
    (failed : (p.attempt.run s).1 = none) : Restored s (p.attempt.run s).2 := by
  have moves := p.moves s.openAttempt
  cases found : p.run s.openAttempt with
  | mk result t =>
    rw [found] at moves
    cases result with
    | none =>
      simp only [Parser.attempt, found]
      exact restored_rollback h moves
    | some a => simp [Parser.attempt, found] at failed

/-- Looking ahead, and an attempt without result, give back the state they were begun in. -/
theorem speculation_restores (reached : Reached s) :
    (∀ {α : Type} (p : Parser α), Restored s (p.ahead.run s).2) ∧
    (∀ {α : Type} (p : Parser α), Restored s (p.aheadNext.run s).2) ∧
    (∀ {α : Type} (p : Parser (Option α)), (p.attempt.run s).1 = none →
      Restored s (p.attempt.run s).2) :=
  ⟨restored_ahead reached.clear, fun _ => restored_ahead reached.clear _,
    restored_attempt reached.clear⟩

/-- An attempt inside a look ahead, from the first token of a source on. -/
theorem speculation_restores_first_token :
    let s := (Parser.next.run (.ofSource {} {} (.ofString "a b"))).2
    let p : Parser (Option Unit) := do
      Parser.next
      return none
    Reached s ∧ Restored s ((p.attempt.ahead).run s).2 ∧ Restored s (p.attempt.run s).2 := by
  have reached := (Reached.start {} {} (.ofString "a b")).run Parser.next
  exact ⟨reached, (speculation_restores reached).1 _, (speculation_restores reached).2.2 _ rfl⟩

end ScriptGrammar.Parse
