import ScriptGrammar.Parse.Parser
import ScriptGrammar.Proofs.Scanner.Reading

/-!
# What every parser keeps

A checkpoint does not hold the context, the open lists or the depth, and of the diagnostics only
how many there were. That going back restores them all the same is a frame property of moves:
what is changed on the way in is put back on the way out, and diagnostics and names are only
added to. It makes attempts invisible.
-/

namespace ScriptGrammar.Parse

variable {s t u : State} {α : Type}

/-- The scanner stands on a token, and its diagnostics have been collected. -/
structure State.Clear (s : State) : Prop where
  sound : s.scanner.Sound
  quiet : s.scanner.pending = #[]

/-- What stays the same from `s` to `t`, and what may only grow. -/
structure Frame (s t : State) : Prop where
  clear : t.Clear
  scanner : s.scanner.Keeps t.scanner
  options : t.options = s.options
  context : t.context = s.context
  lists : t.lists = s.lists
  depth : t.depth = s.depth
  attempts : t.attempts = s.attempts
  diagnostics : ∃ more, t.diagnostics = s.diagnostics ++ more
  names : ∃ more, t.names.names = s.names.names ++ more
  reports : ∃ more, t.reports = s.reports ++ more

theorem extends_refl {α : Type} (a : Array α) : ∃ more, a = a ++ more :=
  ⟨#[], Array.append_empty.symm⟩

theorem extends_trans {α : Type} {a b c : Array α} (h : ∃ more, b = a ++ more)
    (k : ∃ more, c = b ++ more) : ∃ more, c = a ++ more := by
  obtain ⟨m, rfl⟩ := h
  obtain ⟨n, rfl⟩ := k
  exact ⟨m ++ n, Array.append_assoc⟩

namespace Frame

theorem refl (h : s.Clear) : Frame s s :=
  ⟨h, .refl _, rfl, rfl, rfl, rfl, rfl, extends_refl _, extends_refl _, extends_refl _⟩

theorem trans (h : Frame s t) (k : Frame t u) : Frame s u :=
  ⟨k.clear, h.scanner.trans k.scanner, k.options.trans h.options,
    k.context.trans h.context, k.lists.trans h.lists, k.depth.trans h.depth,
    k.attempts.trans h.attempts, extends_trans h.diagnostics k.diagnostics,
    extends_trans h.names k.names, extends_trans h.reports k.reports⟩

end Frame

theorem frame_advance (r : Reading) (h : s.Clear) : Frame s (s.advance r) := by
  have follows := r.follows h.sound
  exact ⟨⟨follows.sound.withPending _, rfl⟩, follows.keeps.withPending _, rfl, rfl, rfl, rfl, rfl,
    ⟨_, rfl⟩, extends_refl _, ⟨_, rfl⟩⟩

theorem frame_reread (r : Rereading) (h : s.Clear) : Frame s (s.reread r) := by
  obtain ⟨sound, _, keeps, _⟩ := r.stays h.sound
  exact ⟨⟨sound.withPending _, rfl⟩, keeps.withPending _, rfl, rfl, rfl, rfl, rfl,
    ⟨_, rfl⟩, extends_refl _, ⟨_, rfl⟩⟩

theorem frame_report (range : Range) (message : Message) (args : List String) (h : s.Clear) :
    Frame s (s.report range message args) := by
  refine ⟨⟨h.sound, h.quiet⟩, .refl _, rfl, rfl, rfl, rfl, rfl, ?_, extends_refl _,
    ⟨#[_], Array.push_eq_append⟩⟩
  simp only [State.report]
  split
  · exact extends_refl _
  · exact ⟨#[_], Array.push_eq_append⟩

theorem frame_enterName (name : String) (h : s.Clear) : Frame s (s.enterName name) := by
  refine ⟨⟨h.sound, h.quiet⟩, .refl _, rfl, rfl, rfl, rfl, rfl, extends_refl _, ?_,
    extends_refl _⟩
  simp only [State.enterName, NameTable.enter]
  split
  · exact extends_refl _
  · exact ⟨#[name], by simp⟩

/-- Going back leads to where the attempt began, the names and what tells of the way aside. -/
theorem rollback_eq (h : s.Clear) (frame : Frame s.openAttempt t) :
    t.rollback s.checkpoint =
      { s with
        names := t.names, reports := t.reports, exhausted := t.exhausted
        stalled := t.stalled } := by
  obtain ⟨more, grown⟩ := frame.diagnostics
  have diagnostics : t.diagnostics.truncate s.diagnostics.size = s.diagnostics := by
    rw [grown]
    simp [Diagnostics.truncate, State.openAttempt]
  have attempts : t.attempts - 1 = s.attempts := by
    rw [frame.attempts]
    rfl
  have scanner : t.scanner.rewind s.scanner.bookmark = s.scanner := by
    have quiet : t.scanner.pending.truncate s.scanner.pending.size = s.scanner.pending := by
      simp [frame.clear.quiet, h.quiet, Diagnostics.truncate]
    have source : t.scanner.source = s.scanner.source := frame.scanner.source
    have keepsTrivia : t.scanner.keepsTrivia = s.scanner.keepsTrivia := frame.scanner.keepsTrivia
    have torn : t.scanner.torn = s.scanner.torn := frame.scanner.torn
    simp only [Scanner.rewind, Scanner.bookmark, quiet, source, keepsTrivia, torn]
  have options : t.options = s.options := frame.options
  have context : t.context = s.context := frame.context
  have lists : t.lists = s.lists := frame.lists
  have depth : t.depth = s.depth := frame.depth
  simp only [State.rollback, State.checkpoint, State.closeAttempt, diagnostics, attempts, scanner,
    options, context, lists, depth]

theorem frame_rollback (h : s.Clear) (frame : Frame s.openAttempt t) :
    Frame s (t.rollback s.checkpoint) := by
  rw [rollback_eq h frame]
  exact ⟨⟨h.sound, h.quiet⟩, .refl _, rfl, rfl, rfl, rfl, rfl, extends_refl _, frame.names,
    frame.reports⟩

theorem Moves.frame (m : Moves s t) (h : s.Clear) : Frame s t := by
  induction m with
  | refl => exact .refl h
  | trans _ _ first second => exact (first h).trans (second (first h).clear)
  | advance r => exact frame_advance r h
  | reread r => exact frame_reread r h
  | report range message args => exact frame_report range message args h
  | close | closeMissing | starve | checkTurn =>
    exact ⟨⟨h.sound, h.quiet⟩, .refl _, rfl, rfl, rfl, rfl, rfl, extends_refl _, extends_refl _,
      extends_refl _⟩
  | enterName name => exact frame_enterName name h
  | inContext c _ inner =>
    have inner := inner ⟨h.sound, h.quiet⟩
    exact { inner with clear := ⟨inner.clear.sound, inner.clear.quiet⟩, context := rfl }
  | inList l _ inner =>
    have inner := inner ⟨h.sound, h.quiet⟩
    exact { inner with clear := ⟨inner.clear.sound, inner.clear.quiet⟩, lists := rfl }
  | nested _ inner =>
    have inner := inner ⟨h.sound, h.quiet⟩
    exact { inner with clear := ⟨inner.clear.sound, inner.clear.quiet⟩, depth := rfl }
  | kept _ inner =>
    have inner := inner ⟨h.sound, h.quiet⟩
    exact { inner with
      clear := ⟨inner.clear.sound, inner.clear.quiet⟩
      attempts := congrArg (· - 1) inner.attempts }
  | rolledBack _ inner => exact frame_rollback h (inner ⟨h.sound, h.quiet⟩)

/-- The diagnostics are among all that was ever reported. -/
theorem Moves.reported (m : Moves s t) (clear : s.Clear)
    (told : ∀ d ∈ s.diagnostics, d ∈ s.reports) : ∀ d ∈ t.diagnostics, d ∈ t.reports := by
  induction m with
  | refl => exact told
  | trans first _ ih₁ ih₂ => exact ih₂ (first.frame clear).clear (ih₁ clear told)
  | advance r s | reread r s =>
    intro d hd
    exact Array.mem_append.mpr ((Array.mem_append.mp hd).imp_left (told d))
  | report range message args s =>
    intro d hd
    simp only [State.report, Diagnostics.report, Array.mem_push] at hd ⊢
    split at hd
    · exact .inl (told d hd)
    · exact (Array.mem_push.mp hd).imp_left (told d)
  | close | closeMissing | enterName | starve | checkTurn => exact told
  | inContext _ _ ih | inList _ _ ih | nested _ ih | kept _ ih =>
    exact ih ⟨clear.sound, clear.quiet⟩ told
  | @rolledBack s t inner _ =>
    have frame := inner.frame ⟨clear.sound, clear.quiet⟩
    obtain ⟨more, grown⟩ := frame.reports
    have grown : t.reports = s.reports ++ more := grown
    rw [rollback_eq clear frame]
    intro d hd
    rw [grown]
    exact Array.mem_append_left _ (told d hd)

end ScriptGrammar.Parse
