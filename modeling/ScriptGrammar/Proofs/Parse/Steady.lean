import ScriptGrammar.Proofs.Parse.Yields

/-!
# Between two tokens

From the first token on the scanner stands on a token that begins behind the last one taken, the
marks of errors agree with the diagnostics, and all that was reported can be cut out of the source.
Every step of a parse keeps this. The end of the last token never goes back, and where it stands
still, the token at the cursor is the same one, a `>` that was read again as a longer operator
aside. As long as nothing was reported, the beginning of the token does not go back either.
-/

namespace ScriptGrammar.Parse

variable {s t u : State} {ns : List Node}

structure State.Steady (s : State) : Prop where
  clear : s.Clear
  filled : s.scanner.Filled
  follows : s.scanner.fullStart = s.prevEnd
  missing : s.scanner.source.isBoundary s.missingAt
  level : s.diagnostics = #[] → s.missingAt ≤ s.tokenPos
  reported : ∀ d ∈ s.diagnostics, s.Cuts d.range
  tokenErrors : s.tokenErrorsAt + s.tokenErrors ≤ s.diagnostics.size
  lastError : ∀ e, s.lastError = some e → e < s.nodeCount ∧ s.diagnostics ≠ #[]
  pending : s.errorPending → s.diagnostics ≠ #[]

namespace State

theorem Steady.prevEnd_le (h : s.Steady) : s.prevEnd ≤ s.tokenPos :=
  h.follows ▸ h.clear.sound.fullStart_le

theorem Steady.tokenPos_le (h : s.Steady) : s.tokenPos ≤ s.scanner.source.size :=
  Source.le_size_of_isBoundary h.clear.sound.start

theorem Steady.prevEnd_le_size (h : s.Steady) : s.prevEnd ≤ s.scanner.source.size :=
  Nat.le_trans h.prevEnd_le h.tokenPos_le

/-- The place of a placeholder. -/
theorem Steady.cuts_empty (h : s.Steady) : s.Cuts (.empty s.tokenPos) :=
  Source.sliceable_of (Nat.le_refl _) h.clear.sound.start h.clear.sound.start

theorem Steady.missing_le (h : s.Steady) : s.missingAt ≤ s.scanner.source.size :=
  Source.le_size_of_isBoundary h.missing

theorem Steady.prevEnd_boundary (h : s.Steady) : s.scanner.source.isBoundary s.prevEnd :=
  h.follows ▸ h.clear.sound.fullStart

theorem ne_empty_of_append {a b : Diagnostics} (h : ∃ more, b = a ++ more) (ha : a ≠ #[]) :
    b ≠ #[] := by
  rintro rfl
  obtain ⟨more, same⟩ := h
  exact ha (Array.append_eq_empty_iff.mp same.symm).1

theorem eq_empty_of_append {a b : Diagnostics} (h : ∃ more, b = a ++ more) (hb : b = #[]) :
    a = #[] := Decidable.byContradiction fun some => ne_empty_of_append h some hb

/-- What is reported is added at the end, and can be cut out. -/
theorem cuts_append {ds more : Diagnostics} (h : ∀ d ∈ ds, s.Cuts d.range)
    (reported : Reported s.scanner.source s.scanner.pending more) (h' : s.Clear)
    (source : t.scanner.source = s.scanner.source) : ∀ d ∈ ds ++ more, t.Cuts d.range := by
  obtain ⟨added, same, cuts⟩ := reported
  have same : more = added := by simpa [h'.quiet] using same
  intro d hd
  rw [State.Cuts, source]
  rcases Array.mem_append.mp hd with old | new
  · exact h d old
  · exact cuts d (same ▸ new)

/-- The next token begins behind the one that is taken. -/
theorem tokenPos_advance (r : Reading) (h : s.Clear) : s.tokenPos ≤ (s.advance r).tokenPos := by
  have follows := r.follows h.sound
  have onward := follows.sound.fullStart_le
  rw [follows.fullStart] at onward
  exact Nat.le_trans h.sound.start_le onward

/-- A token that is no content is read again from where it begins. -/
theorem tokenPos_reread {r : Rereading} (hr : r ≠ .content) (h : s.Clear) :
    (s.reread r).tokenPos = s.tokenPos := (Rereading.again hr h.sound).start

theorem Steady.advance (r : Reading) (h : s.Clear)
    (missing : s.scanner.source.isBoundary s.missingAt)
    (level : s.diagnostics = #[] → s.missingAt ≤ s.tokenPos)
    (reported : ∀ d ∈ s.diagnostics, s.Cuts d.range)
    (lastError : ∀ e, s.lastError = some e → e < s.nodeCount ∧ s.diagnostics ≠ #[])
    (pending : s.errorPending → s.diagnostics ≠ #[]) : (s.advance r).Steady := by
  have frame := frame_advance r h
  have follows := r.follows h.sound
  refine ⟨frame.clear, follows.filled, follows.fullStart, ?_, fun clean => ?_, ?_, ?_,
    fun e he => ?_, fun he => ?_⟩
  · rw [frame.scanner.source]; exact missing
  · exact Nat.le_trans (level (eq_empty_of_append frame.diagnostics clean)) (tokenPos_advance r h)
  · exact cuts_append reported follows.reported h frame.scanner.source
  · simp [State.advance]
  · obtain ⟨lt, some⟩ := lastError e he
    exact ⟨lt, ne_empty_of_append frame.diagnostics some⟩
  · exact ne_empty_of_append frame.diagnostics (pending he)

theorem Steady.reread (r : Rereading) (h : s.Steady)
    (settled : r = .content → s.diagnostics ≠ #[]) : (s.reread r).Steady := by
  have frame := frame_reread r h.clear
  obtain ⟨_, filled, _, full⟩ := r.stays h.clear.sound
  refine ⟨frame.clear, filled h.filled, full.trans h.follows, ?_, fun clean => ?_, ?_, ?_,
    fun e he => ?_, fun he => ?_⟩
  · rw [frame.scanner.source]; exact h.missing
  · have clean := eq_empty_of_append frame.diagnostics clean
    rw [tokenPos_reread (fun content => settled content clean) h.clear]
    exact h.level clean
  · exact cuts_append h.reported (r.reported h.clear.sound) h.clear frame.scanner.source
  · have le := h.tokenErrors
    simp only [State.reread, Array.size_append]
    split
    · omega
    · omega
  · obtain ⟨lt, some⟩ := h.lastError e he
    exact ⟨lt, ne_empty_of_append frame.diagnostics some⟩
  · exact ne_empty_of_append frame.diagnostics (h.pending he)

theorem report_ne_empty (range : Range) (message : Message) (args : List String) (s : State) :
    (s.report range message args).diagnostics ≠ #[] := by
  unfold State.report
  dsimp only
  split
  · next same =>
    intro empty
    simp [empty] at same
  · simp [Diagnostics.report]

theorem blamed_report (range : Range) (message : Message) (args : List String) (s : State) :
    (s.report range message args).Blamed :=
  ⟨report_ne_empty range message args s, .inl rfl⟩

/-- A report at the token is the last one, or the last one was there before. -/
theorem back_reportHere (message : Message) (args : List String) (s : State) :
    (s.report s.tokenRange message args).diagnostics.back?.any (·.range.pos == s.tokenPos) := by
  have pos : s.tokenRange.pos = s.tokenPos := rfl
  unfold State.report
  dsimp only
  split
  · next same => exact same
  · simp [Diagnostics.report, pos]

theorem Steady.report {range : Range} (message : Message) (args : List String) (h : s.Steady)
    (cuts : s.Cuts range) : (s.report range message args).Steady := by
  have frame := frame_report range message args h.clear
  have some := report_ne_empty range message args s
  refine ⟨frame.clear, h.filled, h.follows, h.missing, fun clean => absurd clean some, ?_, ?_,
    fun e he => ⟨(h.lastError e he).1, some⟩, fun _ => some⟩
  · simp only [State.report]
    split
    · exact h.reported
    · intro d hd
      rcases Array.mem_push.mp hd with old | rfl
      · exact h.reported d old
      · exact cuts
  · obtain ⟨more, grown⟩ := frame.diagnostics
    rw [grown, Array.size_append]
    exact Nat.le_trans h.tokenErrors (Nat.le_add_right _ _)

/-- A node with an error is closed only after a diagnostic. -/
theorem Steady.diagnosed (h : s.Steady) (kind : Kind) {start : NodeStart}
    (inherits : start.inheritsError → s.diagnostics ≠ #[])
    (error : (s.close kind start).1.flags.containsError) : s.diagnostics ≠ #[] := by
  have sum := h.tokenErrors
  simp only [State.close, Bool.or_eq_true, State.hasErrorSince, decide_eq_true_eq] at error
  rcases error with ((pending | inherited) | below) | since
  · exact h.pending pending
  · exact inherits inherited
  · obtain ⟨e, he, _⟩ := (Option.any_eq_true _ _).mp below
    exact (h.lastError e he).2
  · intro empty
    simp only [empty, Array.size_empty] at sum since
    omega

/-- A node ends at the last token, at its own beginning or at a placeholder. -/
theorem Steady.cuts_close (h : s.Steady) (kind : Kind) {start : NodeStart}
    (pos : s.scanner.source.isBoundary start.pos) : s.Cuts (s.close kind start).1.range := by
  have bound (p q : Nat) (hp : s.scanner.source.isBoundary p) (hq : s.scanner.source.isBoundary q) :
      s.scanner.source.isBoundary (max p q) := by
    rcases Nat.le_total p q with le | le
    · rwa [Nat.max_eq_right le]
    · rwa [Nat.max_eq_left le]
  have last := bound _ _ h.prevEnd_boundary pos
  apply Source.sliceable_of
  · simp only [State.close]
    omega
  · exact pos
  · simp only [State.close]
    split
    · exact bound _ _ last pos
    · exact bound _ _ last h.missing

theorem Steady.close (h : s.Steady) (kind : Kind) {start : NodeStart}
    (pos : s.scanner.source.isBoundary start.pos)
    (before : s.diagnostics = #[] → start.pos ≤ s.tokenPos)
    (inherits : start.inheritsError → s.diagnostics ≠ #[]) : (s.close kind start).2.Steady := by
  refine ⟨⟨h.clear.sound, h.clear.quiet⟩, h.filled, h.follows, ?_, fun clean => ?_, h.reported,
    h.tokenErrors, fun e he => ?_, fun he => (by cases he)⟩
  · simp only [State.close]
    split
    · exact pos
    · exact h.missing
  · simp only [State.close]
    split
    · exact before clean
    · exact h.level clean
  · have error := h.diagnosed kind inherits
    simp only [State.close] at he error ⊢
    split at he
    · next found => exact ⟨by simp at he; omega, error found⟩
    · obtain ⟨lt, some⟩ := h.lastError e he
      exact ⟨Nat.lt_succ_of_lt lt, some⟩

theorem Steady.closeMissing (h : s.Steady) (kind : Kind) (some : s.diagnostics ≠ #[]) :
    (s.closeMissing kind).2.Steady := by
  refine ⟨⟨h.clear.sound, h.clear.quiet⟩, h.filled, h.follows, h.clear.sound.start,
    fun _ => Nat.le_refl _, h.reported, h.tokenErrors, fun e he => ?_, fun he => (by cases he)⟩
  have id : s.nodeCount = e := by simpa [State.closeMissing, State.close] using he
  exact ⟨by simp [State.closeMissing, State.close, id], some⟩

/-- Steadiness does not depend on the context, the lists, the depth, the attempts and the trace. -/
theorem Steady.congr (h : s.Steady) (scanner : t.scanner = s.scanner)
    (prevEnd : t.prevEnd = s.prevEnd) (missingAt : t.missingAt = s.missingAt)
    (tokenErrorsAt : t.tokenErrorsAt = s.tokenErrorsAt)
    (tokenErrors : t.tokenErrors = s.tokenErrors)
    (diagnostics : t.diagnostics = s.diagnostics) (lastError : t.lastError = s.lastError)
    (nodeCount : t.nodeCount = s.nodeCount) (errorPending : t.errorPending = s.errorPending) :
    t.Steady := by
  obtain ⟨clear, filled, follows, missing, level, reported, errors, last, pending⟩ := h
  refine ⟨⟨?_, ?_⟩, ?_, ?_, ?_, ?_, ?_, ?_, ?_, ?_⟩ <;>
    simp only [State.Cuts, State.tokenPos, scanner, prevEnd, missingAt, tokenErrorsAt, tokenErrors,
      diagnostics, lastError, nodeCount, errorPending]
  · exact clear.sound
  · exact clear.quiet
  · exact filled
  · exact follows
  · exact missing
  · exact level
  · exact reported
  · exact errors
  · exact last
  · exact pending

theorem Steady.inContext (h : s.Steady) (c : Context) : (s.withContext c).Steady :=
  h.congr rfl rfl rfl rfl rfl rfl rfl rfl rfl

theorem Steady.inList (h : s.Steady) (l : List ListContext) : (s.withLists l).Steady :=
  h.congr rfl rfl rfl rfl rfl rfl rfl rfl rfl

theorem Steady.nested (h : s.Steady) (n : Nat) : (s.withDepth n).Steady :=
  h.congr rfl rfl rfl rfl rfl rfl rfl rfl rfl

theorem Steady.openAttempt (h : s.Steady) : s.openAttempt.Steady :=
  h.congr rfl rfl rfl rfl rfl rfl rfl rfl rfl

theorem Steady.closeAttempt (h : s.Steady) : s.closeAttempt.Steady :=
  h.congr rfl rfl rfl rfl rfl rfl rfl rfl rfl

/-- What a question leaves behind: names that it entered, and what it reported by the way. -/
structure Trace where
  names : NameTable
  reports : Diagnostics

def trace (s : State) : Trace := ⟨s.names, s.reports⟩

def withTrace (s : State) (trace : Trace) : State :=
  { s with names := trace.names, reports := trace.reports }

theorem Steady.traced (h : s.Steady) (trace : Trace) : (s.withTrace trace).Steady :=
  h.congr rfl rfl rfl rfl rfl rfl rfl rfl rfl

end State

theorem Yields.frame (y : Yields s t ns) (h : s.Steady) : Frame s t := y.moves.frame h.clear

/-- An attempt given up leads back, its trace aside. -/
theorem Yields.rollback_eq (y : Yields s.openAttempt t ns) (h : s.Steady) :
    t.rollback s.checkpoint = s.withTrace t.trace := by
  have bounded := y.bounded
  rw [Parse.rollback_eq h.clear (y.frame h.openAttempt), bounded.1, bounded.2]
  rfl

/-- What was reported stays reported. -/
theorem Yields.reported (y : Yields s t ns) (h : s.Steady) (some : s.diagnostics ≠ #[]) :
    t.diagnostics ≠ #[] := State.ne_empty_of_append (y.frame h).diagnostics some

theorem Yields.clean (y : Yields s t ns) (h : s.Steady) (none : t.diagnostics = #[]) :
    s.diagnostics = #[] := State.eq_empty_of_append (y.frame h).diagnostics none

/-- What is known of the state a parse comes to, and of the nodes it leaves. -/
structure Kept (s t : State) (ns : List Node) : Prop where
  steady : t.Steady
  prevEnd : s.prevEnd ≤ t.prevEnd
  tokenPos : t.diagnostics = #[] → s.tokenPos ≤ t.tokenPos
  begin : t.diagnostics = #[] → ∀ n ∈ ns, n.range.pos ≤ t.tokenPos
  behind : ∀ n ∈ ns, s.prevEnd ≤ n.range.pos
  cuts : ∀ n ∈ ns, s.Cuts n.range
  diagnosed : ∀ n ∈ ns, n.containsError → t.diagnostics ≠ #[]

theorem kept_none (steady : t.Steady) (prevEnd : s.prevEnd ≤ t.prevEnd)
    (tokenPos : t.diagnostics = #[] → s.tokenPos ≤ t.tokenPos) : Kept s t [] :=
  ⟨steady, prevEnd, tokenPos, fun _ _ h => (nomatch h), fun _ h => (nomatch h),
    fun _ h => (nomatch h), fun _ h => (nomatch h)⟩

theorem kept_one {n : Node} (steady : t.Steady) (prevEnd : s.prevEnd ≤ t.prevEnd)
    (tokenPos : t.diagnostics = #[] → s.tokenPos ≤ t.tokenPos)
    (begin : t.diagnostics = #[] → n.range.pos ≤ t.tokenPos) (behind : s.prevEnd ≤ n.range.pos)
    (cuts : s.Cuts n.range) (diagnosed : n.containsError → t.diagnostics ≠ #[]) :
    Kept s t [n] :=
  ⟨steady, prevEnd, tokenPos, by simpa using begin, by simpa using behind, by simpa using cuts,
    by simpa using diagnosed⟩

namespace Kept

variable {ms : List Node}

theorem drop (h : Kept s t ns) (sub : ms.Sublist ns) : Kept s t ms :=
  ⟨h.steady, h.prevEnd, h.tokenPos, fun none n hn => h.begin none n (sub.subset hn),
    fun n hn => h.behind n (sub.subset hn), fun n hn => h.cuts n (sub.subset hn),
    fun n hn => h.diagnosed n (sub.subset hn)⟩

theorem trans (h : Kept s t ms) (k : Kept t u ns)
    (grown : ∃ more, u.diagnostics = t.diagnostics ++ more)
    (source : t.scanner.source = s.scanner.source) : Kept s u (ms ++ ns) := by
  have clean := State.eq_empty_of_append grown
  refine ⟨k.steady, Nat.le_trans h.prevEnd k.prevEnd, fun none => ?_, fun none n hn => ?_,
    fun n hn => ?_, fun n hn => ?_, fun n hn he => ?_⟩
  · exact Nat.le_trans (h.tokenPos (clean none)) (k.tokenPos none)
  · rcases List.mem_append.mp hn with hn | hn
    · exact Nat.le_trans (h.begin (clean none) n hn) (k.tokenPos none)
    · exact k.begin none n hn
  · rcases List.mem_append.mp hn with hn | hn
    · exact h.behind n hn
    · exact Nat.le_trans h.prevEnd (k.behind n hn)
  · rcases List.mem_append.mp hn with hn | hn
    · exact h.cuts n hn
    · rw [State.Cuts, ← source]
      exact k.cuts n hn
  · rcases List.mem_append.mp hn with hn | hn
    · exact State.ne_empty_of_append grown (h.diagnosed n hn he)
    · exact k.diagnosed n hn he

/-- A node is closed that begins where `start` does. -/
theorem close (h : Kept s t ns) (kind : Kind) {start : NodeStart} {n : Node}
    (pos : t.scanner.source.isBoundary start.pos)
    (begin : t.diagnostics = #[] → start.pos ≤ t.tokenPos)
    (inherits : start.inheritsError → t.diagnostics ≠ #[]) (behind : s.prevEnd ≤ start.pos)
    (first : n.range.pos = start.pos) (cuts : s.Cuts n.range)
    (error : n.containsError = (t.close kind start).1.flags.containsError) :
    Kept s (t.close kind start).2 [n] := by
  refine kept_one (h.steady.close kind pos begin inherits) h.prevEnd h.tokenPos ?_ ?_ cuts ?_
  · rw [first]
    exact begin
  · rw [first]
    exact behind
  · rw [error]
    exact h.steady.diagnosed kind inherits

end Kept

/-- The source stays the same, and so does what can be cut out of it. -/
theorem Yields.cuts (y : Yields s t ns) (h : s.Steady) (range : Range) :
    t.Cuts range ↔ s.Cuts range := by
  rw [State.Cuts, State.Cuts, (y.frame h).scanner.source]

theorem Yields.keeps (y : Yields s t ns) (h : s.Steady) : Kept s t ns := by
  induction y with
  | refl => exact kept_none h (Nat.le_refl _) fun _ => Nat.le_refl _
  | trans first second ih₁ ih₂ =>
    have one := ih₁ h
    have two := ih₂ one.steady
    exact one.trans two (second.frame one.steady).diagnostics (first.frame h).scanner.source
  | drop _ sub ih => exact (ih h).drop sub
  | advance r =>
    refine kept_none (.advance r h.clear h.missing h.level h.reported h.lastError h.pending) ?_
      fun _ => State.tokenPos_advance r h.clear
    exact Nat.le_trans h.prevEnd_le h.clear.sound.start_le
  | greater =>
    refine kept_none (h.reread _ (by nofun)) (Nat.le_refl _) fun _ => Nat.le_of_eq ?_
    exact (State.tokenPos_reread (by decide) h.clear).symm
  | settle r _ settled y _ ih =>
    have steady := h.reread r settled
    have rest := ih steady
    have frame := frame_reread r h.clear
    refine ⟨rest.steady, rest.prevEnd, fun none => ?_, rest.begin, rest.behind, fun n hn => ?_,
      rest.diagnosed⟩
    · have clean := State.eq_empty_of_append frame.diagnostics
        (y.clean steady none)
      rw [← State.tokenPos_reread (fun content => settled content clean) h.clear]
      exact rest.tokenPos none
    · rw [State.Cuts, ← frame.scanner.source]
      exact rest.cuts n hn
  | @report range message args s t ns _ reportable ih =>
    have inner := ih h
    have some := State.report_ne_empty range message args t
    have cuts := reportable.elim (fun here => here ▸ inner.steady.clear.cuts_token) And.left
    exact ⟨inner.steady.report message args cuts, inner.prevEnd, fun none => absurd none some,
      fun none => absurd none some, inner.behind, inner.cuts, fun _ _ _ => some⟩
  | enterName name => exact kept_none (h.traced ⟨_, _⟩) (Nat.le_refl _) fun _ => Nat.le_refl _
  | inContext c _ ih =>
    have inner := ih (h.inContext c)
    exact { inner with steady := inner.steady.inContext _ }
  | inList l _ ih =>
    have inner := ih (h.inList l)
    exact { inner with steady := inner.steady.inList _ }
  | nested _ ih =>
    have inner := ih (h.nested _)
    exact { inner with steady := inner.steady.nested _ }
  | kept _ ih =>
    have inner := ih h.openAttempt
    exact { inner with steady := inner.steady.closeAttempt }
  | rolledBack y _ =>
    rw [y.rollback_eq h]
    exact kept_none (h.traced ⟨_, _⟩) (Nat.le_refl _) fun _ => Nat.le_refl _
  | @node kind detail slots s t info y marked _ _ _ ih =>
    have inner := ih h
    have pos : t.scanner.source.isBoundary s.nodeStart.pos :=
      (y.frame h).scanner.source ▸ h.clear.sound.start
    refine inner.close kind pos inner.tokenPos nofun h.prevEnd_le ?_ ?_ ?_
    · exact congrArg Range.pos marked.range
    · rw [Node.range_ofSlots, marked.range]
      exact (y.cuts h _).mp (inner.steady.cuts_close kind pos)
    · rw [Node.containsError_ofSlots, marked.containsError]
  | @around kind slots s t first y _ _ _ _ ih =>
    have inner := ih h
    have held := List.mem_singleton_self first
    have pos := Source.isBoundary_of_sliceable ((y.cuts h _).mpr (inner.cuts _ held))
    exact inner.close kind pos (fun none => inner.begin none _ held) (inner.diagnosed _ held)
      (inner.behind first held) rfl ((y.cuts h _).mp (inner.steady.cuts_close kind pos)) rfl
  | missing kind detail blamed =>
    exact kept_one (h.closeMissing kind blamed.some) (Nat.le_refl _) (fun _ => Nat.le_refl _)
      (fun _ => Nat.le_refl _) h.prevEnd_le h.cuts_empty fun _ => blamed.some
  | @missingAround kind slots s t first _ y _ _ range _ _ ih =>
    have inner := ih h
    have pos : t.scanner.source.isBoundary s.nodeStart.pos :=
      (y.frame h).scanner.source ▸ h.clear.sound.start
    have held := List.mem_singleton_self first
    exact inner.close kind pos inner.tokenPos nofun h.prevEnd_le (congrArg Range.pos range)
      (inner.cuts first held) rfl
  | missingTag _ blamed =>
    exact kept_one ((h.closeMissing _ blamed.some).closeMissing _ blamed.some) (Nat.le_refl _)
      (fun _ => Nat.le_refl _) (fun _ => Nat.le_refl _) h.prevEnd_le h.cuts_empty
      fun _ => blamed.some

/-- What may be reported stays so wherever a parse from the same beginning comes to. -/
theorem Since.along {range : Range} {ms : List Node} (since : Since s t range)
    (y : Yields s t ns) (z : Yields s u ms) (h : s.Steady) : Since s u range :=
  ⟨(z.cuts h _).mpr ((y.cuts h _).mp since.1), since.2⟩

theorem Since.earlier {range : Range} (since : Since t u range) (y : Yields s t ns)
    (h : s.Steady) : Since s u range :=
  ⟨since.1, Nat.le_trans (y.keeps h).prevEnd since.2⟩

/-- The token at the cursor may be reported later on. -/
theorem State.Steady.since_token (h : s.Steady) : Since s s s.tokenRange :=
  ⟨h.clear.cuts_token, h.prevEnd_le⟩

/-- Taking a token leads on, unless the source ends there. -/
theorem lt_advance (r : Reading) (h : s.Steady) (more : s.token ≠ .endOfFileToken) :
    s.prevEnd < (s.advance r).prevEnd :=
  Nat.lt_of_le_of_lt h.prevEnd_le (h.filled more)

/-- The token at the cursor is still the same one. -/
structure Stays (s t : State) : Prop where
  pos : t.tokenPos = s.tokenPos
  line : t.onNewLine = s.onNewLine
  kind : t.token = s.token ∨ s.token = .greaterThanToken ∧ t.token.extendsGreater

theorem Stays.refl (s : State) : Stays s s := ⟨rfl, rfl, .inl rfl⟩

theorem Stays.trans (h : Stays s t) (k : Stays t u) : Stays s u := by
  refine ⟨k.pos.trans h.pos, k.line.trans h.line, ?_⟩
  rcases h.kind with same | ⟨angle, long⟩
  · rw [← same]
    exact k.kind
  · rcases k.kind with same | ⟨angle', long'⟩
    · exact .inr ⟨angle, same ▸ long⟩
    · exact .inr ⟨angle, long'⟩

theorem Stays.more (h : Stays s t) (more : s.token ≠ .endOfFileToken) :
    t.token ≠ .endOfFileToken := by
  rcases h.kind with same | ⟨_, long⟩
  · rwa [same]
  · intro ended
    rw [ended] at long
    cases long

theorem stays_greater (s : State) : Stays s (s.reread .greater) := by
  rcases s.scanner.rescanGreater_cases with same | ⟨angle, n, k, _, same, long, _⟩
  · have scanner : (s.reread .greater).scanner.toToken = s.scanner.toToken := by
      simp only [State.reread, Rereading.apply, same]
    exact ⟨congrArg Token.start scanner, congrArg (·.flags.precedingLineBreak) scanner,
      .inl (congrArg Token.kind scanner)⟩
  · have scanner : (s.reread .greater).scanner.toToken = (s.scanner.take (n + 1) k).toToken := by
      simp only [State.reread, Rereading.apply, same]
    have pos : (s.reread .greater).scanner.start = s.scanner.start := by rw [scanner]; rfl
    have flags : (s.reread .greater).scanner.flags = s.scanner.flags := by rw [scanner]; rfl
    have kind : (s.reread .greater).scanner.kind = k := by rw [scanner]; rfl
    have token : (s.reread .greater).token.extendsGreater := by
      rw [State.token, kind]
      exact long
    exact ⟨pos, congrArg TokenFlags.precedingLineBreak flags, .inr ⟨angle, token⟩⟩

/-- Where nothing was taken, the cursor is where it was. -/
theorem Yields.stays (y : Yields s t ns) (h : s.Steady) (more : s.token ≠ .endOfFileToken)
    (still : t.prevEnd = s.prevEnd) : Stays s t := by
  induction y with
  | refl => exact .refl _
  | trans first second ih₁ ih₂ =>
    have one := first.keeps h
    have two := second.keeps one.steady
    have stays := ih₁ h more (Nat.le_antisymm (still ▸ two.prevEnd) one.prevEnd)
    exact stays.trans (ih₂ one.steady (stays.more more)
      (Nat.le_antisymm (still ▸ one.prevEnd) two.prevEnd))
  | drop _ _ ih => exact ih h more still
  | advance r => exact absurd still (Nat.ne_of_gt (lt_advance r h more))
  | greater s => exact stays_greater s
  | settle r _ _ _ lt => exact absurd still (Nat.ne_of_gt lt)
  | enterName | missing | missingTag => exact ⟨rfl, rfl, .inl rfl⟩
  | inContext c _ ih =>
    have inner := ih (h.inContext c) more still
    exact ⟨inner.pos, inner.line, inner.kind⟩
  | inList l _ ih =>
    have inner := ih (h.inList l) more still
    exact ⟨inner.pos, inner.line, inner.kind⟩
  | nested _ ih =>
    have inner := ih (h.nested _) more still
    exact ⟨inner.pos, inner.line, inner.kind⟩
  | kept _ ih =>
    have inner := ih h.openAttempt more still
    exact ⟨inner.pos, inner.line, inner.kind⟩
  | rolledBack y _ =>
    rw [y.rollback_eq h]
    exact ⟨rfl, rfl, .inl rfl⟩
  | node _ _ _ _ _ _ _ _ ih | around _ _ _ _ _ _ _ ih | missingAround _ _ _ _ _ _ _ _ _ ih
  | report _ _ _ _ _ ih =>
    have inner := ih h more still
    exact ⟨inner.pos, inner.line, inner.kind⟩

/-- Behind the end of the source there is nothing. -/
theorem ended_advance (r : Reading) (h : s.Steady) (ended : s.token = .endOfFileToken) :
    (s.advance r).token = .endOfFileToken := by
  have follows := r.follows h.clear.sound
  have start : s.scanner.start = s.scanner.source.size := h.clear.sound.ended ended
  have le := h.clear.sound.start_le
  have from_ := follows.sound.fullStart_le
  have size := follows.sound.stop_le
  rw [follows.fullStart] at from_
  rw [follows.keeps.source] at size
  apply Decidable.byContradiction
  intro more
  have lt := follows.filled more
  omega

/-- At the end of the source nothing but the end is left, unless content was there to take. -/
theorem Yields.ended (y : Yields s t ns) (h : s.Steady) (ended : s.token = .endOfFileToken)
    (still : t.prevEnd = s.prevEnd) : t.token = .endOfFileToken := by
  induction y with
  | refl => exact ended
  | trans first second ih₁ ih₂ =>
    have one := first.keeps h
    have two := second.keeps one.steady
    have middle := ih₁ h ended (Nat.le_antisymm (still ▸ two.prevEnd) one.prevEnd)
    exact ih₂ one.steady middle (Nat.le_antisymm (still ▸ one.prevEnd) two.prevEnd)
  | drop _ _ ih => exact ih h ended still
  | advance r => exact ended_advance r h ended
  | greater s =>
    rcases (stays_greater s).kind with same | ⟨angle, _⟩
    · exact same.trans ended
    · exact nomatch ended.symm.trans angle
  | settle r _ _ _ lt => exact absurd still (Nat.ne_of_gt lt)
  | enterName | missing | missingTag => exact ended
  | inContext c _ ih => exact ih (h.inContext c) ended still
  | inList l _ ih => exact ih (h.inList l) ended still
  | nested _ ih => exact ih (h.nested _) ended still
  | kept _ ih => exact ih h.openAttempt ended still
  | rolledBack y _ =>
    rw [y.rollback_eq h]
    exact ended
  | node _ _ _ _ _ _ _ _ ih | around _ _ _ _ _ _ _ ih | missingAround _ _ _ _ _ _ _ _ _ ih
  | report _ _ _ _ _ ih => exact ih h ended still

end ScriptGrammar.Parse
