import ScriptGrammar.Proofs.ErrorFlags
import ScriptGrammar.Proofs.Numbering

/-!
# Where the mark of an error comes from

A node is marked if something was reported since it was begun, as far as counting diagnostics at
the ends of tokens can tell. Begun where all is quiet, with no error at the token or waiting for a
node, a production that reports nothing marks nothing, and ends where all is quiet. An error that
was reported at a token, however, marks the next node that is closed, and any node that begins at
that token, also one that was begun after the report.
-/

namespace ScriptGrammar

open Parse

theorem Node.eq_as {m n : Node} {p : Part} (info : n.info = m.info) (part : n.part = p)
    (detail : n.detail = m.detail) (lists : n.optionalLists = m.optionalLists)
    (children : n.children = m.children) : n = m.as p := by
  cases m
  cases n
  subst part
  cases info
  cases detail
  cases lists
  cases children
  rfl

namespace Parse

variable {s t u : State} {ns : List Node}

/-- Nothing was reported at the token or behind it, and no error waits for a node. -/
structure State.Quiet (s : State) : Prop where
  pending : s.errorPending = false
  own : s.tokenErrors = 0
  here : s.tokenErrorsAt = s.diagnostics.size
  before : ∀ d, s.diagnostics.back? = some d → d.range.pos < s.prevEnd

/-- An error of another production waits for a node, or was reported at the token or behind it. -/
def State.Touched (s : State) : Prop :=
  s.errorPending ∨ s.tokenErrorsAt + s.tokenErrors < s.diagnostics.size ∨
    ∃ d, s.diagnostics.back? = some d ∧ s.prevEnd ≤ d.range.pos

/-- Where an error was not reported before, it is one of the token itself. -/
theorem State.Steady.quiet (h : s.Steady) (own : s.tokenErrors = 0) (untouched : ¬ s.Touched) :
    s.Quiet := by
  have le := h.tokenErrors
  simp only [State.Touched, not_or, not_exists, not_and, Nat.not_lt, Nat.not_le] at untouched
  obtain ⟨pending, few, before⟩ := untouched
  exact ⟨by simpa using pending, own, by omega, before⟩

/-- Diagnostics that come to the same in the end were the same in between. -/
theorem eq_of_append {a b c : Diagnostics} (h : ∃ m, b = a ++ m) (k : ∃ m, c = b ++ m)
    (same : c = a) : b = a := by
  obtain ⟨m, rfl⟩ := h
  obtain ⟨n, rfl⟩ := k
  have none := congrArg Array.size same
  simp only [Array.size_append] at none
  have none : m = #[] := Array.size_eq_zero_iff.mp (by omega)
  rw [none, Array.append_empty]

theorem eq_empty_of_append_eq {a m : Diagnostics} (same : a ++ m = a) : m = #[] := by
  have none := congrArg Array.size same
  simp only [Array.size_append] at none
  exact Array.size_eq_zero_iff.mp (by omega)

/-- A report adds a diagnostic, unless the last one begins where it does. -/
theorem report_ne {range : Range}
    (away : s.diagnostics.back?.any (·.range.pos == range.pos) = false)
    (message : Message) (args : List String) :
    (s.report range message args).diagnostics ≠ s.diagnostics := by
  simp only [State.report, away, Diagnostics.report]
  intro same
  simpa using congrArg Array.size same

namespace State.Quiet

theorem congr (h : s.Quiet) (pending : t.errorPending = s.errorPending)
    (own : t.tokenErrors = s.tokenErrors) (here : t.tokenErrorsAt = s.tokenErrorsAt)
    (diagnostics : t.diagnostics = s.diagnostics) (prevEnd : s.prevEnd ≤ t.prevEnd) : t.Quiet := by
  refine ⟨pending.trans h.pending, own.trans h.own, ?_, fun d last => ?_⟩
  · rw [here, diagnostics]
    exact h.here
  · rw [diagnostics] at last
    exact Nat.lt_of_lt_of_le (h.before d last) prevEnd

theorem advance (h : s.Quiet) (steady : s.Steady) (r : Reading)
    (same : (s.advance r).diagnostics = s.diagnostics) : (s.advance r).Quiet := by
  have none : (r.apply s.scanner).pending = #[] := eq_empty_of_append_eq same
  have onward : s.prevEnd ≤ s.scanner.stop :=
    Nat.le_trans steady.prevEnd_le steady.clear.sound.start_le
  refine ⟨h.pending, ?_, congrArg Array.size same.symm, fun d last => ?_⟩
  · simp only [State.advance, none, Array.size_empty]
  · rw [same] at last
    exact Nat.lt_of_lt_of_le (h.before d last) onward

theorem reread (h : s.Quiet) (r : Rereading)
    (same : (s.reread r).diagnostics = s.diagnostics) : (s.reread r).Quiet := by
  refine ⟨h.pending, ?_, ?_, fun d last => h.before d (same ▸ last)⟩
  · have none : (r.apply s.scanner).pending = #[] := eq_empty_of_append_eq same
    simp only [State.reread, none, Array.append_empty, h.own, h.here, Nat.add_zero, Nat.sub_self,
      ite_self]
  · rw [same]
    exact h.here

/-- The last diagnostic lies before the last token, so what comes behind it is not the same. -/
theorem back_before (h : s.Quiet) {pos : Nat} (le : s.prevEnd ≤ pos) :
    s.diagnostics.back?.any (·.range.pos == pos) = false := by
  refine Bool.eq_false_iff.mpr fun found => ?_
  obtain ⟨d, last, at_⟩ := (Option.any_eq_true _ _).mp found
  have lt := h.before d last
  have at_ : d.range.pos = pos := eq_of_beq at_
  omega

/-- Nothing is missing where nothing was reported. -/
theorem not_blamed (h : s.Quiet) (steady : s.Steady) : ¬ s.Blamed := by
  rintro ⟨_, pending | last⟩
  · rw [h.pending] at pending
    cases pending
  · rw [h.back_before steady.prevEnd_le] at last
    cases last

/-- A node closed in quiet, over nodes that are not marked, is not marked. -/
theorem close (h : t.Quiet) {start : NodeStart} (kind : Kind)
    (inherits : start.inheritsError = false) (since : start.diagnostics = t.diagnostics.size)
    (last : ∀ e, t.lastError = some e → e < start.firstNode) :
    (t.close kind start).1.flags.containsError = false ∧ (t.close kind start).2.Quiet ∧
      (t.close kind start).2.lastError = t.lastError := by
  have below : t.lastError.any (start.firstNode ≤ ·) = false := by
    refine Bool.eq_false_iff.mpr fun found => ?_
    obtain ⟨e, he, le⟩ := (Option.any_eq_true _ _).mp found
    have lt := last e he
    have le : start.firstNode ≤ e := of_decide_eq_true le
    omega
  have none : t.hasErrorSince start.diagnostics = false := by
    simp [State.hasErrorSince, since, h.here, h.own]
  have unmarked : (t.close kind start).1.flags.containsError = false := by
    simp [State.close, h.pending, inherits, below, none]
  refine ⟨unmarked, h.congr h.pending.symm rfl rfl rfl (Nat.le_refl _), ?_⟩
  show (if (t.close kind start).1.flags.containsError then some t.nodeCount else t.lastError) = _
  rw [unmarked]
  rfl

end State.Quiet

/-- What a production that reports nothing comes to. -/
structure Calm (s t : State) (ns : List Node) : Prop where
  quiet : t.Quiet
  lastError : t.lastError = s.lastError
  unmarked : ∀ n ∈ ns, n.containsError = false

theorem calm_none (quiet : t.Quiet) (lastError : t.lastError = s.lastError) : Calm s t [] :=
  ⟨quiet, lastError, fun _ no => (nomatch no)⟩

/-- A production that begins in quiet and reports nothing marks nothing. -/
theorem Yields.calm (y : Yields s t ns) (h : s.Steady) (quiet : s.Quiet)
    (same : t.diagnostics = s.diagnostics) : Calm s t ns := by
  induction y with
  | refl => exact calm_none quiet rfl
  | trans first second ih₁ ih₂ =>
    have steady := (first.keeps h).steady
    have middle := eq_of_append (first.frame h).diagnostics (second.frame steady).diagnostics same
    have one := ih₁ h quiet middle
    have two := ih₂ steady one.quiet (same.trans middle.symm)
    refine ⟨two.quiet, two.lastError.trans one.lastError, fun n hn => ?_⟩
    exact (List.mem_append.mp hn).elim (one.unmarked n) (two.unmarked n)
  | drop _ sub ih =>
    have all := ih h quiet same
    exact ⟨all.quiet, all.lastError, fun n hn => all.unmarked n (sub.subset hn)⟩
  | advance r => exact calm_none (quiet.advance h r same) rfl
  | greater => exact calm_none (quiet.reread _ same) rfl
  | settle r _ settled y _ ih =>
    have steady := h.reread r settled
    have middle := eq_of_append (frame_reread r h.clear).diagnostics (y.frame steady).diagnostics
      same
    have rest := ih steady (quiet.reread r middle) (same.trans middle.symm)
    exact ⟨rest.quiet, rest.lastError, rest.unmarked⟩
  | @report range message args s t ns y reportable ih =>
    have steady := (y.keeps h).steady
    have middle := eq_of_append (y.frame h).diagnostics
      (frame_report range message args steady.clear).diagnostics same
    have behind : s.prevEnd ≤ range.pos := by
      rcases reportable with here | since
      · rw [here]
        exact Nat.le_trans (y.keeps h).prevEnd steady.prevEnd_le
      · exact since.2
    have away : t.diagnostics.back?.any (·.range.pos == range.pos) = false :=
      middle ▸ quiet.back_before behind
    exact absurd (same.trans middle.symm) (report_ne away message args)
  | enterName => exact calm_none (quiet.congr rfl rfl rfl rfl (Nat.le_refl _)) rfl
  | inContext c _ ih =>
    have inner := ih (h.inContext c) (quiet.congr rfl rfl rfl rfl (Nat.le_refl _)) same
    exact ⟨inner.quiet.congr rfl rfl rfl rfl (Nat.le_refl _), inner.lastError, inner.unmarked⟩
  | inList l _ ih =>
    have inner := ih (h.inList l) (quiet.congr rfl rfl rfl rfl (Nat.le_refl _)) same
    exact ⟨inner.quiet.congr rfl rfl rfl rfl (Nat.le_refl _), inner.lastError, inner.unmarked⟩
  | nested _ ih =>
    have inner := ih (h.nested _) (quiet.congr rfl rfl rfl rfl (Nat.le_refl _)) same
    exact ⟨inner.quiet.congr rfl rfl rfl rfl (Nat.le_refl _), inner.lastError, inner.unmarked⟩
  | kept _ ih =>
    have inner := ih h.openAttempt (quiet.congr rfl rfl rfl rfl (Nat.le_refl _)) same
    exact ⟨inner.quiet.congr rfl rfl rfl rfl (Nat.le_refl _), inner.lastError, inner.unmarked⟩
  | rolledBack inner _ =>
    rw [inner.rollback_eq h]
    exact calm_none (quiet.congr rfl rfl rfl rfl (Nat.le_refl _)) rfl
  | @node kind detail slots s t info inner marked _ _ _ ih =>
    have left := ih h quiet same
    have since : s.tokenErrorsAt = t.diagnostics.size :=
      quiet.here.trans (congrArg Array.size same.symm)
    have inherits : s.nodeStart.inheritsError = false := rfl
    have closed := left.quiet.close kind inherits since fun e he =>
      (h.lastError e (left.lastError ▸ he)).1
    refine ⟨closed.2.1, closed.2.2.trans left.lastError, List.forall_mem_singleton.mpr ?_⟩
    exact marked.containsError.trans closed.1
  | @around kind slots s t first inner _ _ _ _ ih =>
    have left := ih h quiet same
    have held := List.mem_singleton_self first
    -- The node is numbered behind all that was closed before it.
    have numbered := (inner.numbered h rfl).since first.id (List.mem_flatMap.mpr
      ⟨first, held, by rw [Node.ids_eq]; exact List.mem_append_right _ (List.mem_singleton_self _)⟩)
    have inherits : (t.nodeStartAt first.info).inheritsError = false := left.unmarked first held
    have closed := left.quiet.close kind inherits left.quiet.here fun e he => by
      have lt := (h.lastError e (left.lastError ▸ he)).1
      exact Nat.lt_succ_of_lt (Nat.lt_of_lt_of_le lt numbered)
    exact ⟨closed.2.1, closed.2.2.trans left.lastError, List.forall_mem_singleton.mpr closed.1⟩
  | missing _ _ blamed | missingTag _ blamed => exact absurd blamed (quiet.not_blamed h)
  | @missingAround kind slots s t first _ inner _ gone _ _ _ ih =>
    have held := List.mem_singleton_self first
    have unmarked := (ih h quiet same).unmarked first held
    obtain ⟨⟨_, _, missing⟩, _⟩ := (inner.traced h).flagged first held
    exact nomatch unmarked.symm.trans (missing gone).2

/-- Where a node that was left, or one below it, is marked, something was reported on the way, or
the token it begins with has an error, or one that was reported before is taken for its own. -/
theorem Yields.marks (y : Yields s t ns) (h : s.Steady) :
    ∀ n ∈ ns, ∀ m ∈ n.postorder, m.containsError →
      s.diagnostics.size < t.diagnostics.size ∨ 0 < s.tokenErrors ∨ s.Touched := by
  intro n hn m hm error
  apply Classical.byContradiction
  intro no
  simp only [not_or, Nat.not_lt, Nat.le_zero_eq] at no
  obtain ⟨few, own, untouched⟩ := no
  have same : t.diagnostics = s.diagnostics := by
    obtain ⟨more, grown⟩ := (y.frame h).diagnostics
    have none : more = #[] := by
      rw [grown, Array.size_append] at few
      exact Array.size_eq_zero_iff.mp (by omega)
    rw [grown, none, Array.append_empty]
  have calm := y.calm h (h.quiet own untouched) same
  have quiet := (((y.traced h).flagged n hn).descend (calm.unmarked n hn)
    (fun _ _ => Flagged.down) m hm).2
  exact nomatch quiet.symm.trans error

/-- A production of the source leads from `s` to `t` and leaves `n`. A placeholder and what is in
it count as one. -/
structure Produces (src : Source) (s t : State) (n : Node) : Prop where
  steady : s.Steady
  source : s.scanner.source = src
  leaves : ∃ m k p, Yields s t [m] ∧ n = k.as p ∧ (k = m ∨ m.isMissing ∧ k ∈ m.postorder)

theorem Produces.as {src : Source} {n : Node} (h : Produces src s t n) (p : Part) :
    Produces src s t (n.as p) := by
  obtain ⟨steady, source, m, k, q, y, rfl, inside⟩ := h
  refine ⟨steady, source, m, k, p, y, ?_, inside⟩
  cases k
  rfl

theorem Yields.produces {n : Node} (y : Yields s t [n]) (h : s.Steady) :
    Produces s.scanner.source s t n :=
  ⟨h, rfl, n, n, n.part, y, by cases n; rfl, .inl rfl⟩

theorem Produces.marks {src : Source} {n : Node} (h : Produces src s t n)
    (error : n.containsError) :
    s.diagnostics.size < t.diagnostics.size ∨ 0 < s.tokenErrors ∨ s.Touched := by
  obtain ⟨steady, _, m, k, p, y, rfl, inside⟩ := h
  have below : k ∈ m.postorder := by
    rcases inside with rfl | ⟨_, below⟩
    · exact k.mem_postorder_self
    · exact below
  refine y.marks steady m (List.mem_singleton_self m) k below ?_
  rwa [Node.containsError, Node.info_as] at error

/-- Every node that is left, and every one below it, has its production. -/
theorem Yields.produced (y : Yields s t ns) (h : s.Steady) :
    ∀ n ∈ ns, ∀ m ∈ n.postorder, ∃ a b, Produces s.scanner.source a b m := by
  refine y.forall_made (P := fun src m => ∃ a b, Produces src a b m) ?_ ?_ ?_ h
  · rintro src m p ⟨a, b, made⟩
    exact ⟨a, b, made.as p⟩
  · exact fun y steady => ⟨_, _, y.produces steady⟩
  · -- The name is made along with the tag, which is missing too.
    intro s steady jsx blamed
    refine ⟨s, _, steady, rfl, _, (Node.leaf ((s.closeMissing .jsxClosingElement).2.closeMissing
      .identifier).1 (.name "" none)).as .tagName, .root, .missingTag jsx blamed, rfl,
      .inr ⟨rfl, ?_⟩⟩
    rw [Node.postorder_eq]
    exact List.mem_append_left _ (List.mem_flatMap.mpr
      ⟨_, List.mem_singleton_self _, Node.mem_postorder_self _⟩)

end Parse

namespace Document

variable (names : NameTable) (options : Options) (src : Source)

/-- A node of the tree is marked only if something was reported while it was made, if the token it
begins with has an error of its own, or if an error that was reported at this token or behind it
before is taken for one of the node. The root is marked if anything was reported at all. -/
theorem parse_marks_reported :
    ((parseWith names options src).root.containsError ↔
      (parseWith names options src).diagnostics ≠ #[]) ∧
    (∀ c ∈ (parseWith names options src).root.children, ∀ n ∈ c.postorder,
      ∃ s t, Produces src s t n) ∧
    (∀ (g : Goal) (s : State), s.Steady → s.scanner.source = src → g.Ready s →
      Produces src s ((Parser.goal (depthBound src) g).run s).2
        ((Parser.goal (depthBound src) g).run s).1) ∧
    ∀ s t n, Produces src s t n → n.containsError →
      s.diagnostics.size < t.diagnostics.size ∨ 0 < s.tokenErrors ∨ s.Touched := by
  refine ⟨containsError_root names options src, ?_, fun g s steady source ready => ?_,
    fun s t n made error => made.marks error⟩
  · have inner := (yields_inner names options src).produced (steady_first names options src)
    rw [source_first] at inner
    rw [parseWith_eq, run_eq]
    refine Node.forall_postorder_slots ?_ fun n hn => inner n (by simpa [Document.inner] using hn)
    rintro m p ⟨s, t, made⟩
    exact ⟨s, t, made.as p⟩
  · have made := (goal_answers _ steady ready (measure_lt_depthBound src g source)).makes
    have produced := Yields.produces made steady
    rwa [source] at produced

/-- The head of a statement without its end, in a source that begins without an error. -/
theorem parse_marks_reported_unfinished :
    ((Parser.goal (depthBound (.ofString "if (")) .statement).run
      (first {} {} (.ofString "if ("))).1.containsError ∧
    (first {} {} (.ofString "if (")).diagnostics.size <
      ((Parser.goal (depthBound (.ofString "if (")) .statement).run
        (first {} {} (.ofString "if ("))).2.diagnostics.size := by
  have marked : ((Parser.goal (depthBound (.ofString "if (")) .statement).run
      (first {} {} (.ofString "if ("))).1.containsError = true := by decide +kernel
  have quiet : (first {} {} (.ofString "if (")).tokenErrors = 0 ∧
      (first {} {} (.ofString "if (")).errorPending = false ∧
      (first {} {} (.ofString "if (")).diagnostics = #[] := by decide +kernel
  obtain ⟨own, pending, none⟩ := quiet
  obtain ⟨_, _, goals, marks⟩ := parse_marks_reported {} {} (.ofString "if (")
  have made := goals .statement _ (steady_first {} {} _) (source_first {} {} _) trivial
  refine ⟨marked, (marks _ _ _ made marked).resolve_right ?_⟩
  simp [State.Touched, own, pending, none]

/-- The statement behind a semicolon that is missing is marked, down to its name. The error was
reported before the name was begun, the name itself has none, and nothing is reported while it is
made. -/
theorem parse_marks_next_statement :
    ¬ ∀ c ∈ (parseWith {} {} (.ofString "1 b")).root.children, ∀ n ∈ c.postorder,
      ∀ s t, Produces (.ofString "1 b") s t n → n.containsError →
        s.diagnostics.size < t.diagnostics.size ∨ 0 < s.tokenErrors ∨
          ∃ c ∈ n.children, c.containsError := by
  let s := ((Parser.goal (depthBound (.ofString "1 b")) .statement).run
    (first {} {} (.ofString "1 b"))).2
  have begun := steady_first {} {} (.ofString "1 b")
  have y := (goal_answers (g := .statement) _ begun trivial
    (measure_lt_depthBound _ _ (source_first {} {} (.ofString "1 b")))).makes
  have source : s.scanner.source = .ofString "1 b" :=
    (Yields.frame y begun).scanner.source.trans (source_first {} {} _)
  have made := (makes_identifier s).produces (Yields.keeps y begun).steady
  rw [source] at made
  have among : (parseWith {} {} (.ofString "1 b")).root.children.any fun c =>
      c.postorder.any fun n => n.info == (Parser.identifier.run s).1.info &&
        n.part == .expression && n.detail == (Parser.identifier.run s).1.detail &&
        n.optionalLists.isEmpty && n.children.isEmpty := by decide +kernel
  have alone : (Parser.identifier.run s).1.optionalLists = [] ∧
      (Parser.identifier.run s).1.children.isEmpty ∧
      (Parser.identifier.run s).1.containsError ∧ s.tokenErrors = 0 ∧
      (Parser.identifier.run s).2.diagnostics.size = s.diagnostics.size := by decide +kernel
  generalize Parser.identifier.run s = r at made among alone
  clear_value s
  simp only [List.any_eq_true, Bool.and_eq_true, beq_iff_eq, List.isEmpty_iff] at among alone
  obtain ⟨c, hc, n, hn, ⟨⟨⟨info, part⟩, detail⟩, lists⟩, none⟩ := among
  obtain ⟨lists', none', error, own, still⟩ := alone
  have same : n = r.1.as .expression :=
    Node.eq_as info part detail (lists.trans lists'.symm) (none.trans none'.symm)
  have marked : n.containsError := by
    rw [Node.containsError, info]
    exact error
  intro all
  rcases all c hc n hn s r.2 (same ▸ made.as .expression) marked with grown | lexical | ⟨d, hd, _⟩
  · omega
  · omega
  · rw [none] at hd
    cases hd

end Document
end ScriptGrammar
