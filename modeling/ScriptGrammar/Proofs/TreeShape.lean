import ScriptGrammar.Proofs.Consumption
import ScriptGrammar.Proofs.Everywhere

/-!
# The shape of a tree

In plain source every node lies inside its parent and behind the children before it, whatever
errors the source has. Three positions carry the argument: where the last token taken ends, where
the next one begins, and where the latest placeholder stands. A node that takes no token is empty
at the next one, and so is all it holds.

With markup it is so if nothing is reported. After an error a token may be read again as content,
from the blanks before it on; then a placeholder that stands at the token reaches over them.
-/

namespace ScriptGrammar

open Parse

/-- Children lie inside their parent, each behind those before it. -/
structure Nested (parent : NodeInfo) (children : List NodeInfo) : Prop where
  inside : ∀ c ∈ children,
    parent.range.pos ≤ c.range.pos ∧ c.range.stop ≤ parent.range.stop
  ordered : children.Pairwise fun a b => a.range.stop ≤ b.range.pos

/-- The positions that decide the range of a node. -/
structure Spot where
  prevEnd : Nat
  tokenPos : Nat
  missingAt : Nat

def Parse.State.spot (s : State) : Spot := ⟨s.prevEnd, s.tokenPos, s.missingAt⟩

/-- How the nodes left on the way from `a` to `b` are placed. -/
structure Placed (a b : Spot) (ns : List Node) : Prop where
  missing : b.missingAt ≤ b.tokenPos
  tokenPos : a.tokenPos ≤ b.tokenPos
  missingAt : a.missingAt ≤ b.missingAt
  /-- Where no token was taken, the next one is the same. -/
  still : b.prevEnd < a.tokenPos → b.tokenPos = a.tokenPos
  begin : ∀ n ∈ ns, a.tokenPos ≤ n.range.pos
  stop : ∀ n ∈ ns, n.range.stop ≤ max b.prevEnd b.missingAt
  /-- A node that begins behind the last token is empty at the next one. -/
  ahead : ∀ n ∈ ns, b.prevEnd < n.range.pos → b.tokenPos = n.range.pos
  ordered : ns.Pairwise fun m n => m.range.stop ≤ n.range.pos
  nested : ∀ n ∈ ns, n.Everywhere Nested

namespace Placed

variable {a b c : Spot} {ms ns : List Node}

/-- Nothing was left. -/
theorem none (missing : b.missingAt ≤ b.tokenPos) (tokenPos : a.tokenPos ≤ b.tokenPos)
    (missingAt : a.missingAt ≤ b.missingAt)
    (still : b.prevEnd < a.tokenPos → b.tokenPos = a.tokenPos) : Placed a b [] :=
  ⟨missing, tokenPos, missingAt, still, fun _ no => (nomatch no), fun _ no => (nomatch no),
    fun _ no => (nomatch no), .nil, fun _ no => (nomatch no)⟩

theorem refl (missing : a.missingAt ≤ a.tokenPos) : Placed a a [] :=
  none missing (Nat.le_refl _) (Nat.le_refl _) fun _ => rfl

theorem one {n : Node} (missing : b.missingAt ≤ b.tokenPos) (tokenPos : a.tokenPos ≤ b.tokenPos)
    (missingAt : a.missingAt ≤ b.missingAt)
    (still : b.prevEnd < a.tokenPos → b.tokenPos = a.tokenPos) (begin : a.tokenPos ≤ n.range.pos)
    (stop : n.range.stop ≤ max b.prevEnd b.missingAt)
    (ahead : b.prevEnd < n.range.pos → b.tokenPos = n.range.pos) (nested : n.Everywhere Nested) :
    Placed a b [n] :=
  ⟨missing, tokenPos, missingAt, still, List.forall_mem_singleton.mpr begin,
    List.forall_mem_singleton.mpr stop, List.forall_mem_singleton.mpr ahead,
    List.pairwise_singleton _ _, List.forall_mem_singleton.mpr nested⟩

theorem drop (h : Placed a b ns) (sub : ms.Sublist ns) : Placed a b ms :=
  ⟨h.missing, h.tokenPos, h.missingAt, h.still, fun n hn => h.begin n (sub.subset hn),
    fun n hn => h.stop n (sub.subset hn), fun n hn => h.ahead n (sub.subset hn),
    h.ordered.sublist sub, fun n hn => h.nested n (sub.subset hn)⟩

theorem trans (h : Placed a b ms) (k : Placed b c ns) (inside : b.prevEnd ≤ b.tokenPos)
    (onward : b.prevEnd ≤ c.prevEnd) : Placed a c (ms ++ ns) := by
  refine ⟨k.missing, Nat.le_trans h.tokenPos k.tokenPos, Nat.le_trans h.missingAt k.missingAt,
    fun before => ?_, fun n hn => ?_, fun n hn => ?_, fun n hn before => ?_, ?_, fun n hn => ?_⟩
  · have first := h.still (Nat.lt_of_le_of_lt onward before)
    rw [k.still (first ▸ before), first]
  · rcases List.mem_append.mp hn with hm | hn
    · exact h.begin n hm
    · exact Nat.le_trans h.tokenPos (k.begin n hn)
  · rcases List.mem_append.mp hn with hm | hn
    · have stop := h.stop n hm
      have later := k.missingAt
      omega
    · exact k.stop n hn
  · rcases List.mem_append.mp hn with hm | hn
    · have first := h.ahead n hm (Nat.lt_of_le_of_lt onward before)
      rw [k.still (first ▸ before), first]
    · exact k.ahead n hn before
  · refine List.pairwise_append.mpr ⟨h.ordered, k.ordered, fun m hm n hn => ?_⟩
    have stop := h.stop m hm
    have begin := k.begin n hn
    have missing := h.missing
    omega
  · rcases List.mem_append.mp hn with hm | hn
    · exact h.nested n hm
    · exact k.nested n hn

end Placed

section Closing

variable {s t : State} {ns : List Node} {info : NodeInfo}

/-- What was left reaches no further than a node that is closed over it. -/
theorem Placed.le_stop_close (h : Placed s.spot t.spot ns) (kind : Kind) {start : NodeStart}
    (ahead : t.prevEnd < start.pos → t.tokenPos = start.pos) {n : Node} (hn : n ∈ ns) :
    n.range.stop ≤ (t.close kind start).1.range.stop := by
  have stop : n.range.stop ≤ max t.prevEnd t.missingAt := h.stop n hn
  have missing : t.missingAt ≤ t.tokenPos := h.missing
  simp only [State.close]
  split
  · next before =>
    have same := ahead before
    omega
  · omega

theorem Placed.stop_le (h : Placed s.spot t.spot ns) (steady : t.Steady) :
    ∀ n ∈ ns, n.range.stop ≤ t.scanner.source.size := fun n hn =>
  Nat.le_trans (h.stop n hn) (Nat.max_le.mpr ⟨steady.prevEnd_le_size, steady.missing_le⟩)

theorem Placed.nested_close (h : Placed s.spot t.spot ns) (kind : Kind) (start : NodeStart)
    (ahead : t.prevEnd < start.pos → t.tokenPos = start.pos)
    (begin : ∀ n ∈ ns, start.pos ≤ n.range.pos)
    (range : info.range = (t.close kind start).1.range) :
    Nested info (ns.map Node.info) := by
  refine ⟨fun c hc => ?_, ?_⟩
  · obtain ⟨n, hn, rfl⟩ := List.mem_map.mp hc
    rw [range]
    exact ⟨begin n hn, h.le_stop_close kind ahead hn⟩
  · exact List.pairwise_map.mpr h.ordered

/-- A node that begins and ends with a closed one takes the place of what was left. -/
theorem Placed.close (h : Placed s.spot t.spot ns) (kind : Kind) (start : NodeStart)
    (after : s.tokenPos ≤ start.pos) (ahead : t.prevEnd < start.pos → t.tokenPos = start.pos)
    {node : Node}
    (pos : node.range.pos = start.pos) (stop : node.range.stop ≤ (t.close kind start).1.range.stop)
    (nested : node.Everywhere Nested) : Placed s.spot (t.close kind start).2.spot [node] := by
  have missing : t.missingAt ≤ t.tokenPos := h.missing
  have onward : s.missingAt ≤ t.missingAt := h.missingAt
  have missing' : (t.close kind start).2.missingAt ≤ t.tokenPos := by
    simp only [State.close]
    split
    · next before => exact Nat.le_of_eq (ahead before).symm
    · exact missing
  have onward' : t.missingAt ≤ (t.close kind start).2.missingAt := by
    simp only [State.close]
    split
    · next before => exact ahead before ▸ missing
    · exact Nat.le_refl _
  have stop' : (t.close kind start).1.range.stop ≤
      max t.prevEnd (t.close kind start).2.missingAt := by
    simp only [State.close]
    split <;> omega
  refine .one missing' h.tokenPos (Nat.le_trans onward onward') h.still ?_ ?_ ?_ nested
  · exact pos ▸ after
  · exact Nat.le_trans stop stop'
  · exact pos ▸ ahead

end Closing

/-- No content is read again on the way from `s` to `t`. -/
def Parse.Settles (s t : State) : Prop := s.options.isJsx = false ∨ t.diagnostics = #[]

/-- Every parse of plain source places its nodes so, and every parse without an error. -/
theorem Parse.Yields.placed {s t : State} {ns : List Node} (y : Yields s t ns) (h : s.Steady)
    (settles : Settles s t) (missing : s.missingAt ≤ s.tokenPos) : Placed s.spot t.spot ns := by
  induction y with
  | refl => exact .refl missing
  | trans first second ih₁ ih₂ =>
    have kept := first.keeps h
    have one := ih₁ h (settles.imp id (second.clean kept.steady)) missing
    have two := ih₂ kept.steady (settles.imp (fun plain => (first.frame h).options ▸ plain) id)
      one.missing
    exact one.trans two kept.steady.prevEnd_le (second.keeps kept.steady).prevEnd
  | drop _ sub ih => exact (ih h settles missing).drop sub
  | advance r =>
    have follows := r.follows h.clear.sound
    have taken := h.clear.sound.start_le
    have onward := follows.sound.fullStart_le
    rw [follows.fullStart] at onward
    have later : _ ≤ (r.apply _).start := Nat.le_trans taken onward
    exact .none (Nat.le_trans missing later) later (Nat.le_refl _) fun before =>
      absurd before (Nat.not_lt.mpr taken)
  | greater s =>
    have start : (s.reread .greater).tokenPos = s.tokenPos :=
      (Rereading.again (r := .greater) nofun h.clear.sound).start
    have later := Nat.le_of_eq start.symm
    exact .none (Nat.le_trans missing later) later (Nat.le_refl _) fun _ => start
  | @settle r s t ns jsx late inner lt ih =>
    have steady := h.reread r late
    have settled : r ≠ .content := by
      rintro rfl
      rcases settles with plain | none
      · simp [plain, Rereading.isMarkup] at jsx
      · have frame := frame_reread .content h.clear
        exact late rfl (State.eq_empty_of_append frame.diagnostics (inner.clean steady none))
    have start : (s.reread r).tokenPos = s.tokenPos := (Rereading.again settled h.clear.sound).start
    have rest := ih steady settles (start ▸ missing)
    have same : (s.reread r).spot = s.spot := congrArg (Spot.mk s.prevEnd · s.missingAt) start
    rwa [same] at rest
  | enterName => exact .refl missing
  | report range message args _ _ ih =>
    refine ih h (settles.imp id fun none => ?_) missing
    exact absurd none (State.report_ne_empty range message args _)
  | inContext c _ ih => exact ih (h.inContext c) settles missing
  | inList l _ ih => exact ih (h.inList l) settles missing
  | nested _ ih => exact ih (h.nested _) settles missing
  | kept _ ih => exact ih h.openAttempt settles missing
  | rolledBack inner ih =>
    rw [inner.rollback_eq h]
    exact .refl missing
  | @node kind detail slots s t info inner marked _ _ _ ih =>
    have left := ih h settles missing
    refine left.close kind s.nodeStart (Nat.le_refl _) left.still ?_ ?_ ?_
    · exact congrArg Range.pos marked.range
    · exact Nat.le_of_eq (congrArg Range.stop marked.range)
    · have nested := left.nested_close kind s.nodeStart left.still left.begin marked.range
      exact .ofSlots detail nested left.nested
  | @around kind slots s t first inner fits _ _ _ ih =>
    have left := ih h settles missing
    have held := List.mem_singleton_self first
    have ahead := left.ahead first held
    refine left.close kind (t.nodeStartAt first.info) (left.begin first held) ahead rfl
      (Nat.le_refl _) ?_
    refine .ofSlots _ ?_ ?_
    · rw [fits]
      refine left.nested_close kind (t.nodeStartAt first.info) ahead (fun n hn => ?_) rfl
      rw [List.mem_singleton.mp hn]
      exact Nat.le_refl _
    · rw [fits]
      exact left.nested
  | @missing kind detail s =>
    refine .one (Nat.le_refl _) (Nat.le_refl _) missing (fun _ => rfl) (Nat.le_refl _)
      (Nat.le_max_right _ _) (fun _ => rfl) (.leaf detail ⟨?_, .nil⟩)
    exact fun _ no => (nomatch no)
  | @missingAround kind slots s t first _ inner fits gone range _ _ ih =>
    have left := ih h settles missing
    refine left.close kind s.nodeStart (Nat.le_refl _) left.still ?_ ?_ ?_
    · rw [Node.range_ofSlots, range]
      rfl
    · rw [Node.range_ofSlots, range]
      exact le_stop_close kind s.nodeStart
    · refine .ofSlots _ ?_ ?_
      · rw [fits]
        refine ⟨fun c hc => ?_, List.pairwise_singleton _ _⟩
        rw [List.mem_singleton.mp hc]
        exact ⟨Nat.le_refl _, Nat.le_refl _⟩
      · rw [fits]
        exact left.nested
  | missingTag jsx blamed =>
    rcases settles with plain | none
    · simp [plain] at jsx
    · exact absurd none blamed.some

namespace Document

variable (names : NameTable) (options : Options) (src : Source)

variable (settles : Settles (first names options src) (ending names options src).2)

include settles in
theorem placed_inner :
    Placed (first names options src).spot (ending names options src).2.spot
      (inner names options src) :=
  (yields_inner names options src).placed (steady_first names options src) settles (Nat.zero_le _)

theorem range_root : (parseWith names options src).root.range = ⟨0, src.size⟩ :=
  congrArg (fun source : Source => Range.mk 0 source.size) (source_ending names options src)

include settles in
/-- The root lies around all statements and the end of the source. -/
theorem nested_root :
    Nested (parseWith names options src).root.info ((inner names options src).map Node.info) := by
  have placed := placed_inner names options src settles
  have bounded := placed.stop_le (steady_ending names options src)
  rw [source_ending] at bounded
  refine ⟨fun c hc => ?_, List.pairwise_map.mpr placed.ordered⟩
  obtain ⟨n, hn, rfl⟩ := List.mem_map.mp hc
  have range : (parseWith names options src).root.info.range = ⟨0, src.size⟩ :=
    range_root names options src
  rw [range]
  exact ⟨Nat.zero_le _, bounded n hn⟩

include settles in
theorem nested_everywhere : (parseWith names options src).root.Everywhere Nested :=
  everywhere_root names options src (nested_root names options src settles)
    (placed_inner names options src settles).nested

omit settles in
/-- The root covers the source, and in the whole tree the children of a node lie inside it, one
behind the other. -/
theorem parse_nests (standard : options.variant = .standard) :
    (parseWith names options src).root.range = ⟨0, src.size⟩ ∧
    ∀ n ∈ (parseWith names options src).root.postorder,
      (∀ c ∈ n.children, n.range.pos ≤ c.range.pos ∧ c.range.stop ≤ n.range.stop) ∧
        n.children.Pairwise fun a b => a.range.stop ≤ b.range.pos := by
  have plain : options.isJsx = false := by simp [Options.isJsx, standard]
  have everywhere := nested_everywhere names options src (.inl plain)
  refine ⟨range_root names options src, fun n hn => ?_⟩
  obtain ⟨inside, ordered⟩ := everywhere.all n hn
  exact ⟨fun c hc => inside c.info (List.mem_map_of_mem hc), List.pairwise_map.mp ordered⟩

/-- A statement without an end, so with placeholders. -/
theorem parse_nests_unfinished :
    (parse {} (.ofString "if (")).root.range = ⟨0, 4⟩ ∧
    ∀ n ∈ (parse {} (.ofString "if (")).root.postorder,
      (∀ c ∈ n.children, n.range.pos ≤ c.range.pos ∧ c.range.stop ≤ n.range.stop) ∧
        n.children.Pairwise fun a b => a.range.stop ≤ b.range.pos := by
  have size : (Source.ofString "if (").size = 4 := by decide
  obtain ⟨range, nests⟩ := parse_nests {} {} (.ofString "if (") rfl
  exact ⟨size ▸ range, nests⟩

/-- Without a diagnostic the children of a node lie inside it one behind the other, with markup in
the source or without. -/
theorem parse_nests_markup (clean : (parseWith names options src).diagnostics = #[]) :
    ∀ n ∈ (parseWith names options src).root.postorder,
      (∀ c ∈ n.children, n.range.pos ≤ c.range.pos ∧ c.range.stop ≤ n.range.stop) ∧
        n.children.Pairwise fun a b => a.range.stop ≤ b.range.pos := by
  rw [diagnostics_parseWith] at clean
  have everywhere := nested_everywhere names options src (.inr clean)
  intro n hn
  obtain ⟨inside, ordered⟩ := everywhere.all n hn
  exact ⟨fun c hc => inside c.info (List.mem_map_of_mem hc), List.pairwise_map.mp ordered⟩

/-- An element with text and an expression in it. -/
theorem parse_nests_markup_element :
    (parseWith {} { variant := .jsx } (.ofString "<a>x \x7by\x7d</a>")).diagnostics = #[] ∧
    ∀ n ∈ (parseWith {} { variant := .jsx } (.ofString "<a>x \x7by\x7d</a>")).root.postorder,
      (∀ c ∈ n.children, n.range.pos ≤ c.range.pos ∧ c.range.stop ≤ n.range.stop) ∧
        n.children.Pairwise fun a b => a.range.stop ≤ b.range.pos := by
  have clean : (parseWith {} { variant := .jsx }
      (.ofString "<a>x \x7by\x7d</a>")).diagnostics.isEmpty = true := by decide +kernel
  exact ⟨Array.isEmpty_iff.mp clean, parse_nests_markup {} _ _ (Array.isEmpty_iff.mp clean)⟩

/-- The text behind an expression that breaks off begins before the expression ends. -/
theorem parse_overlaps_markup :
    ¬ ∀ n ∈ (parseWith {} { variant := .jsx } (.ofString "<a>\x7bx. ; </a>")).root.postorder,
      n.children.Pairwise fun a b => a.range.stop ≤ b.range.pos := by
  have found : (parseWith {} { variant := .jsx }
      (.ofString "<a>\x7bx. ; </a>")).root.postorder.all (fun n =>
        decide (n.children.Pairwise fun a b => a.range.stop ≤ b.range.pos)) = false := by
    decide +kernel
  simpa using found

end Document

end ScriptGrammar
