import ScriptGrammar.Listing
import ScriptGrammar.Proofs.Consumption
import ScriptGrammar.Proofs.Numbering
import ScriptGrammar.Proofs.Parents

/-!
# Every range can be cut out

A node ends at the last token taken, at its own beginning or at a placeholder, and each of these
is a character boundary of the source; a diagnostic is about a token, a node or a stretch that the
scanner measured. So whatever shows the text of a node or of a diagnostic cuts between characters:
the listing, which goes through the tree in the order a walk enters it, and the messages that quote
a tag.
-/

namespace ScriptGrammar

open Parse ScriptGrammar.Parser

/-- The range of a node is between two characters of the source. -/
def Inside (src : Source) (node : NodeInfo) (_ : List NodeInfo) : Prop :=
  src.sliceable node.range.pos node.range.stop

theorem Parse.Yields.inside {s t : State} {ns : List Node} (y : Yields s t ns) (h : s.Steady) :
    ∀ n ∈ ns, n.Everywhere (Inside s.scanner.source) := by
  refine fun n hn => Node.everywhere_of_forall (y.forall_made
    (P := fun src m => Inside src m.info (m.children.map Node.info)) ?_ ?_ ?_ h n hn)
  · intro src m p inside
    rwa [Node.info_as, Node.children_as]
  · exact fun y steady => (y.keeps steady).cuts _ (List.mem_singleton_self _)
  · exact fun steady _ _ => steady.cuts_empty

/-- What the token reports when it is read again can be cut out. -/
theorem Parse.State.told_reread {s : State} (r : Rereading) (h : s.Clear)
    (told : ∀ d ∈ s.reports, s.Cuts d.range) :
    ∀ d ∈ (s.reread r).reports, (s.reread r).Cuts d.range :=
  cuts_append told (r.reported h.sound) h (frame_reread r h).scanner.source

/-- Whatever is reported on the way can be cut out of the source, in attempts given up as well. -/
theorem Parse.Yields.told {s t : State} {ns : List Node} (y : Yields s t ns) (h : s.Steady)
    (told : ∀ d ∈ s.reports, s.Cuts d.range) : ∀ d ∈ t.reports, t.Cuts d.range := by
  induction y with
  | refl => exact told
  | trans first _ ih₁ ih₂ => exact ih₂ (first.keeps h).steady (ih₁ h told)
  | drop _ _ ih => exact ih h told
  | advance r =>
    have frame := frame_advance r h.clear
    exact State.cuts_append told (r.follows h.clear.sound).reported h.clear frame.scanner.source
  | greater => exact State.told_reread .greater h.clear told
  | settle r _ settled _ _ ih => exact ih (h.reread r settled) (State.told_reread r h.clear told)
  | @report range message args s t ns y reportable ih =>
    have steady := (y.keeps h).steady
    intro d hd
    rcases Array.mem_push.mp hd with old | rfl
    · exact ih h told d old
    · exact reportable.elim (fun here => here ▸ steady.clear.cuts_token) And.left
  | enterName | missing | missingTag => exact told
  | inContext c _ ih => exact ih (h.inContext c) told
  | inList l _ ih => exact ih (h.inList l) told
  | nested _ ih => exact ih (h.nested _) told
  | kept _ ih => exact ih h.openAttempt told
  | rolledBack y ih =>
    intro d hd
    rw [y.rollback_eq h]
    exact (y.cuts h.openAttempt _).mp (ih h.openAttempt told d hd)
  | node _ _ _ _ _ _ _ _ ih | around _ _ _ _ _ _ _ ih | missingAround _ _ _ _ _ _ _ _ _ ih =>
    exact ih h told

theorem Source.sliceable_iff {src : Source} {a b : Nat} :
    src.sliceable a b ↔ a ≤ b ∧ b ≤ src.size ∧ src.isBoundary a ∧ src.isBoundary b := by
  constructor
  · intro h
    simp only [sliceable, Bool.and_eq_true, decide_eq_true_eq] at h
    exact ⟨h.1.1, le_size_of_isBoundary h.2, h.1.2, h.2⟩
  · exact fun h => sliceable_of h.1 h.2.2.1 h.2.2.2

theorem Source.slice?_of_sliceable {src : Source} {a b : Nat} (h : src.sliceable a b) :
    src.slice? a b = some (src.slice a b) := if_pos h

/-- The name in an opening tag, as a message quotes it, is cut out of the source. -/
theorem leads_textOf_tag (fuel : Nat) (inExpression : Bool) {s : State} (h : s.Steady)
    (jsx : s.options.isJsx) (at_ : s.token = .lessThanToken)
    (enough : (Goal.element inExpression).measure s ≤ fuel) :
    Leads (@openingTag ⟨goal fuel⟩ inExpression) s fun o t =>
      ∀ name tag, o.name = some (name, tag) →
        t.scanner.source.slice? name.range.pos name.range.stop =
          some ((textOf name).run t).1 := by
  let _ : Grammar := ⟨goal fuel⟩
  have room : Room (Goal.element inExpression).rank s := by
    refine ⟨h, stamps_goal fuel, fun g t steady _ source le rank ready =>
      goal_answers fuel steady ready ?_⟩
    exact Nat.lt_of_lt_of_le (Goal.measure_lt steady source le rank) enough
  apply (leads_openingTag room jsx at_ inExpression).mono
  exact fun o t opened name tag same =>
    Source.slice?_of_sliceable (opened.since name tag same).1

namespace Document

variable (names : NameTable) (options : Options) (src : Source)

theorem inside_root : (parseWith names options src).root.Everywhere (Inside src) := by
  have range : (parseWith names options src).root.range = ⟨0, src.size⟩ := by
    rw [parseWith_eq, run_eq]
    exact congrArg (Range.mk 0 ·.size) (source_ending names options src)
  refine everywhere_root names options src ?_ fun n hn => ?_
  · show src.sliceable (parseWith names options src).root.range.pos
      (parseWith names options src).root.range.stop
    rw [range]
    exact Source.sliceable_of (Nat.zero_le _) Source.isBoundary_zero Source.isBoundary_size
  · exact source_first names options src ▸
      (yields_inner names options src).inside (steady_first names options src) n hn

theorem inside_reports : ∀ d ∈ (parseWith names options src).reports,
    src.sliceable d.range.pos d.range.stop := by
  have clear := clear_ofSource options names src
  have begun : ∀ d ∈ (first names options src).reports, (first names options src).Cuts d.range :=
    State.cuts_append (fun d no => absurd no (Array.not_mem_empty d))
      (Reading.follows .plain clear.sound).reported clear
      (frame_advance .plain clear).scanner.source
  obtain ⟨root, y⟩ := yields_closed names options src
  have steady := steady_first names options src
  rw [parseWith_eq, final_eq]
  intro d hd
  have cuts := y.told steady begun d hd
  rwa [y.cuts steady, State.Cuts, source_first] at cuts

/-- The diagnostics are among all that was ever reported. -/
theorem mem_reports : ∀ d ∈ (parseWith names options src).diagnostics,
    d ∈ (parseWith names options src).reports := by
  have begun : ∀ d ∈ (first names options src).diagnostics,
      d ∈ (first names options src).reports :=
    (Moves.advance .plain _).reported (clear_ofSource options names src)
      fun d no => absurd no (Array.not_mem_empty d)
  obtain ⟨root, y⟩ := yields_closed names options src
  rw [parseWith_eq, final_eq]
  exact y.moves.reported (steady_first names options src).clear begun

theorem inside_diagnostics : ∀ d ∈ (parseWith names options src).diagnostics,
    src.sliceable d.range.pos d.range.stop :=
  fun d hd => inside_reports names options src d (mem_reports names options src d hd)

/-- All nodes and all diagnostics lie between characters of the source, so the text of each line
of a listing is there, and no node is met twice on the way to the map of parents. On the way, too,
in attempts that are given up later, all that is reported lies between characters, tokens and nodes
end behind where they begin, and a tag that a message quotes is cut out of the source. -/
theorem parse_cuts_ranges :
    (∀ n ∈ (parseWith names options src).root.postorder, n.range.pos ≤ n.range.stop ∧
      n.range.stop ≤ src.size ∧ src.isBoundary n.range.pos ∧ src.isBoundary n.range.stop) ∧
    (∀ d ∈ (parseWith names options src).diagnostics, d.range.pos ≤ d.range.stop ∧
      d.range.stop ≤ src.size ∧ src.isBoundary d.range.pos ∧ src.isBoundary d.range.stop) ∧
    (∀ d ∈ (parseWith names options src).reports, d.range.pos ≤ d.range.stop ∧
      d.range.stop ≤ src.size ∧ src.isBoundary d.range.pos ∧ src.isBoundary d.range.stop) ∧
    (∀ line ∈ (parseWith names options src).root.outline 0,
      src.slice? line.2.range.pos line.2.range.stop =
        some (src.slice line.2.range.pos line.2.range.stop)) ∧
    ((Parents.ofRoot (parseWith names options src).root).entries.map Prod.fst).Nodup ∧
    (∀ s : State, Reached s → s.tokenRange.ordered ∧
      ∀ kind start, (s.close kind start).1.range.ordered) ∧
    ∀ (fuel : Nat) (inExpression : Bool) (s : State), s.Steady → s.options.isJsx →
      s.token = .lessThanToken → (Goal.element inExpression).measure s ≤ fuel →
      Leads (@openingTag ⟨goal fuel⟩ inExpression) s fun o t => ∀ name tag,
        o.name = some (name, tag) →
        t.scanner.source.slice? name.range.pos name.range.stop =
          some ((textOf name).run t).1 := by
  have nodes := (inside_root names options src).all
  refine ⟨fun n hn => Source.sliceable_iff.mp (nodes n hn),
    fun d hd => Source.sliceable_iff.mp (inside_diagnostics names options src d hd),
    fun d hd => Source.sliceable_iff.mp (inside_reports names options src d hd), ?_, ?_, ?_, ?_⟩
  · intro line hl
    have entered : line.2 ∈ (parseWith names options src).root.preorder := by
      rw [← Node.outline_eq _ 0]
      exact List.mem_map_of_mem hl
    exact Source.slice?_of_sliceable
      (nodes _ ((Node.preorder_perm _).mem_iff.mp entered))
  · exact Parents.nodup_ofRoot (numbered_root names options src).nodup
  · intro s reached
    refine ⟨?_, fun kind start => ?_⟩
    · exact decide_eq_true (Source.sliceable_iff.mp reached.clear.cuts_token).1
    · exact decide_eq_true (le_stop_close kind start)
  · exact fun fuel inExpression s => leads_textOf_tag fuel inExpression

/-- An element that is left open, whose name is a letter of two bytes. -/
theorem parse_cuts_ranges_open_element :
    let src := Source.ofString "<é>"
    let s := first {} { variant := .jsx } src
    (s.Steady ∧ s.options.isJsx ∧ s.token = .lessThanToken) ∧
    (∀ n ∈ (parseWith {} { variant := .jsx } src).root.postorder,
      src.isBoundary n.range.pos ∧ src.isBoundary n.range.stop) ∧
    Leads (@openingTag ⟨goal 64⟩ true) s fun o t => ∀ name tag, o.name = some (name, tag) →
      t.scanner.source.slice? name.range.pos name.range.stop = some ((textOf name).run t).1 := by
  intro src s
  have steady : s.Steady := steady_first _ _ _
  have at_ : s.token = .lessThanToken := by decide +kernel
  obtain ⟨nodes, _, _, _, _, _, tags⟩ := parse_cuts_ranges {} { variant := .jsx } src
  have quoted := tags 64 true s steady rfl at_ (by decide +kernel)
  exact ⟨⟨steady, rfl, at_⟩, fun n hn => (nodes n hn).2.2, quoted⟩

end Document
end ScriptGrammar
