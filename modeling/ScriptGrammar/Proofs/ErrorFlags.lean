import ScriptGrammar.Proofs.Everywhere

/-!
# Errors show upward

The mark of an error in a node is not computed from its children. What makes it show in all nodes
above is that the latest node with an error, or a later one, is remembered under its number, and
that a node is closed with a mark if that number is not below the one its first descendant got.
-/

namespace ScriptGrammar

open Parse

/-- What the flags of a node and of its children say of one another. -/
structure Flagged (parent : NodeInfo) (children : List NodeInfo) : Prop where
  upward : ∀ c ∈ children, c.flags.containsError → parent.flags.containsError
  own : parent.flags.hasError → parent.flags.containsError
  missing : parent.flags.missing →
    parent.range.pos = parent.range.stop ∧ parent.flags.containsError

/-- How many nodes there are, and the latest of them with an error. -/
structure Tally where
  count : Nat
  lastError : Option Nat

def Parse.State.tally (s : State) : Tally := ⟨s.nodeCount, s.lastError⟩

/-- An error in one of the nodes left on the way from `a` to `b` is remembered under a number given
out since. -/
structure Traced (a b : Tally) (ns : List Node) : Prop where
  count : a.count ≤ b.count
  later : ∀ e, a.lastError = some e → ∃ e', b.lastError = some e' ∧ e ≤ e'
  traced : ∀ n ∈ ns, n.containsError → ∃ e, b.lastError = some e ∧ a.count ≤ e
  flagged : ∀ n ∈ ns, n.Everywhere Flagged

namespace Traced

variable {a b c : Tally} {ms ns : List Node}

theorem refl (a : Tally) : Traced a a [] :=
  ⟨Nat.le_refl _, fun e he => ⟨e, he, Nat.le_refl e⟩, fun _ no => (nomatch no),
    fun _ no => (nomatch no)⟩

theorem one {n : Node} (count : a.count ≤ b.count)
    (later : ∀ e, a.lastError = some e → ∃ e', b.lastError = some e' ∧ e ≤ e')
    (traced : n.containsError → ∃ e, b.lastError = some e ∧ a.count ≤ e)
    (flagged : n.Everywhere Flagged) : Traced a b [n] :=
  ⟨count, later, List.forall_mem_singleton.mpr traced, List.forall_mem_singleton.mpr flagged⟩

theorem drop (h : Traced a b ns) (sub : ms.Sublist ns) : Traced a b ms :=
  ⟨h.count, h.later, fun n hn => h.traced n (sub.subset hn),
    fun n hn => h.flagged n (sub.subset hn)⟩

theorem trans (h : Traced a b ms) (k : Traced b c ns) : Traced a c (ms ++ ns) := by
  refine ⟨Nat.le_trans h.count k.count, fun e he => ?_, fun n hn he => ?_, fun n hn => ?_⟩
  · obtain ⟨e', he', le⟩ := h.later e he
    obtain ⟨e'', he'', le'⟩ := k.later e' he'
    exact ⟨e'', he'', Nat.le_trans le le'⟩
  · rcases List.mem_append.mp hn with hm | hn
    · obtain ⟨e, found, le⟩ := h.traced n hm he
      obtain ⟨e', found', le'⟩ := k.later e found
      exact ⟨e', found', Nat.le_trans le le'⟩
    · obtain ⟨e, found, le⟩ := k.traced n hn he
      exact ⟨e, found, Nat.le_trans h.count le⟩
  · rcases List.mem_append.mp hn with hm | hn
    · exact h.flagged n hm
    · exact k.flagged n hn

end Traced

section Closing

variable {s t : State} {ns : List Node}

/-- A node closed over what was left is marked if any of it is. -/
theorem Traced.below (h : Traced s.tally t.tally ns) (kind : Kind) {n : Node} (hn : n ∈ ns)
    (error : n.containsError) : (t.close kind s.nodeStart).1.flags.containsError := by
  obtain ⟨e, found, le⟩ := h.traced n hn error
  have below : t.lastError.any (s.nodeStart.firstNode ≤ ·) :=
    (Option.any_eq_true _ _).mpr ⟨e, found, decide_eq_true le⟩
  simp only [State.close, below, Bool.or_true, Bool.true_or]

theorem own_close {kind : Kind} {start : NodeStart} (own : (t.close kind start).1.flags.hasError) :
    (t.close kind start).1.flags.containsError := by
  have pending : t.errorPending := own
  simp only [State.close, pending, Bool.true_or]

/-- A node closed with a mark is the latest one with an error. -/
theorem Traced.close (h : Traced s.tally t.tally ns) (steady : t.Steady) (kind : Kind)
    (start : NodeStart)
    {node : Node} (error : node.containsError = (t.close kind start).1.flags.containsError)
    (flagged : node.Everywhere Flagged) : Traced s.tally (t.close kind start).2.tally [node] := by
  have lastError : (t.close kind start).2.tally.lastError =
      if (t.close kind start).1.flags.containsError then some t.nodeCount else t.lastError := rfl
  refine .one (Nat.le_succ_of_le h.count) (fun e he => ?_) (fun found => ?_) flagged
  · obtain ⟨e', he', le⟩ := h.later e he
    rw [lastError]
    split
    · exact ⟨_, rfl, Nat.le_trans le (Nat.le_of_lt (steady.lastError e' he').1)⟩
    · exact ⟨e', he', le⟩
  · rw [lastError, if_pos (error ▸ found)]
    exact ⟨_, rfl, h.count⟩

/-- A placeholder is the latest node with an error. -/
theorem traced_closeMissing (steady : s.Steady) (kind : Kind) {node : Node}
    (flagged : node.Everywhere Flagged) : Traced s.tally (s.closeMissing kind).2.tally [node] := by
  refine .one (Nat.le_succ _) (fun e he => ?_) (fun _ => ⟨s.nodeCount, rfl, Nat.le_refl _⟩) flagged
  exact ⟨s.nodeCount, rfl, Nat.le_of_lt (steady.lastError e he).1⟩

end Closing

/-- Every parse leaves its nodes flagged so. -/
theorem Parse.Yields.traced {s t : State} {ns : List Node} (y : Yields s t ns) (h : s.Steady) :
    Traced s.tally t.tally ns := by
  induction y with
  | refl | advance | greater | enterName => exact .refl _
  | report _ _ _ _ _ ih => exact ih h
  | trans first second ih₁ ih₂ => exact (ih₁ h).trans (ih₂ (first.keeps h).steady)
  | drop _ sub ih => exact (ih h).drop sub
  | settle r _ settled _ _ ih => exact ih (h.reread r settled)
  | inContext c _ ih => exact ih (h.inContext c)
  | inList l _ ih => exact ih (h.inList l)
  | nested _ ih => exact ih (h.nested _)
  | kept _ ih => exact ih h.openAttempt
  | rolledBack inner _ =>
    rw [inner.rollback_eq h]
    exact .refl _
  | @node kind detail slots s t info inner marked _ _ _ ih =>
    have left := ih h
    refine left.close (inner.keeps h).steady kind s.nodeStart marked.containsError ?_
    refine .ofSlots detail ⟨fun c hc error => ?_, fun own => ?_, fun missing => ?_⟩ left.flagged
    · obtain ⟨n, hn, rfl⟩ := List.mem_map.mp hc
      rw [marked.containsError]
      exact left.below kind hn error
    · rw [marked.hasError] at own
      rw [marked.containsError]
      exact own_close own
    · rw [marked.missing] at missing
      cases missing
  | @around kind slots s t first inner fits _ _ _ ih =>
    have left := ih h
    refine left.close (inner.keeps h).steady kind (t.nodeStartAt first.info) rfl ?_
    refine .ofSlots _ ⟨fun c hc error => ?_, own_close, fun no => (by cases no)⟩ ?_
    · rw [fits] at hc
      rw [List.mem_singleton.mp hc] at error
      have inherits : (t.nodeStartAt first.info).inheritsError := error
      simp only [State.close, inherits, Bool.or_true, Bool.true_or]
    · rw [fits]
      exact left.flagged
  | missing kind detail =>
    refine traced_closeMissing h kind (.leaf detail ⟨?_, fun _ => rfl, fun _ => ⟨rfl, rfl⟩⟩)
    intro c hc
    cases hc
  | @missingAround kind slots s t first _ inner fits gone range _ _ ih =>
    have left := ih h
    have held := List.mem_singleton_self first
    obtain ⟨⟨_, _, missing⟩, _⟩ := left.flagged first held
    have error := left.below kind held (missing gone).2
    refine left.close (inner.keeps h).steady kind s.nodeStart rfl ?_
    refine .ofSlots _ ⟨fun _ _ _ => error, fun _ => error, fun _ => ⟨?_, error⟩⟩ ?_
    · rw [range]
      rfl
    · rw [fits]
      exact left.flagged
  | @missingTag s _ blamed =>
    have name : (Node.leaf ((s.closeMissing .jsxClosingElement).2.closeMissing .identifier).1
        (.name "" none)).Everywhere Flagged :=
      .leaf _ ⟨fun _ no => (by cases no), fun _ => rfl, fun _ => ⟨rfl, rfl⟩⟩
    have below := traced_closeMissing (h.closeMissing .jsxClosingElement blamed.some) .identifier
      name
    refine ((traced_closeMissing h .jsxClosingElement ?_).trans below).drop
      (List.sublist_append_left _ _)
    exact .ofSlots _ ⟨fun _ _ _ => rfl, fun _ => rfl, fun _ => ⟨rfl, rfl⟩⟩
      (List.forall_mem_singleton.mpr name)

theorem Flagged.down {parent : NodeInfo} {children : List NodeInfo} (h : Flagged parent children)
    (quiet : parent.flags.containsError = false) :
    ∀ c ∈ children, c.flags.containsError = false := fun c hc =>
  Bool.eq_false_iff.mpr fun error => Bool.eq_false_iff.mp quiet (h.upward c hc error)

namespace Document

variable (names : NameTable) (options : Options) (src : Source)

theorem containsError_root : (parseWith names options src).root.containsError ↔
    (parseWith names options src).diagnostics ≠ #[] := by
  rw [parseWith_eq, run_eq, Node.containsError_ofSlots]
  simp

theorem flagged_inner : ∀ n ∈ inner names options src, n.Everywhere Flagged :=
  ((yields_inner names options src).traced (steady_first names options src)).flagged

/-- The root is marked by the diagnostics, not by what is below it. -/
theorem flagged_root : Flagged (parseWith names options src).root.info
    ((inner names options src).map Node.info) := by
  have kept := (yields_inner names options src).keeps (steady_first names options src)
  refine ⟨fun c hc error => ?_, fun no => (nomatch no), fun no => (nomatch no)⟩
  obtain ⟨n, hn, rfl⟩ := List.mem_map.mp hc
  have some : (parseWith names options src).diagnostics ≠ #[] := by
    rw [parseWith_eq]
    dsimp only
    rw [diagnostics_final]
    exact kept.diagnosed n hn error
  exact (containsError_root names options src).mpr some

/-- The root is marked exactly if there are diagnostics; marks go upward; a placeholder is empty and
marked. So without diagnostics nothing is marked and nothing is missing. -/
theorem parse_flags_errors :
    ((parseWith names options src).root.containsError ↔
      (parseWith names options src).diagnostics ≠ #[]) ∧
    (∀ n ∈ (parseWith names options src).root.postorder,
      (∀ c ∈ n.children, c.containsError → n.containsError) ∧
        (n.isMissing → n.range.pos = n.range.stop ∧ n.containsError)) ∧
    ((parseWith names options src).diagnostics = #[] →
      ∀ n ∈ (parseWith names options src).root.postorder,
        n.isMissing = false ∧ n.info.flags.hasError = false ∧ n.containsError = false) := by
  have everywhere := everywhere_root names options src (flagged_root names options src)
    (flagged_inner names options src)
  have root := containsError_root names options src
  refine ⟨root, fun n hn => ?_, fun none n hn => ?_⟩
  · obtain ⟨upward, _, missing⟩ := everywhere.all n hn
    exact ⟨fun c hc => upward c.info (List.mem_map_of_mem hc), missing⟩
  · have top := Bool.eq_false_iff.mpr fun error => root.mp error none
    obtain ⟨⟨_, own, missing⟩, quiet⟩ := everywhere.descend top (fun _ _ => Flagged.down) n hn
    refine ⟨Bool.eq_false_iff.mpr fun gone => ?_, Bool.eq_false_iff.mpr fun failed => ?_, quiet⟩
    · exact Bool.eq_false_iff.mp quiet (missing gone).2
    · exact Bool.eq_false_iff.mp quiet (own failed)

end Document

end ScriptGrammar
