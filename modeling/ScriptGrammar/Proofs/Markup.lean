import ScriptGrammar.Proofs.Everywhere

/-!
# Elements without gaps

Where nothing is reported, an element is an opening tag, its children and a closing tag, each of
which begins where the one before it ends, and the text of a child is what the source has between
its ends. So it is at every depth: each node was closed so, and nothing that is reported later
touches a node that was closed before.
-/

namespace ScriptGrammar

open Parse

/-- Every node that is left on the way to a state without diagnostics is seamless. -/
theorem Parse.Yields.seamless {s t : State} {ns : List Node} (y : Yields s t ns) (h : s.Steady)
    (none : t.diagnostics = #[]) : ∀ n ∈ ns, n.Throughout (Seamless s.scanner.source) := by
  have whole {src : Source} {info : NodeInfo} {detail : Detail} {slots : List Slot}
      (here : Seamless src info.kind info.range detail (slots.flatMap Slot.nodes))
      (below : ∀ n ∈ slots.flatMap held, n.Throughout (Seamless src)) :
      ∀ n ∈ [Node.ofSlots info detail slots], n.Throughout (Seamless src) :=
    List.forall_mem_singleton.mpr (Node.throughout_ofSlots here below)
  induction y with
  | refl | advance | greater | enterName | rolledBack => exact fun _ no => (nomatch no)
  | trans first second ih₁ ih₂ =>
    have steady := (first.keeps h).steady
    intro n hn
    rcases List.mem_append.mp hn with hn | hn
    · exact ih₁ h (second.clean steady none) n hn
    · exact (first.frame h).scanner.source ▸ ih₂ steady none n hn
  | drop _ sub ih => exact fun n hn => ih h none n (sub.subset hn)
  | settle r _ settled _ _ ih =>
    exact (frame_reread r h.clear).scanner.source ▸ ih (h.reread r settled) none
  | inContext c _ ih => exact ih (h.inContext c) none
  | inList l _ ih => exact ih (h.inList l) none
  | nested _ ih => exact ih (h.nested _) none
  | kept _ ih => exact ih h.openAttempt none
  | node kind detail slots inner marked _ _ joins ih =>
    have here := joins none
    rw [(inner.frame h).scanner.source] at here
    exact whole (marked.kind ▸ here) (ih h none)
  | around kind slots inner fits _ _ joins ih =>
    have here := joins none
    rw [(inner.frame h).scanner.source] at here
    exact whole here (fits ▸ ih h none)
  | report range message args => exact absurd none (State.report_ne_empty range message args _)
  | missing _ _ blamed | missingTag _ blamed => exact absurd none blamed.some
  | missingAround _ _ some inner => exact absurd none (inner.reported h some)

namespace Document

/-- In the tree of a source that parses without diagnostics, the children of an element or a
fragment stand from the end of its opening tag to the beginning of its closing one without a gap,
and each piece of text is what the source has there. -/
theorem parse_tiles_elements (names : NameTable) (options : Options) (src : Source)
    (clean : (parseWith names options src).diagnostics = #[]) :
    ∀ n ∈ (parseWith names options src).root.postorder,
      (n.kind = .jsxElement →
        Enclosed .jsxOpeningElement .jsxClosingElement n.range n.children) ∧
      (n.kind = .jsxFragment →
        Enclosed .jsxOpeningFragment .jsxClosingFragment n.range n.children) ∧
      (n.kind = .jsxText →
        ∃ blank, n.detail = .content (src.slice n.range.pos n.range.stop) blank) := by
  rw [diagnostics_parseWith] at clean
  have inner := (yields_inner names options src).seamless (steady_first names options src) clean
  rw [source_first] at inner
  intro n hn
  have here := throughout_root names options src trivial inner n hn
  refine ⟨fun kind => ?_, fun kind => ?_, fun kind => ?_⟩
  all_goals
    rw [kind] at here
    exact here

/-- An element with text, an expression and an element in it. -/
theorem parse_tiles_elements_mixed :
    ∃ n ∈ (parseWith {} { variant := .jsx } (.ofString "<a>x \x7by\x7d\n<b /></a>")).root.postorder,
      n.kind = .jsxElement ∧ n.children.length = 6 ∧
        Enclosed .jsxOpeningElement .jsxClosingElement n.range n.children := by
  have clean : (parseWith {} { variant := .jsx }
      (.ofString "<a>x \x7by\x7d\n<b /></a>")).diagnostics.isEmpty = true := by decide +kernel
  have found : (parseWith {} { variant := .jsx }
      (.ofString "<a>x \x7by\x7d\n<b /></a>")).root.postorder.any fun n =>
        n.kind == .jsxElement && n.children.length == 6 := by decide +kernel
  obtain ⟨n, hn, holds⟩ := List.any_eq_true.mp found
  simp only [Bool.and_eq_true, beq_iff_eq] at holds
  refine ⟨n, hn, holds.1, holds.2, ?_⟩
  exact (parse_tiles_elements {} _ _ (Array.isEmpty_iff.mp clean) n hn).1 holds.1

end Document

end ScriptGrammar
