import ScriptGrammar.Parse.Document
import ScriptGrammar.Proofs.Parse.Attempt
import ScriptGrammar.Proofs.Parse.Elements
import ScriptGrammar.Proofs.Parse.Operators
import ScriptGrammar.Proofs.Parse.Statements

/-!
# The knot

Every production leaves its result if the goals it returns to do. A goal is called behind a token
or in place of one of a higher rank, so what is left of the source and the rank, taken together,
go down, and the bound on the recursion is never reached.
-/

namespace ScriptGrammar

open Parse ScriptGrammar.Parser

variable {s : State}

namespace Goal

theorem rank_lt (g : Goal) : g.rank < 8 := by cases g <;> simp [rank]

/-- How deep the recursion may go from here at most. -/
def measure (g : Goal) (s : State) : Nat := 8 * (s.scanner.source.size - s.prevEnd) + g.rank

theorem measure_lt {g g' : Goal} {t : State} (h : t.Steady)
    (source : t.scanner.source = s.scanner.source) (le : s.prevEnd ≤ t.prevEnd)
    (rank : t.prevEnd = s.prevEnd → g'.rank < g.rank) : g'.measure t < g.measure s := by
  have inside := h.prevEnd_le_size
  rw [source] at inside
  have small := g'.rank_lt
  unfold measure
  rw [source]
  rcases Nat.eq_or_lt_of_le le with still | lt
  · have lower := rank still.symm
    rw [still]
    omega
  · omega

/-- The production of a goal, with room below the rank of the goal. -/
theorem answers_step [Grammar] {g : Goal} (room : Room g.rank s) (ready : g.Ready s) :
    g.Answers (step g) s := by
  cases g with
  | statement => exact ⟨makes_statementStep (r := 0) room, fun _ no => (nomatch no), trivial⟩
  | assignment arrowTypes =>
    have got := leads_assignmentStep (r := 0) room arrowTypes
    exact ⟨got.1, fun _ no => (nomatch no), got.2⟩
  | binary min arrowTypes =>
    have got := leads_binaryStep (r := 0) room min arrowTypes
    exact ⟨got.1, fun _ no => (nomatch no), got.2⟩
  | unary =>
    exact ⟨makes_unaryStep (r := 0) room, fun _ no => (nomatch no), kind_unaryStep (r := 0) room⟩
  | primary => exact ⟨makes_primaryStep room, fun _ no => (nomatch no), kind_primaryStep s⟩
  | type =>
    exact ⟨makes_typeStep (r := 0) room, fun _ no => (nomatch no), promises_typeStep (r := 0) room⟩
  | typeOperand min =>
    have got := leads_typeOperandStep room min
    exact ⟨got.1, fun _ no => (nomatch no), got.2⟩
  | binding => exact ⟨makes_bindingStep room, fun _ no => (nomatch no), isThis_bindingStep s⟩
  | element inExpression =>
    obtain ⟨g, operand, spans⟩ := leads_elementStep room ready.1 ready.2 inExpression
    exact ⟨g.yields, fun _ _ => ⟨g.yields, g.floor⟩, operand, spans⟩
  | namespaceTail named =>
    exact ⟨makes_namespaceTailStep room named, fun _ no => (nomatch no), trivial⟩

end Goal

/-- A goal is answered within any bound above its measure. -/
theorem goal_answers (fuel : Nat) {g : Goal} (h : s.Steady) (ready : g.Ready s)
    (enough : g.measure s < fuel) : g.Answers (goal fuel g) s := by
  induction fuel generalizing g s with
  | zero => exact absurd enough (Nat.not_lt_zero _)
  | succ fuel ih =>
    let _ : Grammar := ⟨goal fuel⟩
    have room : Room g.rank s := by
      refine ⟨h, stamps_goal fuel, fun g' t steady options source le rank ready =>
        ih steady ready ?_⟩
      have lower := Goal.measure_lt steady source le rank
      omega
    exact Goal.answers_step room ready

theorem Parse.State.token_close (s : State) (kind : Kind) (start : NodeStart) :
    (s.close kind start).2.token = s.token := rfl

theorem Parse.State.diagnostics_close (s : State) (kind : Kind) (start : NodeStart) :
    (s.close kind start).2.diagnostics = s.diagnostics := rfl

theorem Parse.State.reports_close (s : State) (kind : Kind) (start : NodeStart) :
    (s.close kind start).2.reports = s.reports := rfl

namespace Document

variable (names : NameTable) (options : Options) (src : Source)

/-- The first token of the source is at the cursor. -/
def first : State := (State.ofSource options names src).advance .plain

/-- The statements of the source, and where they end. -/
def body : List Node × State :=
  (listOf .sourceElements (goal (depthBound src) .statement)).run (first names options src)

theorem steady_first : (first names options src).Steady := by
  refine State.Steady.advance .plain (clear_ofSource options names src)
    Source.isBoundary_zero (fun _ => Nat.zero_le _)
    (fun _ no => absurd no (Array.not_mem_empty _)) ?_ ?_
  · exact fun _ no => (nomatch no)
  · exact fun no => (nomatch no)

theorem source_first : (first names options src).scanner.source = src :=
  (frame_advance .plain (clear_ofSource options names src)).scanner.source

theorem measure_lt_depthBound (g : Goal) {t : State} (source : t.scanner.source = src) :
    g.measure t < depthBound src := by
  have small := g.rank_lt
  unfold Goal.measure depthBound
  rw [source]
  omega

theorem room_first : @Room ⟨goal (depthBound src)⟩ 6 (first names options src) := by
  let _ : Grammar := ⟨goal (depthBound src)⟩
  refine ⟨steady_first names options src, stamps_goal _, fun g t steady _ source _ _ ready => ?_⟩
  have source : t.scanner.source = src := source.trans (source_first names options src)
  exact goal_answers _ steady ready (measure_lt_depthBound src g source)

theorem yields_body :
    Yields (first names options src) (body names options src).2 (body names options src).1 := by
  let _ : Grammar := ⟨goal (depthBound src)⟩
  exact makes_listOf (room_first names options src) .sourceElements fun _ h _ _ => makes_statement h

theorem steady_body : (body names options src).2.Steady :=
  ((yields_body names options src).keeps (steady_first names options src)).steady

/-- The node at the end of the source, and the state behind it. -/
def ending : Node × State :=
  (build .endOfFileToken (body names options src).2.nodeStart []).run (body names options src).2

/-- All that the root is closed over. -/
def inner : List Node := (body names options src).1 ++ [(ending names options src).1]

theorem yields_inner : Yields (first names options src) (ending names options src).2
    (inner names options src) :=
  (yields_body names options src).trans (.node .endOfFileToken .none [] (.refl _) (.refl _)
    ⟨nofun, rfl, trivial, nofun⟩ trivial fun _ => trivial)

theorem steady_ending : (ending names options src).2.Steady :=
  ((yields_inner names options src).keeps (steady_first names options src)).steady

theorem source_ending : (ending names options src).2.scanner.source = src :=
  ((yields_inner names options src).frame (steady_first names options src)).scanner.source.trans
    (source_first names options src)

/-- The root as it is closed, and the state a parse ends in. -/
def closed : NodeInfo × State :=
  (ending names options src).2.close .sourceFile (first names options src).nodeStart

theorem run_eq : run names options src =
    (.ofSlots
      { (closed names options src).1 with
        range := ⟨0, (closed names options src).2.scanner.source.size⟩
        flags := { (closed names options src).1.flags with
          hasError := false
          containsError := !(closed names options src).2.diagnostics.isEmpty } }
      (.variant (closed names options src).2.options.variant)
      [.list .statements (body names options src).1,
        .one .endOfFileToken (ending names options src).1],
      (closed names options src).2) := by
  rfl

theorem final_eq : (run names options src).2 = (closed names options src).2 :=
  congrArg Prod.snd (run_eq names options src)

theorem diagnostics_final :
    (run names options src).2.diagnostics = (ending names options src).2.diagnostics := by
  rw [final_eq]
  exact State.diagnostics_close _ _ _

theorem parseWith_eq : parseWith names options src =
    { source := src
      root := (run names options src).1
      diagnostics := (run names options src).2.diagnostics
      names := (run names options src).2.names
      reports := (run names options src).2.reports
      exhausted := (run names options src).2.exhausted
      stalled := (run names options src).2.stalled
      torn := (run names options src).2.scanner.torn } := by
  unfold parseWith
  cases run names options src
  rfl

theorem diagnostics_parseWith :
    (parseWith names options src).diagnostics = (body names options src).2.diagnostics := by
  rw [parseWith_eq]
  exact (diagnostics_final names options src).trans (State.diagnostics_close _ .endOfFileToken _)

theorem reports_parseWith :
    (parseWith names options src).reports = (body names options src).2.reports := by
  have ended : (ending names options src).2.reports = (body names options src).2.reports :=
    State.reports_close _ .endOfFileToken _
  have last : (closed names options src).2.reports = (ending names options src).2.reports :=
    State.reports_close _ .sourceFile _
  rw [parseWith_eq, final_eq]
  exact last.trans ended

theorem yields_closed : ∃ root,
    Yields (first names options src) (closed names options src).2 [root] :=
  ⟨_, .node .sourceFile .none
    [.list .statements (body names options src).1,
      .one .endOfFileToken (ending names options src).1]
    (by simpa [inner] using yields_inner names options src) (.refl _)
    ⟨nofun, rfl, trivial, nofun⟩ trivial
    fun _ => trivial⟩

end Document
end ScriptGrammar
