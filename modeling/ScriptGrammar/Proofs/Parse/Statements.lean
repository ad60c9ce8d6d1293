import ScriptGrammar.Parse.Statement
import ScriptGrammar.Proofs.Parse.Declarations

/-!
# Statements

A statement inside another stands behind the word the other begins with.
-/

namespace ScriptGrammar

open Parse ScriptGrammar.Parser

variable [Grammar] {r floor : Nat} {s s₀ : State} {ns : List Node}

theorem makes_condition (h : Room (r + 5) s) : Makes condition s := by
  refine Leads.read (Leads.ite (fun _ => makes_expressionWithIn h) fun _ => ?_)
  apply h.begin.wanting
  intro _ t g
  apply g.on (makes_expressionWithIn g.room)
  intro e t g
  exact g.wanting fun _ t g => (g.gives (by simp)).makes

theorem makes_ifStatement (h : Room r s) (at_ : s.token = .ifKeyword) : Makes ifStatement s := by
  refine Leads.read (h.begin.passing at_ (by decide) fun t g => ?_)
  apply g.on (makes_condition g.room)
  intro e t g
  apply g.on (makes_statement g.room)
  intro yes t g
  apply g.on (makes_after g.room (by decide) makes_statement)
  intro no t g
  exact (g.buildFree (by simp) (by rfl) (by rfl)).makes

theorem makes_doStatement (h : Room r s) (at_ : s.token = .doKeyword) : Makes doStatement s := by
  refine Leads.read (h.begin.passing at_ (by decide) fun t g => ?_)
  apply g.on (makes_statement g.room)
  intro body t g
  apply g.wanting
  intro _ t g
  apply g.on (makes_condition g.room)
  intro e t g
  apply g.on (makes_accept _ t)
  intro _ t g
  exact (g.buildFree (by simp) (by rfl) (by rfl)).makes

theorem makes_whileStatement (h : Room r s) (at_ : s.token = .whileKeyword) :
    Makes whileStatement s := by
  refine Leads.read (h.begin.passing at_ (by decide) fun t g => ?_)
  apply g.on (makes_condition g.room)
  intro e t g
  apply g.on (makes_statement g.room)
  intro body t g
  exact (g.buildFree (by simp) (by rfl) (by rfl)).makes

theorem makes_withStatement (h : Room r s) (at_ : s.token = .withKeyword) :
    Makes withStatement s := by
  refine Leads.read (h.begin.passing at_ (by decide) fun t g => ?_)
  apply g.wanting
  intro _ t g
  apply g.on (makes_expressionWithIn g.room)
  intro e t g
  apply g.wanting
  intro _ t g
  apply g.on (makes_statement g.room)
  intro body t g
  exact (g.buildFree (by simp) (by rfl) (by rfl)).makes

omit [Grammar] in
theorem asks_isLetDeclaration (h : s.Steady) : Asks isLetDeclaration s :=
  asks_aheadNext h (makes_read _ _)

theorem asks_nextIsUsingName (h : Room r s) : Asks (aheadNext isUsingName) s :=
  asks_aheadNext h.steady (makes_isUsingName (h.openAttempt.later (yields_advance _)))

theorem asks_startsLoopVariables (h : Room r s) : Asks startsLoopVariables s := by
  apply asks_from
  split
  · exact asks_pure _ s
  · exact asks_pure _ s
  · exact asks_isLetDeclaration h.steady
  · refine asks_aheadNext h.steady (Leads.ifAt (fun _ => .refl _) fun _ => ?_)
    exact makes_read _ _
  · exact asks_nextIsUsingName h
  · exact asks_pure _ s

omit [Grammar] in
theorem startsLoopVariables_token (starts : (startsLoopVariables.run s).1 = true) :
    s.token ≠ .endOfFileToken := by
  intro ended
  have answer : Leads startsLoopVariables s fun b _ => b = false := by
    apply Leads.read
    rw [ended]
    rfl
  exact absurd (answer.symm.trans starts) (by decide)

theorem makes_loopInitializer (h : Room (r + 5) s) : Makes loopInitializer s := by
  apply Leads.ifAt (fun _ => .refl s)
  intro _
  apply h.begin.answer (asks_startsLoopVariables h)
  intro trace g
  refine Leads.ite (fun starts => ?_) fun _ => ?_
  · have more := startsLoopVariables_token starts
    exact g.on (takes_variableDeclarationList g.room more true).makes fun list t g =>
      (g.gives (by simp)).makes
  · apply g.on (makes_disallowingIn fun c => makes_expression (g.room.inContext c))
    intro e t g
    exact (g.gives (by simp)).makes

theorem leads_memberLoop {awaits : Option Node} {init : Node}
    (g : Grown floor 6 s₀ s (held awaits ++ [init])) (isOf : Bool) :
    Leads (memberLoop s₀.nodeStart awaits init isOf) s fun n t => Grown floor 6 s₀ t (held n) := by
  apply Leads.fork fun (e : Node) t => Grown floor 6 s₀ t (held awaits ++ [init] ++ [e])
  · intro rest
    refine Leads.ite (fun _ => ?_) fun _ => ?_
    · exact (g.makes (makes_assignmentWithIn g.room)).bind rest
    · exact (g.makes (makes_expressionWithIn g.room)).bind rest
  intro e t g
  apply g.wanting
  intro _ t g
  apply g.on (makes_statement g.room)
  intro body t g
  exact g.buildFree (by simp) (by cases isOf <;> rfl) rfl

theorem leads_clauseLoop {init : Option Node} (g : Grown floor 6 s₀ s (held init)) :
    Leads (clauseLoop s₀.nodeStart init) s fun n t => Grown floor 6 s₀ t (held n) := by
  apply g.wanting
  intro _ t g
  apply Leads.read
  apply g.on (makes_optionally fun _ => makes_expressionWithIn g.room)
  intro condition t g
  apply g.wanting
  intro _ t g
  apply Leads.read
  apply g.on (makes_optionally fun _ => makes_expressionWithIn g.room)
  intro step t g
  apply g.wanting
  intro _ t g
  apply g.on (makes_statement g.room)
  intro body t g
  exact g.buildFree (by simp) rfl rfl

theorem makes_forStatement (h : Room r s) (at_ : s.token = .forKeyword) : Makes forStatement s := by
  refine Leads.read (h.begin.passing at_ (by decide) fun t g => ?_)
  apply g.on (makes_acceptToken _ t (by rfl))
  intro awaits t g
  apply g.wanting
  intro _ t g
  apply g.on (makes_loopInitializer g.room)
  intro init t g
  cases init with
  | none => exact (leads_clauseLoop (g.drop (by simp))).makes
  | some init =>
    apply Leads.fork fun (_ : Bool) t => Grown (s.prevEnd + 1) 6 s t (held awaits ++ [init])
    · intro rest
      refine Leads.ite (fun _ => ?_) fun _ => ?_
      · exact (g.makes (makes_expect _ t)).bind fun isOf t g => rest isOf t (g.drop (by simp))
      · exact (g.makes (makes_accept _ t)).bind fun isOf t g => rest isOf t (g.drop (by simp))
    intro isOf t g
    refine g.on (makes_pureOr _ (makes_accept _ t)) fun _ t g => Leads.ite (fun _ => ?_) fun _ => ?_
    · exact (leads_memberLoop (g.drop (by simp)) isOf).makes
    · exact (leads_clauseLoop (g.drop (by simp))).makes

theorem makes_jumpStatement (h : Room r s) (kind : Kind) (free : kind.isFree = true) :
    Makes (jumpStatement kind) s := by
  refine Leads.read (h.begin.on (makes_next s) fun _ t g => Leads.read ?_)
  apply g.on (makes_optionally fun _ => makes_identifier t)
  intro label t g
  apply g.on (makes_semicolon g.room)
  intro _ t g
  exact (g.buildFree (by simp) free rfl).makes

theorem makes_returnStatement (h : Room (r + 5) s) : Makes returnStatement s := by
  refine Leads.read (h.begin.wanting fun _ t g => Leads.read ?_)
  apply g.on (makes_optionally fun _ => makes_expressionWithIn g.room)
  intro e t g
  apply g.on (makes_semicolon g.room)
  intro _ t g
  exact (g.buildFree (by simp) (by rfl) (by rfl)).makes

theorem makes_throwStatement (h : Room (r + 5) s) : Makes throwStatement s := by
  refine Leads.read (h.begin.wanting fun _ t g => ?_)
  apply Leads.fork fun (e : Node) t => Grown s.prevEnd (r + 5) s t [e]
  · intro rest
    refine Leads.read (Leads.ite (fun _ => ?_) fun _ => ?_)
    · exact g.reporting fun t g blamed _ => (g.makes (makes_missingIdentifier blamed)).bind rest
    · exact (g.makes (makes_expressionWithIn g.room)).bind rest
  intro e t g
  apply g.on (makes_semicolon g.room)
  intro _ t g
  exact (g.buildFree (by simp) (by rfl) (by rfl)).makes

theorem makes_switchClause (h : Room 6 s) : Makes switchClause s := by
  have tail (isCase : Bool) {e : Option Node} {t : State} (g : Grown s.prevEnd 6 s t (held e)) :
      Leads (do
        let _ ← expect .colonToken
        let statements ← listOf .switchClauseStatements statement
        build (if isCase then .caseClause else .defaultClause) s.nodeStart
          [.opt .expression e, .list .statements statements]) t fun n u => Yields s u (held n) := by
    apply g.wanting
    intro _ t g
    apply g.on (makes_listOf g.room _ fun _ h _ _ => makes_statement h)
    intro statements t g
    exact (g.buildFree (by simp) (by cases isCase <;> rfl) rfl).makes
  refine Leads.read (h.begin.on (makes_accept _ s) fun isCase t g => ?_)
  apply g.on (makes_optionally fun _ => makes_expressionWithIn g.room)
  intro e t g
  have g : Grown s.prevEnd 6 s t (held e) := g.drop (by simp)
  exact Leads.ite (fun _ => g.wanting fun _ t g => tail isCase g) fun _ => tail isCase g

theorem makes_caseBlock (h : Room 6 s) : Makes caseBlock s := by
  refine Leads.read (h.begin.wanting fun _ t g => ?_)
  apply g.on (makes_listOf g.room _ fun _ h _ _ => makes_switchClause h)
  intro clauses t g
  exact g.wanting fun _ t g => (g.buildFree (by simp) (by rfl) (by rfl)).makes

theorem makes_switchStatement (h : Room r s) (at_ : s.token = .switchKeyword) :
    Makes switchStatement s := by
  refine Leads.read (h.begin.passing at_ (by decide) fun t g => ?_)
  apply g.on (makes_condition g.room)
  intro e t g
  apply g.on (makes_caseBlock g.room)
  intro cases t g
  exact (g.buildFree (by simp) (by rfl) (by rfl)).makes

theorem makes_catchClause (h : Room r s) : Makes catchClause s := by
  refine Leads.read (h.begin.wanting fun _ t g => ?_)
  have caught : Makes (after .openParenToken do
      let declared ← variableDeclaration false
      let _ ← expect .closeParenToken
      return declared) t := by
    refine makes_after g.room (by decide) fun h => ?_
    refine h.begin.on (makes_variableDeclaration h false) fun declared t g => ?_
    exact g.wanting fun _ t g => (g.gives (by simp)).makes
  refine g.on caught fun caught t g => ?_
  refine g.on (makes_block g.room) fun body t g => ?_
  exact (g.buildFree (by simp) (by rfl) (by rfl)).makes

theorem makes_finallyBlock (h : Room r s) (handled : Bool) : Makes (finallyBlock handled) s := by
  refine h.begin.ifAccept (by decide) (fun t _ g => ?_) fun _ => ?_
  · exact g.on (makes_block g.room) fun body t g => (g.gives (by simp)).makes
  refine Leads.read (Leads.ite (fun _ => .refl s) fun _ => ?_)
  apply h.begin.reporting
  intro t g _ _
  exact g.on (makes_block g.room) fun body t g => (g.gives (by simp)).makes

theorem makes_tryStatement (h : Room r s) : Makes tryStatement s := by
  refine Leads.read (h.begin.wanting fun _ t g => ?_)
  apply g.on (makes_block g.room)
  intro body t g
  apply Leads.read
  apply g.on (makes_optionally fun _ => makes_catchClause g.room)
  intro handler t g
  apply g.on (makes_finallyBlock g.room _)
  intro last t g
  exact (g.buildFree (by simp) (by rfl) (by rfl)).makes

/-- The value or the token behind it is reported. -/
theorem leads_reportNoSemicolon {e : Node} {floor : Nat} {s₀ : State} (g : Grown floor r s₀ s [e]) :
    Leads (reportNoSemicolon e) s fun _ t => Grown floor r s₀ t [e] := by
  refine Leads.ite (fun _ => Leads.ifNotAt (fun _ => ?_) fun _ => g) fun _ => ?_
  · exact g.report (g.since (List.mem_singleton_self e)) _ _
  · exact g.still (makes_reportHere _ _ s)

theorem makes_expressionStatement (h : Room (r + 5) s) : Makes expressionStatement s := by
  refine Leads.read (h.begin.on (makes_expressionWithIn h) fun e t g => ?_)
  refine g.ifBothAccept _ (by decide) (fun t _ g => ?_) ?_
  · apply g.on (makes_statement g.room)
    intro body t g
    exact (g.buildFree (by simp) (by rfl) (by rfl)).makes
  apply g.on (makes_acceptSemicolon g.room)
  intro _ t g
  refine Leads.ite (fun _ => Leads.read ?_) fun _ => (g.buildFree (by simp) (by rfl) (by rfl)).makes
  have loose : Asks (pure t.options.looseSemicolons <&&> startsStatement) t :=
    asks_and (asks_pure _ t) fun trace => asks_startsStatement (g.room.traced trace)
  refine g.ask loose fun _ trace g => Leads.ite (fun _ => ?_) fun _ => ?_
  · have g : Grown s.prevEnd (r + 5) s (t.withTrace trace) [e] := g
    refine (leads_reportNoSemicolon g).bind fun _ t g => ?_
    exact (g.buildFree (by simp) (by rfl) (by rfl)).makes
  · exact (g.buildFree (by simp) (by rfl) (by rfl)).makes

theorem makes_emptyStatement (h : Room r s) : Makes emptyStatement s :=
  Leads.read (h.begin.wanting fun _ _ g => (g.buildFree (by simp) (by rfl) (by rfl)).makes)

theorem makes_debuggerStatement (h : Room r s) : Makes debuggerStatement s := by
  refine Leads.read (h.begin.wanting fun _ t g => ?_)
  exact g.on (makes_semicolon g.room) fun _ t g => (g.buildFree (by simp) (by rfl) (by rfl)).makes

theorem makes_statementIf {begins : Parser Bool} {p : Parse.NodeStart → Parser Node}
    (h : Room (r + 5) s) (asks : Asks begins s)
    (inner : ∀ trace, Room (r + 5) (s.withTrace trace) →
      Makes (p s.nodeStart) (s.withTrace trace)) :
    Makes (statementIf begins p) s := by
  refine h.begin.ask asks fun _ trace g => Leads.ite (fun _ => Leads.read ?_) fun _ => ?_
  · exact (g.makes (inner trace g.room)).makes
  · exact (g.makes (makes_expressionStatement g.room)).makes

theorem makes_refusedStatement (h : Room r s) (blamed : s.Blamed) : Makes refusedStatement s := by
  apply h.begin.on (makes_missingIdentifier blamed)
  intro e t g
  apply Leads.read
  have fits : List.flatMap held [Slot.one .expression e] = [e] := rfl
  exact (g.around .expressionStatement fits trivial (fun _ => trivial)
    ⟨nofun, rfl, trivial, nofun⟩).yields

theorem makes_statementWorker (h : Room (r + 5) s) : Makes statementWorker s := by
  have declares {begins : Parser Bool} (more : s.token ≠ .endOfFileToken) (asks : Asks begins s) :
      Makes (statementIf begins (variableStatement · none)) s := by
    apply makes_statementIf h asks
    intro trace h
    have g : Grown s.prevEnd (r + 5) (s.withTrace trace) (s.withTrace trace)
      (held (none : Option (List Node))) := h.begin
    exact (leads_variableStatement g more).makes
  apply Leads.read
  split
  · exact makes_emptyStatement h
  · exact makes_block h
  · next at_ => exact declares (ne_endOfFile at_ (by decide)) (asks_pure _ s)
  · next at_ => exact declares (ne_endOfFile at_ (by decide)) (asks_isLetDeclaration h.steady)
  · next at_ => exact declares (ne_endOfFile at_ (by decide)) (asks_nextIsUsingName h)
  · next at_ =>
    exact declares (ne_endOfFile at_ (by decide)) (asks_aheadNext h.steady (makes_read _ _))
  · apply makes_statementIf h (asks_pure _ s)
    intro trace h
    have g : Grown s.prevEnd (r + 5) (s.withTrace trace) (s.withTrace trace)
      (held (none : Option (List Node))) := h.begin
    exact (leads_functionDeclaration g).makes
  · next at_ =>
    apply makes_statementIf h (asks_pure _ s)
    intro trace h
    have g : Grown s.prevEnd (r + 5) (s.withTrace trace) (s.withTrace trace)
      (held (none : Option (List Node))) := h.begin
    exact (leads_classLike g at_ _ (by rfl)).makes
  · next at_ => exact makes_ifStatement h at_
  · next at_ => exact makes_doStatement h at_
  · next at_ => exact makes_whileStatement h at_
  · next at_ => exact makes_forStatement h at_
  · exact makes_jumpStatement h _ rfl
  · exact makes_jumpStatement h _ rfl
  · exact makes_returnStatement h
  · next at_ => exact makes_withStatement h at_
  · next at_ => exact makes_switchStatement h at_
  · exact makes_throwStatement h
  · exact makes_tryStatement h
  · exact makes_tryStatement h
  · exact makes_tryStatement h
  · exact makes_debuggerStatement h
  · exact makes_declaration h
  iterate 19 exact makes_statementIf h (asks_startsDeclaration h) fun _ h => makes_declaration h
  · exact makes_expressionStatement h

theorem makes_statementStep (h : Room (r + 5) s) : Makes statementStep s :=
  makes_nested h (makes_statementWorker (h.nested _)) fun h blamed =>
    makes_refusedStatement h blamed

end ScriptGrammar
