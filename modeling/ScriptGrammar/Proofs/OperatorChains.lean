import ScriptGrammar.Proofs.Chain.Climb
import ScriptGrammar.Proofs.Precedence

/-!
# Operator chains

The parse of a chain is one expression statement, without a diagnostic, and its expression is the
one well-nested tree over the chain. That the tree reads as the chain is followed through the
productions from the document down to the names; that it is well nested holds of every tree.
-/

namespace ScriptGrammar

open Parse ScriptGrammar.Parser

variable {src : Source} {s t : State} {n : PlainName} {r : List (Operator × PlainName)}

/-- The goals of a chain are answered within a bound above its length. -/
theorem serves_goal {bound fuel : Nat} (enough : bound < fuel) : @Serves ⟨goal fuel⟩ src bound := by
  induction bound generalizing fuel with
  | zero =>
    obtain ⟨fuel, rfl⟩ : ∃ m, fuel = m + 1 := ⟨fuel - 1, by omega⟩
    refine @Serves.mk ⟨goal (fuel + 1)⟩ src 0 (fun h => ?_) fun _ no => absurd no (by omega)
    exact @leads_primaryStep src _ _ _ ⟨goal fuel⟩ h
  | succ bound ih =>
    obtain ⟨fuel, rfl⟩ : ∃ m, fuel = m + 1 := ⟨fuel - 1, by omega⟩
    have serves : @Serves ⟨goal fuel⟩ src bound := ih (by omega)
    refine @Serves.mk ⟨goal (fuel + 1)⟩ src (bound + 1) (fun h => ?_) fun h short min arrow => ?_
    · exact @leads_primaryStep src _ _ _ ⟨goal fuel⟩ h
    · exact @leads_binaryStep_chain src _ _ _ ⟨goal fuel⟩ _ serves h (Nat.le_of_lt_succ short) min
        arrow

/-- The whole chain was drawn. -/
def Drawn (src : Source) (s : State) (n : PlainName) (r : List (Operator × PlainName)) :
    Node → State → Prop := Joined src s n r []

theorem Drawn.congr {s' t' : State} {node : Node} (h : Drawn src s n r node t)
    (before : s'.prevEnd = s.prevEnd) (behind : Unmoved t t') : Drawn src s' n r node t' :=
  ⟨h.drawn, h.rest.unmoved behind, before ▸ behind.prevEnd ▸ h.lt⟩

/-- No operator of a chain is looser than an assignment. -/
theorem Climbed.whole {node : Node} (h : Climbed src s n r .assignment node t) :
    Drawn src s n r node t := by
  obtain ⟨rest, joined, loose⟩ := h
  cases rest with
  | nil => exact joined
  | cons p rest =>
    have loose := loose p rfl
    have tight := p.1.joins.tight
    simp only [Tier.looserThan, decide_eq_true_eq] at loose tight
    omega

/-- No arrow follows a name of a chain. -/
theorem leads_nextIs_arrow (h : AtName src s n r) :
    Leads (nextIs .equalsGreaterThanToken) s fun b t => b = false ∧ Unmoved s t := by
  have behind := AtName.advance (h.unmoved (.openAttempt s))
  have listed : ∀ e ∈ joiningOperators, e.1 ≠ .equalsGreaterThanToken := by decide
  refine ⟨?_, .restored (restored_ahead h.clear (next >>= fun _ => isAt .equalsGreaterThanToken))⟩
  show ((s.openAttempt.advance .plain).token == .equalsGreaterThanToken) = false
  rcases behind.token with at_ | at_ | ⟨o, at_⟩
  · rw [at_]; rfl
  · rw [at_]; rfl
  · rw [at_]
    exact beq_false_of_ne (listed _ o.listed)

theorem leads_accept_ne {k : Kind} (away : s.token ≠ k) :
    Leads (accept k) s fun b t => b = false ∧ t = s :=
  Leads.ifAt (fun at_ => absurd at_ away) fun _ => ⟨rfl, rfl⟩

/-- A level deeper, where there is room for one. -/
theorem leads_nested_lt {α : Type} {p refused : Parser α} {Q : α → State → Prop}
    (room : s.depth < maxDepth)
    (inner : Leads p (s.withDepth (s.depth + 1)) fun a t => Q a (t.withDepth s.depth)) :
    Leads (nested p refused) s Q := by
  unfold Leads Parser.nested
  dsimp only
  rw [if_pos room]
  exact inner

/-- A change of the context that leaves the plain one as it is. -/
theorem leads_inContext_plain {f : Context → Context} {p : Parser Node} (plain : f {} = {})
    (h : AtName src s n r) (inner : ∀ {t : State}, AtName src t n r → t.depth = s.depth →
      Leads p t (Drawn src t n r)) : Leads (inContext f p) s (Drawn src s n r) := by
  have unmoved : Unmoved s (s.withContext (f s.context)) :=
    ⟨rfl, rfl, rfl, rfl, by show f s.context = s.context; rw [h.context, plain]⟩
  have drawn := inner (h.unmoved unmoved) rfl
  exact drawn.congr rfl ⟨rfl, rfl, rfl, rfl, h.context.trans drawn.rest.context.symm⟩

section Expressions

variable [Grammar]

theorem leads_simpleArrow?_chain (h : AtName src s n r) (arrowTypes : Bool) :
    Leads (simpleArrow? arrowTypes) s fun found t => found = none ∧ Unmoved s t := by
  unfold simpleArrow?
  have named : s.atIdentifier = true := by simp [State.atIdentifier, h.token]; rfl
  have first : Leads (isAt .asyncKeyword <&&> aheadNext asyncArrowWalk) s fun b t =>
      b = false ∧ t = s := by
    apply Leads.read
    rw [h.token]
    exact ⟨rfl, rfl⟩
  apply first.bind
  rintro _ t ⟨rfl, rfl⟩
  have second : Leads (isIdentifier <&&> nextIs .equalsGreaterThanToken) t fun b u =>
      b = false ∧ Unmoved t u := by
    apply Leads.read
    rw [named]
    exact leads_nextIs_arrow h
  apply second.bind
  rintro _ u ⟨rfl, unmoved⟩
  exact ⟨rfl, unmoved⟩

theorem leads_assignmentWorker_chain {bound : Nat} (serves : Serves src bound)
    (h : AtName src s n r) (short : r.length < bound) (arrowTypes : Bool) :
    Leads (assignmentWorker arrowTypes) s (Drawn src s n r) := by
  unfold assignmentWorker
  have plain : Leads isYield s fun b t => b = false ∧ t = s := by
    refine Leads.ifNotAt (fun _ => ⟨rfl, rfl⟩) fun at_ => ?_
    exact absurd (h.token.symm.trans at_) (by decide)
  apply plain.bind
  rintro _ t ⟨rfl, rfl⟩
  have noParen : Leads (parenthesizedArrow? arrowTypes) t fun found u => found = none ∧ u = t := by
    unfold parenthesizedArrow?
    apply Leads.read
    rw [h.token]
    exact ⟨rfl, rfl⟩
  apply noParen.bind
  rintro _ u ⟨rfl, rfl⟩
  apply (leads_simpleArrow?_chain h arrowTypes).bind
  rintro _ v ⟨rfl, unmoved⟩
  apply (serves.climb (h.unmoved unmoved) short .assignment arrowTypes).mono
  intro node w climbed
  exact climbed.whole.congr unmoved.prevEnd.symm (.refl w)

theorem leads_assignmentStep_chain {bound : Nat} (serves : Serves src bound)
    (h : AtName src s n r) (short : r.length < bound) (room : s.depth < maxDepth)
    (arrowTypes : Bool) : Leads (assignmentStep arrowTypes) s (Drawn src s n r) := by
  apply leads_nested_lt room
  have inner : AtName src (s.withDepth (s.depth + 1)) n r := h.unmoved (.withDepth ..)
  apply (leads_assignmentWorker_chain serves inner short arrowTypes).mono
  intro node t drawn
  exact drawn.congr rfl (.withDepth ..)

/-- An assignment expression is drawn wherever the nesting allows one. -/
def Assigns (src : Source) (n : PlainName) (r : List (Operator × PlainName)) : Prop :=
  ∀ {s : State}, AtName src s n r → s.depth < maxDepth →
    Leads (assignment true) s (Drawn src s n r)

theorem leads_expression (assigns : Assigns src n r) (h : AtName src s n r)
    (room : s.depth < maxDepth) : Leads expression s (Drawn src s n r) := by
  apply leads_inContext_plain rfl h
  intro t h same
  apply Leads.read
  apply (assigns h (same ▸ room)).bind
  intro first u drawn
  apply Leads.once
  refine Leads.ifAt (fun comma => ?_) fun _ => ⟨first, rfl, drawn⟩
  have ended : u.token = .endOfFileToken := drawn.rest.here
  exact absurd (ended.symm.trans comma) (by decide)

/-- A statement that is the expression drawn over the chain. -/
structure Stated (src : Source) (s : State) (n : PlainName) (r : List (Operator × PlainName))
    (node : Node) (t : State) : Prop where
  kind : node.kind = .expressionStatement
  expression : ∃ (e : Node) (tree : OperatorTree), node.children = [e.as .expression] ∧
    e.Draws tree ∧ tree.chain = ⟨n, r⟩
  rest : AtRest src t []
  lt : s.prevEnd < t.prevEnd

theorem leads_expressionStatement_chain (assigns : Assigns src n r) (h : AtName src s n r)
    (room : s.depth < maxDepth) : Leads expressionStatement s (Stated src s n r) := by
  unfold expressionStatement
  apply Leads.read
  have inside : Leads expressionWithIn s (Drawn src s n r) := by
    unfold expressionWithIn allowingIn
    apply leads_inContext_plain rfl h
    intro t h same
    exact leads_expression assigns h (same ▸ room)
  apply inside.bind
  rintro e t ⟨⟨tree, drawn, first, split⟩, rest, lt⟩
  have ended : t.token = .endOfFileToken := rest.here
  have noLabel (c : Bool) : Leads (pure c <&&> accept .colonToken) t fun b u =>
      b = false ∧ u = t := by
    cases c with
    | false => exact ⟨rfl, rfl⟩
    | true => exact leads_accept_ne (ended ▸ by decide)
  apply (noLabel _).bind
  rintro _ u ⟨rfl, rfl⟩
  have closed : Leads acceptSemicolon u fun b v => b = true ∧ v = u := by
    unfold acceptSemicolon
    have ends : u.atSemicolon = true := by simp [State.atSemicolon, ended]
    apply Leads.read
    rw [ends]
    apply (leads_accept_ne (k := .semicolonToken) (ended ▸ by decide)).bind
    rintro _ v ⟨rfl, rfl⟩
    exact ⟨rfl, rfl⟩
  apply closed.bind
  rintro _ v ⟨rfl, rfl⟩
  have chain : tree.chain = ⟨n, r⟩ :=
    OperatorChain.ext first (by rw [split, List.append_nil])
  exact ⟨rfl, ⟨e, tree, rfl, drawn, chain⟩, rest.unmoved ⟨rfl, rfl, rfl, rfl, rfl⟩, lt⟩

theorem leads_statementStep_chain (assigns : Assigns src n r) (h : AtName src s n r)
    (room : s.depth + 1 < maxDepth) : Leads statementStep s (Stated src s n r) := by
  apply leads_nested_lt (Nat.lt_of_succ_lt room)
  have inner : AtName src (s.withDepth (s.depth + 1)) n r := h.unmoved (.withDepth ..)
  unfold statementWorker
  apply Leads.read
  rw [inner.token]
  apply (leads_expressionStatement_chain assigns inner room).mono
  rintro node t ⟨kind, expression, rest, lt⟩
  exact ⟨kind, expression, rest.unmoved (.withDepth ..), lt⟩

end Expressions

theorem leads_goal_statement {fuel : Nat} (enough : r.length + 3 < fuel) (h : AtName src s n r)
    (room : s.depth + 1 < maxDepth) : Leads (goal fuel .statement) s (Stated src s n r) := by
  obtain ⟨fuel, rfl⟩ : ∃ m, fuel = m + 2 := ⟨fuel - 2, by omega⟩
  have assigns : @Assigns ⟨goal (fuel + 1)⟩ src n r := fun h room =>
    @leads_assignmentStep_chain src _ _ _ ⟨goal fuel⟩ (r.length + 1) (serves_goal (by omega)) h
      (Nat.lt_succ_self _) room true
  exact @leads_statementStep_chain src _ _ _ ⟨goal (fuel + 1)⟩ assigns h room

theorem leads_startsStatement_name (h : AtName src s n r) :
    Leads startsStatement s fun b t => b = true ∧ t = s := by
  have primary : Leads startsLeftHandSide s fun b t => b = true ∧ t = s := by
    refine Leads.ifAt (fun at_ => absurd (h.token.symm.trans at_) (by decide)) fun _ => ⟨?_, rfl⟩
    show (s.token.startsLeftHandSide || s.atIdentifier) = true
    rw [h.token]
    rfl
  have operand : Leads startsOperand s fun b t => b = true ∧ t = s := by
    apply primary.bind
    rintro _ t ⟨rfl, rfl⟩
    exact ⟨rfl, rfl⟩
  unfold startsStatement
  apply Leads.read
  rw [h.token]
  apply operand.bind
  rintro _ t ⟨rfl, rfl⟩
  exact ⟨rfl, rfl⟩

/-- The chain is the only statement of a list. -/
theorem leads_listOf_chain {element : Parser Node} (h : AtName src s n r)
    (stated : ∀ {t : State}, AtName src t n r → t.depth = s.depth →
      Leads element t (Stated src t n r)) :
    Leads (listOf .sourceElements element) s fun found t =>
      ∃ node, found = [node] ∧ Stated src s n r node t := by
  have inner : AtName src (s.withLists (s.lists.insert .sourceElements)) n r :=
    h.unmoved ⟨rfl, rfl, rfl, rfl, rfl⟩
  suffices Leads (loop [] (listTurn .sourceElements element))
      (s.withLists (s.lists.insert .sourceElements)) fun found t =>
        ∃ node, found = [node] ∧ Stated src s n r node t by
    obtain ⟨node, found, kind, expression, rest, lt⟩ := this
    refine ⟨node, ?_, kind, expression, rest.unmoved ⟨rfl, rfl, rfl, rfl, rfl⟩, lt⟩
    exact congrArg List.reverse found
  apply Leads.loop fun found t =>
    (found = [] ∧ AtName src t n r ∧ t.depth = s.depth ∧ t.prevEnd = s.prevEnd) ∨
      ∃ node, found = [node] ∧ Stated src s n r node t
  · rintro found t (⟨_, name, _⟩ | ⟨node, _, stated⟩)
    · exact inner.source ▸ name.prevEnd_le_size
    · exact inner.source ▸ stated.rest.prevEnd_le_size
  · exact .inl ⟨rfl, inner, rfl, rfl⟩
  rintro found t (⟨rfl, name, depth, prevEnd⟩ | ⟨node, rfl, stated⟩)
  · have goes : t.endsList .sourceElements = false := by simp [State.endsList, name.token]
    apply Leads.read
    rw [goes]
    have starts : Leads (startsElement .sourceElements false) t fun b u => b = true ∧ u = t := by
      apply Leads.read
      rw [name.token]
      exact leads_startsStatement_name name
    apply starts.bind
    rintro _ u ⟨rfl, rfl⟩
    apply Leads.read
    apply (stated name depth).bind
    intro node v stated
    have ended : v.token = .endOfFileToken := stated.rest.here
    apply Leads.read
    have ends : v.endsList .sourceElements = true := by simp [State.endsList, ended]
    refine Leads.ite (fun stuck => by simp [ends] at stuck) fun _ => ?_
    have whole : Stated src s n r node v :=
      ⟨stated.kind, stated.expression, stated.rest, prevEnd ▸ stated.lt⟩
    exact ⟨.inr ⟨node, rfl, whole⟩, stated.lt⟩
  · have ended : t.token = .endOfFileToken := stated.rest.here
    have ends : t.endsList .sourceElements = true := by simp [State.endsList, ended]
    apply Leads.read
    rw [ends]
    exact ⟨node, rfl, stated⟩

/-- A chain is written in identifier characters, blanks and the characters of operators. -/
theorem OperatorChain.mem_tail {r : List (Operator × PlainName)} {c : Char} (h : c ∈ tail r) :
    isIdentifierPart c ∨ c = ' ' ∨ ∃ e ∈ joiningOperators, c ∈ e.2.toList := by
  induction r with
  | nil => cases h
  | cons p r ih =>
    simp only [tail, List.mem_cons, List.mem_append] at h
    rcases h with blank | operator | blank | name | rest
    · exact .inr (.inl blank)
    · exact .inr (.inr ⟨_, p.1.listed, operator⟩)
    · exact .inr (.inl blank)
    · exact .inl (p.2.spec.2.1 c name)
    · exact ih rest

theorem OperatorChain.bare (c : OperatorChain) :
    (Source.ofString c.text).Avoids callOpeners := by
  intro d opens p here
  have among : d ∈ c.text.toList := Source.mem_of_charAt? here
  obtain ⟨noPart, noBlank, noOperator⟩ : isIdentifierPart d = false ∧ d ≠ ' ' ∧
      ∀ e ∈ joiningOperators, d ∉ e.2.toList := by
    simp only [callOpeners, List.mem_cons, List.not_mem_nil, or_false] at opens
    rcases opens with rfl | rfl | rfl <;> decide
  rw [c.toList_text] at among
  have cases : isIdentifierPart d ∨ d = ' ' ∨ ∃ e ∈ joiningOperators, d ∈ e.2.toList :=
    (List.mem_append.mp among).elim (fun name => .inl (c.first.spec.2.1 d name)) mem_tail
  rcases cases with part | blank | ⟨e, listed, operator⟩
  · rw [noPart] at part
    cases part
  · exact noBlank blank
  · exact noOperator e listed operator

/-- The first name of the chain is the first token of its source. -/
theorem Document.atName_first (names : NameTable) (c : OperatorChain) :
    AtName (.ofString c.text) (first names {} (.ofString c.text)) c.first c.rest := by
  generalize hsrc : Source.ofString c.text = src
  have faces : (Scanner.ofSource src false).Faces
      (c.first.text.toList ++ OperatorChain.tail c.rest) :=
    ⟨rfl, hsrc ▸ c.toList_text ▸ Source.shows_ofString c.text⟩
  obtain ⟨here, quiet⟩ := Scanner.onName_scan_first faces
  have steady := steady_first names {} src
  have here : (first names {} src).scanner.OnName c.first c.rest := here.withPending #[]
  have silent : (first names {} src).diagnostics = #[] := by
    show #[] ++ (Scanner.ofSource src false).scan.pending = #[]
    rw [quiet]
    rfl
  have frame := frame_advance .plain (clear_ofSource {} names src)
  refine ⟨⟨steady.clear, steady.filled, steady.follows, source_first _ _ _,
    frame.scanner.keepsTrivia, hsrc ▸ c.bare, ?_, rfl, rfl, silent⟩, here⟩
  rw [State.token, here.kind]
  exact Kind.avoids_of_opener? rfl

theorem OperatorTree.tier_ne_assignment (t : OperatorTree) : t.tier ≠ .assignment := by
  cases t with
  | name n => exact fun no => (nomatch no)
  | operation l o r =>
    intro same
    have tight := o.joins.tight
    rw [show o.kind.binaryTier = .assignment from same] at tight
    cases tight

namespace Node.Draws

variable {node : Node} {tree : OperatorTree}

theorem tier (h : node.Draws tree) : node.tier = tree.tier := by
  cases h with
  | name kind => exact Node.tier_of_isOperand (by rw [kind]; rfl)
  | operation kind children parts _ between _ =>
    simp [Node.tier, kind, Node.childAs?, children, parts, between, OperatorTree.tier]

theorem not_isCast (h : node.Draws tree) : node.isCast = false := by
  cases h with
  | name kind | operation kind => simp [Node.isCast, kind]

theorem not_trails (h : node.Draws tree) : ¬ node.Trails := by
  rintro (⟨_, tier, _⟩ | ⟨conditional, _⟩)
  · exact tree.tier_ne_assignment (h.tier.symm.trans tier)
  · cases h with
    | name kind | operation kind => rw [kind] at conditional; cases conditional

/-- The operands of a drawn tree are as tight as in every tree. -/
theorem nested (h : node.Draws tree) (tiered : node.AllTiered) : tree.Nested := by
  induction h with
  | name => trivial
  | @operation node left operator right l r o kind children parts first between second ihl ihr =>
    obtain ⟨here, below⟩ := Node.allTiered_iff.mp tiered
    rw [kind, children] at here
    rw [children] at below
    have joins : operator.kind.isJoining := by
      have noComma : o.kind ≠ .commaToken := fun comma => o.joins.noComma (by rw [comma]; rfl)
      simp [Kind.isJoining, between, noComma, o.joins.noAssignment]
    obtain ⟨takesLeft, takesRight⟩ := here operator (by simp [playing, parts]) joins
    have takesLeft := takesLeft left (by simp [playing, parts])
    have takesRight := takesRight right (by simp [playing, parts])
    simp only [between, first.tier, first.not_isCast, first.not_trails, Bool.false_eq_true,
      or_false] at takesLeft
    rw [between, second.tier] at takesRight
    exact ⟨⟨takesLeft, takesRight⟩, ihl (below left (by simp)), ihr (below right (by simp))⟩

end Node.Draws

theorem OperatorChain.length_le_tail (r : List (Operator × PlainName)) :
    r.length ≤ (tail r).length := by
  induction r with
  | nil => exact Nat.le_refl _
  | cons p r ih =>
    simp only [tail, List.length_cons, List.length_append]
    omega

namespace Document

variable (names : NameTable)

/-- The source of a chain is long enough to bound its operators. -/
theorem length_lt_depthBound (c : OperatorChain) :
    c.rest.length + 3 < depthBound (.ofString c.text) := by
  have tail := OperatorChain.length_le_tail c.rest
  have chars := length_le_layout c.text.toList
  have size : (Source.ofString c.text).size = (layout c.text.toList).length := Source.size_eq
  rw [c.toList_text, List.length_append] at chars
  rw [c.toList_text] at size
  unfold depthBound
  omega

theorem stated_body (c : OperatorChain) : ∃ node,
    (body names {} (.ofString c.text)).1 = [node] ∧
      Stated (.ofString c.text) (first names {} (.ofString c.text)) c.first c.rest node
        (body names {} (.ofString c.text)).2 := by
  have at_ := atName_first names c
  have enough := length_lt_depthBound c
  generalize Source.ofString c.text = src at at_ enough ⊢
  have leads : Leads (listOf .sourceElements (goal (depthBound src) .statement))
      (first names {} src) fun found t =>
        ∃ node, found = [node] ∧ Stated src (first names {} src) c.first c.rest node t := by
    apply leads_listOf_chain at_
    intro t name same
    apply leads_goal_statement enough name
    have shallow : (first names {} src).depth = 0 := rfl
    rw [same, shallow]
    decide
  exact leads

theorem childrenAs_statements (options : Options) (src : Source) :
    (parseWith names options src).root.childrenAs .statements =
      (body names options src).1.map (·.as .statements) := by
  rw [parseWith_eq, run_eq]
  simp [Node.childrenAs, Node.children_ofSlots, Slot.nodes]

/-- A chain parses to one expression statement without a diagnostic, and its expression is the
only well-nested tree over the chain. -/
theorem parse_chain (c : OperatorChain) :
    let d := parseWith names {} (.ofString c.text)
    d.diagnostics = #[] ∧ ∃ (statement e : Node) (tree : OperatorTree),
      d.root.childrenAs .statements = [statement] ∧ statement.kind = .expressionStatement ∧
      statement.childrenAs .expression = [e] ∧ e.Draws tree ∧ tree.chain = c ∧ tree.Nested ∧
      ∀ other : OperatorTree, other.chain = c → other.Nested → other = tree := by
  intro d
  obtain ⟨node, found, kind, ⟨e, tree, children, drawn, chain⟩, rest, -⟩ := stated_body names c
  have silent : d.diagnostics = #[] := (diagnostics_parseWith ..).trans rest.silent
  have statements : d.root.childrenAs .statements = [node.as .statements] := by
    rw [childrenAs_statements, found]
    rfl
  have expression : (node.as .statements).childrenAs .expression = [e.as .expression] := by
    simp [Node.childrenAs, children]
  have tiered : (e.as .expression).AllTiered := by
    have root := Node.allTiered_iff.mp (allTiered_root names {} (.ofString c.text))
    have among : node.as .statements ∈ d.root.childrenAs .statements := by simp [statements]
    have statement := Node.allTiered_iff.mp (root.2 _ (List.mem_filter.mp among).1)
    exact statement.2 _ (by simp [children])
  have nested : tree.Nested := (drawn.as .expression).nested tiered
  have kind : (node.as .statements).kind = .expressionStatement := by rw [Node.kind_as, kind]
  have only (other : OperatorTree) (reads : other.chain = c) (well : other.Nested) : other = tree :=
    well.eq_of_chain nested (reads.trans chain.symm)
  exact ⟨silent, node.as .statements, e.as .expression, tree, statements, kind, expression,
    drawn.as .expression, chain, nested, only⟩

end Document
end ScriptGrammar
