import ScriptGrammar.Parse.Postfix
import ScriptGrammar.Proofs.Parse.Lists
import ScriptGrammar.Proofs.Parse.Stamps

/-!
# Goals and forms after an operand

The productions through which the grammar returns to itself, those all others share, and the
links behind an operand. Each link takes a token, so a chain of them ends.
-/

namespace ScriptGrammar

open Parse ScriptGrammar.Parser

variable [Grammar] {r floor : Nat} {s s₀ : State} {ns : List Node}

theorem makes_statement (h : Room (r + 6) s) : Makes statement s :=
  (h.goal .statement (by show 5 < r + 6; omega) trivial).makes

theorem makes_assignment (h : Room (r + 5) s) (arrowTypes : Bool) :
    Makes (assignment arrowTypes) s :=
  (h.goal (.assignment arrowTypes) (by show 4 < r + 5; omega) trivial).makes

theorem makes_binary (h : Room (r + 4) s) (min : Tier) (arrowTypes : Bool) :
    Makes (Grammar.parse (.binary min arrowTypes)) s :=
  (h.goal (.binary min arrowTypes) (by show 3 < r + 4; omega) trivial).makes

theorem makes_operand (h : Room (r + 3) s) : Makes (Grammar.parse .unary) s :=
  (h.goal .unary (by show 2 < r + 3; omega) trivial).makes

theorem makes_primary (h : Room (r + 2) s) : Makes (Grammar.parse .primary) s :=
  (h.goal .primary (by show 1 < r + 2; omega) trivial).makes

theorem makes_type (h : Room (r + 3) s) : Makes type s :=
  (h.goal .type (by show 2 < r + 3; omega) trivial).makes

theorem makes_typeOperand (h : Room (r + 2) s) (min : Tier) :
    Makes (Grammar.parse (.typeOperand min)) s :=
  (h.goal (.typeOperand min) (by show 1 < r + 2; omega) trivial).makes

theorem makes_binding (h : Room (r + 2) s) : Makes binding s :=
  (h.goal .binding (by show 1 < r + 2; omega) trivial).makes

theorem makes_namespaceTail (h : Room (r + 2) s) (named : Bool) :
    Makes (Grammar.parse (.namespaceTail named)) s :=
  (h.goal (.namespaceTail named) (by show 1 < r + 2; omega) trivial).makes

theorem takes_element (h : Room (r + 2) s) (jsx : s.options.isJsx) (at_ : s.token = .lessThanToken)
    (inExpression : Bool) : Takes (Grammar.parse (.element inExpression)) s :=
  (h.goal (.element inExpression) (by show 1 < r + 2; omega) ⟨jsx, at_⟩).takes inExpression rfl

theorem promises_assignment (h : Room (r + 5) s) (arrowTypes : Bool) :
    Leads (assignment arrowTypes) s ValueEnds :=
  (h.goal (.assignment arrowTypes) (by show 4 < r + 5; omega) trivial).promises

theorem promises_binary (h : Room (r + 4) s) (min : Tier) (arrowTypes : Bool) :
    Leads (Grammar.parse (.binary min arrowTypes)) s (ValueAnswer min) :=
  (h.goal (.binary min arrowTypes) (by show 3 < r + 4; omega) trivial).promises

theorem promises_operand (h : Room (r + 3) s) :
    Leads (Grammar.parse .unary) s fun n _ => n.kind.isOperand :=
  (h.goal .unary (by show 2 < r + 3; omega) trivial).promises

theorem promises_primary (h : Room (r + 2) s) :
    Leads (Grammar.parse .primary) s fun n _ => n.kind.isFirst :=
  (h.goal .primary (by show 1 < r + 2; omega) trivial).promises

theorem promises_element (h : Room (r + 2) s) (jsx : s.options.isJsx)
    (at_ : s.token = .lessThanToken) (inExpression : Bool) :
    Leads (Grammar.parse (.element inExpression)) s fun n t =>
      n.kind.isFirst ∧ (inExpression = false → Spans s n t) :=
  (h.goal (.element inExpression) (by show 1 < r + 2; omega) ⟨jsx, at_⟩).promises

theorem promises_binding (h : Room (r + 2) s) : Leads binding s fun n _ => n.isThis = false :=
  (h.goal .binding (by show 1 < r + 2; omega) trivial).promises

theorem promises_type (h : Room (r + 3) s) : Leads type s fun n _ =>
    s.context.disallowConditionalTypes → n.kind ≠ .conditionalType :=
  (h.goal .type (by show 2 < r + 3; omega) trivial).promises

theorem promises_typeOperand (h : Room (r + 2) s) (min : Tier) :
    Leads (Grammar.parse (.typeOperand min)) s (TypeAnswer min s) :=
  (h.goal (.typeOperand min) (by show 1 < r + 2; omega) trivial).promises

theorem makes_expression (h : Room (r + 5) s) : Makes expression s := by
  apply makes_inContext
  intro c
  apply Leads.read
  have h := h.inContext c
  apply h.begin.on (makes_assignment h true)
  intro first t g
  refine (g.loop held fun left t g => ?_).makes
  refine Leads.ifAt (fun at_ => ?_) fun _ => g.done (Nat.le_refl _)
  have taken := takes_takeToken g.steady (isPlain_at at_ (by rfl))
  apply ((g.takes taken).and (kind_takeToken t)).bind
  rintro operator t ⟨g, kind⟩
  apply g.on (makes_assignment g.room true)
  intro right t g
  apply (g.build (by simp) (tiered_comma (kind.trans at_)) (fun _ => trivial)
    ⟨nofun, rfl, trivial, nofun⟩).bind
  intro n t g
  exact g.again (Nat.lt_succ_self _)

section Contexts

variable {α : Type} [Holds α] {p : Parser α}

omit [Grammar] in
theorem makes_allowingIn (inner : ∀ c, Makes p (s.withContext c)) : Makes (allowingIn p) s :=
  makes_inContext inner

omit [Grammar] in
theorem makes_disallowingIn (inner : ∀ c, Makes p (s.withContext c)) :
    Makes (disallowingIn p) s := makes_inContext inner

omit [Grammar] in
theorem makes_withConditionalTypes (allowed : Bool) (inner : ∀ c, Makes p (s.withContext c)) :
    Makes (withConditionalTypes allowed p) s := makes_inContext inner

omit [Grammar] in
theorem makes_inFunction (yield await : Bool) (inner : ∀ c, Makes p (s.withContext c)) :
    Makes (inFunction yield await p) s := makes_inContext inner

end Contexts

theorem makes_expressionWithIn (h : Room (r + 5) s) : Makes expressionWithIn s :=
  makes_allowingIn fun c => makes_expression (h.inContext c)

theorem makes_assignmentWithIn (h : Room (r + 5) s) : Makes assignmentWithIn s :=
  makes_allowingIn fun c => makes_assignment (h.inContext c) true

theorem makes_typeAfterColon (h : Room r s) : Makes typeAfterColon s :=
  makes_after h (by decide) makes_type

theorem makes_initializer (h : Room r s) : Makes initializer s :=
  makes_after h (by decide) (makes_assignment · true)

theorem takes_typeArguments (h : Room r s) (at_ : s.token = .lessThanToken) :
    Takes typeArguments s :=
  Leads.bind (takes_bracketed h .typeArguments .greaterThanToken at_ (by decide)
    fun _ h _ => makes_type h) fun _ _ y => y

theorem makes_typeArguments? (h : Room r s) : Makes typeArguments? s := by
  refine Leads.read (makes_optionally fun at_ => (takes_typeArguments h ?_).makes)
  exact eq_of_beq at_

theorem makes_typeArgumentsOnLine? (h : Room r s) : Makes typeArgumentsOnLine? s :=
  Leads.read (Leads.ite (fun _ => .refl s) fun _ => makes_typeArguments? h)

omit [Grammar] in
theorem makes_missingType (blamed : s.Blamed) : Makes missingType s := by
  refine Leads.read ((leads_missingIdentifier blamed).bind fun name t named => ?_)
  obtain ⟨y, missing, range⟩ := named
  exact Yields.missingAround .typeReference _ blamed.some y (by simp) missing range
    ⟨nofun, rfl, trivial, nofun⟩ trivial

theorem makes_spreadElement (h : Room (r + 5) s) : Makes spreadElement s := by
  refine Leads.read (h.begin.wanting fun _ t g => ?_)
  apply g.onKnown (makes_assignmentWithIn g.room) (allowsIn_assignmentWithIn g.room.stamps)
  intro e t g allows
  refine (g.buildBracketed (by simp) ?_ (by rfl) (by rfl) (by rfl)).makes
  exact forall_playing (by simp) (by simpa [Slot.part] using allows)

theorem makes_argument (h : Room (r + 5) s) : Makes argument s := by
  apply Leads.read
  split
  · exact makes_spreadElement h
  · exact Leads.read (h.begin.buildFree (by simp) (by rfl) (by rfl)).makes
  · exact makes_assignmentWithIn h

theorem makes_arguments (h : Room r s) : Makes arguments s :=
  Leads.bind (makes_bracketed h .argumentExpressions .closeParenToken (by decide)
    fun _ h _ => makes_argument h) fun _ _ y => y

theorem takes_arguments (h : Room r s) (at_ : s.token = .openParenToken) : Takes arguments s :=
  Leads.bind (takes_bracketed h .argumentExpressions .closeParenToken at_ (by decide)
    fun _ h _ => makes_argument h) fun _ _ y => y

omit [Grammar] in
theorem isText_scanTemplate (reports : Bool) (s : Scanner) :
    (s.scanTemplate reports).kind.isText = true := by
  simp only [Scanner.scanTemplate]
  generalize (if reports = true then EscapeContext.template else .taggedTemplate) = context
  split <;> split <;> rfl

omit [Grammar] in
/-- A template piece is one still when it is read again, and so is the brace before one. -/
theorem isText_reread_template (text : s.token.isText = true ∨ s.token = .closeBraceToken)
    (tagged : Bool) : (s.reread (.template tagged)).token.isText = true := by
  show (s.scanner.rescanTemplate tagged).kind.isText = true
  unfold Scanner.rescanTemplate
  split
  · next other =>
    refine text.resolve_right fun brace => ?_
    have brace : s.scanner.kind = .closeBraceToken := brace
    simp [brace] at other
  · exact isText_scanTemplate _ _

omit [Grammar] in
theorem takes_templatePiece (h : s.Steady) (text : s.token.isText = true) (tagged : Bool) :
    Takes (templatePiece tagged) s := by
  refine Leads.read (Leads.ite (fun _ => ?_) fun _ => takes_literal h text)
  refine takes_reread (r := .template false) (fun markup => (nomatch markup)) ?_ (by nofun)
  exact takes_literal (h.reread _ (by nofun)) (isText_reread_template (.inl text) false)

omit [Grammar] in
/-- A piece that a further span follows was taken. -/
theorem leads_templateRest (h : s.Steady) (tagged : Bool) :
    Leads (templateRest tagged) s fun n t => Yields s t [n] ∧
      (n.kind = .templateMiddle → s.prevEnd < t.prevEnd) := by
  refine Leads.ifAt (fun at_ => ?_) fun _ => ?_
  · have text := isText_reread_template (.inr at_) tagged
    have taken : Takes (reread (.template tagged) >>= fun _ => literal) s :=
      takes_reread (fun markup => (nomatch markup)) (takes_literal (h.reread _ (by nofun)) text)
        (by nofun)
    exact ⟨taken.1, fun _ => taken.2⟩
  · refine ⟨Yields.trans (yields_reportHere _ _ s) (yields_missing .templateTail _ ?_ rfl rfl), ?_⟩
    · exact State.blamed_report _ _ _ s
    · exact fun middle => (nomatch middle)

/-- Spans, each of which may be closed over what is known of its first node. -/
theorem makes_templateSpans {inner : Parser Node} {P : Node → Prop} (h : Room 6 s) (kind : Kind)
    (part : Part) (tagged : Bool) (each : ∀ {t}, Room 6 t → Makes inner t)
    (known : ∀ {t}, Room 6 t → Leads inner t fun n _ => P n)
    (closing : ∀ {floor : Nat} {t u : State} {node piece : Node}, P node →
      Grown floor 6 t u ([] ++ held node ++ held piece) →
      Leads (build kind t.nodeStart [.one part node, .one .literal piece]) u fun n v =>
        Grown floor 6 t v (held n)) :
    Makes (templateSpans kind part tagged inner) s := by
  refine (h.begin.loop List.reverse fun spans t g => ?_).bind fun spans t g => g.yields
  apply Leads.read
  apply g.room.begin.onKnown (each g.room) (known g.room)
  intro node u inside holds
  apply (leads_templateRest inside.steady tagged).bind
  intro piece v rest
  by_cases middle : piece.kind = .templateMiddle
  · have inside : Grown (t.prevEnd + 1) 6 t v _ := inside.behind rest.1 (rest.2 middle)
    apply (closing holds inside).bind
    intro span w closed
    refine Leads.ite (fun _ => ⟨⟨?_, trivial⟩, closed.floor⟩) fun other => ?_
    · rw [List.reverse_cons]
      exact g.yields.trans closed.yields
    · exact absurd (beq_iff_eq.mpr middle) other
  · apply (closing holds (inside.later rest.1)).bind
    intro span w closed
    apply Leads.ite (fun other => absurd (eq_of_beq other) middle)
    intro _
    have grown : Grown t.prevEnd 6 s w (span :: spans).reverse := by
      rw [List.reverse_cons]
      exact g.later closed.yields
    exact grown.done (Nat.le_refl _)

theorem takes_templateExpression (h : Room r s) (text : s.token.isText = true) (tagged : Bool) :
    Takes (templateExpression tagged) s := by
  refine Leads.read (h.begin.past (takes_templatePiece h.steady text tagged) fun head t g => ?_)
  have spans : Makes (templateSpans .templateSpan .expression tagged expressionWithIn) t := by
    refine makes_templateSpans g.room _ _ tagged makes_expressionWithIn
      (fun h => free_expressionWithIn h.stamps)
      fun free g => g.buildBracketed (by simp) ?_ rfl rfl rfl
    exact forall_playing (by simp) (by simpa [Slot.part] using free)
  apply g.on spans
  intro spans t g
  exact (g.buildFree (by simp) (by rfl) (by rfl)).takes (Nat.lt_succ_self _)

omit [Grammar] in
theorem Kind.isBracketing_of_isLink {k : Kind} (link : k.isLink = true) :
    k.isBracketing = true := by
  unfold isLink at link
  split at link
  all_goals first | rfl | cases link

omit [Grammar] in
theorem Kind.targetPart_of_isLink {k : Kind} (link : k.isLink = true) :
    k.targetPart = .expression := by
  unfold isLink at link
  split at link
  all_goals first | rfl | cases link

/-- A link is closed with the mark of its chain. -/
theorem Grown.buildLink {slots : List Slot} {kind : Kind} {e : Node} {mark chain : Bool}
    (g : Grown floor r s₀ s ns) (fits : (slots.flatMap held).Sublist ns)
    (bracketed : Bracketed kind (slots.flatMap Slot.nodes))
    (link : kind.isLink = true) (bare : slotsAs .modifiers slots = [])
    (target : slotsAs .expression slots = [e.as .expression]) (rest : e.Chains mark)
    (marked : chain = (mark || !(slotsAs .questionDotToken slots).isEmpty)) :
    Leads (buildLink kind s₀.nodeStart chain slots) s fun n t =>
      Grown floor r s₀ t [n] ∧ n.Chains chain := by
  have lone := Kind.isBracketing_of_isLink link
  have chained : kind.isChained := by rw [Kind.isChained, link]; rfl
  have chains (info : NodeInfo) (same : info.kind = kind) :
      (Node.ofSlots info .none slots).Chains chain := by
    rw [marked]
    refine Node.chains_ofSlots .none (same ▸ chained) ?_ rest
    rw [same, Kind.targetPart_of_isLink link, target]
  exact ⟨g.close kind .none fits ⟨rfl, rfl, rfl, rfl, rfl, rfl⟩ (tiered_of_isBracketing lone _)
    (joins_of_isBracketing lone _ _ _ _)
    (formed_of_isBracketing lone (by rw [bare]; rfl) bracketed fun _ => chains _ rfl), chains _ rfl⟩

variable {tag : Node} {typeArgs : Option (List Node)} {mark chain : Bool}

/-- A template behind its tag, which is taken where one stands. The mark goes on, or is set behind
type arguments. -/
theorem leads_taggedTemplate (g : Grown floor r s₀ s ([tag] ++ held typeArgs))
    (text : s.token.isText = true) (rest : tag.Chains mark)
    (marked : chain = mark ∨ typeArgs.isSome ∧ chain = true) :
    Leads (taggedTemplate s₀.nodeStart tag typeArgs) s fun n t =>
      Grown (floor + 1) 6 s₀ t [n] ∧ n.Chains chain := by
  apply Leads.fork fun (template : Node) t =>
    Grown (floor + 1) 6 s₀ t ([tag] ++ held typeArgs ++ [template])
  · intro rest
    refine Leads.ifAt (fun _ => ?_) fun _ => ?_
    · exact (g.takes (takes_templatePiece g.steady text true)).bind rest
    · exact (g.takes (takes_templateExpression g.room text true)).bind rest
  intro template t g
  refine (g.buildFree (by simp) rfl rfl).and ?_
  rcases marked with rfl | ⟨some, rfl⟩
  · rw [← Bool.or_false chain]
    exact Node.chains_ofSlots .none rfl rfl rest
  · obtain ⟨list, rfl⟩ := Option.isSome_iff_exists.mp some
    exact .typed rfl

/-- Type arguments that are found were taken, and more of the source follows if they ask for it. -/
theorem leads_valueTypeArguments (h : Room r s) (continued : Bool) :
    Leads (valueTypeArguments continued) s fun o t => Yields s t (held o) ∧
      (o.isSome → s.prevEnd < t.prevEnd ∧
        (continued → t.token = .openParenToken ∨ t.token.isText = true)) := by
  have nothing {t : State} {ns : List Node} (y : Yields s t ns) :
      Leads (pure none) t fun (o : Option (List Node)) t => Yields s t (held o) ∧
        (o.isSome → s.prevEnd < t.prevEnd ∧
          (continued → t.token = .openParenToken ∨ t.token.isText = true)) :=
    ⟨y.drop (List.nil_sublist _), fun some => (nomatch some)⟩
  apply Leads.ifNotAt (fun _ => nothing (.refl s))
  intro at_
  apply Leads.read
  apply h.begin.past (takes_next h.steady (ne_endOfFile at_ (by decide)))
  intro _ t g
  apply g.on (makes_delimited g.room _ fun _ h _ => makes_type h)
  intro list t g
  refine Leads.read (Leads.ite (fun _ => nothing g.yields) fun _ => ?_)
  apply g.on (makes_next t)
  intro _ t g
  apply Leads.read
  refine Leads.ite (fun _ => nothing g.yields) fun follows =>
    ⟨?_, fun _ => ⟨g.floor, fun c => ?_⟩⟩
  · have y : Yields s t list.elements := by simpa using g.yields
    exact y
  · simp only [c, Bool.true_and, Bool.not_eq_true'] at follows
    have among : t.token ∈ [.openParenToken, .noSubstitutionTemplateLiteral, .templateHead] :=
      List.contains_iff_mem.mp (Bool.of_not_eq_false follows)
    simp only [List.mem_cons, List.not_mem_nil, or_false] at among
    rcases among with at_ | at_ | at_
    · exact .inl at_
    · exact .inr (isText_at at_ (by rfl))
    · exact .inr (isText_at at_ (by rfl))

section Links

variable {c : Chain} {questionDot : Option Node}

/-- The mark of a chain is that of its target, or is set by the `?.` behind it. -/
def Parser.Chain.Marks (c : Chain) (questionDot : Option Node) : Prop :=
  ∃ mark, c.target.Chains mark ∧ c.optional = (mark || questionDot.isSome)

/-- A link behind the target of a chain, which takes a token unless a `?.` was taken for it; or
the target alone. -/
structure Linked (floor : Nat) (s₀ : State) (c : Chain) (questionDot : Option Node)
    (o : Option Node) (t : State) : Prop where
  yields : Yields s₀ t [o.getD c.target]
  reaches : floor ≤ t.prevEnd
  taken : o.isSome → questionDot.isNone → floor < t.prevEnd
  chains : ∀ n, o = some n → n.Chains c.optional

omit [Grammar] in
theorem linked_none (y : Yields s₀ s ([c.target] ++ ns)) (le : floor ≤ s.prevEnd) :
    Linked floor s₀ c questionDot none s :=
  ⟨y.drop (List.sublist_append_left _ _), le, fun some => (nomatch some), fun _ no => (nomatch no)⟩

theorem linked_behind {n : Node} {top : Nat} (g : Grown top r s₀ s [n]) (lt : floor < top)
    (chains : n.Chains c.optional) : Linked floor s₀ c questionDot (some n) s :=
  have far : floor < s.prevEnd := Nat.lt_of_lt_of_le lt g.floor
  ⟨g.yields, Nat.le_of_lt far, fun _ _ => far, fun _ same => Option.some.inj same ▸ chains⟩

theorem linked_chained {n : Node} (g : Grown floor r s₀ s [n]) (chained : questionDot.isSome)
    (chains : n.Chains c.optional) : Linked floor s₀ c questionDot (some n) s := by
  refine ⟨g.yields, g.floor, fun _ none => ?_, fun _ same => Option.some.inj same ▸ chains⟩
  rw [Option.isNone_iff_eq_none.mp none] at chained
  cases chained

omit [Grammar] in
theorem isEmpty_questionDot (questionDot : Option Node) (more : List Slot) (e : Node)
    (others : slotsAs .questionDotToken more = []) :
    (!(slotsAs .questionDotToken
      (.one .expression e :: .opt .questionDotToken questionDot :: more)).isEmpty) =
      questionDot.isSome := by
  change (!((Slot.opt .questionDotToken questionDot).nodes ++
    slotsAs .questionDotToken more).isEmpty) = _
  rw [others]
  cases questionDot <;> rfl

theorem leads_propertyLink (g : Grown floor r s₀ s ([c.target] ++ held questionDot))
    (marks : c.Marks questionDot) :
    Leads (propertyLink s₀.nodeStart c questionDot) s fun n t =>
      Grown floor r s₀ t [n] ∧ n.Chains c.optional := by
  obtain ⟨mark, rest, marked⟩ := marks
  apply g.on (makes_memberName g.room)
  intro name t g
  refine g.buildLink (by simp) trivial rfl rfl rfl rest ?_
  rw [isEmpty_questionDot _ _ _ rfl, marked]

theorem leads_indexLink (g : Grown floor r s₀ s ([c.target] ++ held questionDot))
    (marks : c.Marks questionDot) (at_ : s.token = .openBracketToken) :
    Leads (indexLink s₀.nodeStart c questionDot) s fun n t =>
      Grown (floor + 1) 6 s₀ t [n] ∧ n.Chains c.optional := by
  obtain ⟨mark, rest, marked⟩ := marks
  apply g.passing at_ (by decide)
  intro t g
  apply Leads.fork fun (index : Node) t =>
    Grown (floor + 1) 6 s₀ t ([c.target] ++ held questionDot ++ [index]) ∧
      (index.isMissing ∨ index.allowsIn ∧ index.isUndecorated)
  · intro rest
    refine Leads.ifAt (fun _ => ?_) fun _ => ?_
    · refine g.reporting fun t g blamed _ => ?_
      exact ((g.makes (makes_missingIdentifier blamed)).and (.inl rfl)).bind rest
    · refine ((g.makes (makes_expressionWithIn g.room)).and ?_).bind rest
      exact .inr (free_expressionWithIn g.room.stamps)
  rintro index t ⟨g, free⟩
  refine g.wanting fun _ t g => g.buildLink (by simp) ?_ rfl rfl rfl rest ?_
  · exact forall_playing (by simp) (by simpa [Slot.part] using free)
  · rw [isEmpty_questionDot _ _ _ rfl, marked]

theorem leads_callLink (g : Grown floor r s₀ s ([c.target] ++ held questionDot ++ held typeArgs))
    (marks : c.Marks questionDot) (at_ : s.token = .openParenToken) :
    Leads (callLink s₀.nodeStart c questionDot typeArgs) s fun n t =>
      Grown (floor + 1) 6 s₀ t [n] ∧ n.Chains c.optional := by
  obtain ⟨mark, rest, marked⟩ := marks
  apply ((g.takes (takes_arguments g.room at_)).and (free_arguments g.room.stamps)).bind
  rintro args t ⟨g, free⟩
  refine g.buildLink (by simp) ?_ rfl rfl rfl rest ?_
  · exact forall_playing (by simp) (by simpa [Slot.part] using free)
  · rw [isEmpty_questionDot _ _ _ rfl, marked]

theorem leads_angleLink? (g : Grown floor r s₀ s ([c.target] ++ held questionDot))
    (marks : c.Marks questionDot) :
    Leads (angleLink? s₀.nodeStart c questionDot) s (Linked floor s₀ c questionDot) := by
  have found := leads_attempt (P := fun t => s.prevEnd < t.prevEnd ∧
    (true → t.token = .openParenToken ∨ t.token.isText = true))
    (leads_valueTypeArguments g.room.openAttempt true)
  apply found.bind
  intro o t found
  cases o with
  | none =>
    have g := g.still found.1
    refine Leads.ite (fun chained => ?_) fun _ => linked_none g.yields g.floor
    exact (leads_propertyLink g marks).bind fun n t made => linked_chained made.1 chained made.2
  | some typeArgs =>
    obtain ⟨y, taken⟩ := found
    obtain ⟨lt, follows⟩ := taken rfl
    have g : Grown (floor + 1) 6 s₀ t ([c.target] ++ held questionDot ++ held (some typeArgs)) :=
      g.behind y lt
    refine Leads.ifAt (fun at_ => ?_) fun away => ?_
    · exact (leads_callLink g marks at_).bind fun n t made =>
        linked_behind made.1 (Nat.lt_add_of_pos_right Nat.two_pos) made.2
    · have g : Grown (floor + 1) 6 s₀ t ([c.target] ++ held (some typeArgs)) := g.drop (by simp)
      have text := (follows rfl).resolve_left away
      obtain ⟨mark, rest, marked⟩ := marks
      -- The `?.` is lost, and only the mark tells of it.
      have marked : c.optional = mark ∨ (some typeArgs).isSome ∧ c.optional = true := by
        cases questionDot with
        | none => exact .inl (by rw [marked, Option.isSome_none, Bool.or_false])
        | some dot => exact .inr ⟨rfl, by rw [marked, Option.isSome_some, Bool.or_true]⟩
      exact (leads_taggedTemplate g text rest marked).bind fun n t made =>
        linked_behind made.1 (Nat.lt_add_of_pos_right Nat.two_pos) made.2

theorem leads_link? (g : Grown floor r s₀ s ([c.target] ++ held questionDot))
    (marks : c.Marks questionDot) (calls : Bool) :
    Leads (link? s₀.nodeStart c questionDot calls) s (Linked floor s₀ c questionDot) := by
  have property : Leads (optionally questionDot.isSome (propertyLink s₀.nodeStart c questionDot)) s
      (Linked floor s₀ c questionDot) :=
    Leads.ite (fun chained => (leads_propertyLink g marks).bind fun n t made =>
      linked_chained made.1 chained made.2) fun _ => linked_none g.yields g.floor
  have nothing : Leads (pure none) s (Linked floor s₀ c questionDot) :=
    linked_none g.yields g.floor
  have bare : Grown floor r s₀ s [c.target] := g.drop (List.sublist_append_left _ _)
  -- Without a `?.` the mark is that of the target.
  have alone (none : questionDot.isSome = false) : c.target.Chains c.optional := by
    obtain ⟨mark, rest, marked⟩ := marks
    rw [marked, none, Bool.or_false]
    exact rest
  have plain (none : questionDot.isSome = false) : c.Marks Option.none :=
    ⟨c.optional, alone none, (Bool.or_false _).symm⟩
  apply Leads.read
  split
  · next at_ none =>
    apply bare.past (takes_next g.steady (ne_endOfFile at_ (by decide)))
    intro _ t g
    exact (leads_propertyLink g (plain none)).bind fun n t made =>
      linked_behind made.1 (Nat.lt_succ_self _) made.2
  · next at_ =>
    refine Leads.read (Leads.ite (fun _ => nothing) fun _ => ?_)
    exact (leads_indexLink g marks at_).bind fun n t made =>
      linked_behind made.1 (Nat.lt_succ_self _) made.2
  · next at_ =>
    refine Leads.ite (fun _ => ?_) fun _ => property
    have g : Grown floor r s₀ s
        ([c.target] ++ held questionDot ++ held (none : Option (List Node))) :=
      g.drop (by simp)
    exact (leads_callLink g marks at_).bind fun n t made =>
      linked_behind made.1 (Nat.lt_succ_self _) made.2
  · exact Leads.ite (fun _ => leads_angleLink? g marks) fun _ => property
  · next at_ none =>
    exact (leads_taggedTemplate bare (isText_at at_ (by rfl)) (alone none) (.inl rfl)).bind
      fun n t made => linked_behind made.1 (Nat.lt_succ_self _) made.2
  · next at_ none =>
    exact (leads_taggedTemplate bare (isText_at at_ (by rfl)) (alone none) (.inl rfl)).bind
      fun n t made => linked_behind made.1 (Nat.lt_succ_self _) made.2
  · next at_ none =>
    refine Leads.read (Leads.ite (fun _ => nothing) fun _ => ?_)
    apply bare.past (takes_next g.steady (ne_endOfFile at_ (by decide)))
    intro _ t g
    apply (g.buildLink (by simp) (by trivial) (by rfl) (by rfl) (by rfl) (alone none)
      (Bool.or_false _).symm).bind
    exact fun n t made => linked_behind made.1 (Nat.lt_succ_self _) made.2
  · exact property

end Links

/-- The links behind an operand, which goes on with no chain before it. -/
theorem leads_postfixes {first : Node} (g : Grown floor r s₀ s [first]) (lone : first.kind.isFirst)
    (calls : Bool) :
    Leads (postfixes s₀.nodeStart first calls) s fun n t => Grown floor r s₀ t [n] := by
  have chain : Grown floor r s₀ s [({ target := first, optional := false } : Chain).target] := g
  have unchained : first.kind.isChained = false := by
    simpa using (Bool.and_eq_true_iff.mp lone).2
  refine (chain.loopWith (fun c : Chain => [c.target]) (fun c _ => c.target.Chains c.optional)
    (fun _ _ => True) (.first unchained) fun c t g _ chains => ?_).bind fun c t g => g.1
  have ended {u : State} (y : Yields s₀ u [c.target]) (le : t.prevEnd ≤ u.prevEnd)
      (optional : Bool) : Leads (pure (.done { c with optional })) u
        (GrowsWith s₀ (fun c : Chain => [c.target]) (fun c _ => c.target.Chains c.optional)
          (fun _ _ => True) t) := ⟨y, le, trivial⟩
  refine Leads.read (Leads.ite (fun _ => ended g.yields (Nat.le_refl _) _) fun valid => ?_)
  have more : t.token ≠ .endOfFileToken := by
    intro ended
    rw [ended] at valid
    exact valid (by decide)
  refine Leads.ite (fun at_ => ?_) fun _ => ?_
  · refine Leads.ite (fun _ => ended g.yields (Nat.le_refl _) _) fun _ => ?_
    have plain := isPlain_at (eq_of_beq at_) (by rfl)
    refine g.past (takes_takeToken g.steady plain) fun questionDot u g => ?_
    have g : Grown (t.prevEnd + 1) 6 s₀ u
        ([({ c with optional := true } : Chain).target] ++ held (some questionDot)) := g
    have marks : ({ c with optional := true } : Chain).Marks (some questionDot) :=
      ⟨c.optional, chains, (Bool.or_true _).symm⟩
    refine (leads_link? g marks calls).bind fun o v linked => ?_
    have far : t.prevEnd < v.prevEnd := linked.reaches
    cases o with
    | none => exact ended linked.yields (Nat.le_of_lt far) _
    | some node => exact ⟨⟨linked.yields, linked.chains node rfl⟩, far⟩
  · have g : Grown t.prevEnd r s₀ t ([c.target] ++ held (none : Option Node)) := g
    refine (leads_link? g ⟨c.optional, chains, (Bool.or_false _).symm⟩ calls).bind
      fun o v linked => ?_
    cases o with
    | none => exact ended linked.yields linked.reaches _
    | some node => exact ⟨⟨linked.yields, linked.chains node rfl⟩, linked.taken rfl rfl⟩

/-- A primary expression and the links behind it. -/
theorem makes_leftHandSide (h : Room (r + 2) s) : Makes leftHandSide s := by
  refine Leads.read ?_
  refine h.begin.onKnown (makes_primary h) (promises_primary h) fun first t g lone => ?_
  exact (leads_postfixes g lone true).makes

section Kinds

variable {start : NodeStart} {c : Chain} {questionDot : Option Node}

/-- A parser that makes an operand, if anything. -/
def MakesOperand (p : Parser (Option Node)) (s : State) : Prop :=
  Leads p s fun o _ => ∀ n, o = some n → n.kind.isOperand

omit [Grammar] in
theorem makesOperand_some {p : Parser Node} (h : Leads p s fun n _ => n.kind.isOperand) :
    MakesOperand (do return some (← p)) s := by
  intro n same
  cases same
  exact h

omit [Grammar] in
theorem makesOperand_none : MakesOperand (pure none) s := fun _ no => (nomatch no)

omit [Grammar] in
theorem makesOperand_optionally {p : Parser Node} {b : Bool}
    (h : Leads p s fun n _ => n.kind.isOperand) : MakesOperand (optionally b p) s :=
  Leads.ite (fun _ => makesOperand_some h) fun _ => makesOperand_none

omit [Grammar] in
theorem kind_propertyLink (s : State) :
    Leads (propertyLink start c questionDot) s fun n _ => n.kind.isOperand := rfl

theorem kind_indexLink (s : State) :
    Leads (indexLink start c questionDot) s fun n _ => n.kind.isOperand :=
  Leads.skip fun _ _ => Leads.ifAt (fun _ => rfl) fun _ => rfl

theorem kind_taggedTemplate (tag : Node) (typeArgs : Option (List Node)) (s : State) :
    Leads (taggedTemplate start tag typeArgs) s fun n _ => n.kind.isOperand :=
  Leads.ifAt (fun _ => rfl) fun _ => rfl

theorem kind_angleLink? (s : State) : MakesOperand (angleLink? start c questionDot) s := by
  refine Leads.skip fun o t => ?_
  cases o with
  | some typeArgs =>
    refine Leads.ifAt (fun _ => makesOperand_some rfl) fun _ => ?_
    exact makesOperand_some (kind_taggedTemplate _ _ t)
  | none => exact Leads.ite (fun _ => makesOperand_some rfl) fun _ => makesOperand_none

theorem kind_link? (calls : Bool) (s : State) :
    MakesOperand (link? start c questionDot calls) s := by
  have property (b : Bool) : MakesOperand (optionally b (propertyLink start c questionDot)) s :=
    makesOperand_optionally (kind_propertyLink s)
  apply Leads.read
  split
  · exact Leads.skip fun _ t => makesOperand_some (kind_propertyLink t)
  · exact Leads.read (Leads.ite (fun _ => makesOperand_none) fun _ =>
      makesOperand_some (kind_indexLink s))
  · exact Leads.ite (fun _ => makesOperand_some rfl) fun _ => property _
  · exact Leads.ite (fun _ => kind_angleLink? s) fun _ => property _
  · exact makesOperand_some (kind_taggedTemplate _ _ s)
  · exact makesOperand_some (kind_taggedTemplate _ _ s)
  · refine Leads.read (Leads.ite (fun _ => makesOperand_none) fun _ => ?_)
    exact Leads.skip fun _ t => makesOperand_some rfl
  · exact property _

/-- Links behind an operand make an operand. -/
theorem kind_postfixes {first : Node} (operand : first.kind.isOperand) (calls : Bool) (s : State) :
    Leads (postfixes start first calls) s fun n _ => n.kind.isOperand := by
  refine Leads.bind (P := fun c _ => c.target.kind.isOperand) (Leads.handed operand ?_)
    fun _ _ operand => operand
  intro c t _ operand
  refine Leads.read (Leads.ite (fun _ => operand) fun _ => Leads.ite (fun _ => ?_) fun _ => ?_)
  · refine Leads.ite (fun _ => operand) fun _ => Leads.skip fun questionDot u => ?_
    refine (kind_link? calls u).bind fun o v made => ?_
    cases o with
    | some node => exact made node rfl
    | none => exact operand
  · refine (kind_link? calls t).bind fun o v made => ?_
    cases o with
    | some node => exact made node rfl
    | none => exact operand

theorem kind_leftHandSide (h : Room (r + 2) s) :
    Leads leftHandSide s fun n _ => n.kind.isOperand :=
  Leads.read ((promises_primary h).bind fun _ t lone =>
    kind_postfixes (Kind.isOperand_of_isFirst lone) true t)

omit [Grammar] in
theorem kind_literal (s : State) : Leads literal s fun n _ => n.kind = s.token := rfl

omit [Grammar] in
theorem Kind.isFirst_of_isText {k : Kind} (text : k.isText = true) : k.isFirst = true := by
  cases k <;> first | rfl | cases text

omit [Grammar] in
/-- A template piece stays one when it is read again. -/
theorem kind_templatePiece (lone : s.token.isFirst) (tagged : Bool) :
    Leads (templatePiece tagged) s fun n _ => n.kind.isFirst := by
  have again : (s.reread (.template false)).token.isFirst := by
    have kind : (s.scanner.rescanTemplate false).kind.isFirst := by
      unfold Scanner.rescanTemplate
      split
      · exact lone
      · exact Kind.isFirst_of_isText (isText_scanTemplate _ _)
    exact kind
  refine Leads.read (Leads.ite (fun _ => ?_) fun _ => ?_)
  · exact (kind_literal (s.reread (.template false))).mono fun n _ kind => kind ▸ again
  · exact (kind_literal s).mono fun n _ kind => kind ▸ lone

end Kinds

end ScriptGrammar
