import ScriptGrammar.Parse.Expression
import ScriptGrammar.Parse.Primary
import ScriptGrammar.Proofs.Parse.Declarations

/-!
# Expressions

Arrow functions, operators and primary expressions. What stands behind an operator or an arrow is
reached only past it, and a regular expression is always found where a slash is read again.
-/

namespace ScriptGrammar

open Parse ScriptGrammar.Parser

variable [Grammar] {r floor : Nat} {s s₀ : State} {ns : List Node} {mods : Option (List Node)}

instance : Holds ArrowGuess := ⟨fun _ => []⟩

omit [Grammar] in
@[simp] theorem held_guess (guess : ArrowGuess) : held guess = [] := rfl

theorem makes_arrowAfterName (h : Room r s) : Makes arrowAfterName s := by
  apply h.begin.on (makes_nextToken s)
  intro k t g
  split
  · exact g.yields
  · apply g.on (makes_next t)
    intro _ t g
    exact Leads.read (Leads.ite (fun _ => g.yields) fun _ => g.yields)
  all_goals exact g.yields

theorem makes_arrowAfterParen (h : Room r s) : Makes arrowAfterParen s := by
  apply Leads.read
  split
  · apply h.begin.on (makes_next s)
    intro _ t g
    exact Leads.read (Leads.ite (fun _ => g.yields) fun _ => g.yields)
  · exact .refl s
  · exact .refl s
  · exact .refl s
  · have modifies : Asks (pure (s.token.isModifier && s.token != .asyncKeyword) <&&>
        aheadNext isIdentifier) s :=
      asks_and (asks_pure _ s) fun trace => asks_aheadNext (h.steady.traced trace) (makes_read _ _)
    refine h.begin.ask modifies fun _ trace g => Leads.ite (fun _ => ?_) fun _ => ?_
    · exact g.on (makes_nextToken _) fun _ t g => g.yields
    · refine Leads.read (Leads.ite (fun _ => g.yields) fun _ => ?_)
      exact (g.makes (makes_arrowAfterName g.room)).makes

theorem makes_arrowAfterAngle (h : Room r s) : Makes arrowAfterAngle s := by
  have named : Asks (isIdentifier <||> isAt .constKeyword) s :=
    asks_or (asks_read _ s) fun _ => asks_read _ _
  refine h.begin.ask named fun _ trace g => Leads.ite (fun _ => g.yields) fun _ => ?_
  refine Leads.read (Leads.ite (fun _ => g.yields) fun _ => ?_)
  apply g.on (makes_nextToken _)
  intro k t g
  split
  · apply g.on (makes_next t)
    intro _ t g
    exact Leads.read (Leads.ite (fun _ => g.yields) fun _ => g.yields)
  all_goals exact g.yields

theorem makes_arrowWalk (h : Room r s) : Makes arrowWalk s := by
  have tail {t : State} (g : Grown s.prevEnd r s t []) : Leads (do
      let opening ← token
      next
      if opening == .openParenToken then arrowAfterParen else arrowAfterAngle) t
      fun a u => Yields s u (held a) := by
    refine Leads.read (g.on (makes_next t) fun _ t g => Leads.ite (fun _ => ?_) fun _ => ?_)
    · exact (g.makes (makes_arrowAfterParen g.room)).makes
    · exact (g.makes (makes_arrowAfterAngle g.room)).makes
  refine h.begin.on (makes_accept _ s) fun _ t g => Leads.ite (fun _ => ?_) fun _ => tail g
  exact Leads.read (Leads.read (Leads.ite (fun _ => g.yields) fun _ => tail g))

theorem makes_asyncArrowWalk (h : Room r s) : Makes asyncArrowWalk s := by
  refine Leads.read (Leads.ite (fun _ => ?_) fun _ => .refl s)
  exact h.begin.on (makes_nextToken s) fun _ t g => g.yields

theorem makes_arrowModifiers (h : Room r s) : Makes arrowModifiers s := by
  refine h.begin.on (makes_acceptToken _ s (by rfl)) fun o t g => g.gives ?_ |>.makes
  cases o <;> simp

theorem takes_arrowModifiers (h : Room r s) (at_ : s.token = .asyncKeyword) :
    Takes arrowModifiers s :=
  ⟨makes_arrowModifiers h, (takes_acceptToken h.steady at_ (by decide)).2⟩

theorem makes_arrowToken (h : Room r s) : Makes arrowToken s := by
  refine Leads.read (Leads.ite (fun _ => ?_) fun _ => makes_expectToken _ s (by rfl))
  exact h.begin.reporting fun t g _ _ => (g.makes (makes_expectToken _ t (by rfl))).makes

/-- No operator is left behind the body of an arrow function, or the function breaks off. -/
def BodyEnds (body : Node) (t : State) : Prop :=
  t.rests .assignment true ∨ body.kind = .block ∨ body.BreaksOff

theorem leads_arrowBody (h : Room (r + 5) s) (flags : SignatureFlags) (arrowTypes : Bool) :
    Leads (arrowBody flags arrowTypes) s fun body t => Yields s t [body] ∧ BodyEnds body t := by
  refine Leads.ifAt (fun _ => ?_) fun _ => ?_
  · have made := makes_functionBlock h flags fun c =>
      opens_expect (k := .openBraceToken) (h.inContext c).steady (by decide)
    exact ⟨made, .inr (.inl (kind_functionBlock flags _ s))⟩
  · let c : Context := { s.context with yield := false, await := flags.await }
    have h := h.inContext c
    have inner : Leads (assignment arrowTypes) (s.withContext c) fun n t =>
        Yields s (t.withContext s.context) [n] ∧ BodyEnds n (t.withContext s.context) := by
      apply ((makes_assignment h arrowTypes).and (promises_assignment h arrowTypes)).mono
      rintro n t ⟨y, ends⟩
      have context := congrArg Context.disallowIn (Yields.frame y h.steady).context
      have same : (t.withContext s.context).rests .assignment true = t.rests .assignment true :=
        State.rests_congr rfl rfl context.symm
      exact ⟨.inContext c y, ends.imp same.trans .inr⟩
    exact inner

theorem Grown.buildArrow {sig : Signature} {arrow body : Node}
    (g : Grown floor r s₀ s (held mods ++ held sig ++ [arrow] ++ [body])) (ends : BodyEnds body s) :
    Leads (buildArrow s₀.nodeStart mods sig arrow body) s fun n t =>
      Grown floor r s₀ t (held n) ∧ ValueEnds n t := by
  refine ⟨g.buildModified (by simp) rfl rfl, ?_⟩
  rcases ends with rests | inside
  · exact .inl rests
  · have among : .one .body body ∈ (.optList .modifiers mods ::
        (sig.slots ++ [.one .equalsGreaterThanToken arrow, .one .body body]) : List Slot) := by
      simp
    rcases inside with block | inner
    · exact .inr (.block rfl (Node.mem_childrenAs among) (by simpa using block))
    · exact .inr (.arrow rfl (Node.mem_childrenAs among) (inner.as .body))

/-- Makes a value that ends where no operator goes on with it, if anything. -/
def MakesValue (p : Parser (Option Node)) (s : State) : Prop :=
  Leads p s fun o t => Yields s t (held o) ∧ ∀ n, o = some n → ValueEnds n t

omit [Grammar] in
theorem makesValue_none {t : State} (y : Yields s t ns) : Leads (pure none) t fun o u =>
    Yields s u (held o) ∧ ∀ n : Node, o = some n → ValueEnds n u :=
  ⟨y.drop (List.nil_sublist _), fun _ no => (nomatch no)⟩

/-- The tokens a function with its parameters in parentheses begins with. -/
def arrowStarts : List Kind := [.asyncKeyword, .lessThanToken, .openParenToken]

theorem leads_parenthesizedArrow (h : Room r s) (at_ : s.token ∈ arrowStarts)
    (tried arrowTypes : Bool) : MakesValue (parenthesizedArrow tried arrowTypes) s := by
  have near : Nears arrowStarts s s := .inr at_
  refine Leads.read (Leads.read ?_)
  apply h.begin.nearing near (by decide) (makes_arrowModifiers h) (takes_arrowModifiers h)
  intro mods t g near
  apply g.nearing near (by decide) (makes_typeParameters g.room) (takes_typeParameters g.room)
  intro typeParams t g near
  refine Leads.read (Leads.ite (fun _ => makesValue_none g.yields) fun _ => ?_)
  apply g.nearing near (by decide) (makes_parameters g.room _)
    (fun at_ => takes_parameters g.room at_ _)
  intro params t g near
  have g := g.near near h
  refine Leads.read (Leads.ite (fun _ => makesValue_none g.yields) fun _ => Leads.read ?_)
  apply g.on (makes_returnType g.room _)
  intro result t g
  refine Leads.read (Leads.ite (fun _ => makesValue_none g.yields) fun _ => ?_)
  apply g.on (makes_arrowToken g.room)
  intro arrow t g
  apply (leads_arrowBody g.room _ _).bind
  rintro body t ⟨y, ends⟩
  have g := g.later y
  refine Leads.read (Leads.ite (fun _ => makesValue_none g.yields) fun _ => ?_)
  have g : Grown (s.prevEnd + 1) 6 s t
      (held mods ++ held (Signature.mk typeParams params result) ++ [arrow] ++ [body]) :=
    g.drop (by simp [held_signature])
  apply (g.buildArrow ends).bind
  rintro n t ⟨g, ends⟩
  exact ⟨g.yields, fun _ same => Option.some.inj same ▸ ends⟩

theorem leads_parenthesizedArrow? (h : Room r s) (arrowTypes : Bool) :
    MakesValue (parenthesizedArrow? arrowTypes) s := by
  refine Leads.read (Leads.ite (fun _ => makesValue_none (.refl s)) fun starts => ?_)
  have among : ∀ k ∈ [Kind.openParenToken, .lessThanToken, .asyncKeyword], k ∈ arrowStarts := by
    decide
  have at_ : s.token ∈ arrowStarts := by
    simp only [Bool.not_eq_true', Bool.not_eq_false] at starts
    exact among _ (List.contains_iff_mem.mp starts)
  apply h.begin.ask (asks_ahead h.steady (makes_arrowWalk h.openAttempt))
  intro guess trace g
  cases guess with
  | no => exact makesValue_none g.yields
  | yes =>
    exact (leads_parenthesizedArrow g.room at_ _ _).mono fun o t got =>
      ⟨(g.later got.1).yields, got.2⟩
  | maybe =>
    have found := leads_parenthesizedArrow g.room.openAttempt at_ true arrowTypes
    have ends : Leads (attempt (parenthesizedArrow true arrowTypes)) (s.withTrace trace)
        fun o t => ∀ n, o = some n → ValueEnds n t :=
      found_attempt (found.mono fun o t got => got.2)
    exact ⟨(g.makes (makes_attempt (found.mono fun o t got => got.1))).makes, ends⟩

/-- The name alone is the parameter, which is closed around it. -/
theorem leads_simpleArrow {t : State} {name : Node} {top : Nat}
    (g : Grown floor r s₀ s (held mods)) (inner : Grown top 6 s t [name])
    (other : name.isThis = false) (arrowTypes : Bool) :
    Leads (do return some (← simpleArrow s₀.nodeStart mods name arrowTypes)) t fun o u =>
      Yields s₀ u (held o) ∧ ∀ n, o = some n → ValueEnds n u := by
  refine Leads.bind (P := fun n u => Yields s₀ u [n] ∧ ValueEnds n u) (Leads.read ?_) ?_
  · have fits : List.flatMap held (.optList .modifiers none ::
        parameterSlots none name none none none) = [name] := rfl
    have formed : Formed s t .parameter (t.close .parameter (t.nodeStartAt name.info)).1 .none
        (.optList .modifiers none :: parameterSlots none name none none none) :=
      formed_parameter (by rw [other]; rfl)
    refine Leads.bind (P := fun n u => Grown top 6 s u [n])
      (inner.around .parameter fits trivial (fun _ => trivial) formed) fun parameter u inner => ?_
    refine inner.on (makes_arrowToken inner.room) fun arrow u inner => ?_
    apply (leads_arrowBody inner.room _ _).bind
    rintro body u ⟨y, ends⟩
    have g : Grown floor r s₀ u
        (held mods ++ held (Signature.mk none [parameter] none) ++ [arrow] ++ [body]) :=
      (g.later (inner.later y).yields).drop (by simp [held_signature])
    exact (g.buildArrow ends).mono fun n u built => ⟨built.1.yields, built.2⟩
  · rintro n u ⟨y, ends⟩
    exact ⟨y, fun _ same => Option.some.inj same ▸ ends⟩

theorem leads_simpleArrow? (h : Room r s) (arrowTypes : Bool) :
    MakesValue (simpleArrow? arrowTypes) s := by
  have walk (_ : (s.token == .asyncKeyword) = true) : Asks (aheadNext asyncArrowWalk) s :=
    asks_aheadNext h.steady (makes_asyncArrowWalk (h.openAttempt.later (yields_advance _)))
  refine h.begin.ifBoth walk (fun trace at_ g => Leads.read ?_) fun trace g => ?_
  · apply g.past (takes_arrowModifiers g.room (eq_of_beq at_))
    intro mods t g
    apply g.room.begin.onKnown (makes_identifier t) (isThis_identifier t)
    intro name u inner other
    exact leads_simpleArrow g inner other arrowTypes
  refine g.ifBoth (fun _ => asks_nextIs g.steady _) (fun trace' at_ g => Leads.read ?_)
    fun _ g => makesValue_none g.yields
  apply ((g.room.begin.takes (takes_identifier g.steady at_)).and (isThis_identifier _)).bind
  rintro name u ⟨inner, other⟩
  have g : Grown s.prevEnd r s ((s.withTrace trace).withTrace trace')
      (held (none : Option (List Node))) := g
  exact leads_simpleArrow g inner other arrowTypes

theorem Grown.buildUnary {kind operator : Kind} {operand : Node}
    (g : Grown floor r s₀ s [operand]) (free : kind.isFree = true) :
    Leads (buildUnary kind s₀.nodeStart operator operand) s fun n t =>
      Grown floor r s₀ t (held n) :=
  g.buildWithFree (by simp) free rfl

theorem asks_isAwait (h : Room r s) : Asks isAwait s := by
  refine asks_from (asks_ite (fun _ => asks_pure _ s) fun _ => ?_)
  refine asks_from (asks_ite (fun _ => asks_pure _ s) fun _ => ?_)
  refine asks_aheadNext h.steady (Leads.read (Leads.ite (fun _ => .refl _) fun _ => ?_))
  exact (asks_startsOperand (h.openAttempt.later (yields_advance _))).makes held_bool

theorem makes_update (h : Room (r + 2) s) : Makes update s := by
  refine Leads.read (Leads.read (Leads.ite (fun sign => ?_) fun _ => Leads.read ?_))
  · have more : s.token ≠ .endOfFileToken := by
      intro ended
      rw [ended] at sign
      cases sign
    apply h.begin.past (takes_next h.steady more)
    intro _ t g
    apply g.on (makes_leftHandSide g.room)
    intro e t g
    exact (g.buildUnary rfl).makes
  refine Leads.ite (fun element => ?_) fun _ => ?_
  · obtain ⟨at_, jsx⟩ := Bool.and_eq_true_iff.mp element
    have element := (takes_element h jsx (eq_of_beq at_) true).and
      (promises_element h jsx (eq_of_beq at_) true)
    apply element.bind
    rintro e t ⟨⟨y, lt⟩, lone, _⟩
    have g : Grown (s.prevEnd + 1) 6 s t [e] := h.begin.behind y lt
    exact (leads_postfixes g lone true).makes
  · apply h.begin.on (makes_leftHandSide h)
    intro e t g
    refine Leads.read (Leads.read (Leads.ite (fun _ => ?_) fun _ => (g.gives (by simp)).makes))
    apply g.on (makes_next t)
    intro _ t g
    have g : Grown s.prevEnd (r + 2) s t [e] := g.drop (by simp)
    exact (g.buildUnary rfl).makes

theorem kind_update (h : Room (r + 2) s) : Leads update s fun n _ => n.kind.isOperand := by
  refine Leads.read (Leads.read (Leads.ite (fun _ => rfl) fun _ => Leads.read ?_))
  refine Leads.ite (fun element => ?_) fun _ => ?_
  · obtain ⟨at_, jsx⟩ := Bool.and_eq_true_iff.mp element
    apply (promises_element h jsx (eq_of_beq at_) true).bind
    exact fun e t promised => kind_postfixes (Kind.isOperand_of_isFirst promised.1) true t
  · apply (kind_leftHandSide h).bind
    intro e t operand
    exact Leads.read (Leads.read (Leads.ite (fun _ => rfl) fun _ => operand))

theorem makes_typeAssertion (h : Room r s) (at_ : s.token = .lessThanToken) :
    Makes typeAssertion s := by
  refine Leads.read (h.begin.passing at_ (by decide) fun t g => ?_)
  apply g.on (makes_type g.room)
  intro type t g
  apply g.wanting
  intro _ t g
  apply g.on (makes_operand g.room)
  intro e t g
  exact (g.buildFree (by simp) (by rfl) (by rfl)).makes

theorem makes_unaryOperation (h : Room r s) (more : s.token ≠ .endOfFileToken) (kind : Kind)
    (free : kind.isFree = true) : Makes (unaryOperation kind) s := by
  refine Leads.read (Leads.read (h.begin.past (takes_next h.steady more) fun _ t g => ?_))
  apply g.on (makes_operand g.room)
  intro e t g
  exact (g.buildUnary free).makes

theorem makes_unaryWorker (h : Room (r + 2) s) : Makes unaryWorker s := by
  apply Leads.read
  split
  case h_8 at_ => exact makes_typeAssertion h at_
  case h_9 at_ =>
    refine h.begin.ask (asks_isAwait h) fun _ trace g => Leads.ite (fun _ => ?_) fun _ => ?_
    · exact (g.makes (makes_unaryOperation g.room (ne_endOfFile at_ (by decide)) _ rfl)).makes
    · exact (g.makes (makes_update g.room)).makes
  case h_10 => exact makes_update h
  all_goals
    next at_ => exact makes_unaryOperation h (ne_endOfFile at_ (by decide)) _ rfl

theorem kind_unaryWorker (h : Room (r + 2) s) :
    Leads unaryWorker s fun n _ => n.kind.isOperand := by
  apply Leads.read
  split
  case h_9 =>
    refine h.begin.ask (asks_isAwait h) fun _ trace g => Leads.ite (fun _ => rfl) fun _ => ?_
    exact kind_update g.room
  case h_10 => exact kind_update h
  all_goals rfl

theorem makes_unaryStep (h : Room (r + 2) s) : Makes unaryStep s :=
  makes_nested h (makes_unaryWorker (h.nested _)) fun _ blamed => makes_missingIdentifier blamed

theorem kind_unaryStep (h : Room (r + 2) s) : Leads unaryStep s fun n _ => n.kind.isOperand :=
  leads_nested (kind_unaryWorker (h.nested _)) rfl

theorem asks_startsUpdate (h : Room r s) : Asks startsUpdate s := by
  apply asks_from
  split
  case h_8 => exact asks_bind (asks_isAwait h) fun _ _ => asks_pure _ _
  all_goals exact asks_pure _ s

theorem makes_unary (h : Room (r + 3) s) : Makes unary s := by
  refine h.begin.ask (asks_startsUpdate h) fun _ trace g => Leads.ite (fun _ => ?_) fun _ => ?_
  · exact (g.makes (makes_update (r := r + 1) g.room)).makes
  · exact (g.makes (makes_operand g.room)).makes

theorem kind_unary (h : Room (r + 3) s) : Leads unary s fun n _ => n.kind.isOperand := by
  refine h.begin.ask (asks_startsUpdate h) fun _ trace g => Leads.ite (fun _ => ?_) fun _ => ?_
  · exact kind_update (r := r + 1) g.room
  · exact promises_operand g.room

omit [Grammar] in
theorem makes_nameOperand (s : State) : Makes nameOperand s := makes_identifierOr _ s

theorem makes_parenthesized (h : Room r s) (at_ : s.token = .openParenToken) :
    Makes parenthesized s := by
  refine Leads.read (h.begin.passing at_ (by decide) fun t g => ?_)
  apply g.onKnown (makes_expressionWithIn g.room) (free_expressionWithIn g.room.stamps)
  intro e t g free
  refine g.wanting fun _ t g => (g.buildBracketed (by simp) ?_ (by rfl) (by rfl) (by rfl)).makes
  exact forall_playing (by simp) (by simpa [Slot.part] using free)

theorem makes_arrayLiteral (h : Room r s) : Makes arrayLiteral s := by
  refine Leads.read (h.begin.onKnown
    (makes_bracketed h _ _ (by decide) fun _ h _ => makes_argument h)
    (all_bracketed (fun _ => free_argument h.stamps) _ _ _) fun list t g free => ?_)
  refine (g.buildBracketed (by simp) ?_ (by rfl) (by rfl) (by rfl)).makes
  exact forall_playing (by simp) (by simpa [Slot.part] using free)

theorem leads_shorthandProperty {name : Node} (g : Grown floor r s₀ s [name]) :
    Leads (shorthandProperty s₀.nodeStart name) s fun n t => Grown floor r s₀ t (held n) := by
  have allows : Leads (after .equalsToken assignmentWithIn) s fun init _ =>
      ∀ n ∈ held init, n.allowsIn :=
    Leads.skip fun _ _ => all_optionally fun _ n hn =>
      List.mem_singleton.mp hn ▸ allowsIn_assignmentWithIn g.room.stamps
  apply g.onKnown (makes_after g.room (by decide) makes_assignmentWithIn) allows
  intro init t g allows
  refine g.buildBracketed (by simp) ?_ rfl rfl rfl
  exact forall_playing (by simp) (by simpa [Slot.part] using allows)

theorem leads_propertyAssignment {name : Node} (g : Grown floor (r + 5) s₀ s [name]) :
    Leads (propertyAssignment s₀.nodeStart name) s fun n t =>
      Grown floor (r + 5) s₀ t (held n) := by
  apply g.wanting
  intro _ t g
  apply g.onKnown (makes_assignmentWithIn g.room) (allowsIn_assignmentWithIn g.room.stamps)
  intro init t g allows
  refine g.buildBracketed (by simp) ?_ rfl rfl rfl
  exact forall_playing (by simp) (by simpa [Slot.part] using allows)

theorem leads_objectProperty (g : Grown floor (r + 5) s₀ s (held mods)) :
    Leads (objectProperty s₀.nodeStart mods) s fun n t => Grown floor (r + 5) s₀ t (held n) := by
  apply g.on (makes_acceptToken _ s (by rfl))
  intro star t g
  apply Leads.read
  apply g.on (makes_propertyName g.room)
  intro name t g
  apply g.on (makes_acceptToken _ t (by rfl))
  intro question t g
  have calls : Asks (pure star.isSome <||> isAtAny [.openParenToken, .lessThanToken]) t :=
    asks_or (asks_pure _ t) fun _ => asks_read _ _
  refine g.ask calls fun _ trace g => Leads.ite (fun _ => leads_methodMember g) fun _ => ?_
  have g : Grown floor (r + 5) s₀ (t.withTrace trace) [name] := g.drop (by simp)
  refine Leads.read (Leads.ite (fun _ => ?_) fun _ => ?_)
  · exact leads_shorthandProperty g
  · exact leads_propertyAssignment g

theorem makes_objectMember (h : Room (r + 5) s) : Makes objectMember s := by
  refine Leads.read (h.begin.ifAccept (by decide) (fun t _ g => ?_) fun _ => ?_)
  · apply g.onKnown (makes_assignmentWithIn g.room) (allowsIn_assignmentWithIn g.room.stamps)
    intro e t g allows
    refine (g.buildBracketed (by simp) ?_ (by rfl) (by rfl) (by rfl)).makes
    exact forall_playing (by simp) (by simpa [Slot.part] using allows)
  apply h.begin.on (makes_modifiers h _)
  intro mods t g
  exact leads_accessorOr g (fun _ => rfl) fun t g => (leads_objectProperty g).makes

theorem makes_objectLiteral (h : Room r s) : Makes objectLiteral s := by
  apply Leads.read
  apply h.begin.on (makes_bracketed h _ _ (by decide) fun _ h _ => makes_objectMember h)
  intro list t g
  exact (g.buildFree (by simp) (by rfl) (by rfl)).makes

theorem leads_metaProperty (g : Grown floor r s₀ s []) (keyword : Kind) :
    Leads (metaProperty s₀.nodeStart keyword) s fun n t => Grown floor r s₀ t (held n) := by
  apply g.on (makes_identifierName s)
  intro name t g
  exact g.buildWithFree (by simp) rfl rfl

theorem makes_importOperand (h : Room r s) (at_ : s.token = .importKeyword) :
    Makes importOperand s := by
  refine Leads.read (h.begin.on (makes_takeToken (at_ ▸ rfl)) fun keyword t g => ?_)
  refine g.ifAccept (by decide) (fun t _ g => ?_) fun _ => (g.gives (by simp)).makes
  exact (leads_metaProperty (g.drop (List.nil_sublist _)) _).makes

theorem makes_newExpression (h : Room r s) (at_ : s.token = .newKeyword) :
    Makes newExpression s := by
  refine Leads.read (h.begin.passing at_ (by decide) fun t g => ?_)
  apply g.ifAccept (by decide) (fun t _ g => (leads_metaProperty g _).makes)
  intro _
  apply Leads.read
  apply g.room.begin.onKnown (makes_primary g.room) (promises_primary g.room)
  intro first u inner lone
  apply (leads_postfixes inner lone false).bind
  intro target u inner
  have g := g.later inner.yields
  apply Leads.fork fun (typeArgs : Option (List Node)) t =>
    Grown (s.prevEnd + 1) 6 s t ([target] ++ held typeArgs)
  · intro rest
    refine Leads.ifAt (fun _ => ?_) fun _ => (Leads.pure g).bind rest
    have found := leads_valueTypeArguments g.room.openAttempt false
    exact (g.makes (makes_attempt found.1)).bind rest
  intro typeArgs t g
  refine Leads.read (g.onKnown (makes_optionally fun _ => makes_arguments g.room)
    (all_optionally fun _ => free_arguments g.room.stamps) fun args t g free => ?_)
  refine (g.buildBracketed (by simp) ?_ (by rfl) (by rfl) (by rfl)).makes
  exact forall_playing (by simp) (by simpa [Slot.part] using free)

omit [Grammar] in
theorem token_reread_slash (at_ : s.token = .slashToken ∨ s.token = .slashEqualsToken) :
    (s.reread .slash).token = .regularExpressionLiteral := by
  have again : s.scanner.rescanSlash.kind = .regularExpressionLiteral := by
    unfold Scanner.rescanSlash
    split
    · next neither =>
      have at_ : s.scanner.kind = .slashToken ∨ s.scanner.kind = .slashEqualsToken := at_
      rcases at_ with at_ | at_
      · simp [at_] at neither
      · simp [at_] at neither
    · rfl
  exact again

omit [Grammar] in
theorem takes_regularExpression (h : s.Steady)
    (at_ : s.token = .slashToken ∨ s.token = .slashEqualsToken) : Takes regularExpression s := by
  have found := token_reread_slash at_
  refine takes_reread (fun markup => (nomatch markup)) ?_ (by nofun)
  refine Leads.ifAt (fun at_ => ?_) fun away => absurd found away
  exact takes_literal (h.reread _ (by nofun)) (isText_at at_ (by rfl))

theorem makes_primaryStep (h : Room r s) : Makes primaryStep s := by
  apply Leads.read
  split
  case h_4 at_ => exact (takes_templatePiece h.steady (isText_at at_ (by rfl)) false).makes
  case h_10 at_ => exact makes_importOperand h at_
  case h_11 at_ => exact makes_parenthesized h at_
  case h_12 => exact makes_arrayLiteral h
  case h_13 => exact makes_objectLiteral h
  case h_14 =>
    apply h.begin.ask (asks_aheadNext h.steady (makes_read _ _))
    intro _ trace g
    refine Leads.ite (fun _ => ?_) fun _ => ?_
    · exact (g.makes (makes_functionExpression g.room)).makes
    · exact (g.makes (makes_nameOperand _)).makes
  case h_15 => exact makes_functionExpression h
  case h_16 at_ => exact (takes_classExpression h at_).makes
  case h_17 at_ => exact makes_newExpression h at_
  case h_18 at_ => exact (takes_regularExpression h.steady (.inl at_)).makes
  case h_19 at_ => exact (takes_regularExpression h.steady (.inr at_)).makes
  case h_20 at_ => exact (takes_templateExpression h (isText_at at_ (by rfl)) false).makes
  case h_21 at_ => exact makes_privateIdentifier at_
  case h_22 => exact makes_nameOperand s
  case h_1 at_ | h_2 at_ | h_3 at_ => exact makes_literal (at_ ▸ rfl)
  all_goals next at_ => exact makes_takeToken (at_ ▸ rfl)

omit [Grammar] in
theorem kind_nameOperand (s : State) : Leads nameOperand s fun n _ => n.kind.isFirst :=
  Leads.read (Leads.ite (fun _ => rfl) fun _ => rfl)

omit [Grammar] in
theorem kind_regularExpression (at_ : s.token = .slashToken ∨ s.token = .slashEqualsToken) :
    Leads regularExpression s fun n _ => n.kind.isFirst := by
  have found := token_reread_slash at_
  refine Leads.bind (P := fun _ t => t = s.reread .slash) rfl fun _ t same => ?_
  subst same
  refine Leads.ifAt (fun _ => ?_) fun away => absurd found away
  exact (kind_literal (s.reread .slash)).mono fun n _ kind => (by rw [kind, found]; rfl)

theorem kind_newExpression (s : State) : Leads newExpression s fun n _ => n.kind.isFirst := by
  refine Leads.read (Leads.skip fun _ _ => Leads.skip fun _ _ => ?_)
  refine Leads.ite (fun _ => rfl) fun _ => ?_
  refine Leads.read (Leads.skip fun _ _ => Leads.skip fun _ _ => ?_)
  exact Leads.ifAt (fun _ => rfl) fun _ => rfl

theorem kind_primaryStep (s : State) : Leads primaryStep s fun n _ => n.kind.isFirst := by
  have token {k : Kind} (at_ : s.token = k) (lone : k.isFirst) :
      Leads takeToken s fun n _ => n.kind.isFirst :=
    (kind_takeToken s).mono fun n _ kind => (by rw [kind, at_]; exact lone)
  have literal {k : Kind} (at_ : s.token = k) (lone : k.isFirst) :
      Leads literal s fun n _ => n.kind.isFirst :=
    (kind_literal s).mono fun n _ kind => (by rw [kind, at_]; exact lone)
  apply Leads.read
  split
  case h_1 | h_2 | h_3 => next at_ => exact literal at_ rfl
  case h_4 at_ => exact kind_templatePiece (by rw [at_]; rfl) false
  case h_10 =>
    next at_ =>
      refine Leads.read ((token at_ rfl).bind fun keyword t lone => Leads.skip fun _ _ => ?_)
      exact Leads.ite (fun _ => rfl) fun _ => lone
  case h_14 =>
    exact Leads.skip fun _ t => Leads.ite (fun _ => rfl) fun _ => kind_nameOperand t
  case h_16 => exact (kind_classExpression s).mono fun n _ kind => (by rw [kind]; rfl)
  case h_17 => exact kind_newExpression s
  case h_18 at_ => exact kind_regularExpression (.inl at_)
  case h_19 at_ => exact kind_regularExpression (.inr at_)
  case h_22 => exact kind_nameOperand s
  case h_11 | h_12 | h_13 | h_15 | h_20 | h_21 => rfl
  all_goals
    next at_ => exact token at_ rfl

end ScriptGrammar
