import ScriptGrammar.Proofs.Parse.Expressions

/-!
# Operators between values

One loop folds all operators behind an operand. Its turns hand on that the operator at the cursor,
if it goes on, takes the value so far on its left. For an operator behind an operation this comes
from what the right operand promises: it left none at the cursor that was tight enough for it. An
assignment and a conditional expression have only the promise of their last part.
-/

namespace ScriptGrammar

open Parse ScriptGrammar.Parser

variable [Grammar] {r floor : Nat} {s s₀ t : State} {left : Node}

section Settled

omit [Grammar]

/-- Reading an operator again changes it once at most. -/
theorem token_reread_reread (s : State) :
    ((s.reread .greater).reread .greater).token = (s.reread .greater).token := by
  show ({ s.scanner.rescanGreater with pending := #[] } : Scanner).rescanGreater.kind = _
  rw [Scanner.rescanGreater_withPending, Scanner.rescanGreater_rescanGreater]
  rfl

theorem token_reread_of_ne (away : s.token ≠ .greaterThanToken) :
    (s.reread .greater).token = s.token :=
  (stays_greater s).kind.resolve_right fun long => away long.1

theorem onNewLine_reread (s : State) : (s.reread .greater).onNewLine = s.onNewLine :=
  (stays_greater s).line

/-- No operator stands at the cursor, whichever way it is read. -/
theorem rests_reread (rests : s.rests .assignment true) :
    (s.reread .greater).rests .assignment true := by
  have away : s.token ≠ .greaterThanToken := by
    intro angle
    have goes : s.rests .assignment true = false := by
      simp only [State.rests, State.refuses, angle]
      rfl
    rw [goes] at rests
    cases rests
  exact (State.rests_congr (token_reread_of_ne away) (onNewLine_reread s) rfl).trans rests

/-- Where an operator stands that is no comma, only a refusal keeps it from going on. -/
theorem rests_eq_refuses (valid : s.token.binaryTier.isValid)
    (other : s.token.binaryTier ≠ .comma) : s.rests .assignment true = s.refuses true := by
  have tight : s.token.binaryTier.looserThan .assignment = false :=
    (Kind.assignment_le_binaryTier s.token).resolve_left other
  simp [State.rests, valid, other, tight]

theorem refuses_mono (operation : Bool) (refuses : s.refuses operation) : s.refuses true := by
  simp only [State.refuses, Bool.or_eq_true, Bool.and_eq_true] at refuses ⊢
  exact refuses.imp_right fun assigns => ⟨assigns.1, trivial⟩

theorem rests_mono (operation : Bool) (rests : s.rests .assignment operation) :
    s.rests .assignment true := by
  simp only [State.rests, Bool.or_eq_true] at rests ⊢
  exact rests.imp_right (refuses_mono operation)

end Settled

/-- The operator at the cursor, if it goes on, takes `left`, or it may stand behind `left` without
that. -/
def Follows (left : Node) (t : State) : Prop :=
  (t.reread .greater).rests .assignment true = false →
    (t.reread .greater).token.takesLeft left.tier ∨ left.isCast ∨ left.Trails

section Follows

omit [Grammar]

variable {n e : Node}

theorem follows_operand (operand : n.kind.isOperand) (t : State) : Follows n t := by
  intro goes
  rw [Node.tier_of_isOperand operand]
  refine .inl (Kind.takesLeft_invalid ?_)
  simp only [State.rests, Bool.or_eq_false_iff] at goes
  simpa using goes.1.1.1

theorem follows_of_valueEnds (ends : ValueEnds e t) (trails : e.BreaksOff → n.Trails) :
    Follows n t := by
  intro goes
  rcases ends with rests | breaks
  · rw [rests_reread rests] at goes
    cases goes
  · exact .inr (.inr (trails breaks))

/-- Behind an operation stands an operator that its right operand left there. -/
theorem follows_of_valueAnswer {k : Kind} (valid : k.binaryTier.isValid)
    (tier : n.tier = k.binaryTier) (answer : ValueAnswer k.rightTier e t) : Follows n t := by
  intro goes
  have settled := answer.settled
  have rests := answer.rests
  rw [State.rests_congr settled (onNewLine_reread t) rfl] at goes
  rw [settled, tier]
  refine .inl (Kind.takesLeft_of_rightTier valid ?_)
  simp only [State.rests, Bool.or_eq_false_iff] at goes
  obtain ⟨⟨⟨noted, _⟩, other⟩, goes⟩ := goes
  simp only [State.rests, noted, other, Bool.false_or, Bool.or_false, Bool.or_eq_true] at rests
  apply rests.resolve_right
  intro refuses
  rw [refuses_mono _ refuses] at goes
  cases goes

theorem tier_binaryExpression (info : NodeInfo) (kind : info.kind = .binaryExpression)
    (left operator right : Node) :
    (Node.ofSlots info .none [.one .left left, .one .operatorToken operator,
      .one .right right]).tier = operator.kind.binaryTier := by
  have kind : (Node.ofSlots info .none [.one .left left, .one .operatorToken operator,
      .one .right right]).kind = .binaryExpression := kind
  simp [Node.tier, kind, Node.childAs?, Node.children_ofSlots, Slot.nodes]

end Follows

omit [Grammar] in
theorem Kind.isPlain_of_binaryTier {k : Kind} (valid : k.binaryTier.isValid = true) :
    k.isPlain = true := by
  cases k <;> first | rfl | cases valid

/-- What an operator and what stands behind it come to: nothing if it is refused, and else a value
of its tier. -/
def Operated (floor : Nat) (s₀ : State) (left : Node) (s : State) (o : Option Node) (t : State) :
    Prop :=
  o.elim (t = s ∧ s.refuses left.kind.isOperation) fun n =>
    Grown (floor + 1) 6 s₀ t [n] ∧ n.tier = s.token.binaryTier ∧ Follows n t

theorem leads_conditionalRest (g : Grown floor r s₀ s [left]) (plain : s.token.isPlain = true)
    (takes : Kind.questionToken.takesLeft left.tier ∨ left.Trails) (arrowTypes : Bool) :
    Leads (conditionalRest s₀.nodeStart left arrowTypes) s fun n t =>
      Grown (floor + 1) 6 s₀ t (held n) ∧ n.tier = .conditional ∧ Follows n t := by
  apply g.past (takes_takeToken g.steady plain)
  intro question t g
  apply g.on (makes_allowingIn fun c => makes_assignment (g.room.inContext c) false)
  intro yes t g
  refine Leads.read ((leads_expectToken .colonToken t rfl).bind fun colon u expected => ?_)
  have g := g.later expected.1
  apply Leads.fork fun (no : Node) u =>
    Grown (floor + 1) 6 s₀ u ([left] ++ [question] ++ [yes] ++ [colon] ++ [no]) ∧ ValueEnds no u
  · intro rest
    refine Leads.ite (fun _ => ?_) fun away => ?_
    · exact ((g.makes (makes_assignment g.room arrowTypes)).and
        (promises_assignment g.room arrowTypes)).bind rest
    · have away : t.token ≠ .colonToken := by simpa using away
      apply (leads_missingIdentifier (expected.2 away)).bind
      rintro no v ⟨y, missing, _⟩
      exact rest no v ⟨g.later y, .inr (.missing missing)⟩
  · rintro no t ⟨g, ends⟩
    have tiered : Tiered .conditionalExpression ([Slot.one .condition left,
        .one .questionToken question, .one .whenTrue yes, .one .colonToken colon,
        .one .whenFalse no].flatMap Slot.nodes) := by
      simpa [Tiered, playing, Slot.nodes] using takes
    refine ⟨g.build (by simp) tiered (fun _ => trivial)
      ⟨fun no => (by cases no), rfl, trivial, fun no => (by cases no)⟩, rfl,
      follows_of_valueEnds ends fun breaks => .inr ⟨rfl, ?_⟩⟩
    exact ⟨no.as .whenFalse, Node.mem_childrenAs (by simp), breaks.as _⟩

theorem Grown.buildBinary {operator right : Node}
    (g : Grown floor r s₀ s ([left] ++ [operator] ++ [right]))
    (tiered : operator.kind.isJoining →
      (operator.kind.takesLeft left.tier ∨ left.isCast ∨ left.Trails) ∧
        operator.kind.takesRight right.tier) :
    Leads (buildBinary s₀.nodeStart left operator right) s fun n t =>
      Grown floor r s₀ t [n] ∧ n.tier = operator.kind.binaryTier ∧
        (operator.kind.isAssignment → right.BreaksOff → n.Trails) := by
  have tier := tier_binaryExpression (s.close .binaryExpression s₀.nodeStart).1 rfl left operator
    right
  refine ⟨g.build (by simp) (tiered_binary tiered) (fun _ => trivial)
      ⟨nofun, rfl, trivial, nofun⟩, tier,
    fun assigns breaks => .inl ⟨rfl, ?_, ?_⟩⟩
  · exact tier.trans (by simp [Kind.binaryTier, assigns])
  · exact ⟨right.as .right, Node.mem_childrenAs (by simp), breaks.as _⟩

/-- Behind a type any operator may follow. -/
theorem leads_casting (g : Grown floor r s₀ s [left]) (more : s.token ≠ .endOfFileToken)
    (casts : s.token = .asKeyword ∨ s.token = .satisfiesKeyword)
    (takes : Kind.asKeyword.takesLeft left.tier ∨ left.Trails) :
    Leads (do
      next
      let type ← type
      return some (← build
        (if s.token == .asKeyword then .asExpression else .satisfiesExpression) s₀.nodeStart
        [.one .expression left, .one .typeNode type])) s (Operated floor s₀ left s) := by
  apply g.past (takes_next g.steady more)
  intro _ t g
  apply g.on (makes_type g.room)
  intro type t g
  rcases casts with at_ | at_
  all_goals
    rw [at_]
    refine ⟨g.build (by simp) ?_ (fun _ => trivial)
      ⟨fun no => (by cases no), rfl, trivial, fun no => (by cases no)⟩, ?_,
      fun _ => .inr (.inl rfl)⟩
    · simpa [Tiered, playing, Slot.nodes] using takes
    · rw [at_]
      rfl

theorem leads_assigning (g : Grown floor r s₀ s [left]) (plain : s.token.isPlain = true)
    (assigns : s.token.isAssignment) (arrowTypes : Bool) :
    Leads (do
      let operator ← takeToken
      let right ← assignment arrowTypes
      return some (← buildBinary s₀.nodeStart left operator right)) s
      (Operated floor s₀ left s) := by
  apply ((g.takes (takes_takeToken g.steady plain)).and (kind_takeToken s)).bind
  rintro operator t ⟨g, kind⟩
  apply ((g.makes (makes_assignment g.room arrowTypes)).and
    (promises_assignment g.room arrowTypes)).bind
  rintro right t ⟨g, ends⟩
  have loose : operator.kind.isJoining = false := by simp [Kind.isJoining, kind, assigns]
  have built := g.buildBinary fun joins => absurd joins (by simp [loose])
  refine ⟨built.1, kind ▸ built.2.1, ?_⟩
  exact follows_of_valueEnds ends (built.2.2 (kind ▸ assigns))

theorem leads_joining (g : Grown floor r s₀ s [left]) (valid : s.token.binaryTier.isValid)
    (plain : s.token.isPlain = true)
    (takes : s.token.takesLeft left.tier ∨ left.isCast ∨ left.Trails) (arrowTypes : Bool) :
    Leads (do
      let operator ← takeToken
      let right ← Grammar.parse (.binary s.token.rightTier arrowTypes)
      return some (← buildBinary s₀.nodeStart left operator right)) s
      (Operated floor s₀ left s) := by
  apply ((g.takes (takes_takeToken g.steady plain)).and (kind_takeToken s)).bind
  rintro operator t ⟨g, kind⟩
  apply ((g.makes (makes_binary g.room s.token.rightTier arrowTypes)).and
    (promises_binary g.room s.token.rightTier arrowTypes)).bind
  rintro right t ⟨g, answer⟩
  have built := g.buildBinary fun _ =>
    ⟨kind ▸ takes, kind ▸ Kind.takesRight_of_rightTier valid answer.tier⟩
  have tier := kind ▸ built.2.1
  exact ⟨built.1, tier, follows_of_valueAnswer (t := t) valid tier answer⟩

/-- An operation takes its operator. Where it is refused, nothing changes. -/
theorem leads_operation? (g : Grown floor r s₀ s [left]) (valid : s.token.binaryTier.isValid)
    (other : s.token.binaryTier ≠ .comma)
    (takes : s.rests .assignment true = false →
      s.token.takesLeft left.tier ∨ left.isCast ∨ left.Trails) (arrowTypes : Bool) :
    Leads (operation? s₀.nodeStart left s.token arrowTypes) s (Operated floor s₀ left s) := by
  have alone := Kind.isPlain_of_binaryTier valid
  rw [rests_eq_refuses valid other] at takes
  -- A value that goes on anyway is a cast, whose tier every looser operator takes.
  have settle {k : Kind} (looser : k.takesLeft .relational)
      (takes : k.takesLeft left.tier ∨ left.isCast ∨ left.Trails) :
      k.takesLeft left.tier ∨ left.Trails := by
    rcases takes with takes | cast | trails
    · exact .inl takes
    · exact .inl (Node.tier_of_isCast cast ▸ looser)
    · exact .inr trails
  refine Leads.read (Leads.ite (fun no => ⟨rfl, by simp [State.refuses, no]⟩) fun allowed => ?_)
  refine Leads.ite (fun casts => Leads.read (Leads.ite ?_ fun here => ?_)) fun plain => ?_
  · exact fun late => ⟨rfl, by simp [State.refuses, casts, late]⟩
  · have at_ : s.token = .asKeyword ∨ s.token = .satisfiesKeyword := by simpa using casts
    have takes := takes (by
      rcases at_ with at_ | at_ <;> simp [State.refuses, at_, here] <;> rfl)
    refine leads_casting g (Kind.more_of_isPlain alone) at_ ?_
    rcases at_ with at_ | at_
    · exact settle rfl (at_ ▸ takes)
    · exact settle (k := .satisfiesKeyword) rfl (at_ ▸ takes)
  refine Leads.ite (fun asks => ?_) fun _ => ?_
  · have at_ : s.token = .questionToken := eq_of_beq asks
    have takes := takes (by simp [State.refuses, at_]; rfl)
    rw [at_] at takes
    apply (leads_conditionalRest g alone (settle rfl takes) arrowTypes).bind
    rintro n t ⟨g, tier, follows⟩
    exact ⟨g, tier.trans (by rw [at_]; rfl), follows⟩
  refine Leads.ite (fun assigns => Leads.ite ?_ fun _ => ?_) fun joins => ?_
  · exact fun operation => ⟨rfl, by simp [State.refuses, assigns, operation]⟩
  · exact leads_assigning g alone assigns arrowTypes
  · have takes := takes (by
      simp only [State.refuses, Bool.eq_false_iff.mpr allowed, Bool.eq_false_iff.mpr plain,
        Bool.eq_false_iff.mpr joins, Bool.false_and, Bool.or_false])
    exact leads_joining g valid alone takes arrowTypes

theorem leads_binaryRest (g : Grown floor r s₀ s [left]) (min : Tier) (arrowTypes : Bool)
    (operand : left.kind.isOperand) :
    Leads (binaryRest s₀.nodeStart min left arrowTypes) s fun n t =>
      Grown floor r s₀ t [n] ∧ ValueAnswer min n t := by
  have tight : left.tier.looserThan min = false := by
    rw [Node.tier_of_isOperand operand]
    cases min <;> rfl
  apply g.loopWith (fun n => [n])
    (fun n t => n.tier.looserThan min = false ∧ Follows n t) (ValueAnswer min)
    ⟨tight, follows_operand operand s⟩
  rintro left t g - ⟨tight, follows⟩
  apply Leads.fork fun (_ : Unit) u => Grown t.prevEnd r s₀ u [left] ∧
    u.token = (t.reread .greater).token ∧ u.onNewLine = t.onNewLine ∧ u.context = t.context ∧
    (u.reread .greater).token = u.token
  · intro rest
    refine Leads.ifAt (fun _ => ?_) fun away => ?_
    · have reread : Leads (Parser.reread .greater) t fun _ u => Grown t.prevEnd r s₀ u [left] ∧
          u.token = (t.reread .greater).token ∧ u.onNewLine = t.onNewLine ∧ u.context = t.context ∧
          (u.reread .greater).token = u.token :=
        ⟨g.still (.greater t), rfl, onNewLine_reread t, rfl, token_reread_reread t⟩
      exact reread.bind rest
    · exact rest () t ⟨g, (token_reread_of_ne away).symm, rfl, rfl, token_reread_of_ne away⟩
  rintro _ u ⟨g, token, line, context, settled⟩
  have finish (rests : u.rests min left.kind.isOperation) : Leads (pure (.done left)) u
      (GrowsWith s₀ (fun n => [n]) (fun n t => n.tier.looserThan min = false ∧ Follows n t)
        (ValueAnswer min) t) :=
    ⟨g.yields, g.floor, tight, rests, settled⟩
  refine Leads.read (Leads.ite (fun stops => finish ?_) fun goes => ?_)
  · simp [State.rests, stops]
  simp only [Bool.or_eq_true, Bool.not_eq_true', beq_iff_eq, not_or, Bool.not_eq_false] at goes
  obtain ⟨⟨valid, reaches⟩, other⟩ := goes
  have same : u.rests .assignment true = (t.reread .greater).rests .assignment true :=
    State.rests_congr token (line.trans (onNewLine_reread t).symm)
      (congrArg Context.disallowIn context)
  have takes (goes : u.rests .assignment true = false) :
      u.token.takesLeft left.tier ∨ left.isCast ∨ left.Trails :=
    token ▸ follows (same ▸ goes)
  apply (leads_operation? g valid other takes arrowTypes).bind
  intro o v found
  cases o with
  | some n =>
    obtain ⟨g, tier, follows⟩ := found
    exact ⟨⟨g.yields, tier ▸ by simpa using reaches, follows⟩, g.floor⟩
  | none =>
    obtain ⟨rfl, refuses⟩ := found
    exact finish (by simp [State.rests, refuses])

theorem leads_binaryStep (h : Room (r + 3) s) (min : Tier) (arrowTypes : Bool) :
    Leads (binaryStep min arrowTypes) s fun n t => Yields s t [n] ∧ ValueAnswer min n t := by
  apply Leads.read
  apply ((h.begin.makes (makes_unary h)).and (kind_unary h)).bind
  rintro left t ⟨g, operand⟩
  exact (leads_binaryRest g min arrowTypes operand).mono fun n t got => ⟨got.1.yields, got.2⟩

theorem asks_isYield (h : Room r s) : Asks isYield s := by
  refine asks_from (asks_ite (fun _ => asks_pure _ s) fun _ => ?_)
  refine asks_from (asks_ite (fun _ => asks_pure _ s) fun _ => ?_)
  exact asks_aheadNext h.steady (makes_read _ _)

omit [Grammar] in
theorem isYield_token (yields : (isYield.run s).1 = true) : s.token = .yieldKeyword := by
  have answer : Leads isYield s fun b _ => b = true → s.token = .yieldKeyword :=
    Leads.ifNotAt (fun _ no => (nomatch no)) fun at_ _ => at_
  exact answer yields

omit [Grammar] in
theorem yielded_ofSlots (info : NodeInfo) (star e : Option Node) :
    (Node.ofSlots info .none [.opt .asteriskToken star, .opt .expression e]).childrenAs
      .expression = e.toList.map (·.as .expression) := by
  cases star <;> cases e <;> simp [Node.childrenAs, Node.children_ofSlots, Slot.nodes]

theorem leads_yieldExpression (h : Room r s) (at_ : s.token = .yieldKeyword) :
    Leads yieldExpression s fun n t => Yields s t [n] ∧ ValueEnds n t := by
  refine Leads.read (h.begin.passing at_ (by decide) fun t g => ?_)
  have goes : Asks ((do return !(← onNewLine)) <&&>
      (isAt .asteriskToken <||> startsExpression)) t :=
    asks_and (asks_pure _ t) fun trace => asks_or (asks_read _ _) fun trace' =>
      asks_startsExpression ((g.room.traced trace).traced trace')
  apply g.ask goes
  intro more trace g
  apply Leads.fork fun (star : Option Node) t => Grown (s.prevEnd + 1) 6 s t (held star)
  · intro rest
    refine Leads.ite (fun _ => ?_) fun _ => (Leads.pure g).bind rest
    exact (g.makes (makes_acceptToken _ _ (by rfl))).bind rest
  intro star t g
  have operand : Leads (optionally more (assignment true)) t fun e u =>
      Grown (s.prevEnd + 1) 6 s u (held star ++ held e) ∧ ∀ n, e = some n → ValueEnds n u := by
    refine Leads.ite (fun _ => ?_) fun _ => Leads.pure ⟨g.drop (by simp), fun _ no => (nomatch no)⟩
    apply ((g.makes (makes_assignment g.room true)).and (promises_assignment g.room true)).bind
    rintro n u ⟨g, ends⟩
    exact ⟨g, fun _ same => Option.some.inj same ▸ ends⟩
  apply operand.bind
  rintro e t ⟨g, ends⟩
  refine ⟨(g.buildFree (by simp) (by rfl) (by rfl)).yields, ?_⟩
  cases e with
  | none => exact .inr (.bareYield rfl (yielded_ofSlots _ star none))
  | some e =>
    have among := yielded_ofSlots (t.close .yieldExpression s.nodeStart).1 star (some e)
    refine (ends e rfl).imp id fun breaks => .yield rfl ?_ (breaks.as .expression)
    exact among ▸ List.mem_singleton_self _

theorem leads_assignmentWorker (h : Room (r + 4) s) (arrowTypes : Bool) :
    Leads (assignmentWorker arrowTypes) s fun n t => Yields s t [n] ∧ ValueEnds n t := by
  apply h.begin.answer (asks_isYield h)
  intro trace g
  refine Leads.ite (fun yields => ?_) fun _ => ?_
  · have at_ := isYield_token yields
    apply (leads_yieldExpression g.room at_).mono
    rintro n t ⟨y, ends⟩
    exact ⟨(g.later y).yields, ends⟩
  apply (leads_parenthesizedArrow? g.room arrowTypes).bind
  rintro o t ⟨y, ends⟩
  have g := g.later y
  cases o with
  | some arrow => exact ⟨g.yields, ends arrow rfl⟩
  | none =>
    apply (leads_simpleArrow? g.room arrowTypes).bind
    rintro o t ⟨y, ends⟩
    have g := g.later y
    cases o with
    | some arrow => exact ⟨g.yields, ends arrow rfl⟩
    | none =>
      have made := g.makes (makes_binary g.room .assignment arrowTypes)
      apply (made.and (promises_binary g.room .assignment arrowTypes)).mono
      rintro n t ⟨g, answer⟩
      exact ⟨g.yields, .inl (rests_mono _ answer.rests)⟩

/-- Where the nesting is too deep, a placeholder stands for the value. -/
theorem leads_assignmentStep (h : Room (r + 4) s) (arrowTypes : Bool) :
    Leads (assignmentStep arrowTypes) s fun n t => Yields s t [n] ∧ ValueEnds n t := by
  unfold Leads assignmentStep Parser.nested
  dsimp only
  split
  · have inner := leads_assignmentWorker (h.nested (s.depth + 1)) arrowTypes
    exact ⟨.nested inner.1, inner.2⟩
  · obtain ⟨y, missing, _⟩ := leads_missingIdentifier (State.blamed_report _ _ _ s)
    exact ⟨.trans (yields_reportHere .nestingTooDeep [] s) y, .inr (.missing missing)⟩

end ScriptGrammar
