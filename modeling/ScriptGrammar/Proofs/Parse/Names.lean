import ScriptGrammar.Parse.Start
import ScriptGrammar.Proofs.Parse.Tokens

/-!
# Names, literals and questions

A name or literal is taken where its token stands; a name that is not there is reported before
its placeholder is made. Questions about the tokens ahead leave the state as it was.
-/

namespace ScriptGrammar

open Parse ScriptGrammar.Parser

variable {r : Nat} {s : State}

theorem leads_missingIdentifier (blamed : s.Blamed) :
    Leads missingIdentifier s fun n t =>
      Yields s t [n] ∧ n.isMissing ∧ n.range = .empty s.tokenPos :=
  ⟨Yields.trans (yields_missing .identifier _ blamed rfl rfl) (.enterName "" _), rfl, rfl⟩

theorem makes_missingIdentifier (blamed : s.Blamed) : Makes missingIdentifier s :=
  (leads_missingIdentifier blamed).1

theorem makes_identifierIf {ok : Bool} (message : Option Message)
    (word : ok = true → s.token.isWord = true) : Makes (identifierIf ok message) s := by
  refine Leads.ite (fun taken => ?_) fun _ => ?_
  · exact Yields.trans (yields_told (yields_advance s) (passes_advance _ s) (.word (word taken) _))
      (.enterName _ _)
  · exact Yields.trans (yields_reportHere _ _ s)
      (makes_missingIdentifier (State.blamed_report _ _ _ s))

theorem takes_identifierIf (message : Option Message) (h : s.Steady)
    (word : s.token.isWord = true) : Takes (identifierIf true message) s :=
  ⟨makes_identifierIf message fun _ => word, lt_advance .plain h (Kind.ne_endOfFile_of_isWord word)⟩

theorem Kind.isWord_of_isIdentifierLike {k : Kind} (h : k.isIdentifierLike = true) :
    k.isWord = true := by
  cases k <;> first | rfl | cases h

theorem isWord_of_atIdentifier (h : s.atIdentifier = true) : s.token.isWord = true := by
  unfold State.atIdentifier at h
  split at h
  · next at_ => rw [at_]; rfl
  · next at_ => rw [at_]; rfl
  · exact Kind.isWord_of_isIdentifierLike h

theorem makes_identifier (s : State) : Makes identifier s :=
  makes_identifierIf _ isWord_of_atIdentifier

theorem makes_identifierOr (message : Message) (s : State) : Makes (identifierOr message) s :=
  makes_identifierIf _ isWord_of_atIdentifier

theorem makes_identifierName (s : State) : Makes identifierName s := makes_identifierIf _ id

/-- A keyword that may be a name is another one than `this`. -/
theorem isThis_identifier (s : State) : Leads identifier s fun n _ => n.isThis = false := by
  refine Leads.read (Leads.ite (fun at_ => ?_) fun _ => rfl)
  have other : s.token ≠ .thisKeyword := by
    intro this
    rw [State.atIdentifier, this] at at_
    change Kind.thisKeyword.isIdentifierLike = true at at_
    exact absurd at_ (by decide)
  show Node.isThis (.leaf _ (.name _ (if s.token == .identifier then none else some s.token))) =
    false
  split
  · rfl
  · simp only [Node.isThis, Node.detail, Node.leaf]
    split
    · next same =>
      obtain ⟨_, this⟩ : _ ∧ s.token = .thisKeyword := by simpa using same
      exact absurd this other
    · rfl

theorem more_of_isModifier (h : s.token.isModifier) : s.token ≠ .endOfFileToken := by
  intro ended
  rw [ended] at h
  exact absurd h (by decide)

theorem isPlain_of_isModifier {k : Kind} (h : k.isModifier = true) : k.isPlain = true := by
  cases k <;> first | rfl | cases h

theorem takes_identifier (h : s.Steady) (at_ : s.atIdentifier) : Takes identifier s := by
  have taken := takes_identifierIf none h (isWord_of_atIdentifier at_)
  rw [← at_] at taken
  exact taken

theorem takes_identifierName (h : s.Steady) (word : s.token.isWord) : Takes identifierName s := by
  have taken := takes_identifierIf none h word
  rw [← word] at taken
  exact taken

theorem makes_privateIdentifier (at_ : s.token = .privateIdentifier) :
    Makes privateIdentifier s :=
  Yields.trans (yields_told (yields_advance s) (passes_advance _ s) (.privateName at_))
    (.enterName _ _)

theorem makes_literal (text : s.token.isText = true) : Makes literal s :=
  yields_told (yields_advance s) (passes_advance _ s) (.text text _)

theorem takes_literal (h : s.Steady) (text : s.token.isText = true) : Takes literal s :=
  ⟨makes_literal text, lt_advance .plain h (Kind.more_of_isText text)⟩

variable [Grammar]

theorem makes_nameAfterDot (h : Room r s) (anyWord : Bool) : Makes (nameAfterDot anyWord) s := by
  have quiet : Asks (onNewLine <&&> isWord <&&> aheadNext isWordOnLine) s :=
    asks_and (asks_read _ s) fun trace =>
      asks_and (asks_read _ _) fun _ => asks_aheadNext (h.steady.traced _) (makes_read _ _)
  apply h.begin.ask quiet
  intro _ trace g
  refine Leads.ite (fun _ => ?_) fun _ => Leads.ite (fun _ => ?_) fun _ => ?_
  · exact g.reporting fun t g blamed _ => (g.makes (makes_missingIdentifier blamed)).makes
  · exact (g.makes (makes_identifierName _)).makes
  · exact (g.makes (makes_identifier _)).makes

theorem makes_memberName (h : Room r s) : Makes memberName s :=
  Leads.ifAt makes_privateIdentifier fun _ => makes_nameAfterDot h true

theorem makes_entityName (h : Room r s) (anyWord : Bool) (message : Option Message) :
    Makes (entityName anyWord message) s := by
  unfold entityName
  apply Leads.read
  apply Leads.fork fun (ok : Bool) t => t = s ∧ (ok = true → s.token.isWord = true)
  · intro rest
    refine Leads.ite (fun _ => Leads.bind ?_ rest) fun _ => Leads.bind ?_ rest
    · exact ⟨rfl, id⟩
    · exact ⟨rfl, isWord_of_atIdentifier⟩
  rintro ok _ ⟨rfl, word⟩
  apply h.begin.on (makes_identifierIf message word)
  intro first t g
  refine (g.loop held fun left t g => ?_).makes
  refine g.ifAccept (by decide) (fun t _ g => ?_) fun _ => ?_
  · apply g.on (makes_nameAfterDot g.room anyWord)
    intro right t g
    apply (g.buildFree (by simp) (by rfl) (by rfl)).bind
    intro n t g
    exact g.again (by omega)
  · exact g.done (Nat.le_refl _)

theorem asks_startsLeftHandSide (h : Room r s) : Asks startsLeftHandSide s := by
  refine asks_bind (asks_read _ s) fun _ trace => asks_ite (fun _ => ?_) fun _ => asks_read _ _
  exact asks_nextIsAny (h.steady.traced trace) _

theorem asks_startsOperand (h : Room r s) : Asks startsOperand s :=
  asks_or (asks_startsLeftHandSide h) fun _ => asks_read _ _

theorem asks_startsExpression (h : Room r s) : Asks startsExpression s :=
  asks_or (asks_startsOperand h) fun _ => asks_read _ _

theorem asks_startsPlainType (h : Room r s) (inParameter : Bool) :
    Asks (startsPlainType inParameter) s := by
  apply asks_bind (asks_read _ s)
  intro k trace
  split
  · exact asks_pure _ _
  · apply asks_ite (fun _ => asks_pure _ _)
    intro _
    exact asks_aheadNext (h.steady.traced trace) (makes_read _ _)
  · exact asks_pure _ _
  · exact asks_ite (fun _ => asks_read _ _) fun _ => asks_pure _ _

theorem asks_startsParameter (h : Room r s) : Asks startsParameter s :=
  asks_or (asks_read _ s) fun trace => asks_startsPlainType (h.traced trace) true

/-- The walk over opening parentheses goes on only from one that it has just come to. -/
theorem asks_startsType (h : Room r s) : Asks startsType s := by
  refine asks_from (asks_ite (fun _ => asks_startsPlainType h false) fun paren => ?_)
  have paren : s.token = .openParenToken := by simpa using paren
  apply asks_ahead h.steady
  refine ((h.openAttempt.begin.loopWith (fun _ : Bool => [])
    (fun _ t => t.token = .openParenToken) (fun _ _ => True) paren fun _ t g _ at_ => ?_).mono
      fun _ _ walked => walked.1).makes
  apply g.past (takes_next g.steady (ne_endOfFile at_ (by decide)))
  intro _ t g
  have quiet : Asks (isAt .closeParenToken <||> startsParameter) t :=
    asks_or (asks_read _ t) fun trace => asks_startsParameter (g.room.traced trace)
  apply g.ask quiet
  intro _ trace g
  refine Leads.ite (fun _ => g.done (Nat.le_succ _)) fun _ => Leads.ifAt (fun at_ => ?_) fun _ => ?_
  · exact ⟨⟨g.yields, at_⟩, g.floor⟩
  · exact g.ask (asks_startsPlainType g.room false) fun _ _ g => g.done (Nat.le_succ _)

theorem makes_isUsingName (h : Room r s) : Makes isUsingName s := by
  refine Leads.read (Leads.read (Leads.ite (fun _ => ?_) fun _ => .refl s))
  exact h.begin.on (makes_next s) fun _ t g => (g.makes (makes_read _ t)).makes

theorem makes_declarationWalk (h : Room r s) : Makes declarationWalk s := by
  refine (h.begin.loop (fun _ : Bool => []) fun _ t g => ?_).makes
  refine Leads.read (Leads.ite (fun _ => g.done (Nat.le_refl _)) fun starts => ?_)
  have more : t.token ≠ .endOfFileToken := by
    intro ended
    rw [ended] at starts
    exact starts (by decide)
  have taken := takes_next g.steady more
  have deciding {f : State → Bool} : Leads (next >>= fun _ => read f >>= fun b => pure (.done b)) t
      (Grows s (fun _ : Bool => []) t) :=
    g.past taken fun _ _ g => g.done (Nat.le_succ _)
  split
  -- `using` and `await` are decided ahead, the modifiers and `export` by the token behind them.
  case h_7 =>
    exact g.ask (asks_aheadNext g.steady (makes_read _ _)) fun _ _ g => g.done (Nat.le_refl _)
  case h_8 =>
    have inner := makes_isUsingName (g.room.openAttempt.later (yields_advance _))
    exact g.ask (asks_aheadNext g.steady inner) fun _ _ g => g.done (Nat.le_refl _)
  case h_9 | h_10 | h_11 | h_12 | h_21 | h_22 => exact deciding
  case h_13 | h_14 | h_15 | h_16 | h_17 | h_18 | h_19 | h_20 =>
    apply g.past taken
    intro _ u g
    refine Leads.read (Leads.ite (fun _ => g.done (Nat.le_succ _)) fun _ => ?_)
    refine Leads.read (Leads.ite (fun _ => g.done (Nat.le_succ _)) fun _ => ?_)
    exact g.again (Nat.lt_succ_self _)
  case h_23 =>
    apply g.past taken
    intro _ u g
    apply Leads.fork fun (_ : Kind) u => Grown (t.prevEnd + 1) 6 s u []
    · intro rest
      refine Leads.ifAt (fun _ => ?_) fun _ => ?_
      · refine g.ask (asks_aheadNext g.steady ?_) fun k _ g => rest k _ g
        exact .refl _
      · exact Leads.read (rest _ u g)
    intro k u g
    exact Leads.ite (fun _ => g.done (Nat.le_succ _)) fun _ => g.again (Nat.lt_succ_self _)
  case h_24 => exact g.past taken fun _ _ g => g.again (Nat.lt_succ_self _)
  all_goals exact g.done (Nat.le_refl _)

theorem asks_startsDeclaration (h : Room r s) : Asks startsDeclaration s :=
  asks_ahead h.steady (makes_declarationWalk h.openAttempt)

theorem asks_startsStatement (h : Room r s) : Asks startsStatement s := by
  refine asks_from (asks_ite (fun _ => asks_pure _ s) fun _ => ?_)
  have worded (trace : State.Trace) :
      Asks (aheadNext isWordOnLine >>= fun b => pure !b) (s.withTrace trace) :=
    asks_bind (asks_aheadNext (h.steady.traced trace) (makes_read _ _)) fun _ _ => asks_pure _ _
  split
  · exact asks_or (asks_startsDeclaration h) fun trace => asks_nextIsAny (h.steady.traced trace) _
  · exact asks_startsDeclaration h
  · exact asks_startsDeclaration h
  all_goals first
    | exact asks_or (asks_startsDeclaration h) worded
    | exact asks_startsExpression h

theorem makes_typeMemberWalk (h : Room r s) : Makes typeMemberWalk s := by
  unfold typeMemberWalk
  refine Leads.read (Leads.ite (fun _ => .refl s) fun _ => ?_)
  refine (h.begin.loop (fun _ : Bool => []) fun _ t g => ?_).bind fun named t g => ?_
  · refine Leads.read (Leads.ite (fun modifier => ?_) fun _ => g.done (Nat.le_refl _))
    apply g.past (takes_next g.steady (more_of_isModifier modifier))
    intro _ _ g
    exact g.again (Nat.lt_succ_self _)
  refine Leads.read (Leads.ite (fun _ => g.yields) fun _ => ?_)
  apply Leads.fork fun (_ : Bool) t => Grown s.prevEnd r s t []
  · intro rest
    refine Leads.read (Leads.ite (fun _ => ?_) fun _ => ?_)
    · exact g.on (makes_next t) fun _ t g => (Leads.pure g).bind rest
    · exact (Leads.pure g).bind rest
  exact fun _ _ g => g.yields

theorem makes_classMemberWalk (h : Room r s) : Makes classMemberWalk s := by
  unfold classMemberWalk
  refine Leads.ifAt (fun _ => .refl s) fun _ => ?_
  refine (h.begin.loop (fun _ : Option Kind × Bool => []) fun a t g => ?_).bind fun passed t g => ?_
  · refine Leads.read (Leads.ite (fun _ => g.done (Nat.le_refl _)) fun modifier => ?_)
    refine Leads.ite (fun _ => g.done (Nat.le_refl _)) fun _ => ?_
    have modifier : t.token.isModifier := by simpa using modifier
    refine g.past (takes_next g.steady (more_of_isModifier modifier)) fun _ _ g => ?_
    exact g.again (Nat.lt_succ_self _)
  refine Leads.ite (fun _ => g.yields) fun _ => Leads.ifAt (fun _ => g.yields) fun _ => ?_
  refine Leads.read ?_
  apply Leads.fork fun (_ : Option Kind) t => Grown s.prevEnd r s t []
  · intro rest
    refine Leads.read (Leads.ite (fun _ => ?_) fun _ => ?_)
    · exact g.on (makes_next t) fun _ t g => (Leads.pure g).bind rest
    · exact (Leads.pure g).bind rest
  intro word t g
  refine Leads.ifAt (fun _ => g.yields) fun _ => ?_
  cases word with
  | none => exact g.yields
  | some w => exact Leads.ite (fun _ => g.yields) fun _ => g.yields

end ScriptGrammar
