import ScriptGrammar.Parse.TypeExpression
import ScriptGrammar.Proofs.Parse.Signatures

/-!
# Type expressions

An operator behind a type takes a token, so a chain of them ends. A function type begins with one
of four tokens, whichever of its parts takes it.
-/

namespace ScriptGrammar

open Parse ScriptGrammar.Parser

variable [Grammar] {r floor : Nat} {s s₀ : State} {ns : List Node}

theorem makes_keywordNoDot (h : Room r s) (plain : s.token.isPlain = true) :
    Makes keywordNoDot s := by
  apply h.begin.on (makes_takeToken plain)
  intro node t g
  refine Leads.ifAt (fun _ => (g.gives (by simp)).makes) fun _ => (g.gives (by simp)).makes

/-- A literal, behind its sign or at the cursor. -/
theorem makes_literalType (h : Room r s) (negative : Bool)
    (told : if negative then (s.advance .plain).token.isText = true
      else s.token.isText = true ∨ s.token ∈ [.trueKeyword, .falseKeyword, .nullKeyword]) :
    Makes (literalType negative) s := by
  apply Leads.read
  apply Leads.fork fun (node : Node) t => Grown s.prevEnd r s t [node]
  · intro rest
    refine Leads.read (Leads.ite (fun signed => Leads.read ?_) fun bare => ?_)
    · rw [if_pos signed] at told
      refine Leads.bind (P := fun _ t => t = s.advance .plain) rfl ?_
      rintro _ _ rfl
      have g := h.begin.still (yields_advance s)
      apply g.on (makes_literal told)
      intro operand t g
      exact (g.buildWithFree (by simp) (by rfl) (by rfl)).bind rest
    · rw [if_neg bare] at told
      refine Leads.ite (fun word => ?_) fun other => ?_
      · have plain : s.token.isPlain = true := by
          have word := List.contains_iff_mem.mp word
          simp only [List.mem_cons, List.not_mem_nil, or_false] at word
          rcases word with at_ | at_ | at_ <;> exact isPlain_at at_ (by rfl)
        exact (h.begin.makes (makes_takeToken plain)).bind rest
      · have text := told.resolve_right fun word => other (List.contains_iff_mem.mpr word)
        exact (h.begin.makes (makes_literal text)).bind rest
  · exact fun node t g => (g.buildFree (by simp) (by rfl) (by rfl)).makes

theorem makes_typeReference (h : Room r s) : Makes typeReference s := by
  refine Leads.read (h.begin.on (makes_entityName h _ _) fun name t g => ?_)
  apply g.on (makes_typeArgumentsOnLine? g.room)
  intro typeArgs t g
  exact (g.buildFree (by simp) (by rfl) (by rfl)).makes

theorem makes_typeQuery (h : Room r s) : Makes typeQuery s := by
  refine Leads.read (h.begin.wanting fun _ t g => ?_)
  apply g.on (makes_entityName g.room _ _)
  intro name t g
  apply g.on (makes_typeArgumentsOnLine? g.room)
  intro typeArgs t g
  exact (g.buildFree (by simp) (by rfl) (by rfl)).makes

theorem makes_importType (h : Room r s)
    (at_ : s.token = .typeOfKeyword ∨ s.token = .importKeyword) : Makes importType s := by
  have rest (isTypeOf : Bool) {t : State} (g : Grown (s.prevEnd + 1) 6 s t []) : Leads (do
      let _ ← expect .openParenToken
      let argument ← type
      let _ ← expect .closeParenToken
      let qualifier ← after .dotToken (entityName true (some .typeExpected))
      let typeArgs ← typeArgumentsOnLine?
      buildWith .importType s.nodeStart (.typeOf isTypeOf)
        [.one .argument argument, .opt .qualifier qualifier, .optList .typeArguments typeArgs]) t
      fun n u => Yields s u (held n) := by
    apply g.wanting
    intro _ t g
    apply g.on (makes_type g.room)
    intro argument t g
    apply g.wanting
    intro _ t g
    apply g.on (makes_after g.room (by decide) fun h => makes_entityName h _ _)
    intro qualifier t g
    apply g.on (makes_typeArgumentsOnLine? g.room)
    intro typeArgs t g
    exact (g.buildWithFree (by simp) (by rfl) (by rfl)).makes
  refine Leads.read (h.begin.accept (by decide) (fun t _ g => ?_) fun away => ?_)
  · exact g.wanting fun _ t g => rest true g
  · exact h.begin.passing (at_.resolve_left away) (by decide) fun t g => rest false g

theorem makes_parenthesizedType (h : Room r s) (at_ : s.token = .openParenToken) :
    Makes parenthesizedType s := by
  refine Leads.read (h.begin.passing at_ (by decide) fun t g => ?_)
  apply g.on (makes_type g.room)
  intro inner t g
  exact g.wanting fun _ t g => (g.buildFree (by simp) (by rfl) (by rfl)).makes

theorem makes_templateLiteralType (h : Room r s) (text : s.token.isText = true) :
    Makes templateLiteralType s := by
  refine Leads.read (h.begin.past (takes_templatePiece h.steady text false) fun head t g => ?_)
  apply g.on (makes_templateSpans (P := fun _ => True) g.room _ _ false makes_type
    (fun _ => trivial) fun _ g => g.buildFree (by simp) rfl rfl)
  intro spans t g
  exact (g.buildFree (by simp) (by rfl) (by rfl)).makes

omit [Grammar] in
theorem makes_thisNode (s : State) : Makes thisNode s :=
  yields_leaf (yields_advance s) _ _ (fun _ => trivial) ⟨nofun, rfl, trivial, nofun⟩

omit [Grammar] in
theorem takes_thisNode (h : s.Steady) (more : s.token ≠ .endOfFileToken) : Takes thisNode s :=
  ⟨makes_thisNode s, lt_advance .plain h more⟩

theorem Grown.buildPredicate {asserts type : Option Node} {name : Node}
    (g : Grown floor r s₀ s (held asserts ++ [name] ++ held type)) :
    Leads (buildPredicate s₀.nodeStart asserts name type) s fun n t =>
      Grown floor r s₀ t (held n) :=
  g.buildFree (by simp) rfl rfl

theorem makes_thisTypeOrPredicate (h : Room r s) (more : s.token ≠ .endOfFileToken) :
    Makes thisTypeOrPredicate s := by
  refine Leads.read (h.begin.past (takes_thisNode h.steady more) fun this t g => ?_)
  refine Leads.read (Leads.ite (fun _ => ?_) fun _ => (g.gives (by simp)).makes)
  apply g.on (makes_next t)
  intro _ t g
  apply g.on (makes_type g.room)
  intro type t g
  have g : Grown (s.prevEnd + 1) 6 s t (held (none : Option Node) ++ [this] ++ held (some type)) :=
    g.drop (by simp)
  exact g.buildPredicate.makes

theorem makes_assertsPredicate (h : Room r s) : Makes assertsPredicate s := by
  refine Leads.read (h.begin.on (makes_expectToken _ s (by rfl)) fun asserts t g => ?_)
  apply Leads.fork fun (name : Node) t => Grown s.prevEnd r s t ([asserts] ++ [name])
  · intro rest
    refine Leads.ifAt (fun _ => ?_) fun _ => ?_
    · exact (g.makes (makes_thisNode t)).bind rest
    · exact (g.makes (makes_identifier t)).bind rest
  intro name t g
  apply g.on (makes_after g.room (by decide) makes_type)
  intro type t g
  have g : Grown s.prevEnd r s t (held (some asserts) ++ [name] ++ held type) := g
  exact g.buildPredicate.makes

theorem leads_signatureMember (g : Grown floor r s₀ s []) (kind : Kind)
    (free : kind.isFree = true) :
    Leads (signatureMember s₀.nodeStart kind) s fun n t => Grown floor r s₀ t (held n) := by
  have tail {t : State} (g : Grown floor r s₀ t []) : Leads (do
      let sig ← signature { type := true } true
      typeMemberEnd
      build kind s₀.nodeStart sig.slots) t fun n t => Grown floor r s₀ t (held n) := by
    apply g.on (makes_signature g.room _ _)
    intro sig t g
    apply g.on (makes_typeMemberEnd g.room)
    intro _ t g
    exact g.buildFree (by simp) free rfl
  exact Leads.ite (fun _ => g.wanting fun _ t g => tail g) fun _ => tail g

theorem leads_propertyOrMethodSignature {mods : Option (List Node)}
    (g : Grown floor r s₀ s (held mods)) :
    Leads (propertyOrMethodSignature s₀.nodeStart mods) s fun n t =>
      Grown floor r s₀ t (held n) := by
  apply g.on (makes_propertyName g.room)
  intro name t g
  apply g.on (makes_acceptToken _ t (by rfl))
  intro question t g
  refine Leads.read (Leads.ite (fun _ => ?_) fun _ => ?_)
  · apply g.on (makes_signature g.room _ _)
    intro sig t g
    apply g.on (makes_typeMemberEnd g.room)
    intro _ t g
    exact g.buildModified (by simp) rfl rfl
  · apply g.on (makes_typeAfterColon g.room)
    intro type t g
    apply g.on (makes_typeMemberEnd g.room)
    intro _ t g
    exact g.buildModified (by simp) rfl rfl

theorem makes_typeMember (h : Room r s) : Makes typeMember s := by
  refine Leads.read (Leads.read (Leads.ite (fun _ => ?_) fun _ => ?_))
  · exact (leads_signatureMember h.begin _ (by rfl)).makes
  have constructs : Asks (isAt .newKeyword <&&> nextIsAny [.openParenToken, .lessThanToken]) s :=
    asks_and (asks_read _ s) fun trace => asks_nextIsAny (h.steady.traced trace) _
  refine h.begin.ask constructs fun _ trace g => Leads.ite (fun _ => ?_) fun _ => ?_
  · exact (leads_signatureMember g _ (by rfl)).makes
  apply g.on (makes_keywordModifiers g.room)
  intro mods t g
  refine leads_accessorOr g (fun _ => rfl) fun t g => ?_
  refine g.ask (asks_isIndexSignature g.room) fun _ trace g => Leads.ite (fun _ => ?_) fun _ => ?_
  · exact (leads_indexSignature g).makes
  · exact (leads_propertyOrMethodSignature g).makes

theorem makes_typeMembers (h : Room r s) : Makes typeMembers s := by
  refine h.begin.ifNotExpect (by decide) (fun _ _ g => g.yields) fun t _ g => ?_
  refine g.on (makes_listOf g.room _ fun _ h _ _ => makes_typeMember h) fun members t g => ?_
  exact g.wanting fun _ t g => (g.gives (by simp)).makes

theorem makes_typeLiteral (h : Room r s) : Makes typeLiteral s := by
  refine Leads.read (h.begin.on (makes_typeMembers h) fun members t g => ?_)
  exact (g.buildFree (by simp) (by rfl) (by rfl)).makes

theorem makes_mappedTypeWalk (h : Room r s) : Makes mappedTypeWalk s := by
  apply h.begin.on (makes_next s)
  intro _ t g
  refine Leads.read (Leads.ite (fun _ => ?_) fun _ => ?_)
  · exact g.on (makes_nextToken t) fun _ t g => g.yields
  apply g.on (makes_accept _ t)
  intro _ t g
  refine g.on (makes_accept _ t) fun _ t g => Leads.ite (fun _ => g.yields) fun _ => ?_
  refine Leads.read (Leads.ite (fun _ => g.yields) fun _ => ?_)
  exact g.on (makes_nextToken t) fun _ t g => g.yields

theorem makes_signed (h : Room r s) (word : Kind) (plain : word.isPlain = true) :
    Makes (signed word) s := by
  refine Leads.read (Leads.ite (fun _ => .refl s) fun among => ?_)
  have plain : s.token.isPlain = true := by
    have among : s.token ∈ [word, .plusToken, .minusToken] := by
      simpa only [Bool.not_eq_true', Bool.not_eq_false, List.contains_iff_mem] using among
    simp only [List.mem_cons, List.not_mem_nil, or_false] at among
    rcases among with at_ | at_ | at_
    · exact at_ ▸ plain
    · exact at_ ▸ rfl
    · exact at_ ▸ rfl
  apply h.begin.on (makes_takeToken plain)
  intro node t g
  refine Leads.ite (fun _ => g.wanting fun _ t g => ?_) fun _ => ?_
  · exact (g.gives (by simp)).makes
  · exact (g.gives (by simp)).makes

theorem Grown.buildTypeParameter {name : Node} {bound : Option Node}
    (g : Grown floor r s₀ s ([name] ++ held bound)) :
    Leads (buildTypeParameter s₀.nodeStart name bound) s fun n t => Grown floor r s₀ t (held n) :=
  g.buildFree (by simp) rfl rfl

theorem makes_mappedType (h : Room r s) (at_ : s.token = .openBraceToken) : Makes mappedType s := by
  refine Leads.read (h.begin.passing at_ (by decide) fun t g => ?_)
  apply g.on (makes_signed g.room _ (by rfl))
  intro readonlyToken t g
  apply g.wanting
  intro _ t g
  apply Leads.read
  apply g.room.begin.on (makes_identifierName t)
  intro name u inner
  apply inner.wanting
  intro _ u inner
  apply inner.on (makes_type inner.room)
  intro bound u inner
  have inner : Grown t.prevEnd 6 t u ([name] ++ held (some bound)) := inner
  apply inner.buildTypeParameter.bind
  intro parameter u inner
  have g := g.later inner.yields
  apply g.on (makes_after g.room (by decide) makes_type)
  intro nameType t g
  apply g.wanting
  intro _ t g
  apply g.on (makes_signed g.room _ (by rfl))
  intro question t g
  apply g.on (makes_typeAfterColon g.room)
  intro type t g
  apply g.on (makes_semicolon g.room)
  intro _ t g
  exact g.wanting fun _ t g => (g.buildFree (by simp) (by rfl) (by rfl)).makes

theorem makes_tupleNameWalk (h : Room r s) : Makes tupleNameWalk s := by
  apply h.begin.on (makes_accept _ s)
  intro _ t g
  refine Leads.read (Leads.ite (fun _ => g.yields) fun _ => ?_)
  apply g.on (makes_nextToken t)
  intro k t g
  split
  · exact g.yields
  · exact g.on (makes_nextToken t) fun _ t g => g.yields
  · exact g.yields

theorem makes_tupleElementType (h : Room (r + 3) s) : Makes tupleElementType s := by
  refine Leads.read (h.begin.ifAccept (by decide) (fun t _ g => ?_) fun _ => ?_)
  · apply g.on (makes_type g.room)
    intro type t g
    exact (g.buildFree (by simp) (by rfl) (by rfl)).makes
  · apply h.begin.on (makes_type h)
    intro type t g
    refine g.ifAccept (by decide) (fun t _ g => ?_) fun _ => (g.gives (by simp)).makes
    exact (g.buildFree (by simp) (by rfl) (by rfl)).makes

theorem makes_tupleElement (h : Room (r + 3) s) : Makes tupleElement s := by
  have named := asks_ahead h.steady (makes_tupleNameWalk h.openAttempt)
  refine h.begin.ask named fun _ trace g => Leads.ite (fun _ => ?_) fun _ => ?_
  · exact (g.makes (makes_tupleElementType g.room)).makes
  refine Leads.read (g.on (makes_acceptToken _ _ (by rfl)) fun dots t g => ?_)
  apply g.on (makes_identifierName t)
  intro name t g
  apply g.on (makes_acceptToken _ t (by rfl))
  intro question t g
  apply g.wanting
  intro _ t g
  apply g.on (makes_tupleElementType g.room)
  intro type t g
  exact (g.buildFree (by simp) (by rfl) (by rfl)).makes

theorem makes_tupleType (h : Room r s) : Makes tupleType s := by
  refine Leads.read
    (h.begin.on (makes_bracketed h _ _ (by decide) fun _ h _ => ?_) fun list t g => ?_)
  · exact makes_tupleElement h
  · exact (g.buildFree (by simp) (by rfl) (by rfl)).makes

theorem makes_parameterWalk (h : Room (r + 2) s) : Makes parameterWalk s := by
  have tail {t : State} (g : Grown s.prevEnd (r + 2) s t []) : Leads (do
      if ← isIdentifier <||> isAt .thisKeyword then
        next
        return true
      if ← isAtAny [.openBracketToken, .openBraceToken] then
        let errors ← read (·.diagnostics.size)
        let _ ← binding
        return ← read (·.diagnostics.size == errors)
      return false) t fun b u => Yields s u (held b) := by
    have named : Asks (isIdentifier <||> isAt .thisKeyword) t :=
      asks_or (asks_read _ t) fun _ => asks_read _ _
    refine g.ask named fun _ trace g => Leads.ite (fun _ => ?_) fun _ => ?_
    · exact g.on (makes_next _) fun _ t g => g.yields
    refine Leads.read (Leads.ite (fun _ => Leads.read ?_) fun _ => g.yields)
    exact g.on (makes_binding g.room) fun _ t g => g.yields.drop (List.nil_sublist _)
  refine Leads.read (Leads.ite (fun _ => ?_) fun _ => tail h.begin)
  exact h.begin.on (makes_keywordModifiers h) fun _ t g => tail (g.drop (List.nil_sublist _))

theorem makes_functionTypeWalk (h : Room r s) (at_ : s.token = .openParenToken) :
    Makes functionTypeWalk s := by
  apply h.begin.past (takes_next h.steady (ne_endOfFile at_ (by decide)))
  intro _ t g
  refine Leads.read (Leads.ite (fun _ => g.yields) fun _ => ?_)
  refine g.on (makes_parameterWalk g.room) fun _ t g => Leads.ite (fun _ => g.yields) fun _ => ?_
  refine Leads.read (Leads.ite (fun _ => g.yields) fun _ => ?_)
  refine g.on (makes_accept _ t) fun _ t g => Leads.ite (fun _ => ?_) fun _ => g.yields
  exact (g.makes (makes_read _ t)).makes

/-- The tokens a function type begins with. -/
def functionTypeStarts : List Kind :=
  [.abstractKeyword, .newKeyword, .lessThanToken, .openParenToken]

theorem asks_startsFunctionType (h : Room r s) : Asks startsFunctionType s := by
  apply asks_from
  split
  · exact asks_pure _ s
  · exact asks_pure _ s
  · next at_ => exact asks_ahead h.steady (makes_functionTypeWalk h.openAttempt at_)
  · exact asks_nextIs h.steady _
  · exact asks_pure _ s

theorem mem_functionTypeStarts (starts : (startsFunctionType.run s).1 = true) :
    s.token ∈ functionTypeStarts := by
  have answer : Leads startsFunctionType s fun b _ => b = true → s.token ∈ functionTypeStarts := by
    apply Leads.read
    split
    · next at_ => exact fun _ => (by simp [at_, functionTypeStarts])
    · next at_ => exact fun _ => (by simp [at_, functionTypeStarts])
    · next at_ => exact fun _ => (by simp [at_, functionTypeStarts])
    · next at_ => exact fun _ => (by simp [at_, functionTypeStarts])
    · intro no
      cases no
  exact answer starts

theorem makes_functionType (h : Room r s) (at_ : s.token ∈ functionTypeStarts) :
    Makes functionType s := by
  have near : Nears functionTypeStarts s s := .inr at_
  apply Leads.read
  apply h.begin.nearing near (by decide) (makes_acceptToken _ s (by rfl))
    (fun at_ => takes_acceptToken h.steady at_ (by rfl))
  intro mods t g near
  apply g.nearing near (by decide) (makes_accept _ t)
    (fun at_ => takes_accept g.steady at_ (by decide))
  intro news t g near
  apply g.nearing near (by decide) (makes_typeParameters g.room)
    (takes_typeParameters g.room)
  intro typeParams t g near
  apply g.nearing near (by decide) (makes_parameters g.room _)
    (fun at_ => takes_parameters g.room at_ _)
  intro params t g near
  have g := g.near near h
  apply g.wanting
  intro _ t g
  apply g.on (makes_resultType g.room)
  intro result t g
  refine (g.buildModified ?_ ?_ (by rfl)).makes
  · cases mods <;> simp
  · cases news <;> rfl

theorem kind_functionType (s : State) : Leads functionType s fun n _ =>
    n.kind ≠ .conditionalType := by
  refine Leads.skip fun _ _ => Leads.skip fun _ _ => Leads.skip fun news _ => ?_
  cases news with
  | true => exact fun no => (by cases no)
  | false => exact fun no => (by cases no)

theorem makes_primaryType (h : Room r s) : Makes primaryType s := by
  apply Leads.read
  split
  case h_11 at_ => exact makes_takeToken (at_ ▸ rfl)
  case h_19 =>
    apply h.begin.answer (asks_aheadNext h.steady (makes_read _ _))
    intro trace g
    refine Leads.ite (fun number => ?_) fun _ => ?_
    · have number : (s.advance .plain).token ∈ [.numericLiteral, .bigIntLiteral] :=
        List.contains_iff_mem.mp number
      have text : (s.advance .plain).token.isText = true := by
        simp only [List.mem_cons, List.not_mem_nil, or_false] at number
        rcases number with at_ | at_ <;> exact at_ ▸ rfl
      exact (g.makes (makes_literalType g.room true text)).makes
    · exact (g.makes (makes_typeReference g.room)).makes
  case h_20 at_ => exact makes_thisTypeOrPredicate h (ne_endOfFile at_ (by decide))
  case h_21 at_ =>
    refine h.begin.ask (asks_nextIs h.steady _) fun _ trace g => Leads.ite (fun _ => ?_) fun _ => ?_
    · exact (g.makes (makes_importType g.room (.inl at_))).makes
    · exact (g.makes (makes_typeQuery g.room)).makes
  case h_22 at_ =>
    apply h.begin.ask (asks_ahead h.steady (makes_mappedTypeWalk h.openAttempt))
    intro _ trace g
    refine Leads.ite (fun _ => ?_) fun _ => ?_
    · exact (g.makes (makes_mappedType g.room at_)).makes
    · exact (g.makes (makes_typeLiteral g.room)).makes
  case h_23 => exact makes_tupleType h
  case h_24 at_ => exact makes_parenthesizedType h at_
  case h_25 at_ => exact makes_importType h (.inr at_)
  case h_26 =>
    apply h.begin.ask (asks_aheadNext h.steady (makes_read _ _))
    intro _ trace g
    refine Leads.ite (fun _ => ?_) fun _ => ?_
    · exact (g.makes (makes_assertsPredicate g.room)).makes
    · exact (g.makes (makes_typeReference g.room)).makes
  case h_27 at_ => exact makes_templateLiteralType h (isText_at at_ (by rfl))
  case h_28 => exact makes_typeReference h
  case h_12 at_ | h_13 at_ | h_14 at_ | h_15 at_ =>
    exact makes_literalType h false (.inl (isText_at at_ (by rfl)))
  case h_16 at_ | h_17 at_ | h_18 at_ => exact makes_literalType h false (.inr (by simp [at_]))
  all_goals
    next at_ =>
    have plain : s.openAttempt.token.isPlain = true := at_ ▸ rfl
    apply h.begin.on (makes_attempt (makes_keywordNoDot h.openAttempt plain))
    intro o t g
    cases o with
    | some node => exact (g.gives (by simp)).makes
    | none => exact (g.makes (makes_typeReference g.room)).makes

theorem makes_inferBound (h : Room r s) : Makes inferBound s := by
  apply h.begin.ifNotAccept (by decide) (fun _ => .refl s)
  intro t _ g
  apply g.on (makes_withConditionalTypes _ fun c => makes_type (g.room.inContext c))
  intro bound t g
  refine Leads.read (Leads.ite (fun _ => ?_) fun _ => ?_)
  · exact (g.gives (by simp)).makes
  · exact (g.gives (by simp)).makes

theorem makes_inferType (h : Room r s) : Makes inferType s := by
  refine Leads.read (h.begin.wanting fun _ t g => Leads.read ?_)
  apply g.room.begin.on (makes_identifier t)
  intro name u inner
  apply inner.on (makes_attempt (makes_inferBound inner.room.openAttempt))
  intro bound u inner
  apply inner.buildTypeParameter.bind
  intro parameter u inner
  exact ((g.later inner.yields).buildFree (by simp) (by rfl) (by rfl)).makes

theorem kind_thisTypeOrPredicate (s : State) :
    Leads thisTypeOrPredicate s fun n _ => n.kind.typeGrip = .invalid := by
  refine Leads.read (Leads.bind (P := fun n _ => n.kind.typeGrip = .invalid) rfl fun n t this => ?_)
  exact Leads.read (Leads.ite (fun _ => rfl) fun _ => this)

omit [Grammar] in
theorem kind_literalType (negative : Bool) (s : State) :
    Leads (literalType negative) s fun n _ => n.kind.typeGrip = .invalid := by
  refine Leads.read (Leads.read (Leads.ite (fun _ => rfl) fun _ => ?_))
  exact Leads.ite (fun _ => rfl) fun _ => rfl

theorem kind_assertsPredicate (s : State) :
    Leads assertsPredicate s fun n _ => n.kind.typeGrip = .invalid := by
  refine Leads.read (Leads.skip fun asserts t => Leads.ifAt (fun _ => ?_) fun _ => ?_)
  all_goals rfl

/-- A primary type is not made by an operator. -/
theorem kind_primaryType (s : State) :
    Leads primaryType s fun n _ => n.kind.typeGrip = .invalid := by
  have found (word : s.token.typeGrip = .invalid) : Leads (attempt keywordNoDot) s fun o _ =>
      ∀ n, o = some n → n.kind.typeGrip = .invalid := by
    refine found_attempt ((kind_takeToken s.openAttempt).bind fun node t kind => ?_)
    refine Leads.ifAt (fun _ _ no => (nomatch no)) fun _ n same => ?_
    rw [← Option.some.inj same, kind]
    exact word
  apply Leads.read
  split
  case h_11 at_ => exact (kind_takeToken s).mono fun n _ kind => (by rw [kind, at_]; rfl)
  case h_19 => exact Leads.skip fun _ _ => Leads.ite (fun _ => kind_literalType true _) fun _ => rfl
  case h_20 => exact kind_thisTypeOrPredicate s
  case h_21 | h_22 => exact Leads.skip fun _ _ => Leads.ite (fun _ => rfl) fun _ => rfl
  case h_26 =>
    exact Leads.skip fun _ _ => Leads.ite (fun _ => kind_assertsPredicate _) fun _ => rfl
  case h_23 | h_24 | h_25 | h_27 | h_28 => rfl
  case h_12 | h_13 | h_14 | h_15 | h_16 | h_17 | h_18 => exact kind_literalType false s
  all_goals
    next at_ =>
      apply (found (by rw [at_]; rfl)).bind
      intro o t kind
      cases o with
      | some node => exact kind node rfl
      | none => rfl

section Tiers

omit [Grammar]

variable {n : Node} {t : State}

theorem token_of_joinsType (joins : s.joinsType) :
    s.token = .barToken ∨ s.token = .ampersandToken ∨ s.token = .openBracketToken := by
  unfold State.joinsType at joins
  split at joins
  · next at_ => exact .inl at_
  · next at_ => exact .inr (.inl at_)
  · next at_ => exact .inr (.inr at_)
  · cases joins

/-- Below a tier that a type reaches, it may stand as an operand. -/
theorem tight_of_grip {low min : Tier}
    (grip : n.kind.typeGrip.looserThan min = false ∨ n.kind = .typeOperator)
    (below : low.looserThan min) (unary : low.looserThan .unary) :
    low.looserThan n.kind.typeGrip := by
  rcases grip with grip | kind
  · simp only [Tier.looserThan, decide_eq_true_eq, decide_eq_false_iff_not] at grip below ⊢
    omega
  · rw [kind]
    exact unary

/-- What may follow the type `n`, which is no conditional type, is looser than `n` is. -/
structure TypeLeft (n : Node) (t : State) : Prop where
  ends : t.EndsType n.kind.typeGrip
  bare : n.kind ≠ .conditionalType

theorem typeLeft_of_invalid (grip : n.kind.typeGrip = .invalid) (t : State) : TypeLeft n t := by
  refine ⟨fun joins => ?_, fun kind => ?_⟩
  · rw [grip]
    rcases token_of_joinsType joins with at_ | at_ | at_
    all_goals
      rw [at_]
      rfl
  · rw [kind] at grip
    cases grip

/-- A prefix operator takes the brackets behind its operand. -/
theorem endsType_unary (ends : t.EndsType .member) : t.EndsType .unary := by
  intro joins
  have below := ends joins
  rcases token_of_joinsType joins with at_ | at_ | at_
  · rw [at_]
    rfl
  · rw [at_]
    rfl
  · rw [at_] at below
    cases below

/-- Behind the last member of a union or an intersection its operator does not stand again. -/
theorem endsType_of_next {operator : Kind}
    (among : operator = .barToken ∨ operator = .ampersandToken)
    (ends : t.EndsType operator.typeTier.next) (away : t.token ≠ operator) :
    t.EndsType operator.typeTier := by
  intro joins
  have below := ends joins
  rcases among with rfl | rfl
  · rcases token_of_joinsType joins with at_ | at_ | at_
    · exact absurd at_ away
    · rw [at_] at below
      cases below
    · rw [at_] at below
      cases below
  · rcases token_of_joinsType joins with at_ | at_ | at_
    · rw [at_]
      rfl
    · exact absurd at_ away
    · rw [at_] at below
      cases below

end Tiers

theorem leads_typeOperator (h : Room r s) : Leads typeOperator s fun n t => Yields s t [n] ∧
    (n.kind.typeGrip = .invalid ∨ n.kind = .typeOperator) ∧ TypeLeft n t := by
  have operator (more : s.token ≠ .endOfFileToken) : Leads (do
      next
      let operand ← typeOperand .member
      buildWith .typeOperator s.nodeStart (.operator s.token) [.one .typeNode operand]) s
      fun n t => Yields s t [n] ∧ (n.kind.typeGrip = .invalid ∨ n.kind = .typeOperator) ∧
        TypeLeft n t := by
    apply h.begin.past (takes_next h.steady more)
    intro _ t g
    apply ((g.makes (makes_typeOperand g.room _)).and (promises_typeOperand g.room .member)).bind
    rintro operand t ⟨g, answer⟩
    have tight : Tier.bitwiseAnd.looserThan operand.kind.typeGrip :=
      tight_of_grip answer.grip rfl rfl
    have bare : operand.kind ≠ .conditionalType := by
      intro kind
      rw [kind] at tight
      cases tight
    have tiered : Tiered .typeOperator ([Slot.one .typeNode operand].flatMap Slot.nodes) := by
      simpa [Tiered, playing, Slot.nodes] using tight
    exact ⟨(g.buildWith (by simp) tiered (fun _ => trivial)
        ⟨fun no => (by cases no), rfl, trivial, fun no => (by cases no)⟩).yields,
      .inr rfl, endsType_unary (answer.ends bare), fun no => (by cases no)⟩
  refine Leads.read (Leads.read ?_)
  split
  iterate 3
    next at_ => exact operator (ne_endOfFile at_ (by decide))
  · exact ⟨makes_inferType h, .inl rfl, typeLeft_of_invalid rfl _⟩
  · have kind : Leads (withConditionalTypes true primaryType) s fun n _ =>
        n.kind.typeGrip = .invalid := kind_primaryType _
    have made := makes_withConditionalTypes true fun c => makes_primaryType (h.inContext c)
    exact ⟨made, .inl kind, typeLeft_of_invalid kind _⟩

variable {first left : Node}

theorem Grown.buildTypeMembers {operator : Kind} {types : List Node}
    (g : Grown floor r s₀ s types) (among : operator = .barToken ∨ operator = .ampersandToken)
    (members : ∀ n ∈ types, operator.typeTier.looserThan n.kind.typeGrip)
    (ends : s.EndsType operator.typeTier) :
    Leads (Parser.build (if operator == .barToken then .unionType else .intersectionType)
      s₀.nodeStart [.list .types types]) s fun n t =>
      Grown floor r s₀ t [n] ∧ n.kind.typeGrip = operator.typeTier ∧ TypeLeft n t := by
  rcases among with rfl | rfl
  · have tiered : Tiered .unionType ([Slot.list .types types].flatMap Slot.nodes) := by
      simpa [Tiered, playing, Slot.nodes, Kind.typeTier] using members
    exact ⟨g.build (by simp) tiered (fun _ => trivial)
      ⟨fun no => (by cases no), rfl, trivial, fun no => (by cases no)⟩, rfl, ends,
      fun no => (by cases no)⟩
  · have tiered : Tiered .intersectionType ([Slot.list .types types].flatMap Slot.nodes) := by
      simpa [Tiered, playing, Slot.nodes, Kind.typeTier] using members
    exact ⟨g.build (by simp) tiered (fun _ => trivial)
      ⟨fun no => (by cases no), rfl, trivial, fun no => (by cases no)⟩, rfl, ends,
      fun no => (by cases no)⟩

/-- Members joined by an operator. One at least is taken where the operator stands. -/
theorem leads_typeMembersBehind {operator : Kind} (g : Grown floor r s₀ s [first])
    (among : operator = .barToken ∨ operator = .ampersandToken)
    (tight : operator.typeTier.looserThan first.kind.typeGrip)
    (next : s.token = operator ∨ s.EndsType operator.typeTier.next) :
    Leads (typeMembersBehind s₀.nodeStart operator first) s fun n t =>
      (Grown floor r s₀ t [n] ∧ (s.token = operator → s.prevEnd < t.prevEnd)) ∧
        n.kind.typeGrip = operator.typeTier ∧ TypeLeft n t := by
  have below : operator.typeTier.looserThan operator.typeTier.next ∧
      operator.typeTier.looserThan .unary := by
    rcases among with rfl | rfl
    all_goals exact ⟨rfl, rfl⟩
  have hk : operator ≠ .endOfFileToken := by
    rintro rfl
    simp at among
  have start : Grown floor r s₀ s (List.reverse [first]) := g
  -- A turn begins behind a member, or with the first operator.
  refine (start.loopWith List.reverse
    (fun types t => (∀ n ∈ types, operator.typeTier.looserThan n.kind.typeGrip) ∧
      (t.EndsType operator.typeTier.next ∨ t.token = operator) ∧
      (s.prevEnd < t.prevEnd ∨ t = s))
    (fun types t => (∀ n ∈ types, operator.typeTier.looserThan n.kind.typeGrip) ∧
      t.EndsType operator.typeTier ∧ (s.token = operator → s.prevEnd < t.prevEnd))
    ⟨by simpa using tight, next.symm, .inr rfl⟩ ?_).bind fun types t got => ?_
  · rintro types t g - ⟨members, next, since⟩
    have le : s.prevEnd ≤ t.prevEnd := by
      rcases since with far | rfl
      · exact Nat.le_of_lt far
      · exact Nat.le_refl _
    refine g.ifAccept hk (fun u _ g => ?_) fun away => ?_
    · apply ((g.makes (makes_typeOperand g.room _)).and
        (promises_typeOperand g.room operator.typeTier.next)).bind
      rintro member u ⟨g, answer⟩
      have tight := tight_of_grip answer.grip below.1 below.2
      have bare : member.kind ≠ .conditionalType := by
        intro kind
        rw [kind] at tight
        rcases among with rfl | rfl
        all_goals cases tight
      have y : Yields s₀ u (member :: types).reverse := by
        rw [List.reverse_cons]
        exact g.yields
      refine ⟨⟨y, ?_, .inl (answer.ends bare), .inl (Nat.lt_of_le_of_lt le g.floor)⟩, g.floor⟩
      exact List.forall_mem_cons.mpr ⟨tight, members⟩
    · refine ⟨g.yields, Nat.le_refl _, members, ?_, fun at_ => since.resolve_right fun same => ?_⟩
      · exact endsType_of_next among (next.resolve_right away) away
      · exact away (same ▸ at_)
  · obtain ⟨g, members, ends, taken⟩ := got
    have built := g.buildTypeMembers among (by simpa using members) ends
    exact ⟨⟨built.1, taken⟩, built.2⟩

theorem leads_arrayOrIndexedType (g : Grown floor r s₀ s [left])
    (at_ : s.token = .openBracketToken) (tight : Tier.unary.looserThan left.kind.typeGrip) :
    Leads (arrayOrIndexedType s₀.nodeStart left) s fun n t =>
      Grown (floor + 1) 6 s₀ t [n] ∧ n.kind.typeGrip = .invalid := by
  apply g.passing at_ (by decide)
  intro t g
  refine g.ask (asks_startsType g.room) fun _ trace g => Leads.ite (fun _ => ?_) fun _ => ?_
  · apply g.on (makes_type g.room)
    intro index t g
    have tiered : Tiered .indexedAccessType
        ([Slot.one .objectType left, .one .indexType index].flatMap Slot.nodes) := by
      simpa [Tiered, playing, Slot.nodes] using tight
    refine g.wanting fun _ t g => ?_
    exact ⟨g.build (by simp) tiered (fun _ => trivial)
      ⟨fun no => (by cases no), rfl, trivial, fun no => (by cases no)⟩, rfl⟩
  · have tiered : Tiered .arrayType ([Slot.one .elementType left].flatMap Slot.nodes) := by
      simpa [Tiered, playing, Slot.nodes] using tight
    refine g.wanting fun _ t g => ?_
    exact ⟨g.build (by simp) tiered (fun _ => trivial)
      ⟨fun no => (by cases no), rfl, trivial, fun no => (by cases no)⟩, rfl⟩

theorem leads_conditionalType (g : Grown floor r s₀ s [left]) (at_ : s.token = .extendsKeyword)
    (bare : left.kind ≠ .conditionalType) :
    Leads (conditionalType s₀.nodeStart left) s fun n t =>
      Grown (floor + 1) 6 s₀ t [n] ∧ n.kind = .conditionalType := by
  have part {t : State} (h : Room 6 t) (allowed : Bool) :
      Makes (withConditionalTypes allowed type) t :=
    makes_withConditionalTypes allowed fun c => makes_type (h.inContext c)
  apply g.passing at_ (by decide)
  intro t g
  have plain : Leads (withConditionalTypes false type) t fun n _ => n.kind ≠ .conditionalType :=
    promises_type (g.room.inContext _) rfl
  apply ((g.makes (part g.room false)).and plain).bind
  rintro bound t ⟨g, plain⟩
  apply g.wanting
  intro _ t g
  apply g.on (part g.room true)
  intro yes t g
  apply g.wanting
  intro _ t g
  apply g.on (part g.room true)
  intro no t g
  have tiered : Tiered .conditionalType ([Slot.one .checkType left, .one .extendsType bound,
      .one .trueType yes, .one .falseType no].flatMap Slot.nodes) := by
    simpa [Tiered, playing, Slot.nodes] using ⟨bare, plain⟩
  exact ⟨g.build (by simp) tiered (fun _ => trivial)
    ⟨fun no => (by cases no), rfl, trivial, fun no => (by cases no)⟩, rfl⟩

/-- Each operator is looser than what stands before it, and the last one is not looser than
`min`. -/
theorem leads_typeRest (g : Grown floor r s₀ s [left]) (min : Tier)
    (grip : left.kind.typeGrip.looserThan min = false ∨ left.kind = .typeOperator)
    (before : TypeLeft left s) :
    Leads (typeRest s₀.nodeStart min left) s fun n t =>
      Grown floor r s₀ t [n] ∧ TypeAnswer min s₀ n t := by
  apply g.loopWith (fun n => [n])
    (fun n t => (n.kind.typeGrip.looserThan min = false ∨ n.kind = .typeOperator) ∧ TypeLeft n t)
    (TypeAnswer min s₀) ⟨grip, before⟩
  rintro left t g - ⟨grip, before⟩
  have finish (ends : t.EndsType min) : Leads (pure (.done left)) t
      (GrowsWith s₀ (fun n => [n]) (fun n t =>
        (n.kind.typeGrip.looserThan min = false ∨ n.kind = .typeOperator) ∧ TypeLeft n t)
        (TypeAnswer min s₀) t) :=
    ⟨g.yields, Nat.le_refl _, grip, fun _ => ends, fun _ => before.bare⟩
  refine Leads.read (Leads.ite (fun stops => finish fun joins => ?_) fun goes => ?_)
  · rcases Bool.or_eq_true_iff.mp stops with none | below
    · rcases token_of_joinsType joins with at_ | at_ | at_
      all_goals
        rw [at_] at none
        cases none
    · exact below
  have reaches : t.token.typeTier.looserThan min = false := by
    simp only [Bool.or_eq_true, not_or, Bool.not_eq_true] at goes
    exact goes.2
  split
  · next at_ =>
    refine Leads.read (Leads.ite (fun late => finish fun joins => ?_) fun here => ?_)
    · simp [State.joinsType, at_, late] at joins
    · have tight : Tier.unary.looserThan left.kind.typeGrip := by
        have tight := before.ends (by simpa [State.joinsType, at_] using here)
        rw [at_] at tight
        simp only [Tier.looserThan, decide_eq_true_eq] at tight ⊢
        exact Nat.lt_trans (by decide) tight
      apply (leads_arrayOrIndexedType g at_ tight).bind
      rintro n u ⟨g, grip⟩
      refine ⟨⟨g.yields, .inl ?_, typeLeft_of_invalid grip u⟩, g.floor⟩
      rw [grip]
      cases min <;> rfl
  iterate 2
    next at_ =>
      have tight : t.token.typeTier.looserThan left.kind.typeGrip :=
        before.ends (by simp [State.joinsType, at_])
      have among : t.token = .barToken ∨ t.token = .ampersandToken := by simp [at_]
      apply (leads_typeMembersBehind g among tight (.inl rfl)).bind
      rintro n u ⟨⟨g, taken⟩, grip, left⟩
      exact ⟨⟨g.yields, .inl (grip ▸ reaches), left⟩, taken rfl⟩
  · next at_ =>
    refine Leads.read (Leads.ite (fun _ => finish fun joins => ?_) fun allowed => ?_)
    · simp [State.joinsType, at_] at joins
    · apply (leads_conditionalType g at_ before.bare).bind
      rintro n u ⟨g', kind⟩
      have context := (g.yields.frame g.begun).context
      refine ⟨g'.yields, Nat.le_of_succ_le g'.floor, .inl ?_, fun no => absurd kind no,
        fun no => ?_⟩
      · rw [kind]
        rw [at_] at reaches
        exact reaches
      · rw [← context] at no
        simp [no] at allowed
  · next other₁ other₂ other₃ _ =>
    refine finish fun joins => ?_
    rcases token_of_joinsType joins with at_ | at_ | at_
    · exact absurd at_ other₂
    · exact absurd at_ other₃
    · exact absurd at_ other₁

theorem leads_typeOperandStep (h : Room r s) (min : Tier) :
    Leads (typeOperandStep min) s fun n t =>
      Yields s t [n] ∧ TypeAnswer min s n t := by
  refine Leads.read (Leads.read ?_)
  apply Leads.fork fun (left : Node) t => Grown s.prevEnd r s t [left] ∧
    (left.kind.typeGrip.looserThan min = false ∨ left.kind = .typeOperator) ∧ TypeLeft left t
  · intro rest
    refine Leads.ite (fun leading => ?_) fun _ => ?_
    · have among : s.token = .barToken ∨ s.token = .ampersandToken := by
        simpa using (Bool.and_eq_true_iff.mp leading).1
      have reaches : s.token.typeTier.looserThan min = false := by
        simpa using (Bool.and_eq_true_iff.mp leading).2
      have more : s.token ≠ .endOfFileToken := by
        intro ended
        rw [ended] at among
        simp at among
      apply h.begin.past (takes_next h.steady more)
      intro _ t g
      apply ((g.makes (makes_typeOperand g.room _)).and
        (promises_typeOperand g.room s.token.typeTier.next)).bind
      rintro first t ⟨g, answer⟩
      have tight : s.token.typeTier.looserThan first.kind.typeGrip := by
        apply tight_of_grip answer.grip
        all_goals
          rcases among with at_ | at_
          all_goals
            rw [at_]
            rfl
      have bare : first.kind ≠ .conditionalType := by
        intro kind
        rw [kind] at tight
        rcases among with at_ | at_
        all_goals
          rw [at_] at tight
          cases tight
      apply (leads_typeMembersBehind g among tight (.inr (answer.ends bare))).bind
      rintro n t ⟨⟨g, _⟩, grip, left⟩
      apply rest n t
      refine ⟨h.begin.along g.yields (Nat.le_of_succ_le g.floor), .inl (grip ▸ reaches), left⟩
    · apply (leads_typeOperator h).bind
      rintro n t ⟨y, grip, left⟩
      apply rest n t
      refine ⟨h.begin.later y, grip.imp_left fun grip => ?_, left⟩
      rw [grip]
      cases min <;> rfl
  · rintro left t ⟨g, grip, before⟩
    exact (leads_typeRest g min grip before).mono fun n t got => ⟨got.1.yields, got.2⟩

theorem promises_typeStep (h : Room (r + 2) s) :
    Leads typeStep s ((Goal.type).Promises s) := by
  unfold Leads typeStep Parser.nested
  dsimp only
  split
  · let c : Context := { s.context with yield := false, await := false }
    have h : Room (r + 2) ((s.withDepth (s.depth + 1)).withContext c) :=
      (h.nested (s.depth + 1)).inContext c
    have inner : Leads (do if ← startsFunctionType then functionType else typeOperand .conditional)
        ((s.withDepth (s.depth + 1)).withContext c) fun n _ =>
          s.context.disallowConditionalTypes → n.kind ≠ .conditionalType := by
      apply h.begin.answer (asks_startsFunctionType h)
      intro trace g
      refine Leads.ite (fun _ => ?_) fun _ => ?_
      · exact (kind_functionType _).mono fun n _ kind _ => kind
      · exact (promises_typeOperand g.room .conditional).mono fun n _ answer => answer.bare
    exact inner
  · exact fun _ no => (by cases no)

theorem makes_typeStep (h : Room (r + 2) s) : Makes typeStep s := by
  refine makes_nested h ?_ fun _ blamed => makes_missingType blamed
  apply makes_inFunction false false
  intro c
  have h := (h.nested (s.depth + 1)).inContext c
  apply h.begin.answer (asks_startsFunctionType h)
  intro trace g
  refine Leads.ite (fun starts => ?_) fun _ => ?_
  · have at_ := mem_functionTypeStarts starts
    exact (g.makes (makes_functionType g.room at_)).makes
  · exact (g.makes (makes_typeOperand g.room _)).makes

end ScriptGrammar
