import ScriptGrammar.Parse.Module
import ScriptGrammar.Proofs.Parse.Types

/-!
# Declarations

Functions, classes and named types, namespaces, imports and exports. Each is entered at the
keyword it begins with; its parts may be missing.
-/

namespace ScriptGrammar

open Parse ScriptGrammar.Parser

variable [Grammar] {r floor : Nat} {s s₀ : State} {ns : List Node} {mods : Option (List Node)}

theorem Grown.buildFunction {kind : Kind} {star name body : Option Node} {sig : Signature}
    (g : Grown floor r s₀ s (held mods ++ held star ++ held name ++ held sig ++ held body))
    (free : kind.isFree = true) :
    Leads (buildFunction kind s₀.nodeStart mods star name sig body) s fun n t =>
      Grown floor r s₀ t (held n) := g.buildModified (by simp) free rfl

theorem leads_functionDeclaration (g : Grown floor r s₀ s (held mods)) :
    Leads (functionDeclaration s₀.nodeStart mods) s fun n t => Grown floor r s₀ t (held n) := by
  apply g.wanting
  intro _ t g
  apply g.on (makes_acceptToken _ t (by rfl))
  intro star t g
  have named : Asks (pure !((modifierFlags mods).contains .default) <||> isIdentifier) t :=
    asks_or (asks_pure _ t) fun _ => asks_read _ _
  apply g.ask named
  intro _ trace g
  apply g.on (makes_optionally fun _ => makes_identifier _)
  intro name t g
  apply g.on (makes_signature g.room _ _)
  intro sig t g
  apply g.on (makes_functionBody g.room _)
  intro body t g
  exact g.buildFunction rfl

theorem makes_functionExpression (h : Room r s) : Makes functionExpression s := by
  have mods := makes_inContext (f := ({ · with decorator := false })) fun c =>
    makes_keywordModifiers (h.inContext c)
  refine Leads.read (h.begin.on mods fun mods t g => ?_)
  apply g.wanting
  intro _ t g
  apply g.on (makes_acceptToken _ t (by rfl))
  intro star t g
  have named (flags : SignatureFlags) : Makes (inFunction flags.yield flags.await do
      optionally (← isIdentifier) identifier) t :=
    makes_inFunction _ _ fun c => Leads.read (makes_optionally fun _ => makes_identifier _)
  apply g.on (named _)
  intro name t g
  apply g.on (makes_signature g.room _ _)
  intro sig t g
  have block (flags : SignatureFlags) := makes_functionBlock g.room flags fun c =>
    opens_expect (k := .openBraceToken) (g.room.inContext c).steady (by decide)
  apply g.on (block _)
  intro body t g
  have g : Grown s.prevEnd r s t
    (held mods ++ held star ++ held name ++ held sig ++ held (some body)) := g
  exact (g.buildFunction rfl).makes

theorem makes_expressionWithTypeArguments (h : Room (r + 2) s) :
    Makes expressionWithTypeArguments s := by
  refine Leads.read (h.begin.on (makes_leftHandSide h) fun e t g => ?_)
  apply g.on (makes_typeArguments? g.room)
  intro typeArgs t g
  exact (g.buildFree (by simp) (by rfl) (by rfl)).makes

theorem makes_heritageClause (h : Room 6 s) : Makes heritageClause s := by
  refine Leads.read (Leads.read (h.begin.on (makes_next s) fun _ t g => ?_))
  apply g.on (makes_delimited g.room _ fun _ h _ => makes_expressionWithTypeArguments h)
  intro list t g
  exact (g.buildWithFree (by simp) (by rfl) (by rfl)).makes

theorem makes_heritageClauses (h : Room 6 s) : Makes heritageClauses s := by
  refine Leads.read (Leads.ite (fun _ => ?_) fun _ => .refl s)
  exact makes_listOf h _ fun _ h _ _ => makes_heritageClause h

theorem leads_propertyDeclaration {name : Node} {question : Option Node}
    (g : Grown floor r s₀ s (held mods ++ [name] ++ held question)) :
    Leads (propertyDeclaration s₀.nodeStart mods name question) s fun n t =>
      Grown floor r s₀ t (held n) := by
  apply Leads.fork fun (mark : Option Node) t =>
    Grown floor r s₀ t (held mods ++ [name] ++ held mark)
  · intro rest
    refine Leads.read (Leads.ite (fun _ => (Leads.pure g).bind rest) fun _ => ?_)
    have g : Grown floor r s₀ s (held mods ++ [name]) := g.drop (List.sublist_append_left _ _)
    exact (g.makes (makes_acceptToken _ s (by rfl))).bind rest
  intro mark t g
  apply g.on (makes_typeAfterColon g.room)
  intro type t g
  apply g.on (makes_inContext fun c => makes_initializer (g.room.inContext c))
  intro init t g
  apply g.on (makes_semicolon g.room)
  intro _ t g
  exact g.buildModified (by simp) rfl rfl

theorem leads_propertyOrMethod (g : Grown floor r s₀ s (held mods)) :
    Leads (propertyOrMethod s₀.nodeStart mods) s fun n t => Grown floor r s₀ t (held n) := by
  apply g.on (makes_acceptToken _ s (by rfl))
  intro star t g
  apply g.on (makes_propertyName g.room)
  intro name t g
  apply g.on (makes_acceptToken _ t (by rfl))
  intro question t g
  have calls : Asks (pure star.isSome <||> isAtAny [.openParenToken, .lessThanToken]) t :=
    asks_or (asks_pure _ t) fun _ => asks_read _ _
  refine g.ask calls fun _ trace g => Leads.ite (fun _ => leads_methodMember g) fun _ => ?_
  exact leads_propertyDeclaration (g.drop (by simp))

theorem leads_staticBlock (g : Grown floor r s₀ s []) :
    Leads (staticBlock s₀.nodeStart) s fun n t => Grown floor r s₀ t (held n) := by
  apply g.wanting
  intro _ t g
  apply g.on (makes_inFunction _ _ fun c => makes_block (g.room.inContext c))
  intro body t g
  exact g.buildFree (by simp) rfl rfl

theorem asks_isConstructorName (h : Room r s) : Asks isConstructorName s := by
  apply asks_from
  split
  · exact asks_nextIsAny h.steady _
  · exact asks_and (asks_read _ s) fun trace => asks_nextIs (h.steady.traced trace) _
  · exact asks_pure _ s

theorem leads_constructorMember (g : Grown floor r s₀ s (held mods)) :
    Leads (constructorMember s₀.nodeStart mods) s fun n t => Grown floor r s₀ t (held n) := by
  apply g.on (makes_next s)
  intro _ t g
  apply g.on (makes_signature g.room _ _)
  intro sig t g
  apply g.on (makes_functionBody g.room _)
  intro body t g
  exact g.buildModified (by simp [held_signature]) rfl rfl

theorem makes_classMember (h : Room r s) : Makes classMember s := by
  refine Leads.read (h.begin.ifAccept (by decide) (fun t _ g => ?_) fun _ => ?_)
  · exact (g.buildFree (by simp) (by rfl) (by rfl)).makes
  apply h.begin.on (makes_modifiers h _)
  intro mods t g
  have static : Asks (isAt .staticKeyword <&&> nextIs .openBraceToken) t :=
    asks_and (asks_read _ t) fun trace => asks_nextIs (g.steady.traced trace) _
  refine g.ask static fun _ trace g => Leads.ite (fun _ => ?_) fun _ => ?_
  · exact (leads_staticBlock (g.drop (List.nil_sublist _))).makes
  refine leads_accessorOr g (fun _ => rfl) fun t g => ?_
  refine g.ask (asks_isConstructorName g.room) fun _ trace g =>
    Leads.ite (fun _ => (leads_constructorMember g).makes) fun _ => ?_
  refine g.ask (asks_isIndexSignature g.room) fun _ trace g =>
    Leads.ite (fun _ => (leads_indexSignature g).makes) fun _ => ?_
  refine Leads.read (Leads.ite (fun _ => (leads_propertyOrMethod g).makes) fun _ => ?_)
  apply g.reporting
  intro t g blamed _
  apply g.on (makes_missingIdentifier blamed)
  intro name t g
  exact (leads_propertyDeclaration (g.drop (by simp))).makes

theorem asks_isImplementsClause (h : Room r s) : Asks isImplementsClause s :=
  asks_and (asks_read _ s) fun trace => asks_aheadNext (h.steady.traced trace) (makes_read _ _)

theorem leads_classLike (g : Grown floor r s₀ s (held mods)) (at_ : s.token = .classKeyword)
    (kind : Kind) (free : kind.isFree = true) :
    Leads (classLike kind s₀.nodeStart mods) s fun n t => Grown (floor + 1) 6 s₀ t (held n) := by
  apply g.passing at_ (by decide)
  intro t g
  have named : Asks (isIdentifier <&&> (do return !(← isImplementsClause))) t :=
    asks_and (asks_read _ t) fun trace =>
      asks_bind (asks_isImplementsClause (g.room.traced trace)) fun _ _ => asks_pure _ _
  apply g.ask named
  intro _ trace g
  apply g.on (makes_optionally fun _ => makes_identifier _)
  intro name t g
  apply g.on (makes_typeParameters g.room)
  intro typeParams t g
  apply g.on (makes_heritageClauses g.room)
  intro heritage t g
  apply Leads.fork fun (members : List Node) t =>
    Grown (floor + 1) 6 s₀ t (held mods ++ held name ++ held typeParams ++ heritage ++ members)
  · intro rest
    refine g.wanting fun _ t g => Leads.ite (fun _ => ?_) fun _ => ?_
    · apply g.on (makes_listOf g.room _ fun _ h _ _ => makes_classMember h)
      intro members t g
      exact g.wanting fun _ t g => (Leads.pure g).bind rest
    · exact (Leads.pure (g.drop (by simp))).bind rest
  · exact fun members t g => g.buildModified (by simp) free rfl

theorem takes_classExpression (h : Room r s) (at_ : s.token = .classKeyword) :
    Takes classExpression s := by
  have g : Grown s.prevEnd r s s (held (none : Option (List Node))) := h.begin
  exact Leads.read ((leads_classLike g at_ _ (by rfl)).takes (Nat.lt_succ_self _))

theorem kind_classExpression (s : State) :
    Leads classExpression s fun n _ => n.kind = .classExpression := by
  refine Leads.read (Leads.skip fun _ _ => Leads.skip fun _ _ => Leads.skip fun _ _ => ?_)
  refine Leads.skip fun _ _ => Leads.skip fun _ _ => Leads.skip fun _ _ => ?_
  exact Leads.ite (fun _ => rfl) fun _ => rfl

theorem leads_interfaceDeclaration (g : Grown floor r s₀ s (held mods))
    (at_ : s.token = .interfaceKeyword) :
    Leads (interfaceDeclaration s₀.nodeStart mods) s fun n t =>
      Grown (floor + 1) 6 s₀ t (held n) := by
  apply g.passing at_ (by decide)
  intro t g
  apply g.on (makes_identifier t)
  intro name t g
  apply g.on (makes_typeParameters g.room)
  intro typeParams t g
  apply g.on (makes_heritageClauses g.room)
  intro heritage t g
  apply g.on (makes_typeMembers g.room)
  intro members t g
  exact g.buildModified (by simp) rfl rfl

theorem leads_typeAliasDeclaration (g : Grown floor (r + 3) s₀ s (held mods)) :
    Leads (typeAliasDeclaration s₀.nodeStart mods) s fun n t =>
      Grown floor (r + 3) s₀ t (held n) := by
  apply g.wanting
  intro _ t g
  apply g.on (makes_identifier t)
  intro name t g
  apply g.on (makes_typeParameters g.room)
  intro typeParams t g
  apply g.wanting
  intro _ t g
  apply g.on (makes_type g.room)
  intro type t g
  apply g.on (makes_semicolon g.room)
  intro _ t g
  exact g.buildModified (by simp) rfl rfl

theorem makes_enumMember (h : Room r s) : Makes enumMember s := by
  refine Leads.read (h.begin.on (makes_propertyName h) fun name t g => ?_)
  apply g.on (makes_allowingIn fun c => makes_initializer (g.room.inContext c))
  intro init t g
  exact (g.buildFree (by simp) (by rfl) (by rfl)).makes

theorem leads_enumDeclaration (g : Grown floor r s₀ s (held mods))
    (at_ : s.token = .enumKeyword) :
    Leads (enumDeclaration s₀.nodeStart mods) s fun n t => Grown (floor + 1) 6 s₀ t (held n) := by
  apply g.passing at_ (by decide)
  intro t g
  apply g.on (makes_identifier t)
  intro name t g
  apply Leads.fork fun (members : List Node) t =>
    Grown (floor + 1) 6 s₀ t (held mods ++ [name] ++ members)
  · intro rest
    refine g.wanting fun _ t g => Leads.ite (fun _ => ?_) fun _ => ?_
    · have list : Makes (inFunction false false (delimited .enumMembers enumMember)) t :=
        makes_inFunction _ _ fun c => makes_delimited (g.room.inContext c) _
          fun _ h _ => makes_enumMember h
      apply g.on list
      intro list t g
      exact g.wanting fun _ t g => (Leads.pure g).bind rest
    · exact (Leads.pure (g.drop (by simp))).bind rest
  · exact fun members t g => g.buildModified (by simp) rfl rfl

theorem makes_moduleBlock (h : Room r s) : Makes moduleBlock s :=
  makes_blockAfter h _ (opens_expect h.steady (by decide)) rfl

theorem leads_buildModule {mark : NodeFlags → NodeFlags} {name : Node} {body : Option Node}
    (g : Grown floor r s₀ s (held mods ++ [name] ++ held body))
    (marks : ∀ info : NodeInfo, Marked info
      { info with flags := mark info.flags, modifiers := modifierFlags mods }) :
    Leads (buildModule s₀.nodeStart mods mark name body) s fun n t =>
      Grown floor r s₀ t (held n) := by
  have fits :
      (List.flatMap held [Slot.optList .modifiers mods, .one .name name, .opt .body body]).Sublist
      (held mods ++ [name] ++ held body) := by simp
  exact g.close .moduleDeclaration .none fits (marks _) trivial (fun _ => trivial)
    (formed_of_isFree rfl (modifierFlags_slots mods rfl).symm)

theorem makes_namespaceBody (h : Room r s) (named : Bool) : Makes (namespaceBody named) s := by
  refine h.begin.ifAccept (by decide) (fun t _ g => ?_) fun _ => makes_moduleBlock h
  exact (g.makes (makes_namespaceTail g.room named)).makes

theorem makes_namespaceTailStep (h : Room r s) (named : Bool) :
    Makes (namespaceTailStep named) s := by
  refine Leads.read (h.begin.on (makes_identifierName s) fun name t g => ?_)
  apply g.on (makes_namespaceBody g.room named)
  intro body t g
  have g : Grown s.prevEnd r s t
      (held (none : Option (List Node)) ++ [name] ++ held (some body)) := g
  exact (leads_buildModule g fun _ => ⟨rfl, rfl, rfl, rfl, rfl, rfl⟩).makes

theorem leads_ambientModule (g : Grown floor r s₀ s (held mods))
    (told : s.token = .globalKeyword ∨ s.token.isText = true) :
    Leads (ambientModule s₀.nodeStart mods) s fun n t => Grown floor r s₀ t (held n) := by
  apply Leads.read
  apply Leads.fork fun (name : Node) t => Grown floor r s₀ t (held mods ++ [name])
  · intro rest
    refine Leads.ite (fun _ => ?_) fun other => ?_
    · exact (g.makes (makes_identifier s)).bind rest
    · have text := told.resolve_left fun global => other (beq_iff_eq.mpr global)
      exact (g.makes (makes_literal text)).bind rest
  intro name t g
  apply Leads.fork fun (body : Option Node) t =>
    Grown floor r s₀ t (held mods ++ [name] ++ held body)
  · intro rest
    refine Leads.ifAt (fun _ => ?_) fun _ => ?_
    · exact g.on (makes_moduleBlock g.room) fun body t g => (Leads.pure g).bind rest
    · exact g.on (makes_semicolon g.room) fun _ t g => (Leads.pure g).bind rest
  · exact fun body t g => leads_buildModule g fun _ => ⟨rfl, rfl, rfl, rfl, rfl, rfl⟩

theorem leads_moduleDeclaration (g : Grown floor r s₀ s (held mods)) :
    Leads (moduleDeclaration s₀.nodeStart mods) s fun n t => Grown floor r s₀ t (held n) := by
  have tail (named : Bool) {t : State} (g : Grown floor r s₀ t (held mods)) : Leads (do
      let name ← identifier
      let body ← namespaceBody named
      buildModule s₀.nodeStart mods ({ · with namespaceForm := named }) name (some body)) t
      fun n u => Grown floor r s₀ u (held n) := by
    apply g.on (makes_identifier t)
    intro name t g
    apply g.on (makes_namespaceBody g.room named)
    intro body t g
    have g : Grown floor r s₀ t (held mods ++ [name] ++ held (some body)) := g
    exact leads_buildModule g fun _ => ⟨rfl, rfl, rfl, rfl, rfl, rfl⟩
  apply Leads.ifAt (fun at_ => leads_ambientModule g (.inl at_))
  intro _
  apply g.on (makes_accept _ s)
  intro named t g
  have g : Grown floor r s₀ t (held mods) := g.drop (by simp)
  refine Leads.ite (fun _ => g.wanting fun _ t g => ?_) fun _ => tail named g
  exact Leads.ifAt (fun at_ => leads_ambientModule g (.inr (isText_at at_ (by rfl))))
    fun _ => tail named g

omit [Grammar] in
theorem makes_moduleExportName (s : State) : Makes moduleExportName s :=
  Leads.ifAt (fun at_ => makes_literal (at_ ▸ rfl)) fun _ => makes_identifierName s

theorem makes_moduleSpecifier (h : Room (r + 5) s) : Makes moduleSpecifier s :=
  Leads.ifAt (fun at_ => makes_literal (at_ ▸ rfl)) fun _ => makes_expression h

theorem makes_importAttribute (h : Room (r + 5) s) : Makes importAttribute s := by
  refine Leads.read (h.begin.on (makes_moduleExportName s) fun name t g => ?_)
  apply g.wanting
  intro _ t g
  apply g.on (makes_assignment g.room true)
  intro value t g
  exact (g.buildFree (by simp) (by rfl) (by rfl)).makes

theorem makes_importAttributes (h : Room r s) : Makes importAttributes s := by
  refine Leads.read (Leads.read (Leads.ite (fun _ => .refl s) fun _ => Leads.read ?_))
  apply h.begin.on (makes_next s)
  intro _ t g
  apply g.on (makes_bracketed g.room _ _ (by decide) fun _ h _ => makes_importAttribute h)
  intro list t g
  exact (g.buildWithFree (by simp) (by rfl) (by rfl)).bind fun n t g => (g.gives (by simp)).makes

instance : Holds Specifier := ⟨fun x => held x.property ++ [x.name]⟩

omit [Grammar] in
@[simp] theorem held_specifier (x : Specifier) : held x = held x.property ++ [x.name] := rfl

/-- A reserved word of a specifier that began at `s` may be reported. -/
def Parser.Specifier.Since (x : Specifier) (s : State) : Prop :=
  ∀ range, x.reserved = some range → Parse.Since s s range

omit [Grammar] in
/-- A name alone. -/
theorem leads_specifierName (h : s.Steady) : Leads specifierName s fun x t =>
    Yields s t [x.name] ∧ x.property = none ∧ x.Since s := by
  refine Leads.read (Leads.bind (makes_moduleExportName s) fun name t y => ?_)
  refine ⟨y, rfl, fun range same => ?_⟩
  obtain ⟨_, here⟩ := Option.ite_none_right_eq_some.mp same
  exact Option.some.inj here ▸ h.since_token

omit [Grammar] in
theorem Parser.Specifier.Since.earlier [Grammar] {x : Specifier} {ns : List Node}
    (since : x.Since s) (g : Grown floor r s₀ s ns) : x.Since s₀ := fun range same =>
  ((since range same).earlier g.yields g.begun).along g.yields (.refl s₀) g.begun

/-- Words are taken and may turn out to be no part of the specifier. -/
theorem leads_afterTypeWord {x : Specifier} (g : Grown floor r s₀ s [x.name])
    (bare : x.property = none) (since : x.Since s₀) :
    Leads (afterTypeWord x) s fun y t => Grown floor r s₀ t (held y) ∧ y.Since s₀ := by
  have named {t : State} {ns : List Node} (g : Grown floor r s₀ t ns) :
      Leads specifierName t fun y u =>
        Grown floor r s₀ u (ns ++ [y.name]) ∧ y.property = none ∧ y.Since s₀ :=
    (leads_specifierName g.steady).mono fun y u got => ⟨g.later got.1, got.2.1,
      got.2.2.earlier g⟩
  refine Leads.ifAt (fun _ => ?_) fun _ => ?_
  · apply g.on (makes_identifierName s)
    intro firstAs t g
    refine Leads.ifAt (fun _ => ?_) fun _ => ?_
    · apply g.on (makes_identifierName t)
      intro secondAs t g
      refine Leads.read (Leads.ite (fun _ => ?_) fun _ => Leads.pure ⟨g.drop (by simp), since⟩)
      exact (named g).bind fun y t got => Leads.pure ⟨got.1.drop (by simp), got.2.2⟩
    · refine Leads.read (Leads.ite (fun _ => ?_) fun _ => ?_)
      · exact (named g).bind fun y t got => Leads.pure ⟨got.1.drop (by simp), got.2.2⟩
      · exact Leads.pure ⟨g.drop (by simp [bare]), since⟩
  · have word : Asks (isWord <||> isAt .stringLiteral) s :=
      asks_or (asks_read _ s) fun _ => asks_read _ _
    refine g.ask word fun _ trace g => Leads.ite (fun _ => ?_) fun _ =>
      Leads.pure ⟨g.drop (by simp [bare]), since⟩
    exact (named g).bind fun y t got => Leads.pure ⟨got.1.drop (by simp [got.2.1]), got.2.2⟩

theorem makes_specifier (h : Room r s) (kind : Kind) (free : kind.isFree = true) :
    Makes (specifier kind) s := by
  have built {detail : Detail} {slots : List Slot} {ns : List Node} {t : State}
      (g : Grown s.prevEnd r s t ns) (fits : (slots.flatMap held).Sublist ns)
      (bare : slotsAs .modifiers slots = []) :
      Leads (buildWith kind s.nodeStart detail slots) t fun n u => Yields s u (held n) :=
    (g.buildWithFree fits free bare).makes
  refine Leads.read ((leads_specifierName h.steady).bind fun x t got => ?_)
  have g : Grown s.prevEnd r s t [x.name] := h.begin.later got.1
  apply Leads.fork fun (x : Specifier) t => Grown s.prevEnd r s t (held x) ∧ x.Since s
  · intro rest
    refine Leads.ite (fun _ => ?_) fun _ => ?_
    · exact (leads_afterTypeWord g got.2.1 got.2.2).bind rest
    · exact (Leads.pure ⟨g.drop (by simp [got.2.1]), got.2.2⟩).bind rest
  rintro x t ⟨g, since⟩
  apply Leads.fork fun (x : Specifier) t => Grown s.prevEnd r s t (held x) ∧ x.Since s
  · intro rest
    apply g.on (makes_pureAnd _ (makes_accept _ t))
    intro _ t g
    refine Leads.ite (fun _ => ?_) fun _ => ?_
    · refine (leads_specifierName g.steady).bind fun y u got => (Leads.pure ⟨?_, ?_⟩).bind rest
      · exact (g.later got.1).drop (by simp)
      · exact got.2.2.earlier g
    · exact (Leads.pure ⟨g.drop (by simp), since⟩).bind rest
  rintro x t ⟨g, since⟩
  refine Leads.ite (fun _ => ?_) fun _ => built g (by simp) rfl
  split
  · next range same =>
    have since := (since range same).along (.refl s) g.yields g.begun
    exact g.reportingAt since fun t g => built g (by simp) rfl
  · exact built g (by simp) rfl

theorem makes_namedSpecifiers (h : Room r s) (kind elementKind : Kind)
    (free : kind.isFree = true) (elementFree : elementKind.isFree = true) :
    Makes (namedSpecifiers kind elementKind) s := by
  refine Leads.read (h.begin.on (makes_bracketed h _ _ (by decide) fun _ h _ =>
    makes_specifier h elementKind elementFree) fun list t g => ?_)
  exact (g.buildFree (by simp) free rfl).makes

theorem makes_namespaceImport (h : Room r s) : Makes namespaceImport s := by
  refine Leads.read (h.begin.wanting fun _ t g => ?_)
  apply g.wanting
  intro _ t g
  apply g.on (makes_identifier t)
  intro name t g
  exact (g.buildFree (by simp) (by rfl) (by rfl)).makes

theorem leads_importClause {name : Option Node} (g : Grown floor r s₀ s (held name))
    (typeOnly : Bool) :
    Leads (importClause s₀.nodeStart name typeOnly) s fun n t => Grown floor r s₀ t (held n) := by
  apply Leads.fork fun (bindings : Option Node) t => Grown floor r s₀ t (held name ++ held bindings)
  · intro rest
    refine g.on (makes_pureOr _ (makes_accept _ s)) fun _ t g => Leads.ite (fun _ => ?_) fun _ => ?_
    · have g : Grown floor r s₀ t (held name) := g.drop (by simp)
      refine Leads.ifAt (fun _ => ?_) fun _ => ?_
      · apply g.on (makes_namespaceImport g.room)
        intro node t g
        exact (Leads.pure g).bind rest
      · apply g.on (makes_namedSpecifiers g.room _ _ (by rfl) (by rfl))
        intro node t g
        exact (Leads.pure g).bind rest
    · exact (Leads.pure (g.drop (by simp))).bind rest
  · exact fun bindings t g => g.buildWithFree (by simp) rfl rfl

theorem makes_moduleReference (h : Room (r + 5) s) : Makes moduleReference s := by
  have required : Asks (isAt .requireKeyword <&&> nextIs .openParenToken) s :=
    asks_and (asks_read _ s) fun trace => asks_nextIs (h.steady.traced trace) _
  refine h.begin.ask required fun _ trace g => Leads.ite (fun _ => Leads.read ?_) fun _ => ?_
  · apply g.wanting
    intro _ t g
    apply g.wanting
    intro _ t g
    apply g.on (makes_moduleSpecifier g.room)
    intro e t g
    exact g.wanting fun _ t g => (g.buildFree (by simp) (by rfl) (by rfl)).makes
  · exact (g.makes (makes_entityName g.room _ _)).makes

theorem leads_importEquals {name : Node} (g : Grown floor (r + 5) s₀ s (held mods ++ [name]))
    (typeOnly : Bool) :
    Leads (importEquals s₀.nodeStart mods name typeOnly) s fun n t =>
      Grown floor (r + 5) s₀ t (held n) := by
  apply g.wanting
  intro _ t g
  apply g.on (makes_moduleReference g.room)
  intro reference t g
  apply g.on (makes_semicolon g.room)
  intro _ t g
  exact g.buildModified (by simp) rfl rfl

theorem asks_typeMarksImport (h : Room r s) : Asks typeMarksImport s := by
  have away : Asks (do return !(← isAt .fromKeyword)) s := asks_pure _ s
  refine asks_bind (asks_or away fun trace => ?_) fun _ trace => ?_
  · exact asks_and (asks_read _ _) fun trace' =>
      asks_nextIsAny ((h.traced trace).traced trace').steady _
  · apply asks_ite (fun _ => asks_pure _ _)
    intro _
    exact asks_or (asks_read _ _) fun _ => asks_read _ _

/-- An import from its clause on, which begins at `s`. -/
theorem leads_importRest {t : State} {name : Option Node} (g : Grown floor (r + 5) s₀ s (held mods))
    (inner : Grown s.prevEnd (r + 5) s t (held name)) (typeOnly : Bool) : Leads (do
      let clause ←
        if ← pure name.isSome <||> isAtAny [.asteriskToken, .openBraceToken] then do
          let clause ← importClause s.nodeStart name typeOnly
          let _ ← expect .fromKeyword
          pure (some clause)
        else pure none
      let source ← moduleSpecifier
      let attributes ← importAttributes
      semicolon
      buildModified .importDeclaration s₀.nodeStart mods .none
        [.opt .importClause clause, .one .moduleSpecifier source, .opt .attributes attributes]) t
      fun n u => Grown floor (r + 5) s₀ u (held n) := by
  have clauses : Asks (pure name.isSome <||> isAtAny [.asteriskToken, .openBraceToken]) t :=
    asks_or (asks_pure _ t) fun _ => asks_read _ _
  apply inner.ask clauses
  intro _ trace inner
  apply Leads.fork fun (clause : Option Node) t =>
    Grown floor (r + 5) s₀ t (held mods ++ held clause)
  · intro rest
    refine Leads.ite (fun _ => ?_) fun _ => ?_
    · apply (leads_importClause inner typeOnly).bind
      intro clause t inner
      exact inner.wanting fun _ t inner => (Leads.pure (g.later inner.yields)).bind rest
    · exact (Leads.pure ((g.later inner.yields).drop (by simp))).bind rest
  intro clause t g
  apply g.on (makes_moduleSpecifier g.room)
  intro source t g
  apply g.on (makes_importAttributes g.room)
  intro attributes t g
  apply g.on (makes_semicolon g.room)
  intro _ t g
  exact g.buildModified (by simp) rfl rfl

theorem leads_importDeclaration (g : Grown floor (r + 5) s₀ s (held mods)) :
    Leads (importDeclaration s₀.nodeStart mods) s fun n t => Grown floor (r + 5) s₀ t (held n) := by
  refine g.wanting fun _ t g => Leads.read (Leads.read ?_)
  apply g.room.begin.on (makes_optionally fun _ => makes_identifier t)
  intro first u inner
  have marks : Asks (pure (first.any (·.nameText == "type")) <&&> typeMarksImport) u :=
    asks_and (asks_pure _ u) fun trace => asks_typeMarksImport (inner.room.traced trace)
  apply inner.ask marks
  intro typeOnly trace inner
  apply Leads.fork fun (name : Option Node) u => Grown t.prevEnd (r + 5) t u (held name)
  · intro rest
    refine Leads.ite (fun _ => Leads.read ?_) fun _ => (Leads.pure inner).bind rest
    have inner := inner.drop (List.nil_sublist _)
    exact (inner.makes (makes_optionally fun _ => makes_identifier _)).bind rest
  intro name u inner
  cases name with
  | none => exact leads_importRest g inner typeOnly
  | some name =>
    refine Leads.read (Leads.ite (fun _ => ?_) fun _ => leads_importRest g inner typeOnly)
    exact leads_importEquals (g.later inner.yields) typeOnly

theorem leads_exportAssignment (g : Grown floor (r + 5) s₀ s (held mods)) :
    Leads (exportAssignment s₀.nodeStart mods) s fun n t => Grown floor (r + 5) s₀ t (held n) := by
  have tail (isEquals : Bool) {t : State} (g : Grown floor (r + 5) s₀ t (held mods)) : Leads (do
      let e ← inContext ({ · with await := true }) (assignment true)
      semicolon
      buildModified .exportAssignment s₀.nodeStart mods (.exportEquals isEquals)
        [.one .expression e]) t fun n u => Grown floor (r + 5) s₀ u (held n) := by
    apply g.on (makes_inContext fun c => makes_assignment (g.room.inContext c) true)
    intro e t g
    apply g.on (makes_semicolon g.room)
    intro _ t g
    exact g.buildModified (by simp) rfl rfl
  apply g.on (makes_accept _ s)
  intro isEquals t g
  have g : Grown floor (r + 5) s₀ t (held mods) := g.drop (by simp)
  refine Leads.ite (fun _ => g.wanting fun _ t g => tail isEquals g) fun _ => tail isEquals g

theorem leads_namespaceExport (g : Grown floor r s₀ s []) :
    Leads (namespaceExport s₀.nodeStart) s fun n t => Grown floor r s₀ t (held n) := by
  apply g.wanting
  intro _ t g
  apply g.wanting
  intro _ t g
  apply g.on (makes_identifier t)
  intro name t g
  apply g.on (makes_semicolon g.room)
  intro _ t g
  exact g.buildFree (by simp) rfl rfl

theorem makes_exportClause (h : Room (r + 5) s) : Makes exportClause s := by
  refine Leads.read (h.begin.ifAccept (by decide) (fun t _ g => ?_) fun _ => ?_)
  · apply Leads.fork fun (clause : Option Node) t => Grown (s.prevEnd + 1) 6 s t (held clause)
    · intro rest
      refine g.ifAccept (by decide) (fun t _ g => ?_) fun _ => ?_
      · apply g.on (makes_moduleExportName t)
        intro name t g
        refine (g.buildFree (by simp) (by rfl) (by rfl)).bind fun n t g => (Leads.pure ?_).bind rest
        exact g.lower (Nat.le_succ _)
      · exact (Leads.pure g).bind rest
    intro clause t g
    apply g.wanting
    intro _ t g
    exact g.on (makes_moduleSpecifier g.room) fun source t g => (g.gives (by simp)).makes
  · apply h.begin.on (makes_namedSpecifiers h _ _ (by rfl) (by rfl))
    intro clause t g
    refine Leads.read (Leads.ite (fun _ => g.wanting fun _ t g => ?_) fun _ => ?_)
    · exact g.on (makes_moduleSpecifier g.room) fun source t g => (g.gives (by simp)).makes
    · exact (g.gives (by simp)).makes

/-- The node is closed in the context of what is exported. -/
theorem leads_exportDeclaration (g : Grown floor (r + 5) s₀ s (held mods)) :
    Leads (exportDeclaration s₀.nodeStart mods) s fun n t => Grown floor (r + 5) s₀ t (held n) := by
  apply leads_inContext
  intro c
  have inside := (g.room.inContext c).begin
  apply inside.on (makes_accept _ _)
  intro typeOnly t inside
  apply inside.on (makes_exportClause inside.room)
  intro pair t inside
  obtain ⟨clause, source⟩ := pair
  apply Leads.fork fun (attributes : Option Node) t =>
    Grown s.prevEnd (r + 5) (s.withContext c) t (held clause ++ held source ++ held attributes)
  · intro rest
    refine Leads.ite (fun _ => ?_) fun _ => (Leads.pure (inside.drop (by simp))).bind rest
    apply (inside.makes (makes_importAttributes inside.room)).bind
    intro attributes t inside
    exact rest attributes t (inside.drop (by simp))
  intro attributes t inside
  apply inside.on (makes_semicolon inside.room)
  intro _ t inside
  have fits : (List.flatMap held [Slot.optList .modifiers mods, .opt .exportClause clause,
      .opt .moduleSpecifier source, .opt .attributes attributes]).Sublist
      (held mods ++ (held clause ++ held source ++ held attributes ++ held ())) := by
    simp
  have g := g.later (Yields.inContext c inside.yields)
  exact g.close .exportDeclaration (.typeOnly typeOnly) fits ⟨rfl, rfl, rfl, rfl, rfl, rfl⟩ trivial
    (fun _ => trivial) (formed_of_isFree rfl (modifierFlags_slots mods rfl).symm)

theorem leads_missingDeclaration (g : Grown floor r s₀ s (held mods)) :
    Leads (missingDeclaration s₀.nodeStart mods) s fun n t => Grown floor r s₀ t (held n) :=
  g.reporting fun t g _ _ => g.buildModified (by simp) rfl rfl

theorem leads_declarationAfter (g : Grown floor (r + 5) s₀ s (held mods)) :
    Leads (declarationAfter s₀.nodeStart mods) s fun n t => Yields s₀ t (held n) := by
  apply Leads.read
  split
  · next at_ => exact (leads_variableStatement g (ne_endOfFile at_ (by decide))).makes
  · next at_ => exact (leads_variableStatement g (ne_endOfFile at_ (by decide))).makes
  · next at_ => exact (leads_variableStatement g (ne_endOfFile at_ (by decide))).makes
  · next at_ => exact (leads_variableStatement g (ne_endOfFile at_ (by decide))).makes
  · next at_ => exact (leads_variableStatement g (ne_endOfFile at_ (by decide))).makes
  · exact (leads_functionDeclaration g).makes
  · next at_ => exact (leads_classLike g at_ _ (by rfl)).makes
  · next at_ => exact (leads_interfaceDeclaration g at_).makes
  · exact (leads_typeAliasDeclaration (r := r + 2) g).makes
  · next at_ => exact (leads_enumDeclaration g at_).makes
  · exact (leads_moduleDeclaration g).makes
  · exact (leads_moduleDeclaration g).makes
  · exact (leads_moduleDeclaration g).makes
  · exact (leads_importDeclaration g).makes
  · next at_ =>
    apply g.pastToken (ne_endOfFile at_ (by decide))
    intro t g
    split
    · exact (leads_exportAssignment g).makes
    · exact (leads_exportAssignment g).makes
    · exact (leads_namespaceExport (g.drop (List.nil_sublist _))).makes
    · exact (leads_exportDeclaration g).makes
  · exact (leads_missingDeclaration g).makes

theorem makes_declaration (h : Room (r + 5) s) : Makes declaration s := by
  refine Leads.read (h.begin.on (makes_modifiers h _) fun mods t g => ?_)
  exact leads_declarationAfter g

end ScriptGrammar
