import ScriptGrammar.Parse.Binding
import ScriptGrammar.Proofs.Parse.Operands

/-!
# Modifiers, signatures and bindings

A modifier, a body and a list in brackets each begin with a token of their own, so what stands in
them may be any goal of the grammar.
-/

namespace ScriptGrammar

open Parse ScriptGrammar.Parser

variable {α : Type} {r floor : Nat} {s s₀ : State} {ns : List Node}

@[simp] theorem held_someNonempty (nodes : List Node) : held (someNonempty nodes) = nodes := by
  unfold someNonempty
  split
  · next empty => simpa using (List.isEmpty_iff.mp empty).symm
  · rfl

/-- Answers yes only behind a token. -/
def Opens (p : Parser Bool) (s : State) : Prop :=
  Leads p s fun b t => Yields s t [] ∧ (b = true → s.prevEnd < t.prevEnd)

theorem opens_expect {k : Kind} (h : s.Steady) (hk : k ≠ .endOfFileToken) : Opens (expect k) s := by
  apply (leads_expect h hk).mono
  intro b t got
  cases b with
  | true => exact ⟨got.2.1, fun _ => got.2.2⟩
  | false => exact ⟨got.2.1, fun yes => (nomatch yes)⟩

/-- What is known behind a yes is known behind the attempt. -/
theorem leads_attemptIf {p : Parser Bool} {P : State → Prop}
    (h : Leads p s.openAttempt fun b t =>
      Yields s.openAttempt t [] ∧ (b = true → P t.closeAttempt)) :
    Leads (attemptIf p) s fun b t => Yields s t [] ∧ (b = true → P t) := by
  have inner : Leads (do if ← p then return some () else return none) s.openAttempt fun o t =>
      Yields s.openAttempt t (held o) ∧ (o.isSome → P t.closeAttempt) := by
    refine h.bind fun b t got => ?_
    cases b with
    | true => exact ⟨got.1, fun _ => got.2 rfl⟩
    | false => exact ⟨got.1, fun some => (nomatch some)⟩
  apply (leads_attempt inner).bind
  intro o t got
  cases o with
  | none => exact ⟨got.1, fun yes => (nomatch yes)⟩
  | some u => exact ⟨got.1, fun _ => got.2 rfl⟩

/-- Takes the token at the cursor and no other. -/
def TakesOne (p : Parser Bool) (s : State) : Prop :=
  Leads p s fun _ t => Yields s t [] ∧ s.prevEnd < t.prevEnd ∧ Passes s t

theorem TakesOne.takes {p : Parser Bool} (h : TakesOne p s) : Takes p s := ⟨h.1, h.2.1⟩

variable [Grammar]

/-- A token, and an answer about what follows it. -/
theorem takesOne_behind {p : Parser Bool} (h : Room r s) (more : s.token ≠ .endOfFileToken)
    (answer : ∀ {t}, Room 6 t → Asks p t) : TakesOne (do next; p) s := by
  have taken := takes_next h.steady more
  obtain ⟨trace, same, y⟩ := answer (h.behind taken.1 taken.2)
  have ends : (p.run (s.advance .plain)).2 = (s.advance .plain).withTrace trace := same
  have passed : Yields s ((s.advance .plain).withTrace trace) [] ∧
      s.prevEnd < ((s.advance .plain).withTrace trace).prevEnd ∧
      Passes s ((s.advance .plain).withTrace trace) := ⟨taken.1.trans y, taken.2, rfl, rfl⟩
  rw [← ends] at passed
  exact passed

theorem takesOne_nextToken {f : Kind → Parser Bool} (h : Room r s)
    (more : s.token ≠ .endOfFileToken) (answer : ∀ {t}, Room 6 t → Asks (f t.token) t) :
    TakesOne (nextToken >>= f) s := takesOne_behind (p := token >>= f) h more answer

theorem takesOne_nextFollowsDefault (h : Room r s) (more : s.token ≠ .endOfFileToken) :
    TakesOne nextFollowsDefault s := by
  refine takesOne_nextToken h more fun {t} h => ?_
  have ask (k : Kind) : Asks (aheadNext (read fun s => s.token == k && !s.onNewLine)) t :=
    asks_aheadNext h.steady (makes_read _ _)
  split
  iterate 4 exact asks_pure _ t
  · exact ask .classKeyword
  · exact ask .functionKeyword
  · exact asks_pure _ t

theorem takesOne_nextFollowsModifier (h : Room r s) (more : s.token ≠ .endOfFileToken) :
    TakesOne nextFollowsModifier s := by
  apply Leads.read
  split
  · exact takesOne_behind h more fun _ => asks_read _ _
  · refine takesOne_nextToken h more fun {t} h => ?_
    split
    · next at_ =>
      have inner := takesOne_nextFollowsDefault h.openAttempt (ne_endOfFile at_ (by decide))
      exact asks_ahead h.steady inner.takes.makes
    · exact asks_aheadNext h.steady (makes_read _ _)
    · exact asks_read _ _
  · exact takesOne_nextFollowsDefault h more
  · exact takesOne_behind h more fun _ => asks_read _ _
  · exact takesOne_behind h more fun _ => asks_read _ _

theorem takesSome_modifier (h : Room r s) (rules : ModifierRules) (seenStatic : Bool) :
    TakesSome (modifier? rules seenStatic) s := by
  refine Leads.read (Leads.read ?_)
  have block : Asks (pure (rules.staticBlocks && s.token == .staticKeyword) <&&>
      nextIs .openBraceToken) s :=
    asks_and (asks_pure _ s) fun trace => asks_nextIs (h.steady.traced trace) _
  apply h.begin.ask block
  intro _ trace g
  apply Leads.fork fun (taken : Bool) t => Yields s t [] ∧
    (taken = true → s.prevEnd < t.prevEnd ∧ Passes s t ∧ s.token.isPlain = true)
  · intro rest
    have no := rest false _ ⟨g.yields, fun yes => (nomatch yes)⟩
    have attempted {p : Parser Bool} (h : TakesOne p (s.withTrace trace).openAttempt)
        (plain : s.token.isPlain = true) :=
      (leads_attemptIf (P := fun t => s.prevEnd < t.prevEnd ∧ Passes s t)
        ⟨h.1, fun _ => ⟨h.2.1, h.2.2.prevEnd, h.2.2.missingAt⟩⟩).bind fun b t got =>
          rest b t ⟨g.yields.trans got.1, fun taken =>
            ⟨(got.2 taken).1, (got.2 taken).2, plain⟩⟩
    refine Leads.ite (fun const => ?_) fun _ => ?_
    · have at_ : s.token = .constKeyword := eq_of_beq (Bool.and_eq_true_iff.mp const).1
      refine attempted ?_ (at_ ▸ rfl)
      exact takesOne_behind g.room.openAttempt (ne_endOfFile at_ (by decide)) fun _ => asks_read _ _
    apply Leads.ite (fun _ => no)
    intro _
    apply Leads.ite (fun _ => no)
    intro _
    apply Leads.ite (fun _ => no)
    intro modifies
    have modifies : s.token.isModifier = true := by simpa using modifies
    refine attempted ?_ (isPlain_of_isModifier modifies)
    exact takesOne_nextFollowsModifier g.room.openAttempt (more_of_isModifier modifies)
  · intro taken t got
    cases taken with
    | true =>
      obtain ⟨lt, passes, plain⟩ := got.2 rfl
      exact ⟨yields_told got.1 passes (.sign plain), fun _ => lt⟩
    | false => exact ⟨got.1, fun some => (nomatch some)⟩

theorem takes_decorator (h : Room r s) (at_ : s.token = .atToken) : Takes decorator s := by
  refine Leads.read (h.begin.passing at_ (by decide) fun t g => ?_)
  apply g.on (makes_inContext fun c => makes_leftHandSide (g.room.inContext c))
  intro e t g
  exact (g.buildFree (by simp) (by rfl) (by rfl)).takes (Nat.lt_succ_self _)

theorem makes_modifierList {next? : Bool → Parser (Option Node)} (h : Room r s)
    (each : ∀ {t} seen, Room r t → TakesSome (next? seen) t) : Makes (modifierList next?) s := by
  refine (h.begin.loop (fun p : Bool × List Node => p.2.reverse) fun p t g => ?_).bind ?_
  · obtain ⟨seen, found⟩ := p
    apply Leads.bind (each seen g.room)
    intro o u got
    cases o with
    | some m =>
      have y : Yields s u (m :: found).reverse := by
        rw [List.reverse_cons]
        exact g.yields.trans got.1
      exact ⟨⟨y, trivial⟩, got.2 rfl⟩
    | none => exact (g.still got.1).done (Nat.le_refl _)
  · intro p t g
    have y : Yields s t (held (someNonempty p.2.reverse)) := by
      rw [held_someNonempty]
      exact g.yields
    exact y

theorem makes_keywordModifiers (h : Room r s) : Makes keywordModifiers s :=
  makes_modifierList h fun seen h => takesSome_modifier h {} seen

theorem makes_modifiers (h : Room r s) (rules : ModifierRules) : Makes (modifiers rules) s := by
  refine makes_modifierList h fun seen h => ?_
  refine Leads.ifBothAt (fun _ at_ => ?_) (takesSome_modifier h rules seen)
  exact ⟨(takes_decorator h at_).1, fun _ => (takes_decorator h at_).2⟩

theorem Grown.buildModified {kind : Kind} {mods : Option (List Node)} {detail : Detail}
    {slots : List Slot} (g : Grown floor r s₀ s ns)
    (fits : (held mods ++ slots.flatMap held).Sublist ns) (free : kind.isFree = true)
    (bare : slotsAs .modifiers slots = []) :
    Leads (buildModified kind s₀.nodeStart mods detail slots) s fun n t => Grown floor r s₀ t [n] :=
  g.close kind detail fits ⟨rfl, rfl, rfl, rfl, rfl, rfl⟩
    (tiered_of_isBracketing (Kind.isBracketing_of_isFree free) _)
    (joins_of_isBracketing (Kind.isBracketing_of_isFree free) _ _ _ _)
    (formed_of_isFree free (modifierFlags_slots mods bare).symm)

section Blocks

variable {opening : Parser Bool}

theorem makes_blockAfter (h : Room r s) (kind : Kind) (opens : Opens opening s)
    (free : kind.isFree = true) :
    Makes (blockAfter kind opening) s := by
  refine Leads.read (opens.bind fun b t got => ?_)
  apply Leads.fork fun (statements : List Node) t => Grown s.prevEnd r s t statements
  · intro rest
    refine Leads.ite (fun opened => ?_) fun _ => (Leads.pure (h.begin.still got.1)).bind rest
    have g : Grown (s.prevEnd + 1) 6 s t [] := h.begin.beyond got.1 (got.2 opened)
    apply g.on (makes_listOf g.room _ fun _ h _ _ => makes_statement h)
    intro statements t g
    refine g.wanting fun _ t g => Leads.bind (Leads.pure ?_) rest
    exact h.begin.along g.yields (Nat.le_of_succ_le g.floor)
  · exact fun statements t g => (g.buildFree (by simp) free rfl).makes

theorem makes_block (h : Room r s) : Makes block s :=
  makes_blockAfter h _ (opens_expect h.steady (by decide)) rfl

theorem opens_expectBody (h : Room r s) : Opens expectBody s := by
  refine h.begin.ifAccept (by decide) (fun t _ g => ⟨g.yields, fun _ => g.floor⟩) fun _ => ?_
  exact h.begin.reporting fun t g _ _ => ⟨g.yields, fun yes => (nomatch yes)⟩

theorem makes_functionBlock (h : Room r s) (flags : SignatureFlags)
    (opens : ∀ c, Opens opening (s.withContext c)) : Makes (functionBlock flags opening) s :=
  makes_inContext fun c => makes_blockAfter (h.inContext c) _ (opens c) rfl

theorem kind_functionBlock (flags : SignatureFlags) (opening : Parser Bool) (s : State) :
    Leads (functionBlock flags opening) s fun n _ => n.kind = .block :=
  leads_inContext fun _ =>
    Leads.read (Leads.skip fun _ _ => Leads.ite (fun _ => rfl) fun _ => rfl)

theorem makes_typeMemberEnd (h : Room r s) : Makes typeMemberEnd s :=
  h.begin.ifAccept (by decide) (fun _ _ g => g.yields) fun _ => makes_semicolon h

theorem makes_functionBody (h : Room r s) (flags : SignatureFlags) :
    Makes (functionBody flags) s := by
  have body : Makes (some <$> functionBlock flags expectBody) s :=
    makes_functionBlock h flags fun c => opens_expectBody (h.inContext c)
  refine Leads.ifNotAt (fun _ => ?_) fun _ => body
  refine Leads.ite (fun _ => ?_) fun _ => ?_
  · exact h.begin.on (makes_typeMemberEnd h) fun _ t g => g.yields
  · refine Leads.read (Leads.ite (fun _ => ?_) fun _ => body)
    exact h.begin.on (makes_semicolon h) fun _ t g => g.yields

end Blocks

theorem makes_typeParameter (h : Room r s) : Makes typeParameter s := by
  refine Leads.read (h.begin.on (makes_modifiers h _) fun mods t g => ?_)
  apply g.on (makes_identifier t)
  intro name t g
  apply g.on (makes_after g.room (by decide) makes_type)
  intro bound t g
  apply g.on (makes_after g.room (by decide) makes_type)
  intro default t g
  exact (g.buildModified (by simp) rfl rfl).makes

theorem makes_typeParameters (h : Room r s) : Makes typeParameters s := by
  apply Leads.ifNotAt (fun _ => .refl s)
  intro at_
  exact Leads.bind (makes_bracketed h _ _ (by decide) fun _ h _ => makes_typeParameter h)
    fun _ _ y => y

theorem takes_typeParameters (h : Room r s) (at_ : s.token = .lessThanToken) :
    Takes typeParameters s := by
  apply Leads.ifNotAt (fun away => absurd at_ away)
  intro at_
  exact Leads.bind (takes_bracketed h _ _ at_ (by decide) fun _ h _ => makes_typeParameter h)
    fun _ _ y => y

omit [Grammar] in
/-- The flags of a parameter are lost if its name is `this`. -/
theorem formed_parameter {t : State} {info : NodeInfo} {detail : Detail}
    {mods : Option (List Node)} {dots question type init : Option Node} {name : Node}
    (modifiers : info.modifiers = if name.isThis then {} else modifierFlags mods) :
    Formed s t .parameter info detail
      (.optList .modifiers mods :: parameterSlots dots name question type init) := by
  refine ⟨nofun, modifiers.trans ?_, trivial, nofun⟩
  have names : slotsAs .name (.optList .modifiers mods ::
      parameterSlots dots name question type init) = [name.as .name] := rfl
  have flags : modifierFlags (some (slotsAs .modifiers (.optList .modifiers mods ::
      parameterSlots dots name question type init))) = modifierFlags mods :=
    modifierFlags_slots mods rfl
  simp [slotFlags, names, flags]

omit [Grammar] in
theorem isThis_identifierIf (at_ : s.token = .thisKeyword) :
    Leads (identifierIf true none) s fun n _ => n.isThis = true := by
  show Node.isThis (.leaf _ (.name _ (if s.token == .identifier then none else some s.token))) =
    true
  rw [at_]
  rfl

theorem Grown.buildParameter {mods : Option (List Node)} {dots : Option Node} {name : Node}
    {question type init : Option Node}
    (g : Grown floor r s₀ s
      (held mods ++ held dots ++ [name] ++ held question ++ held type ++ held init))
    (other : name.isThis = false) :
    Leads (Parser.buildModified .parameter s₀.nodeStart mods .none
      (parameterSlots dots name question type init)) s fun n t => Grown floor r s₀ t [n] :=
  g.close .parameter .none (by simp [parameterSlots]) ⟨rfl, rfl, rfl, rfl, rfl, rfl⟩ trivial
    (fun _ => trivial) (formed_parameter (by simp [other]))

theorem makes_parameter (h : Room (r + 2) s) : Makes parameter s := by
  refine Leads.read (h.begin.on (makes_modifiers h _) fun mods t g => ?_)
  refine Leads.ifAt (fun at_ => ?_) fun _ => ?_
  · apply g.onKnown (makes_identifierIf none fun _ => at_ ▸ rfl) (isThis_identifierIf at_)
    intro name t g this
    apply g.on (makes_typeAfterColon g.room)
    intro type t g
    exact (g.build (by simp [parameterSlots]) (by trivial) (by exact fun _ => trivial)
      (formed_parameter (by rw [if_pos this]; rfl))).makes
  · apply g.on (makes_acceptToken _ t (by rfl))
    intro dots t g
    apply g.onKnown (makes_binding g.room) (promises_binding g.room)
    intro name t g other
    apply Leads.fork fun (_ : Unit) t =>
      Grown s.prevEnd (r + 2) s t (held mods ++ held dots ++ [name])
    · intro rest
      refine Leads.ite (fun _ => Leads.read (Leads.ite (fun _ => ?_) fun _ => ?_)) fun _ => ?_
      · exact ((g.makes (makes_next t)).mono fun _ _ g => g.drop (by simp)).bind rest
      · exact rest () t g
      · exact rest () t g
    · intro _ t g
      apply g.on (makes_acceptToken _ t (by rfl))
      intro question t g
      apply g.on (makes_typeAfterColon g.room)
      intro type t g
      apply g.on (makes_initializer g.room)
      intro init t g
      exact (g.buildParameter other).makes

/-- Parameters behind their parenthesis. -/
theorem leads_parameters (g : Grown floor 6 s₀ s []) (flags : SignatureFlags) : Leads (do
      let list ← inFunction flags.yield flags.await (delimited .parameters parameter)
      checkRestComma list
      let _ ← expect .closeParenToken
      return list.elements) s fun ns t => Grown floor 6 s₀ t (held ns) := by
  have list : Leads (inFunction flags.yield flags.await (delimited .parameters parameter)) s
      fun list t => Yields s t list.elements ∧ list.Since s t :=
    have inner (c : Context) := leads_delimited (g.room.inContext c) .parameters
      fun _ h _ => makes_parameter h
    ⟨Yields.inContext _ (inner _).1, (inner _).2⟩
  apply list.bind
  intro list t found
  have whole : Grown floor 6 s₀ t list.elements := g.later found.1
  refine whole.checkingRestComma (fun comma same => ?_) fun t g => ?_
  · exact (found.2 comma same).earlier g.yields g.begun
  · exact g.wanting fun _ t g => g.gives (by simp)

theorem makes_parameters (h : Room r s) (flags : SignatureFlags) : Makes (parameters flags) s :=
  h.begin.ifNotExpect (by decide) (fun t _ g => g.yields) fun _ _ g =>
    (leads_parameters g flags).makes

theorem takes_parameters (h : Room r s) (at_ : s.token = .openParenToken) (flags : SignatureFlags) :
    Takes (parameters flags) s :=
  h.begin.ifNotExpect (by decide) (fun _ away => absurd at_ away) fun _ _ g =>
    (leads_parameters g flags).takes (Nat.lt_succ_self _)

theorem makes_predicateName (h : Room r s) : Makes predicateName s := by
  apply h.begin.on (makes_identifier s)
  intro name t g
  refine Leads.read (Leads.ite (fun _ => ?_) fun _ => g.yields.drop (List.nil_sublist _))
  exact g.on (makes_next t) fun _ t g => (g.gives (by simp)).makes

theorem makes_typeOrPredicate (h : Room (r + 3) s) : Makes typeOrPredicate s := by
  refine Leads.read (Leads.read ?_)
  apply Leads.fork fun (name : Option Node) t => Grown s.prevEnd (r + 3) s t (held name)
  · intro rest
    refine Leads.ite (fun _ => ?_) fun _ => (Leads.pure h.begin).bind rest
    exact (h.begin.makes (makes_attempt (makes_predicateName h.openAttempt))).bind rest
  · intro name t g
    apply g.on (makes_type g.room)
    intro type t g
    cases name with
    | some name => exact (g.buildFree (by simp) (by rfl) (by rfl)).makes
    | none => exact (g.gives (by simp)).makes

theorem makes_resultType (h : Room (r + 3) s) : Makes resultType s :=
  makes_withConditionalTypes true fun c => makes_typeOrPredicate (h.inContext c)

theorem makes_returnType (h : Room r s) (inType : Bool) : Makes (returnType inType) s := by
  refine h.begin.ifAccept (by decide) (fun t _ g => ?_) fun _ => ?_
  · exact (g.makes (makes_resultType g.room)).makes
  · refine Leads.ifBothAt (fun _ at_ => ?_) (.refl s)
    apply h.begin.reporting
    intro t g _ same
    refine g.past (takes_next g.steady ?_) fun _ t g => ?_
    · exact ne_endOfFile (same.trans at_) (by decide)
    · exact (g.makes (makes_resultType g.room)).makes

instance : Holds Signature :=
  ⟨fun sig => held sig.typeParameters ++ sig.parameters ++ held sig.result⟩

omit [Grammar] in
theorem held_signature (sig : Signature) :
    held sig = held sig.typeParameters ++ sig.parameters ++ held sig.result := rfl

omit [Grammar] in
@[simp] theorem held_slots (sig : Signature) : sig.slots.flatMap held = held sig := by
  simp [Signature.slots, held_signature]

theorem makes_signature (h : Room r s) (flags : SignatureFlags) (inType : Bool) :
    Makes (signature flags inType) s := by
  apply h.begin.on (makes_typeParameters h)
  intro typeParams t g
  apply g.on (makes_parameters g.room flags)
  intro params t g
  apply g.on (makes_returnType g.room inType)
  intro result t g
  have y : Yields s t (held (Signature.mk typeParams params result)) := g.yields
  exact y

theorem takes_computedPropertyName (h : Room r s) (at_ : s.token = .openBracketToken) :
    Takes computedPropertyName s := by
  refine Leads.read (h.begin.passing at_ (by decide) fun t g => ?_)
  apply g.onKnown (makes_expressionWithIn g.room) (free_expressionWithIn g.room.stamps)
  intro e t g free
  refine g.wanting fun _ t g => ?_
  refine (g.buildBracketed (by simp) ?_ (by rfl) (by rfl) (by rfl)).takes (Nat.lt_succ_self _)
  exact forall_playing (by simp) (by simpa [Slot.part] using free)

theorem makes_propertyName (h : Room r s) : Makes propertyName s := by
  apply Leads.read
  split
  iterate 3 next at_ => exact makes_literal (at_ ▸ rfl)
  · next at_ => exact (takes_computedPropertyName h at_).makes
  · next at_ => exact makes_privateIdentifier at_
  · exact makes_identifierName s

theorem leads_accessorKeyword (h : Room r s) :
    Leads accessorKeyword s fun o t => Yields s t [] ∧ (o.isSome → s.prevEnd < t.prevEnd) ∧
      ∀ kind, o = some kind → kind.isFree = true := by
  have none {t : State} (y : Yields s t []) : Leads (pure (none : Option Kind)) t fun o t =>
      Yields s t [] ∧ (o.isSome → s.prevEnd < t.prevEnd) ∧
        ∀ kind, o = some kind → kind.isFree = true :=
    ⟨y, fun some => (nomatch some), fun _ no => (nomatch no)⟩
  refine Leads.read (Leads.ite (fun _ => none (.refl s)) fun at_ => ?_)
  have more : s.token ≠ .endOfFileToken := by
    intro ended
    rw [ended] at at_
    exact at_ rfl
  have follows := takesOne_behind (p := read (·.token.followsModifier)) h.openAttempt more
    fun _ => asks_read _ _
  refine (leads_attemptIf (P := fun t => s.prevEnd < t.prevEnd)
    ⟨follows.1, fun _ => follows.2.1⟩).bind fun b t got => ?_
  refine Leads.ite (fun yes => ⟨got.1, fun _ => got.2 yes, fun kind same => ?_⟩) fun _ => none got.1
  split at same
  all_goals cases same
  all_goals rfl

section Members

variable {mods : Option (List Node)}

theorem leads_accessor (g : Grown floor r s₀ s (held mods)) {kind : Kind}
    (free : kind.isFree = true) (flags : SignatureFlags) :
    Leads (accessor s₀.nodeStart mods kind flags) s fun n t => Grown floor r s₀ t [n] := by
  apply g.on (makes_propertyName g.room)
  intro name t g
  apply g.on (makes_signature g.room _ _)
  intro sig t g
  apply g.on (makes_functionBody g.room flags)
  intro body t g
  exact g.buildModified (by simp) free rfl

/-- An accessor, or a member of another sort. -/
theorem leads_accessorOr (g : Grown floor r s₀ s (held mods)) {f : Option Kind → Parser Node}
    {flags : SignatureFlags}
    (accessors : ∀ kind, f (some kind) = accessor s₀.nodeStart mods kind flags)
    (others : ∀ t, Grown floor r s₀ t (held mods) →
      Leads (f none) t fun n t => Yields s₀ t (held n)) :
    Leads (accessorKeyword >>= f) s fun n t => Yields s₀ t (held n) := by
  apply (leads_accessorKeyword g.room).bind
  rintro kind t ⟨y, _, free⟩
  cases kind with
  | some kind =>
    rw [accessors]
    exact (leads_accessor (g.still y) (free kind rfl) flags).makes
  | none => exact others t (g.still y)

theorem leads_methodMember {star question : Option Node} {name : Node}
    (g : Grown floor r s₀ s (held mods ++ held star ++ [name] ++ held question)) :
    Leads (methodMember s₀.nodeStart mods star name question) s fun n t =>
      Grown floor r s₀ t [n] := by
  apply g.on (makes_signature g.room _ _)
  intro sig t g
  apply g.on (makes_functionBody g.room _)
  intro body t g
  exact g.buildModified (by simp) rfl rfl

theorem makes_indexSignatureWalk (h : Room r s) : Makes indexSignatureWalk s := by
  refine h.begin.on (makes_next s) fun _ t g => ?_
  refine Leads.read (Leads.ite (fun _ => g.yields) fun _ => ?_)
  apply Leads.fork fun (_ : Unit) t => Grown s.prevEnd r s t []
  · intro rest
    refine Leads.read (Leads.ite (fun _ => ?_) fun _ => ?_)
    rotate_left
    · refine Leads.read (Leads.ite (fun _ => g.yields) fun _ => ?_)
      exact (g.makes (makes_next t)).bind rest
    · refine g.on (makes_next t) fun _ t g => ?_
      exact Leads.read (Leads.ite (fun _ => g.yields) fun _ => rest () t g)
  · intro _ t g
    refine Leads.read (Leads.ite (fun _ => g.yields) fun _ => ?_)
    refine Leads.ifNotAt (fun _ => g.yields) fun _ => ?_
    exact g.on (makes_next t) fun _ t g => (g.makes (makes_read _ t)).makes

theorem asks_isIndexSignature (h : Room r s) : Asks isIndexSignature s :=
  asks_and (asks_read _ s) fun trace =>
    asks_ahead (h.steady.traced trace) (makes_indexSignatureWalk (h.traced trace).openAttempt)

theorem leads_indexSignature (g : Grown floor r s₀ s (held mods)) :
    Leads (indexSignature s₀.nodeStart mods) s fun n t => Grown floor r s₀ t [n] := by
  apply g.on (makes_bracketed g.room _ _ (by decide) fun _ h _ => makes_parameter h)
  intro list t g
  apply g.on (makes_typeAfterColon g.room)
  intro type t g
  apply g.on (makes_typeMemberEnd g.room)
  intro _ t g
  exact g.buildModified (by simp) rfl rfl

end Members

theorem leads_buildBindingElement {dots property : Option Node} {name : Node}
    (g : Grown floor r s₀ s (held dots ++ held property ++ [name])) :
    Leads (buildBindingElement s₀.nodeStart dots property name) s fun n t =>
      Grown floor r s₀ t [n] := by
  apply g.on (makes_initializer g.room)
  intro init t g
  exact g.buildFree (by simp) rfl rfl

theorem makes_arrayBindingElement (h : Room (r + 2) s) : Makes arrayBindingElement s := by
  refine Leads.read (Leads.ifAt (fun _ => ?_) fun _ => ?_)
  · exact (h.begin.buildFree (by simp) (by rfl) (by rfl)).makes
  apply h.begin.on (makes_acceptToken _ s (by rfl))
  intro dots t g
  apply g.on (makes_binding g.room)
  intro name t g
  have g : Grown s.prevEnd (r + 2) s t (held dots ++ held (none : Option Node) ++ [name]) :=
    g.drop (by simp)
  exact (leads_buildBindingElement g).makes

theorem makes_objectBindingElement (h : Room (r + 2) s) : Makes objectBindingElement s := by
  refine Leads.read (h.begin.on (makes_acceptToken _ s (by rfl)) fun dots t g => ?_)
  refine Leads.read (Leads.ite (fun _ => ?_) fun _ => ?_)
  · apply g.on (makes_identifier t)
    intro first t g
    refine g.ifAccept (by decide) (fun t _ g => ?_) fun _ => ?_
    · apply g.on (makes_binding g.room)
      intro name t g
      have g : Grown (s.prevEnd + 1) 6 s t (held dots ++ held (some first) ++ [name]) := g
      exact (leads_buildBindingElement g).makes
    · have g : Grown s.prevEnd (r + 2) s t (held dots ++ held (none : Option Node) ++ [first]) :=
        g.drop (by simp)
      exact (leads_buildBindingElement g).makes
  · apply g.on (makes_propertyName g.room)
    intro property t g
    apply g.wanting
    intro _ t g
    apply g.on (makes_binding g.room)
    intro name t g
    have g : Grown s.prevEnd (r + 2) s t (held dots ++ held (some property) ++ [name]) := g
    exact (leads_buildBindingElement g).makes

theorem makes_bindingPattern {element : Parser Node} (h : Room r s) (kind : Kind) (c : ListContext)
    {opening : Kind} (closing : Kind) (hk : opening ≠ .endOfFileToken)
    (elem : Element s.options element) (free : kind.isFree = true) :
    Makes (bindingPattern kind c opening closing element) s := by
  refine Leads.read ((leads_bracketed h c closing hk elem).bind fun list t found => ?_)
  have g : Grown s.prevEnd r s t list.elements := h.begin.later found.1
  exact g.checkingRestComma found.2 fun t g => (g.buildFree (by simp) free rfl).makes

theorem makes_bindingStep (h : Room r s) : Makes bindingStep s := by
  apply Leads.read
  split
  · exact makes_bindingPattern h _ _ _ (by decide) (fun _ h _ => makes_arrayBindingElement h) rfl
  · exact makes_bindingPattern h _ _ _ (by decide) (fun _ h _ => makes_objectBindingElement h) rfl
  · exact makes_identifier s

theorem isThis_bindingStep (s : State) : Leads bindingStep s fun n _ => n.isThis = false := by
  apply Leads.read
  split
  · rfl
  · rfl
  · exact isThis_identifier s

theorem makes_variableDeclaration (h : Room (r + 2) s) (exclaims : Bool) :
    Makes (variableDeclaration exclaims) s := by
  refine Leads.read (h.begin.on (makes_binding h) fun name t g => ?_)
  apply Leads.fork fun (exclamation : Option Node) t =>
    Grown s.prevEnd (r + 2) s t ([name] ++ held exclamation)
  · intro rest
    refine Leads.read (Leads.ite (fun exclaimed => ?_) fun _ => ?_)
    · have at_ : t.token = .exclamationToken := by
        simp only [Bool.and_eq_true, beq_iff_eq] at exclaimed
        exact exclaimed.1.2
      exact g.on (makes_takeToken (at_ ▸ rfl)) fun mark t g => (Leads.pure g).bind rest
    · exact (Leads.pure (g.drop (by simp))).bind rest
  intro exclamation t g
  apply g.on (makes_typeAfterColon g.room)
  intro type t g
  apply Leads.fork fun (init : Option Node) t =>
    Grown s.prevEnd (r + 2) s t ([name] ++ held exclamation ++ held type ++ held init)
  · intro rest
    refine Leads.read (Leads.ite (fun _ => ?_) fun _ => ?_)
    · exact (Leads.pure (g.drop (by simp))).bind rest
    · exact (g.makes (makes_initializer g.room)).bind rest
  exact fun init t g => (g.buildFree (by simp) (by rfl) (by rfl)).makes

/-- Takes the words, which set marks only. -/
theorem leads_variableKeyword (h : Room r s) (more : s.token ≠ .endOfFileToken) :
    Leads variableKeyword s fun mark t => Grown (s.prevEnd + 1) 6 s t [] ∧
      ∀ info : NodeInfo, Marked info { info with flags := mark info.flags } := by
  have far := lt_advance .plain h.steady more
  refine Leads.read ?_
  apply Leads.fork fun (_ : Unit) t => Yields s t [] ∧ s.prevEnd < (t.advance .plain).prevEnd
  · intro rest
    refine Leads.ite (fun _ => ?_) fun _ => ?_
    · have first := yields_advance s
      have second := (yields_advance (s.advance .plain)).keeps (first.keeps h.steady).steady
      have passed : Leads next s fun _ t =>
          Yields s t [] ∧ s.prevEnd < (t.advance .plain).prevEnd :=
        ⟨first, Nat.lt_of_lt_of_le far second.prevEnd⟩
      exact passed.bind rest
    · exact rest () s ⟨.refl s, far⟩
  intro _ t taken
  have g : Grown (s.prevEnd + 1) 6 s (t.advance .plain) [] :=
    h.begin.beyond (taken.1.trans (yields_advance t)) taken.2
  refine Leads.bind (P := fun _ u => Grown (s.prevEnd + 1) 6 s u []) g fun _ u g => ?_
  split
  all_goals exact ⟨g, fun info => ⟨rfl, rfl, rfl, rfl, rfl, rfl⟩⟩

theorem makes_soleNameWalk (h : Room r s) : Makes soleNameWalk s := by
  refine Leads.read (Leads.ite (fun _ => .refl s) fun _ => ?_)
  exact h.begin.on (makes_nextToken s) fun _ t g => g.yields

theorem takes_variableDeclarationList (h : Room r s) (more : s.token ≠ .endOfFileToken)
    (inLoopHead : Bool) : Takes (variableDeclarationList inLoopHead) s := by
  refine Leads.read ((leads_variableKeyword h more).bind fun mark t taken => ?_)
  obtain ⟨g, marks⟩ := taken
  have sole : Asks (isAt .ofKeyword <&&> aheadNext soleNameWalk) t :=
    asks_and (asks_read _ t) fun trace => asks_aheadNext (g.steady.traced trace)
      (makes_soleNameWalk ((g.room.traced trace).openAttempt.later (yields_advance _)))
  apply g.ask sole
  intro _ trace g
  apply Leads.fork fun (declarations : List Node) t => Grown (s.prevEnd + 1) 6 s t declarations
  · intro rest
    apply Leads.ite (fun _ => (Leads.pure g).bind rest)
    intro _
    have list : Makes (inContext ({ · with disallowIn := inLoopHead })
        (delimited .variableDeclarations (variableDeclaration !inLoopHead))) (t.withTrace trace) :=
      makes_inContext fun c => makes_delimited (g.room.inContext c) _
        fun _ h _ => makes_variableDeclaration h _
    exact g.on list fun list t g => (Leads.pure g).bind rest
  intro declarations t g
  have fits : (List.flatMap held [Slot.list .declarations declarations]).Sublist declarations := by
    simp
  have closed := g.close .variableDeclarationList .none fits (marks _) trivial
    (fun _ => trivial) ⟨nofun, rfl, trivial, nofun⟩
  exact ⟨closed.yields, closed.floor⟩

theorem leads_variableStatement {mods : Option (List Node)} (g : Grown floor r s₀ s (held mods))
    (more : s.token ≠ .endOfFileToken) :
    Leads (variableStatement s₀.nodeStart mods) s fun n t => Grown (floor + 1) 6 s₀ t [n] := by
  apply g.past (takes_variableDeclarationList g.room more false)
  intro list t g
  apply g.on (makes_semicolon g.room)
  intro _ t g
  exact g.buildModified (by simp) rfl rfl

end ScriptGrammar
