import ScriptGrammar.Parse.List
import ScriptGrammar.Proofs.Parse.Names

/-!
# Lists

Every turn of a list that goes on takes a token. An element may take none; then the cursor stands
where it stood, so the list does not end there either and the token is skipped. A token that no
element begins with is skipped or ends the list.
-/

namespace ScriptGrammar

open Parse ScriptGrammar.Parser

variable {s t : State} {c : ListContext}

theorem more_of_endsList (h : s.endsList c = false) : s.token ≠ .endOfFileToken := by
  intro ended
  simp [State.endsList, ended] at h

theorem endsList_of_stays (stays : Stays s t) (h : s.endsList c = false) :
    t.endsList c = false := by
  rcases stays.kind with same | ⟨angle, long⟩
  · unfold State.endsList State.atSemicolon at h ⊢
    rw [same, stays.line]
    exact h
  · have line := stays.line
    generalize hk : t.token = k at long
    unfold State.endsList State.atSemicolon at h ⊢
    rw [hk, line]
    rw [angle] at h
    cases k <;> cases long
    all_goals cases c <;> first | exact h | cases h

variable [Grammar] {r : Nat}

theorem asks_startsElement (h : Room r s) (c : ListContext) (recovering : Bool) :
    Asks (startsElement c recovering) s := by
  apply asks_from
  cases c with
  | sourceElements | blockStatements | switchClauseStatements =>
    exact asks_ite (fun _ => asks_pure _ s) fun _ => asks_startsStatement h
  | switchClauses | jsxAttributes | jsxChildren | importAttributes => exact asks_pure _ s
  | typeMembers => exact asks_ahead h.steady (makes_typeMemberWalk h.openAttempt)
  | classMembers =>
    exact asks_or (asks_ahead h.steady (makes_classMemberWalk h.openAttempt)) fun _ => asks_pure _ _
  | enumMembers | objectBindingElements | variableDeclarations | arrayBindingElements
  | typeParameters | heritageClauses => exact asks_read _ s
  | objectLiteralMembers =>
    dsimp only
    split
    · exact asks_pure _ s
    · exact asks_pure _ s
    · exact asks_pure _ s
    · exact asks_pure _ s
    · exact asks_read _ s
  | heritageClauseElement =>
    refine asks_from (asks_ite (fun _ => asks_pure _ s) fun _ => ?_)
    exact asks_ite (fun _ => asks_read _ s) fun _ => asks_startsLeftHandSide h
  | arrayLiteralMembers | argumentExpressions =>
    exact asks_ite (fun _ => asks_pure _ s) fun _ => asks_startsExpression h
  | parameters => exact asks_startsParameter h
  | typeArguments | tupleElementTypes =>
    exact asks_ite (fun _ => asks_pure _ s) fun _ => asks_startsType h
  | importOrExportSpecifiers =>
    have next : Asks (pure (s.token == .fromKeyword) <&&> nextIs .stringLiteral) s :=
      asks_and (asks_pure _ s) fun trace => asks_nextIs (h.steady.traced trace) _
    exact asks_bind next fun _ _ => asks_ite (fun _ => asks_pure _ _) fun _ => asks_pure _ _

theorem asks_wantedBy (h : Room r s) (cs : List ListContext) : Asks (wantedBy cs) s := by
  induction cs generalizing s with
  | nil => exact asks_pure _ s
  | cons c cs ih =>
    refine asks_from (asks_ite (fun _ => ?_) fun _ => ih h)
    have wanted : Asks (startsElement c true <||> read (·.endsList c)) s :=
      asks_or (asks_startsElement h c true) fun _ => asks_read _ _
    refine asks_bind wanted fun _ trace => asks_ite (fun _ => asks_pure _ _) fun _ => ?_
    exact ih (h.traced trace)

/-- An unexpected token is reported, and ends the list or is taken. -/
theorem leads_complain {s₀ : State} {ns : List Node} {floor : Nat} (g : Grown floor r s₀ s ns)
    (more : s.token ≠ .endOfFileToken) :
    Leads (complain c) s fun ends t =>
      (if ends then Grown floor r s₀ t ns else Grown (floor + 1) r s₀ t ns) ∧
        t.diagnostics ≠ #[] := by
  refine g.reporting fun t g blamed same => ?_
  refine g.ask (asks_wantedBy g.room _) fun _ trace g => ?_
  refine Leads.ite (fun _ => ⟨g, blamed.some⟩) fun _ => ?_
  have taken := takes_next g.steady (same ▸ more)
  exact ⟨g.beyond taken.1 taken.2, Yields.reported taken.1 g.steady blamed.some⟩

instance : Holds Delimited := ⟨Delimited.elements⟩

omit [Grammar] in
@[simp] theorem held_delimited (d : Delimited) : held d = d.elements := rfl

section Loops

variable {s₀ : State} {element : Parser Node} {ns : List Node} {floor : Nat}

/-- What a list asks of its elements, which are called before the end of the source only. -/
def Item (options : Options) (element : Parser Node) : Prop :=
  ∀ s : State, Room 6 s → s.options = options → s.token ≠ .endOfFileToken → Makes element s

/-- What a list carries along beside its nodes. It says nothing once an error was reported. -/
structure Carried (keep : List Node → State → Prop) : Prop where
  traced : ∀ ns s trace, keep ns s → keep ns (s.withTrace trace)
  listed : ∀ ns s l, keep ns s → keep ns (s.withLists l)
  reported : ∀ ns s, s.diagnostics ≠ #[] → keep ns s

/-- What a list that carries something along asks of its elements. -/
def ItemWith (keep : List Node → State → Prop) (c : ListContext) (options : Options)
    (element : Parser Node) : Prop :=
  ∀ (ns : List Node) (s : State), Room 6 s → s.options = options → s.endsList c = false →
    keep ns s → Leads element s fun n t => Yields s t [n] ∧ keep (ns ++ [n]) t

/-- What a list with separators asks of its elements. -/
def Element (options : Options) (element : Parser Node) : Prop :=
  ∀ s : State, Room 6 s → s.options = options → Makes element s

section Carrying

variable {keep : List Node → State → Prop}

omit [Grammar] in
theorem carried_nothing : Carried fun _ _ => True :=
  ⟨fun _ _ _ _ => trivial, fun _ _ _ _ => trivial, fun _ _ _ => trivial⟩

theorem Item.with {options : Options} (item : Item options element) :
    ItemWith (fun _ _ => True) c options element :=
  fun _ s h same goes _ => ⟨item s h same (more_of_endsList goes), trivial⟩

theorem leads_listTurnWith (carried : Carried keep) (item : ItemWith keep c s₀.options element)
    (found : List Node) (g : Grown s.prevEnd 6 s₀ s found.reverse) (kept : keep found.reverse s) :
    Leads (listTurn c element found) s
      (GrowsWith s₀ List.reverse (fun ns => keep ns.reverse) (fun ns => keep ns.reverse) s) := by
  refine Leads.read (Leads.ite (fun _ => ⟨g.yields, Nat.le_refl _, kept⟩) fun goes => ?_)
  have goes : s.endsList c = false := by simpa using goes
  apply g.ask (asks_startsElement g.room c false)
  intro _ trace g
  refine Leads.ite (fun _ => ?_) fun _ => ?_
  · apply Leads.read
    have options := (g.yields.frame g.begun).options
    apply (item _ _ g.room options goes (carried.traced _ _ trace kept)).bind
    rintro node t ⟨y, kept⟩
    have grown : Grown s.prevEnd 6 s₀ t (node :: found).reverse := by
      rw [List.reverse_cons]
      exact g.later y
    refine Leads.read (Leads.ite (fun stuck => ?_) fun free => ?_)
    · have goes : t.endsList c = false := by simpa using (Bool.and_eq_true_iff.mp stuck).2
      apply grown.reporting
      intro u grown blamed same
      have taken := takes_next grown.steady (same ▸ more_of_endsList goes)
      have reported := Yields.reported taken.1 grown.steady blamed.some
      exact ⟨⟨(grown.still taken.1).yields, carried.reported _ _ reported⟩,
        Nat.lt_of_le_of_lt grown.floor taken.2⟩
    · rw [← List.reverse_cons] at kept
      refine ⟨⟨grown.yields, kept⟩, Nat.lt_of_le_of_ne grown.floor fun still => free ?_⟩
      have stays := Yields.stays y g.steady (more_of_endsList goes) still.symm
      have goes : t.endsList c = false := endsList_of_stays stays goes
      simp [stays.pos, goes]
  · apply (leads_complain g (more_of_endsList goes)).bind
    rintro ends t ⟨left, some⟩
    cases ends with
    | true => exact ⟨left.yields, left.floor, carried.reported _ _ some⟩
    | false => exact ⟨⟨left.yields, carried.reported _ _ some⟩, left.floor⟩

theorem leads_listOf (h : Room 6 s) (carried : Carried keep)
    (item : ItemWith keep c s.options element) (start : keep [] s) :
    Leads (listOf c element) s fun ns t => Yields s t ns ∧ keep ns t := by
  have inner : Leads (do
      let found ← loop [] (listTurn c element)
      return found.reverse) (s.withLists (s.lists.insert c)) fun ns t =>
        Yields (s.withLists (s.lists.insert c)) t ns ∧ keep ns t := by
    have item : ItemWith keep c (s.withLists (s.lists.insert c)).options element := item
    have start : keep ([] : List Node).reverse (s.withLists (s.lists.insert c)) :=
      carried.listed _ _ _ start
    refine ((h.inList _).begin.loopWith List.reverse (fun ns => keep ns.reverse)
      (fun ns => keep ns.reverse) start fun found t g _ kept => ?_).bind
      fun found t left => ⟨left.1.yields, left.2⟩
    exact leads_listTurnWith carried item found g kept
  exact ⟨Yields.inList _ inner.1, carried.listed _ _ _ inner.2⟩

end Carrying

theorem leads_listTurn (item : Item s₀.options element) (found : List Node)
    (g : Grown s.prevEnd 6 s₀ s found.reverse) :
    Leads (listTurn c element found) s (Grows s₀ List.reverse s) :=
  leads_listTurnWith carried_nothing item.with found g trivial

theorem makes_listOf (h : Room 6 s) (c : ListContext) (item : Item s.options element) :
    Makes (listOf c element) s := (leads_listOf h carried_nothing item.with trivial).1

omit [Grammar] in
/-- A separator is taken, or reported; then the token at `pos` is skipped. -/
theorem leads_separator (h : s.Steady) (c : ListContext) (pos : Nat) :
    Leads (separator c pos) s fun _ t => Yields s t [] ∧
      (s.tokenPos = pos → s.token ≠ .endOfFileToken → s.prevEnd < t.prevEnd) := by
  have skip (t : State) (y : Yields s t []) :
      Leads (do if ← read (·.tokenPos == pos) then next) t fun _ u => Yields s u [] ∧
        (s.tokenPos = pos → s.token ≠ .endOfFileToken → s.prevEnd < u.prevEnd) := by
    have kept := y.keeps h
    refine Leads.read (Leads.ite (fun _ => ⟨Yields.trans y (makes_next t), fun at_ more => ?_⟩)
      fun away => ⟨y, fun at_ more => ?_⟩)
    · rcases Nat.eq_or_lt_of_le kept.prevEnd with still | lt
      · have stays := y.stays h more still.symm
        exact still ▸ lt_advance .plain kept.steady (stays.more more)
      · exact Nat.lt_of_lt_of_le lt ((yields_advance t).keeps kept.steady).prevEnd
    · apply Nat.lt_of_le_of_ne kept.prevEnd
      intro still
      apply away
      simp [(y.stays h more still.symm).pos, at_]
  apply Leads.bind (makes_expect _ s)
  intro _ t y
  refine Leads.ite (fun _ => Leads.read (Leads.ite (fun _ => ?_) fun _ => ?_)) fun _ => ?_
  · exact Leads.bind (makes_next t) fun _ u z => skip u (Yields.trans y z)
  · exact skip t y
  · exact skip t y

/-- The comma behind the last element of a list that began at `s` may be reported. -/
def Parser.Delimited.Since (d : Delimited) (s t : State) : Prop :=
  ∀ comma, d.trailingComma = some comma → Parse.Since s t comma

omit [Grammar] in
theorem Parser.Delimited.since_none (elements : List Node) (s t : State) :
    Delimited.Since { elements } s t := fun _ no => (nomatch no)

theorem leads_delimitedTurn (elem : Element s₀.options element) (found : Delimited)
    (g : Grown s.prevEnd 6 s₀ s found.elements.reverse) (comma : found.Since s₀ s) :
    Leads (delimitedTurn c element found) s
      (GrowsWith s₀ (·.elements.reverse) (·.Since s₀) (·.Since s₀) s) := by
  apply g.ask (asks_startsElement g.room c false)
  intro _ trace g
  refine Leads.ite (fun _ => ?_) fun _ => ?_
  · apply Leads.read
    have made : Makes element (s.withTrace trace) := elem _ g.room (g.yields.frame g.begun).options
    apply Leads.bind made
    intro node t y
    have grown : Grown s.prevEnd 6 s₀ t (node :: found.elements).reverse := by
      rw [List.reverse_cons]
      exact g.later y
    refine Leads.ifAt (fun at_ => Leads.read ?_) fun _ => ?_
    · have taken := takes_next grown.steady (ne_endOfFile at_ (by decide))
      have grown' := grown.still taken.1
      refine ⟨⟨grown'.yields, fun comma same => ?_⟩, Nat.lt_of_le_of_lt grown.floor taken.2⟩
      obtain rfl : t.tokenRange = comma := Option.some.inj same
      have since := grown.steady.since_token.along (.refl t) taken.1 grown.steady
      exact since.earlier grown.yields grown.begun
    · refine Leads.read (Leads.ite (fun _ => ?_) fun goes => ?_)
      · exact ⟨grown.yields, grown.floor, Delimited.since_none _ _ _⟩
      have more := more_of_endsList (by simpa using goes)
      apply (leads_separator grown.steady c _).bind
      intro _ u separated
      have grown' := grown.still separated.1
      refine ⟨⟨grown'.yields, Delimited.since_none _ _ _⟩, ?_⟩
      rcases Nat.eq_or_lt_of_le grown.floor with still | lt
      · have begun : s.token ≠ .endOfFileToken := fun ended =>
          more (Yields.ended y g.steady ended still.symm)
        have stays := Yields.stays y g.steady begun still.symm
        exact still ▸ separated.2 stays.pos more
      · exact Nat.lt_of_lt_of_le lt (separated.1.keeps grown.steady).prevEnd
  · refine Leads.read (Leads.ite (fun _ => ⟨g.yields, Nat.le_refl _, comma⟩) fun goes => ?_)
    -- A comma found earlier is kept over what is skipped.
    have comma : found.Since s₀ (s.withTrace trace) := comma
    have later {t : State} (y : Yields s₀ t found.elements.reverse) : found.Since s₀ t :=
      fun range same => (comma range same).along g.yields y g.begun
    apply (leads_complain g (more_of_endsList (by simpa using goes))).bind
    rintro ends t ⟨left, _⟩
    cases ends with
    | true => exact ⟨left.yields, left.floor, later left.yields⟩
    | false => exact ⟨⟨left.yields, later left.yields⟩, left.floor⟩

theorem leads_delimited (h : Room 6 s) (c : ListContext) (elem : Element s.options element) :
    Leads (delimited c element) s fun list t => Yields s t list.elements ∧ list.Since s t := by
  have inner : Leads (loop {} (delimitedTurn c element)) (s.withLists (s.lists.insert c))
      fun found t => Yields (s.withLists (s.lists.insert c)) t found.elements.reverse ∧
        found.Since s t := by
    have elem : Element (s.withLists (s.lists.insert c)).options element := elem
    refine ((h.inList _).begin.loopWith (fun d : Delimited => d.elements.reverse)
      (·.Since (s.withLists (s.lists.insert c))) (·.Since (s.withLists (s.lists.insert c)))
      (Delimited.since_none _ _ _) fun found t g _ comma => ?_).mono
      fun _ _ left => ⟨left.1.yields, left.2⟩
    exact leads_delimitedTurn elem found g comma
  have list : Leads (inList c (loop {} (delimitedTurn c element))) s fun found t =>
      Yields s t found.elements.reverse ∧ found.Since s t := ⟨Yields.inList _ inner.1, inner.2⟩
  apply list.bind
  intro found t left
  obtain ⟨y, since⟩ := left
  dsimp only
  split
  · next comma same =>
    refine Leads.ite (fun _ => ⟨?_, since⟩) fun _ => ⟨y, since⟩
    exact .report comma .trailingComma [] y (.inr (since comma same))
  · exact ⟨y, since⟩

theorem makes_delimited (h : Room 6 s) (c : ListContext) (elem : Element s.options element) :
    Makes (delimited c element) s := (leads_delimited h c elem).1

variable {opening closing : Kind}

theorem leads_bracketed (h : Room r s) (c : ListContext) (closing : Kind)
    (hk : opening ≠ .endOfFileToken) (elem : Element s.options element) :
    Leads (bracketed c opening closing element) s fun list t =>
      Yields s t list.elements ∧ list.Since s t := by
  refine h.begin.ifExpect hk (fun t _ g => ?_)
    fun t _ g => ⟨g.yields, Delimited.since_none _ _ _⟩
  have elem : Element t.options element := (g.yields.frame g.begun).options ▸ elem
  apply (leads_delimited g.room c elem).bind
  intro list u left
  have whole := g.later left.1
  refine (whole.makes (makes_expect closing u)).bind fun _ v g' => ?_
  have y : Yields s v list.elements := by simpa using g'.yields
  refine ⟨y, fun comma same => ?_⟩
  exact ((left.2 comma same).earlier g.yields g.begun).along whole.yields y g.begun

theorem makes_bracketed (h : Room r s) (c : ListContext) (closing : Kind)
    (hk : opening ≠ .endOfFileToken) (elem : Element s.options element) :
    Makes (bracketed c opening closing element) s := (leads_bracketed h c closing hk elem).1

theorem takes_bracketed (h : Room r s) (c : ListContext) (closing : Kind) (at_ : s.token = opening)
    (hk : opening ≠ .endOfFileToken) (elem : Element s.options element) :
    Takes (bracketed c opening closing element) s := by
  refine h.begin.ifExpect hk (fun t _ g => ?_) fun t away => absurd at_ away
  have elem : Element t.options element := (g.yields.frame g.begun).options ▸ elem
  apply g.on (makes_delimited g.room c elem)
  intro found t g
  exact g.wanting fun _ t g => ⟨g.yields, g.floor⟩

theorem Grown.checkingRestComma {β : Type} {f : Unit → Parser β} {Q : β → State → Prop}
    {list : Delimited} (g : Grown floor r s₀ s ns) (since : list.Since s₀ s)
    (rest : ∀ t, Grown floor r s₀ t ns → Leads (f ()) t Q) :
    Leads (checkRestComma list >>= f) s Q := by
  unfold checkRestComma
  split
  · next comma last same =>
    split
    · exact rest _ (g.report (since comma (Prod.mk.inj same).1) _ _)
    · exact rest s g
  · exact rest s g

end Loops

theorem makes_acceptSemicolon (h : Room r s) : Makes acceptSemicolon s := by
  refine Leads.read (Leads.ite (fun _ => ?_) fun _ => .refl s)
  exact h.begin.on (makes_accept _ s) fun _ t g => g.yields

theorem makes_semicolon (h : Room r s) : Makes semicolon s := by
  refine h.begin.on (makes_acceptSemicolon h) fun _ t g => ?_
  refine Leads.ite (fun _ => g.yields) fun _ => Leads.read ?_
  have loose : Asks (pure t.options.looseSemicolons <&&> startsStatement) t :=
    asks_and (asks_pure _ t) fun trace => asks_startsStatement (g.room.traced trace)
  refine g.ask loose fun _ trace g => Leads.ite (fun _ => g.yields) fun _ => ?_
  exact g.wanting fun _ t g => g.yields

end ScriptGrammar
