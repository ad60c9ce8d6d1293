import ScriptGrammar.Parse.Element
import ScriptGrammar.Proofs.Parse.Operands

/-!
# Elements

Markup is entered at a tag, which is taken, and only where the options allow it. A token that is
read again as content or as part of a name is taken next, so the cursor never rests behind it.

As long as nothing was reported, content is at the cursor behind every opening tag and every child,
and a child reaches from where it begins to the content behind it. So the children of an element
stand one right behind the other, and none of them is read again.
-/

namespace ScriptGrammar

open Parse ScriptGrammar.Parser

variable {r floor : Nat} {s s₀ : State} {ns : List Node}

theorem more_reread_content (h : s.Steady) (more : s.token ≠ .endOfFileToken) :
    (s.reread .content).token ≠ .endOfFileToken := by
  have sound := h.clear.sound
  apply Scanner.kind_rescanContent
  calc s.scanner.fullStart ≤ s.scanner.start := sound.fullStart_le
    _ < s.scanner.stop := h.filled more
    _ ≤ s.scanner.limit := Scanner.stop_le_limit sound.stands

/-- What is no word is not read again. -/
theorem reread_tagName (h : s.Steady) (plain : s.token.isWord = false) : s.reread .tagName = s := by
  have same : s.scanner.scanTagName = s.scanner := Scanner.scanTagName_of_not_isWord plain
  have none : s.scanner.pending = #[] := h.clear.quiet
  have scanner : ({ s.scanner with pending := #[] } : Scanner) = s.scanner := by rw [← none]
  have errors : (if s.diagnostics.size == s.tokenErrorsAt + s.tokenErrors then
      s.diagnostics.size - s.tokenErrorsAt else s.tokenErrors) = s.tokenErrors := by
    split
    · next exact_ => simp [eq_of_beq exact_]
    · rfl
  unfold State.reread Rereading.apply
  simp only [same, none, scanner, Array.append_empty, errors]

theorem makes_advance (jsx : s.options.isJsx) (r : Reading) : Makes (advance r) s :=
  .advance r fun _ => jsx

variable [Grammar]

theorem Grown.jsx (g : Grown floor r s₀ s ns) (jsx : s₀.options.isJsx) : s.options.isJsx := by
  rw [(g.yields.frame g.begun).options]
  exact jsx

omit [Grammar] in
theorem onContent_advance (s : State) (none : (s.advance .content).diagnostics = #[]) :
    (s.advance .content).OnContent := by
  have quiet : s.scanner.scanContent.pending = #[] := (Array.append_eq_empty_iff.mp none).2
  exact ⟨Scanner.start_scanContent s.scanner, Scanner.kind_scanContent quiet⟩

omit [Grammar] in
/-- A node ends with the last token, or where a placeholder stands. -/
theorem stop_close (s : State) (kind : Kind) (start : NodeStart) :
    (s.close kind start).1.range.stop = max s.prevEnd (s.close kind start).2.missingAt := by
  simp only [State.close]
  split <;> omega

/-- Goes on with content. -/
theorem Grown.intoContent {β : Type} {f : Unit → Parser β} {Q : β → State → Prop}
    (g : Grown floor r s₀ s ns) (jsx : s₀.options.isJsx)
    (rest : ∀ t, Grown floor r s₀ t ns → (t.diagnostics = #[] → t.OnContent) → Leads (f ()) t Q) :
    Leads (nextContent >>= f) s Q :=
  rest _ (g.still (makes_advance (g.jsx jsx) _)) (onContent_advance s)

/-- A node that is closed before content ends there. -/
theorem Grown.range_close (g : Grown floor r s₀ s ns) (on : s.OnContent)
    (none : s.diagnostics = #[]) (kind : Kind) :
    (s.close kind s₀.nodeStart).1.range = ⟨s₀.tokenPos, s.tokenPos⟩ := by
  have begin : s₀.tokenPos ≤ s.tokenPos := (g.yields.keeps g.begun).tokenPos none
  have level := g.steady.level none
  have pos := on.pos
  have stop : (s.close kind s₀.nodeStart).1.range.stop = s.tokenPos := by
    rw [stop_close]
    simp only [State.close]
    split
    · next before =>
      have before : s.prevEnd < s₀.tokenPos := before
      omega
    · omega
  exact congrArg (Range.mk s₀.tokenPos) stop

/-- Closes a node, which may stand before content. -/
theorem Grown.buildBefore {kind : Kind} {slots : List Slot} {content : Prop}
    (g : Grown floor r s₀ s ns) (on : content → s.diagnostics = #[] → s.OnContent)
    (fits : (slots.flatMap held).Sublist ns) (tiered : Tiered kind (slots.flatMap Slot.nodes))
    (joins : s.Joins kind (s.close kind s₀.nodeStart).1.range .none
      (slots.flatMap Slot.nodes))
    (formed : Formed s₀ s kind (s.close kind s₀.nodeStart).1 .none slots) :
    Leads (Parser.build kind s₀.nodeStart slots) s fun n t =>
      Grown floor r s₀ t [n] ∧ n.kind = kind ∧ (content → Spans s₀ n t) := by
  refine ⟨g.build fits tiered joins formed, rfl, fun before none => ?_⟩
  have on := on before none
  exact ⟨⟨on.pos, on.token⟩, g.range_close on none kind⟩

theorem Grown.buildBeforeFree {kind : Kind} {slots : List Slot} {content : Prop}
    (g : Grown floor r s₀ s ns) (on : content → s.diagnostics = #[] → s.OnContent)
    (fits : (slots.flatMap held).Sublist ns) (free : kind.isFree = true)
    (bare : slotsAs .modifiers slots = []) :
    Leads (Parser.build kind s₀.nodeStart slots) s fun n t =>
      Grown floor r s₀ t [n] ∧ n.kind = kind ∧ (content → Spans s₀ n t) := by
  have lone := Kind.isBracketing_of_isFree free
  exact g.buildBefore on fits (tiered_of_isBracketing lone _) (joins_of_isBracketing lone _ _ _ _)
    (formed_of_isFree free (by rw [bare]; rfl))

omit [Grammar] in
/-- The `>` of a tag is taken, or is reported missing. Outside of expressions content follows. -/
theorem leads_closeAngle (jsx : s.options.isJsx) (inExpression : Bool) :
    Leads (closeAngle inExpression) s fun _ t => Yields s t [] ∧
      (inExpression = false → t.diagnostics = #[] → t.OnContent) := by
  apply Leads.ifNotAt
  · intro _
    refine ⟨makes_reportHere _ _ s, fun _ none => absurd none ?_⟩
    exact State.report_ne_empty _ _ _ s
  · intro _
    apply Leads.ite
    · intro inside
      refine ⟨makes_next s, fun outside => ?_⟩
      rw [outside] at inside
      cases inside
    · exact fun _ => ⟨makes_advance jsx _, fun _ => onContent_advance s⟩

theorem makes_tagIdentifier (h : Room r s) (jsx : s.options.isJsx) : Makes tagIdentifier s := by
  cases word : s.token.isWord with
  | true =>
    have still : (s.reread .tagName).token.isWord := Scanner.isWord_scanTagName word
    exact (takes_reread (fun _ => jsx) (takes_identifierName (h.steady.reread _ (by nofun)) still)
      (by nofun)).makes
  | false =>
    have same : Leads (reread .tagName) s fun _ t => t = s := reread_tagName h.steady word
    apply same.bind
    intro _ t same
    rw [same]
    exact makes_identifierName s

/-- A name, and how it is matched. -/
theorem makes_tagWord (h : Room r s) (jsx : s.options.isJsx) :
    Leads tagWord s fun p t => Yields s t [p.1] := by
  refine Leads.read (h.begin.on (makes_tagIdentifier h jsx) fun first t g => ?_)
  refine g.ifNotAccept (by decide) (fun _ => g.yields) fun t _ g => ?_
  refine g.on (makes_tagIdentifier g.room (g.jsx jsx)) fun second t g => ?_
  exact (g.buildFree (by simp) (by rfl) (by rfl)).bind fun node t g => g.yields

omit [Grammar] in
theorem kind_tagWord (s : State) : Leads tagWord s fun p _ => p.1.kind.isFirst := by
  have name (s : State) : Leads identifierName s fun n _ => n.kind.isFirst :=
    Leads.read (Leads.ite (fun _ => rfl) fun _ => rfl)
  refine Leads.read ((Leads.skip fun _ t => name t : Leads tagIdentifier s _).bind ?_)
  intro first t lone
  exact Leads.skip fun _ _ => Leads.ite (fun _ => lone) fun _ => Leads.skip fun _ _ => rfl

theorem makes_tagName (h : Room r s) (jsx : s.options.isJsx) :
    Leads tagName s fun p t => Yields s t [p.1] := by
  refine Leads.read ?_
  apply Leads.fork fun (first : Node × TagName) t =>
    Grown s.prevEnd r s t [first.1] ∧ first.1.kind.isFirst
  · intro rest
    refine Leads.ifAt (fun at_ => ?_) fun _ => ?_
    · apply h.begin.onKnown (makes_takeToken (at_ ▸ rfl)) (kind_takeToken s)
      exact fun this t g kind => (Leads.pure ⟨g, by rw [kind, at_]; rfl⟩).bind rest
    · apply ((makes_tagWord h jsx).and (kind_tagWord s)).bind
      exact fun first t made => rest first t ⟨h.begin.later made.1, made.2⟩
  rintro first t ⟨g, lone⟩
  have unchained : first.1.kind.isChained = false := by
    simpa using (Bool.and_eq_true_iff.mp lone).2
  refine Leads.ite (fun _ => g.yields) fun _ => ?_
  refine (g.loopWith (fun p : Node × TagName => [p.1]) (fun p _ => p.1.Chains false)
    (fun _ _ => True) (.first unchained) fun p t g _ chains => ?_).mono fun p t g => g.1.yields
  obtain ⟨node, tag⟩ := p
  refine g.ifAccept (by decide) (fun u _ g => ?_) fun _ => ⟨g.yields, Nat.le_refl _, trivial⟩
  refine g.on (makes_identifierName u) fun name v g => ?_
  have member (info : NodeInfo) (same : info.kind = .propertyAccessExpression) :
      (Node.ofSlots info .none [.one .expression node, .opt .questionDotToken none,
        .one .name name]).Chains false :=
    Node.chains_ofSlots .none (same ▸ rfl) (same ▸ rfl) chains
  have built : Leads (build .propertyAccessExpression s.nodeStart [.one .expression node,
      .opt .questionDotToken none, .one .name name]) v fun n w =>
        Grown (t.prevEnd + 1) 6 s w [n] ∧ n.Chains false :=
    ⟨g.build (by simp) trivial (fun _ => trivial) ⟨nofun, rfl, trivial, fun _ => member _ rfl⟩,
      member _ rfl⟩
  exact built.bind fun n w made => ⟨⟨made.1.yields, made.2⟩, made.1.floor⟩

theorem leads_elementExpression (h : Room r s) (jsx : s.options.isJsx)
    (at_ : s.token = .openBraceToken) (inExpression : Bool) :
    Leads (elementExpression inExpression) s fun n t => Grown (s.prevEnd + 1) 6 s t [n] ∧
      n.kind = .jsxExpression ∧ (inExpression = false → Spans s n t) := by
  refine Leads.read (h.begin.passing at_ (by decide) fun t g => ?_)
  apply Leads.fork fun (inside : Option Node × Option Node) t =>
    Grown (s.prevEnd + 1) 6 s t (held inside)
  · intro rest
    apply Leads.ifAt (fun _ => (Leads.pure g).bind rest)
    intro _
    apply Leads.fork fun (dots : Option Node) t => Grown (s.prevEnd + 1) 6 s t (held dots)
    · intro further
      apply Leads.ite (fun _ => (Leads.pure g).bind further)
      intro _
      exact (g.makes (makes_acceptToken _ t (by rfl))).bind further
    intro dots t g
    exact g.on (makes_expression g.room) fun e t g => (Leads.pure g).bind rest
  intro inside t g
  obtain ⟨dots, e⟩ := inside
  refine Leads.read (Leads.ite (fun late => ?_) fun _ => ?_)
  · apply g.expect (by decide)
    · intro u at_ g
      have on : inExpression = false → u.diagnostics = #[] → u.OnContent := by
        intro outside
        simp [at_, outside] at late
      have g : Grown (s.prevEnd + 1) 6 s u (held (dots, e)) := g.lower (Nat.le_succ _)
      exact g.buildBeforeFree on (by simp) (by rfl) (by rfl)
    · intro u _ g blamed
      exact g.buildBeforeFree (fun _ none => absurd none blamed.some) (by simp) (by rfl) (by rfl)
  · apply g.intoContent jsx
    intro u g on
    exact g.buildBeforeFree (fun _ => on) (by simp) (by rfl) (by rfl)

theorem makes_attributeValue (h : Room 6 s) (jsx : s.options.isJsx) : Makes attributeValue s := by
  apply h.begin.on (makes_advance jsx _)
  intro _ t g
  apply Leads.read
  split
  · next at_ => exact g.on (makes_literal (at_ ▸ rfl)) fun n t g => (g.gives (by simp)).makes
  · next at_ =>
    apply (leads_elementExpression g.room (g.jsx jsx) at_ true).bind
    exact fun n u made => (g.later made.1.yields).yields
  · next at_ =>
    exact g.on (takes_element g.room (g.jsx jsx) at_ true).makes fun n t g =>
      (g.gives (by simp)).makes
  · exact g.reporting fun t g _ _ => g.yields

theorem makes_tagAttribute (h : Room 6 s) (jsx : s.options.isJsx) : Makes tagAttribute s := by
  refine Leads.read (h.begin.ifAccept (by decide) (fun t _ g => ?_) fun _ => ?_)
  · apply g.wanting
    intro _ t g
    apply g.on (makes_expression g.room)
    intro e t g
    exact g.wanting fun _ t g => (g.buildFree (by simp) (by rfl) (by rfl)).makes
  apply (makes_tagWord h jsx).bind
  intro p t y
  obtain ⟨name, tag⟩ := p
  have g : Grown s.prevEnd 6 s t [name] := h.begin.later y
  apply Leads.fork fun (init : Option Node) t => Grown s.prevEnd 6 s t ([name] ++ held init)
  · intro rest
    refine Leads.ifAt (fun _ => ?_) fun _ => (Leads.pure g).bind rest
    exact (g.makes (makes_attributeValue g.room (g.jsx jsx))).bind rest
  · exact fun init t g => (g.buildFree (by simp) (by rfl) (by rfl)).makes

theorem makes_tagAttributes (h : Room 6 s) (jsx : s.options.isJsx) : Makes tagAttributes s := by
  have item : Item s.options tagAttribute := fun t h same _ => makes_tagAttribute h (same ▸ jsx)
  refine Leads.read (h.begin.on (makes_listOf h _ item) fun properties t g => ?_)
  exact (g.buildFree (by simp) (by rfl) (by rfl)).makes

omit [Grammar] in
@[simp] theorem held_opening (o : Parser.Opening) : held o = [o.node] := rfl

/-- An opening tag from `s` to `t`, the name in which may be reported. Content follows unless the
tag closes itself in an expression. -/
structure Opened (inExpression : Bool) (s : State) (o : Parser.Opening) (t : State) : Prop where
  grown : Grown (s.prevEnd + 1) 6 s t [o.node]
  since : ∀ name tag, o.name = some (name, tag) → Since s t name.range
  fragment : o.name = none → o.node.kind = .jsxOpeningFragment
  element : o.name ≠ none →
    o.node.kind = .jsxOpeningElement ∨ o.node.kind = .jsxSelfClosingElement
  spans : (o.node.kind = .jsxSelfClosingElement → inExpression = false) → Spans s o.node t

/-- The tag is taken. Its name is a node inside it, to be quoted if the element is left open. -/
theorem leads_openingTag (h : Room r s) (jsx : s.options.isJsx) (at_ : s.token = .lessThanToken)
    (inExpression : Bool) : Leads (openingTag inExpression) s (Opened inExpression s) := by
  refine Leads.read (h.begin.passing at_ (by decide) fun t g => ?_)
  refine Leads.ifAt (fun _ => g.intoContent jsx fun u g on => ?_) fun _ => ?_
  · apply (g.buildBeforeFree (fun _ : True => on) (by simp) (by rfl) (by rfl)).bind
    rintro n v ⟨g, kind, spans⟩
    exact ⟨g, fun _ _ no => (nomatch no), fun _ => kind, fun no => absurd rfl no,
      fun _ => spans trivial⟩
  apply (makes_tagName g.room (g.jsx jsx)).bind
  intro p t y
  obtain ⟨name, tag⟩ := p
  have g : Grown (s.prevEnd + 1) 6 s t [name] := g.later y
  have since {o : Parser.Opening} {u : State} {ns : List Node} (z : Yields s u ns)
      (same : o.name = some (name, tag)) :
      ∀ name tag, o.name = some (name, tag) → Since s u name.range := by
    rintro name' tag' same'
    obtain ⟨rfl, rfl⟩ := Prod.mk.inj (Option.some.inj (same'.symm.trans same))
    exact (g.since (List.mem_singleton_self _)).along g.yields z h.steady
  apply g.on (makes_typeArguments? g.room)
  intro typeArgs t g
  apply g.on (makes_tagAttributes g.room (g.jsx jsx))
  intro attributes t g
  refine Leads.ifAt (fun _ => g.intoContent jsx fun u g on => ?_) fun _ => ?_
  · apply (g.buildBeforeFree (fun _ : True => on) (by simp) (by rfl) (by rfl)).bind
    rintro n v ⟨g, kind, spans⟩
    exact ⟨g, since g.yields rfl, fun no => (nomatch no), fun _ => .inl kind,
      fun _ => spans trivial⟩
  · apply g.wanting
    intro _ t g
    apply (leads_closeAngle (g.jsx jsx) inExpression).bind
    rintro _ u ⟨y, on⟩
    apply ((g.still y).buildBeforeFree on (by simp) (by rfl) (by rfl)).bind
    rintro n v ⟨g, kind, spans⟩
    exact ⟨g, since g.yields rfl, fun no => (nomatch no), fun _ => .inr kind,
      fun alone => spans (alone kind)⟩

/-- A closing tag from `s` to `t`, with content behind it outside of expressions. -/
structure Closed (kind : Kind) (inExpression : Bool) (s : State) (n : Node) (t : State) : Prop where
  yields : Yields s t [n]
  kind : n.kind = kind
  range : t.diagnostics = #[] → n.range = ⟨s.tokenPos, max t.prevEnd t.missingAt⟩
  content : inExpression = false → t.diagnostics = #[] → t.OnContent

/-- The `>` of a closing tag. -/
theorem leads_closingAngle {kind : Kind} {slots : List Slot} (g : Grown floor r s₀ s ns)
    (jsx : s₀.options.isJsx) (inExpression : Bool) (fits : (slots.flatMap held).Sublist ns)
    (free : kind.isFree = true) (bare : slotsAs .modifiers slots = []) : Leads (do
      closeAngle inExpression
      build kind s₀.nodeStart slots) s (Closed kind inExpression s₀) := by
  apply (leads_closeAngle (g.jsx jsx) inExpression).bind
  rintro _ t ⟨y, on⟩
  have g := g.still y
  have built := g.buildFree fits free bare
  refine ⟨built.yields, rfl, fun _ => ?_, fun outside none => ?_⟩
  · exact congrArg (Range.mk s₀.tokenPos) (stop_close t kind s₀.nodeStart)
  · have on := on outside none
    exact ⟨on.pos, on.token⟩

/-- At the end of the source, where an error was reported, a placeholder closes the element. -/
theorem leads_closingTag (h : Room r s) (jsx : s.options.isJsx) (name : Node) (tag : TagName)
    (inExpression : Bool) (blamed : s.token = .endOfFileToken → s.Blamed) :
    Leads (closingTag name tag inExpression) s (Closed .jsxClosingElement inExpression s) := by
  refine Leads.ifAt (fun ended => ?_) fun _ => Leads.read ?_
  · have reported := (blamed ended).some
    exact ⟨.trans (.missingTag jsx (blamed ended)) (.enterName "" _), rfl,
      fun none => absurd none reported, fun _ none => absurd none reported⟩
  apply h.begin.wanting
  intro _ t g
  apply (makes_tagName g.room (g.jsx jsx)).bind
  intro p t y
  obtain ⟨closing, closingTag⟩ := p
  have g : Grown s.prevEnd r s t [closing] := g.later y
  have tail {t : State} (g : Grown s.prevEnd r s t [closing]) : Leads (do
      closeAngle inExpression
      build .jsxClosingElement s.nodeStart [.one .tagName closing]) t
        (Closed .jsxClosingElement inExpression s) :=
    leads_closingAngle g jsx inExpression (by simp) rfl rfl
  refine Leads.ite (fun _ => Leads.read ?_) fun _ => tail g
  exact g.reportingAt (g.since (List.mem_singleton_self _)) fun t g => tail g

theorem leads_closingFragment (h : Room r s) (jsx : s.options.isJsx) (inExpression : Bool)
    (blamed : s.token = .endOfFileToken → s.Blamed) :
    Leads (closingFragment inExpression) s (Closed .jsxClosingFragment inExpression s) := by
  refine Leads.ifAt (fun ended => ?_) fun _ => Leads.read ?_
  · have reported := (blamed ended).some
    exact ⟨yields_missing _ _ (blamed ended) rfl rfl, rfl, fun none => absurd none reported,
      fun _ none => absurd none reported⟩
  refine h.begin.wanting fun _ t g => ?_
  exact leads_closingAngle g jsx inExpression (by simp) rfl rfl

/-- Text is taken as it stands. -/
theorem leads_contentText (h : Room r s) (jsx : s.options.isJsx)
    (more : s.token ≠ .endOfFileToken)
    (value : s.diagnostics = #[] → s.scanner.value = s.scanner.text) :
    Leads contentText s fun n t =>
      (Yields s t [n] ∧ s.prevEnd < t.prevEnd) ∧ Spans s n t := by
  have y : Yields s (s.advance .content) [] := makes_advance jsx .content
  have g := h.begin.still y
  have range (none : (s.advance .content).diagnostics = #[]) :=
    g.range_close (onContent_advance s none) none .jsxText
  refine ⟨⟨yields_leaf y .jsxText _ (fun none => ⟨s.token == .jsxTextAllWhiteSpaces, ?_⟩)
    ⟨nofun, rfl, trivial, nofun⟩, lt_advance .content h.steady more⟩, fun none => ?_⟩
  · have source := (y.frame h.steady).scanner.source
    have stop : (s.advance .content).tokenPos = s.scanner.stop := (onContent_advance s none).pos
    have text := value (y.clean h.steady none)
    rw [range none, source, stop]
    exact congrArg (Detail.content · _) text
  · have on := onContent_advance s none
    exact ⟨⟨on.pos, on.token⟩, range none⟩

/-- A child from its first token on. -/
theorem leads_childToken (h : Room 6 s) (jsx : s.options.isJsx) (more : s.token ≠ .endOfFileToken)
    (on : s.diagnostics = #[] → s.OnContent ∧ s.token ≠ .lessThanSlashToken) :
    Leads (do
      match ← token with
      | .openBraceToken => elementExpression false
      | .lessThanToken => Grammar.parse (.element false)
      | _ => contentText) s fun n t =>
        (Yields s t [n] ∧ s.prevEnd < t.prevEnd) ∧ Spans s n t := by
  apply Leads.read
  split
  · next at_ =>
    apply (leads_elementExpression h jsx at_ false).mono
    rintro n t ⟨g, _, spans⟩
    exact ⟨⟨g.yields, g.floor⟩, spans rfl⟩
  · next at_ =>
    apply ((takes_element h jsx at_ false).and (promises_element h jsx at_ false)).mono
    rintro n t ⟨taken, _, spans⟩
    exact ⟨taken, spans rfl⟩
  · next notBrace notAngle =>
    refine leads_contentText h jsx more fun none => ?_
    rcases (on none).1.token with other | text
    · simp only [List.mem_cons, List.not_mem_nil, or_false] at other
      rcases other with at_ | at_ | at_ | at_
      · exact absurd at_ more
      · exact absurd at_ notAngle
      · exact absurd at_ (on none).2
      · exact absurd at_ notBrace
    · exact text.2

omit [Grammar] in
/-- Where content is at the cursor it is not read again. -/
theorem leads_enterContent (on : s.diagnostics = #[] → s.OnContent)
    (more : s.token ≠ .endOfFileToken) : Leads enterContent s fun _ t =>
      t = s ∨ t = s.reread .content ∧ s.diagnostics ≠ #[] := by
  refine Leads.read (Leads.ite (fun other => .inr ⟨rfl, fun none => ?_⟩) fun _ => .inl rfl)
  have other : s.token ∉ [.jsxText, .jsxTextAllWhiteSpaces, .conflictMarkerTrivia, .lessThanToken,
      .lessThanSlashToken, .openBraceToken] := by simpa using other
  have token := (on none).token
  simp only [List.mem_cons, List.not_mem_nil, or_false, not_or] at token other
  grind

theorem leads_child (h : Room 6 s) (jsx : s.options.isJsx)
    (goes : s.endsList .jsxChildren = false) (on : s.diagnostics = #[] → s.OnContent) :
    Leads child s fun n t => (Yields s t [n] ∧ s.prevEnd < t.prevEnd) ∧ Spans s n t := by
  have more := more_of_endsList goes
  apply (leads_enterContent on more).bind
  intro _ t entered
  rcases entered with rfl | ⟨rfl, some⟩
  · refine leads_childToken h jsx more fun none => ⟨on none, fun closes => ?_⟩
    simp [State.endsList, closes] at goes
  · have frame := frame_reread .content h.steady.clear
    have reported := State.ne_empty_of_append frame.diagnostics some
    have room : Room 6 (s.reread .content) :=
      h.congr (h.steady.reread _ fun _ => some) rfl frame.scanner.source rfl
    have more := more_reread_content h.steady more
    apply (leads_childToken room jsx more fun none => absurd none reported).mono
    rintro n t ⟨⟨y, lt⟩, _⟩
    exact ⟨⟨.settle .content (fun _ => jsx) (fun _ => some) y lt, lt⟩,
      fun none => absurd none (y.reported room.steady reported)⟩

omit [Grammar] in
/-- The children so far stand one right behind the other, and content is behind them. -/
theorem carried_content (pos : Nat) : Carried fun ns t =>
    t.diagnostics = #[] → t.OnContent ∧ Tiles pos ns t.tokenPos := by
  refine ⟨fun ns s trace kept none => ?_, fun ns s l kept none => ?_,
    fun ns s some none => absurd none some⟩
  · obtain ⟨on, tiles⟩ := kept none
    exact ⟨⟨on.pos, on.token⟩, tiles⟩
  · obtain ⟨on, tiles⟩ := kept none
    exact ⟨⟨on.pos, on.token⟩, tiles⟩

/-- Content up to a closing tag. An element that reaches the end of the source is reported. -/
theorem leads_childList (g : Grown floor 6 s₀ s ns) (jsx : s.options.isJsx) {name : Option Node}
    (since : ∀ n, name = some n → Since s₀ s n.range) (on : s.diagnostics = #[] → s.OnContent) :
    Leads (childList name) s fun children t => Grown floor 6 s₀ t (ns ++ children) ∧
      (t.token = .endOfFileToken → t.Blamed) ∧
      (t.diagnostics = #[] → Yields s t children ∧ Tiles s.tokenPos children t.tokenPos) := by
  have item : ItemWith (fun ns t => t.diagnostics = #[] → t.OnContent ∧
      Tiles s.tokenPos ns t.tokenPos) .jsxChildren s.options child := by
    intro ns t h same goes kept
    apply (leads_child h (same ▸ jsx) goes fun none => (kept none).1).mono
    rintro n u ⟨⟨y, _⟩, spans⟩
    refine ⟨y, fun none => ?_⟩
    obtain ⟨on, range⟩ := spans none
    exact ⟨on, (kept (y.clean h.steady none)).2.append (tiles_singleton range)⟩
  apply (leads_listOf g.room (carried_content s.tokenPos) item fun none => ⟨on none, rfl⟩).bind
  rintro children t ⟨y, kept⟩
  have whole := g.later y
  refine Leads.ifAt (fun _ => ?_) fun away =>
    ⟨whole, fun ended => absurd ended away, fun none => ⟨y, (kept none).2⟩⟩
  have reported {range : Range} (since : Since s₀ t range) (message : Message)
      (args : List String) : Grown floor 6 s₀ (t.report range message args) (ns ++ children) ∧
        ((t.report range message args).token = .endOfFileToken →
          (t.report range message args).Blamed) ∧
        ((t.report range message args).diagnostics = #[] →
          Yields s (t.report range message args) children ∧
            Tiles s.tokenPos children (t.report range message args).tokenPos) := by
    have blamed := State.blamed_report range message args t
    exact ⟨whole.report since message args, fun _ => blamed, fun none => absurd none blamed.some⟩
  cases name with
  | some name => exact reported ((since name rfl).along g.yields whole.yields g.begun) _ _
  | none => exact reported (whole.steady.since_token.earlier whole.yields g.begun) _ _

section Whole

variable {inExpression : Bool} {opening closing : Node} {children : List Node} {t u v : State}
  {opens closes : Kind} {p q part : Part}

/-- The element around a tag, content and a tag. -/
theorem leads_enclose (kind : Kind) (g : Grown (s.prevEnd + 1) 6 s t [opening])
    (spans : Spans s opening t) (ho : opening.kind = opens)
    (inner : Grown (s.prevEnd + 1) 6 s u ([opening] ++ children))
    (tiles : u.diagnostics = #[] → Yields t u children ∧ Tiles t.tokenPos children u.tokenPos)
    (closed : Closed closes inExpression u closing v)
    (seamless : ∀ src range parts, Enclosed opens closes range parts →
      Seamless src kind range .none parts) (tiered : ∀ parts, Tiered kind parts)
    (formed : Formed s v kind (v.close kind s.nodeStart).1 .none
      [.one p opening, .list q children, .one part closing]) :
    Leads (build kind s.nodeStart [.one p opening, .list q children, .one part closing]) v
      fun n w => Grown (s.prevEnd + 1) 6 s w [n] ∧ n.kind = kind ∧
        (inExpression = false → Spans s n w) := by
  have whole := inner.later closed.yields
  refine whole.buildBefore closed.content (by simp) (tiered _)
    (fun none => seamless _ _ _ ?_) formed
  have none' := closed.yields.clean inner.steady none
  obtain ⟨y, tiles⟩ := tiles none'
  obtain ⟨on, range⟩ := spans (y.clean g.steady none')
  have begin : s.tokenPos ≤ t.tokenPos := (g.yields.keeps g.begun).tokenPos (y.clean g.steady none')
  have later := (y.keeps g.steady).prevEnd
  have latest := (closed.yields.keeps inner.steady).prevEnd
  have pos := on.pos
  have stop : (v.close kind s.nodeStart).1.range.stop = max v.prevEnd v.missingAt := by
    rw [stop_close]
    simp only [State.close]
    split
    · next before =>
      have before : v.prevEnd < s.tokenPos := before
      omega
    · rfl
  have range' := closed.range none
  refine enclosed_slots p q part ⟨ho, ?_⟩ ?_ ⟨closed.kind, ?_⟩
  · rw [range]
    rfl
  · rw [range, range']
    exact tiles
  · rw [range', stop]

end Whole

theorem leads_elementStep (h : Room r s) (jsx : s.options.isJsx) (at_ : s.token = .lessThanToken)
    (inExpression : Bool) : Leads (elementStep inExpression) s fun n t =>
      Grown (s.prevEnd + 1) 6 s t [n] ∧ n.kind.isFirst ∧
        (inExpression = false → Spans s n t) := by
  refine Leads.read ((leads_openingTag h jsx at_ inExpression).bind ?_)
  rintro opening t ⟨g, since, fragment, element, spans⟩
  split
  · next same =>
    have since : ∀ n, (none : Option Node) = some n → Since s t n.range :=
      fun _ no => (by cases no)
    have spans : Spans s opening.node t := spans fun alone => by simp [fragment same] at alone
    apply (leads_childList g (g.jsx jsx) since fun none => (spans none).1).bind
    rintro children u ⟨inner, ended, tiles⟩
    apply (leads_closingFragment inner.room (inner.jsx jsx) inExpression ended).bind
    intro closing v closed
    apply (leads_enclose .jsxFragment g spans (fragment same) inner tiles closed
      (fun _ _ _ whole => whole) (fun _ => trivial)
      ⟨fun no => (by cases no), rfl, trivial, fun no => (by cases no)⟩).mono
    exact fun n w made => ⟨made.1, made.2.1 ▸ rfl, made.2.2⟩
  · next name tag same =>
    refine Leads.ite (fun alone => ?_) fun goes => ?_
    · have alone : opening.node.kind = .jsxSelfClosingElement := eq_of_beq alone
      exact ⟨g, alone ▸ rfl, fun outside => spans fun _ => outside⟩
    have kind : opening.node.kind = .jsxOpeningElement :=
      (element (by simp [same])).resolve_right fun alone => goes (beq_iff_eq.mpr alone)
    have spans : Spans s opening.node t := spans fun alone => by simp [kind] at alone
    have since : ∀ n, some name = some n → Since s t n.range := by
      intro n found
      exact Option.some.inj found ▸ since name tag same
    apply (leads_childList g (g.jsx jsx) since fun none => (spans none).1).bind
    rintro children u ⟨inner, ended, tiles⟩
    apply (leads_closingTag inner.room (inner.jsx jsx) _ _ inExpression ended).bind
    intro closing v closed
    apply (leads_enclose .jsxElement g spans kind inner tiles closed
      (fun _ _ _ whole => whole) (fun _ => trivial)
      ⟨fun no => (by cases no), rfl, trivial, fun no => (by cases no)⟩).mono
    exact fun n w made => ⟨made.1, made.2.1 ▸ rfl, made.2.2⟩

end ScriptGrammar
