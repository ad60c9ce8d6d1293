import ScriptGrammar.Parse.Name
import ScriptGrammar.Proofs.Parse.Leads

/-!
# Tokens, names and attempts

What the smallest parsers make and take, and how the ones that run another inside a context, a
nesting or an attempt come to what that one comes to.
-/

namespace ScriptGrammar

open Parse ScriptGrammar.Parser

variable {α β : Type} {s : State} {k : Kind}

theorem ne_endOfFile (at_ : s.token = k) (hk : k ≠ .endOfFileToken) :
    s.token ≠ .endOfFileToken := at_ ▸ hk

theorem isPlain_at (at_ : s.token = k) (hk : k.isPlain = true) : s.token.isPlain = true := at_ ▸ hk

theorem isText_at (at_ : s.token = k) (hk : k.isText = true) : s.token.isText = true := at_ ▸ hk

theorem yields_advance (s : State) : Yields s (s.advance .plain) [] :=
  .advance .plain fun h => absurd rfl h

theorem makes_next (s : State) : Makes next s := yields_advance s

theorem takes_next (h : s.Steady) (more : s.token ≠ .endOfFileToken) : Takes next s :=
  ⟨yields_advance s, lt_advance .plain h more⟩

theorem makes_nextToken (s : State) : Makes nextToken s := yields_advance s

/-- A token is taken, or is not there and nothing changes. -/
theorem leads_accept (h : s.Steady) (hk : k ≠ .endOfFileToken) :
    Leads (accept k) s fun b t =>
      if b then s.token = k ∧ Yields s t [] ∧ s.prevEnd < t.prevEnd else s.token ≠ k ∧ t = s := by
  unfold accept
  refine Leads.read (Leads.ite (fun at_ => ?_) fun away => ?_)
  · have at_ : s.token = k := eq_of_beq at_
    exact ⟨at_, takes_next h (ne_endOfFile at_ hk)⟩
  · exact ⟨fun at_ => away (beq_iff_eq.mpr at_), rfl⟩

theorem makes_accept (k : Kind) (s : State) : Makes (accept k) s := by
  unfold accept
  exact Leads.read (Leads.ite (fun _ => yields_advance s) fun _ => .refl s)

theorem takes_accept (h : s.Steady) (at_ : s.token = k) (hk : k ≠ .endOfFileToken) :
    Takes (accept k) s := by
  apply (leads_accept h hk).mono
  intro b t got
  cases b with
  | true => exact got.2
  | false => exact absurd at_ got.1

theorem makes_reportHere (message : Message) (args : List String) (s : State) :
    Makes (reportHere message args) s := yields_reportHere message args s

/-- A token is taken, or is reported missing. -/
theorem leads_expect (h : s.Steady) (hk : k ≠ .endOfFileToken) :
    Leads (expect k) s fun b t =>
      if b then s.token = k ∧ Yields s t [] ∧ s.prevEnd < t.prevEnd
      else s.token ≠ k ∧ Yields s t [] ∧ t.Blamed := by
  unfold expect
  apply (leads_accept h hk).bind
  intro b t got
  cases b with
  | true => exact got
  | false =>
    obtain ⟨away, rfl⟩ := got
    exact ⟨away, yields_reportHere _ _ t, State.blamed_report _ _ _ t⟩

theorem makes_expect (k : Kind) (s : State) : Makes (expect k) s := by
  unfold expect
  refine (makes_accept k s).bind fun b t y => ?_
  refine Leads.ite (fun _ => y) fun _ => ?_
  exact Yields.trans y (yields_reportHere _ _ t)

section Branches

variable {p q : Parser β} {Q : β → State → Prop}

/-- A branch on the kind of the current token. -/
theorem Parser.Leads.ifAt (yes : s.token = k → Leads p s Q) (no : s.token ≠ k → Leads q s Q) :
    Leads (isAt k >>= fun b => if b = true then p else q) s Q :=
  Leads.read (Leads.ite (fun h => yes (eq_of_beq h)) fun h => no fun at_ => h (beq_iff_eq.mpr at_))

theorem Parser.Leads.ifNotAt (yes : s.token ≠ k → Leads p s Q) (no : s.token = k → Leads q s Q) :
    Leads (isAt k >>= fun b => if (!b) = true then p else q) s Q := by
  refine Leads.read (Leads.ite (fun h => yes ?_) fun h => no ?_)
  · simpa using h
  · simpa using h

theorem Parser.Leads.ifBothAt {c : Bool} (yes : c = true → s.token = k → Leads p s Q)
    (no : Leads q s Q) :
    Leads ((Pure.pure c <&&> isAt k) >>= fun b => if b = true then p else q) s Q := by
  cases c with
  | true => exact Leads.ifAt (yes rfl) fun _ => no
  | false => exact no

variable [Grammar] {floor r : Nat} {s₀ : State} {ns : List Node}

theorem Grown.accept {f : Bool → Parser β} (g : Grown floor r s₀ s ns)
    (hk : k ≠ .endOfFileToken)
    (yes : ∀ t, s.token = k → Grown (floor + 1) 6 s₀ t ns → Leads (f true) t Q)
    (no : s.token ≠ k → Leads (f false) s Q) : Leads (accept k >>= f) s Q := by
  apply (leads_accept g.steady hk).bind
  intro b t got
  cases b with
  | true =>
    obtain ⟨at_, y, lt⟩ := got
    exact yes t at_ (g.beyond y lt)
  | false =>
    obtain ⟨away, rfl⟩ := got
    exact no away

theorem Grown.ifAccept (g : Grown floor r s₀ s ns) (hk : k ≠ .endOfFileToken)
    (yes : ∀ t, s.token = k → Grown (floor + 1) 6 s₀ t ns → Leads p t Q)
    (no : s.token ≠ k → Leads q s Q) :
    Leads (Parser.accept k >>= fun b => if b = true then p else q) s Q :=
  g.accept hk (by simpa using yes) (by simpa using no)

theorem Grown.ifBothAccept (g : Grown floor r s₀ s ns) (c : Bool) (hk : k ≠ .endOfFileToken)
    (yes : ∀ t, c = true → Grown (floor + 1) 6 s₀ t ns → Leads p t Q) (no : Leads q s Q) :
    Leads ((Pure.pure c <&&> Parser.accept k) >>= fun b => if b = true then p else q) s Q := by
  cases c with
  | true => exact g.ifAccept hk (fun t _ g => yes t rfl g) fun _ => no
  | false => exact no

theorem Grown.ifNotAccept (g : Grown floor r s₀ s ns) (hk : k ≠ .endOfFileToken)
    (yes : s.token ≠ k → Leads p s Q)
    (no : ∀ t, s.token = k → Grown (floor + 1) 6 s₀ t ns → Leads q t Q) :
    Leads (Parser.accept k >>= fun b => if (!b) = true then p else q) s Q :=
  g.accept hk (by simpa using no) (by simpa using yes)

theorem Grown.expect {f : Bool → Parser β} (g : Grown floor r s₀ s ns) (hk : k ≠ .endOfFileToken)
    (yes : ∀ t, s.token = k → Grown (floor + 1) 6 s₀ t ns → Leads (f true) t Q)
    (no : ∀ t, s.token ≠ k → Grown floor r s₀ t ns → t.Blamed → Leads (f false) t Q) :
    Leads (Parser.expect k >>= f) s Q := by
  apply (leads_expect g.steady hk).bind
  intro b t got
  cases b with
  | true =>
    obtain ⟨at_, y, lt⟩ := got
    exact yes t at_ (g.beyond y lt)
  | false =>
    obtain ⟨away, y, some⟩ := got
    exact no t away (g.still y) some

theorem Grown.ifExpect (g : Grown floor r s₀ s ns) (hk : k ≠ .endOfFileToken)
    (yes : ∀ t, s.token = k → Grown (floor + 1) 6 s₀ t ns → Leads p t Q)
    (no : ∀ t, s.token ≠ k → Grown floor r s₀ t ns → Leads q t Q) :
    Leads (Parser.expect k >>= fun b => if b = true then p else q) s Q :=
  g.expect hk (by simpa using yes) (by simpa using fun t away g _ => no t away g)

theorem Grown.ifNotExpect (g : Grown floor r s₀ s ns) (hk : k ≠ .endOfFileToken)
    (yes : ∀ t, s.token ≠ k → Grown floor r s₀ t ns → Leads p t Q)
    (no : ∀ t, s.token = k → Grown (floor + 1) 6 s₀ t ns → Leads q t Q) :
    Leads (Parser.expect k >>= fun b => if (!b) = true then p else q) s Q :=
  g.expect hk (by simpa using no) (by simpa using fun t away g _ => yes t away g)

/-- Goes on behind a token that is known to be there. -/
theorem Grown.passing {f : Bool → Parser β} (g : Grown floor r s₀ s ns) (at_ : s.token = k)
    (hk : k ≠ .endOfFileToken) (rest : ∀ t, Grown (floor + 1) 6 s₀ t ns → Leads (f true) t Q) :
    Leads (Parser.expect k >>= f) s Q :=
  g.expect hk (fun t _ g => rest t g) fun _ away => absurd at_ away

/-- Goes on behind a token that may be missing. -/
theorem Grown.wanting {f : Bool → Parser β} (g : Grown floor r s₀ s ns)
    (rest : ∀ b t, Grown floor r s₀ t ns → Leads (f b) t Q) :
    Leads (Parser.expect k >>= f) s Q :=
  g.on (makes_expect k s) fun b t g => rest b t (by simpa using g)

/-- Goes on behind the token, with the kind of the next one. -/
theorem Grown.pastToken {f : Kind → Parser β} (g : Grown floor r s₀ s ns)
    (more : s.token ≠ .endOfFileToken)
    (rest : ∀ t, Grown (floor + 1) 6 s₀ t ns → Leads (f t.token) t Q) :
    Leads (nextToken >>= f) s Q :=
  have taken := takes_next g.steady more
  rest (s.advance .plain) (g.beyond taken.1 taken.2)

/-- Goes on behind a report. -/
theorem Grown.reporting {f : Unit → Parser β} {message : Message} {args : List String}
    (g : Grown floor r s₀ s ns)
    (rest : ∀ t, Grown floor r s₀ t ns → t.Blamed → t.token = s.token → Leads (f ()) t Q) :
    Leads (reportHere message args >>= f) s Q := by
  refine rest _ (g.still ?_) (State.blamed_report s.tokenRange message args s) rfl
  exact yields_reportHere message args s

/-- Goes on behind a report of what lies behind the beginning. -/
theorem Grown.reportingAt {f : Unit → Parser β} {range : Range} {message : Message}
    {args : List String} (g : Grown floor r s₀ s ns) (since : Since s₀ s range)
    (rest : ∀ t, Grown floor r s₀ t ns → Leads (f ()) t Q) :
    Leads (Parser.report range message args >>= f) s Q := rest _ (g.report since message args)

/-- Some token was taken from `s` to `t`, or one of `ks` stands at `t`. -/
def Nears (ks : List Kind) (s t : State) : Prop := s.prevEnd < t.prevEnd ∨ t.token ∈ ks

/-- Goes on behind what takes a token of kind `k`, if it is there. -/
theorem Grown.nearing [Holds α] {ks : List Kind} {p : Parser α} {f : α → Parser β}
    (g : Grown floor r s₀ s ns) (near : Nears (k :: ks) s₀ s)
    (plain : ∀ k ∈ ks, k ≠ .endOfFileToken ∧ k ≠ .greaterThanToken) (made : Makes p s)
    (taken : s.token = k → Takes p s)
    (rest : ∀ a t, Grown floor r s₀ t (ns ++ held a) → Nears ks s₀ t → Leads (f a) t Q) :
    Leads (p >>= f) s Q := by
  have le := (g.yields.keeps g.begun).prevEnd
  have kept := Yields.keeps made g.steady
  apply rest _ _ (g.later made)
  rcases near with far | at_
  · exact .inl (Nat.lt_of_lt_of_le far kept.prevEnd)
  rcases List.mem_cons.mp at_ with first | other
  · exact .inl (Nat.lt_of_le_of_lt le (taken first).2)
  rcases Nat.eq_or_lt_of_le kept.prevEnd with still | lt
  · obtain ⟨more, angle⟩ := plain _ other
    rcases (Yields.stays made g.steady more still.symm).kind with same | ⟨long, _⟩
    · exact .inr (same ▸ other)
    · exact absurd long angle
  · exact .inl (Nat.lt_of_le_of_lt le lt)

theorem Grown.near {r' : Nat} (g : Grown floor r s₀ s ns) (near : Nears [] s₀ s) (h : Room r' s₀) :
    Grown (s₀.prevEnd + 1) 6 s₀ s ns :=
  have lt : s₀.prevEnd < s.prevEnd := near.resolve_right List.not_mem_nil
  ⟨g.begun, g.yields, h.behind g.yields lt, lt⟩

end Branches

/-- A token that is read again and then taken. -/
theorem takes_reread [Holds α] {p : Parser α} {r : Rereading} (jsx : r.isMarkup → s.options.isJsx)
    (h : Takes p (s.reread r)) (settled : r = .content → s.diagnostics ≠ #[]) :
    Takes (reread r >>= fun _ => p) s := ⟨.settle r jsx settled h.1 h.2, h.2⟩

section Nodes

variable [Holds α] {p : Parser α}

/-- A node without children, closed behind what was left since it was begun. -/
theorem yields_leaf {t : State} (y : Yields s t []) (kind : Kind) (detail : Detail)
    (joins : t.Joins kind (t.close kind s.nodeStart).1.range detail [])
    (formed : Formed s t kind (t.close kind s.nodeStart).1 detail []) :
    Yields s (t.close kind s.nodeStart).2 [.leaf (t.close kind s.nodeStart).1 detail] :=
  .node kind detail [] y (.refl _) formed (tiered_nil kind) joins

/-- A leaf that is the token taken. -/
theorem yields_told {t : State} {kind : Kind} {detail : Detail} (y : Yields s t [])
    (passes : Passes s t) (tells : Tells s kind detail) :
    Yields s (t.close kind s.nodeStart).2 [.leaf (t.close kind s.nodeStart).1 detail] :=
  yields_leaf y kind detail (joins_told tells _ _ _) (formed_leaf passes tells rfl)

theorem makes_takeToken (plain : s.token.isPlain = true) : Makes takeToken s :=
  yields_told (yields_advance s) (passes_advance _ s) (.sign plain)

theorem kind_takeToken (s : State) : Leads takeToken s fun n _ => n.kind = s.token := rfl

theorem takes_takeToken (h : s.Steady) (plain : s.token.isPlain = true) : Takes takeToken s :=
  ⟨makes_takeToken plain, lt_advance .plain h (Kind.more_of_isPlain plain)⟩

theorem makes_acceptToken (k : Kind) (s : State) (plain : k.isPlain = true) :
    Makes (acceptToken k) s :=
  Leads.ifAt (fun at_ => makes_takeToken (at_ ▸ plain)) fun _ => .refl s

theorem takes_acceptToken (h : s.Steady) (at_ : s.token = k) (hk : k.isPlain = true) :
    Takes (acceptToken k) s :=
  Leads.ifAt (fun _ => takes_takeToken h (isPlain_at at_ hk)) fun away => absurd at_ away

theorem yields_missing (kind : Kind) (detail : Detail) (blamed : s.Blamed)
    (other : kind.isVerbatim = false) (single : kind.isLink = false) :
    Yields s (s.closeMissing kind).2 [.leaf (s.closeMissing kind).1 detail] :=
  .missing kind detail blamed other single

/-- A token is taken, or a placeholder stands for it and it is reported missing. -/
theorem leads_expectToken (k : Kind) (s : State) (plain : k.isPlain = true) :
    Leads (expectToken k) s fun n t =>
      Yields s t [n] ∧ (s.token ≠ k → t.Blamed) := by
  refine Leads.ifAt (fun at_ => ?_) fun _ => ?_
  · exact ⟨makes_takeToken (at_ ▸ plain), fun away => absurd at_ away⟩
  have blamed := State.blamed_report s.tokenRange .expected [k.displayName] s
  have missing := yields_missing k .none blamed (Kind.isVerbatim_of_isPlain plain)
    (Kind.not_isLink_of_isPlain plain)
  exact ⟨.trans (yields_reportHere _ _ s) missing,
    fun _ => ⟨blamed.some, .inr (State.back_reportHere _ _ s)⟩⟩

theorem makes_expectToken (k : Kind) (s : State) (plain : k.isPlain = true) :
    Makes (expectToken k) s := (leads_expectToken k s plain).1

theorem makes_optionally {c : Bool} (h : c = true → Makes p s) : Makes (optionally c p) s := by
  refine Leads.ite (fun yes => ?_) fun _ => .refl s
  exact h yes

variable [Grammar] {r : Nat}

theorem makes_after (h : Room r s) (hk : k ≠ .endOfFileToken)
    (inner : ∀ {t}, Room 6 t → Makes p t) :
    Makes (after k p) s := by
  refine h.begin.accept hk (fun t _ g => ?_) fun _ => .refl s
  exact (g.makes (makes_optionally fun _ => inner g.room)).makes

end Nodes

section Inside

variable [Holds α] {p : Parser α} {f : Context → Context}

theorem makes_inContext (inner : ∀ c, Makes p (s.withContext c)) : Makes (inContext f p) s :=
  Yields.inContext _ (inner _)

omit [Holds α] in
theorem leads_inContext {P : α → State → Prop}
    (inner : ∀ c, Leads p (s.withContext c) fun a t => P a (t.withContext s.context)) :
    Leads (inContext f p) s P := inner _

theorem makes_nested [Grammar] {r : Nat} {refused : Parser α} (h : Room r s)
    (inner : Makes p (s.withDepth (s.depth + 1)))
    (outer : ∀ {t}, Room r t → t.Blamed → Makes refused t) :
    Makes (nested p refused) s := by
  unfold Makes Leads Parser.nested
  dsimp only
  split
  · exact Yields.nested inner
  · have y := yields_reportHere .nestingTooDeep [] s
    exact Yields.trans y (outer (h.later y) (State.blamed_report _ _ _ s))

omit [Holds α] in
/-- What holds at every depth. -/
theorem leads_nested {p refused : Parser α} {P : α → Prop}
    (inner : Leads p (s.withDepth (s.depth + 1)) fun a _ => P a)
    (outer : Leads refused (s.report s.tokenRange .nestingTooDeep []) fun a _ => P a) :
    Leads (nested p refused) s fun a _ => P a := by
  unfold Leads Parser.nested
  dsimp only
  split
  · exact inner
  · exact outer

/-- What an attempt finds is kept, with what is known of the state behind it. -/
theorem leads_attempt {p : Parser (Option α)} {P : State → Prop}
    (h : Leads p s.openAttempt fun o t =>
      Yields s.openAttempt t (held o) ∧ (o.isSome → P t.closeAttempt)) :
    Leads (attempt p) s fun o t => Yields s t (held o) ∧ (o.isSome → P t) := by
  unfold Leads at h ⊢
  cases ran : p.run s.openAttempt with
  | mk found t =>
    rw [ran] at h
    simp only [attempt, ran]
    cases found with
    | none => exact ⟨Yields.rolledBack h.1, fun some => (by cases some)⟩
    | some a => exact ⟨Yields.kept h.1, h.2⟩

omit [Holds α] in
/-- What is known of what an attempt finds, whatever it makes. -/
theorem found_attempt {p : Parser (Option α)} {P : α → State → Prop}
    (h : Leads p s.openAttempt fun o t => ∀ a, o = some a → P a t.closeAttempt) :
    Leads (attempt p) s fun o t => ∀ a, o = some a → P a t := by
  unfold Leads at h ⊢
  cases ran : p.run s.openAttempt with
  | mk found t =>
    rw [ran] at h
    simp only [attempt, ran]
    cases found with
    | none => exact fun _ no => (by cases no)
    | some a => exact h

theorem makes_attempt {p : Parser (Option α)} (h : Makes p s.openAttempt) : Makes (attempt p) s :=
  (leads_attempt (P := fun _ => True) ⟨h, fun _ => trivial⟩).1

end Inside

section Questions

variable {p : Parser α}

theorem asks_read (f : State → α) (s : State) : Asks (read f) s := ⟨s.trace, rfl, .refl s⟩

theorem asks_pure (a : α) (s : State) : Asks (pure a) s := ⟨s.trace, rfl, .refl s⟩

theorem asks_from {g : State → α} {f : α → Parser β} (h : Asks (f (g s)) s) :
    Asks (read g >>= f) s := h

theorem asks_bind {f : α → Parser β} (h : Asks p s)
    (rest : ∀ a trace, Asks (f a) (s.withTrace trace)) : Asks (p >>= f) s := by
  obtain ⟨trace, same, y⟩ := h
  obtain ⟨trace', same', y'⟩ := rest (p.run s).1 trace
  have ends : ((f (p.run s).1).run (p.run s).2).2 = s.withTrace trace' := by
    rw [same]
    exact same'
  exact ⟨trace', ends, Yields.trans y y'⟩

theorem asks_ite {c : Prop} [Decidable c] {q : Parser α} (yes : c → Asks p s)
    (no : ¬ c → Asks q s) : Asks (if c then p else q) s := by
  split
  · next h => exact yes h
  · next h => exact no h

theorem asks_ahead [Holds α] (h : s.Steady) (inner : Makes p s.openAttempt) : Asks (ahead p) s := by
  have back := Yields.rollback_eq inner h
  exact ⟨(p.run s.openAttempt).2.trace, back, back ▸ Yields.rolledBack inner⟩

theorem asks_aheadNext [Holds α] (h : s.Steady)
    (inner : Makes p (s.openAttempt.advance .plain)) : Asks (aheadNext p) s :=
  asks_ahead h (Yields.trans (yields_advance _) inner)

theorem asks_and {p q : Parser Bool} (h : Asks p s) (rest : ∀ trace, Asks q (s.withTrace trace)) :
    Asks (p <&&> q) s := by
  apply asks_bind h
  intro b trace
  cases b with
  | true => exact rest trace
  | false => exact asks_pure _ _

theorem asks_or {p q : Parser Bool} (h : Asks p s) (rest : ∀ trace, Asks q (s.withTrace trace)) :
    Asks (p <||> q) s := by
  apply asks_bind h
  intro b trace
  cases b with
  | true => exact asks_pure _ _
  | false => exact rest trace

theorem Parser.Asks.makes [Holds α] (h : Asks p s) (none : ∀ a : α, held a = []) : Makes p s := by
  obtain ⟨trace, same, y⟩ := h
  unfold Makes Leads
  dsimp only
  rw [same, none]
  exact y

theorem makes_read (f : State → Bool) (s : State) : Makes (read f) s := .refl s

theorem asks_nextIs (h : s.Steady) (k : Kind) : Asks (nextIs k) s :=
  asks_aheadNext h (makes_read _ _)

theorem asks_nextIsAny (h : s.Steady) (ks : List Kind) : Asks (nextIsAny ks) s :=
  asks_aheadNext h (makes_read _ _)

/-- A branch on the current token and an answer about what follows. -/
theorem Grown.ifBoth [Grammar] {f : State → Bool} {q : Parser Bool} {p p' : Parser β}
    {Q : β → State → Prop} {floor r : Nat} {s₀ : State} {ns : List Node}
    (g : Grown floor r s₀ s ns) (asks : f s = true → Asks q s)
    (yes : ∀ trace, f s = true → Grown floor r s₀ (s.withTrace trace) ns →
      Leads p (s.withTrace trace) Q)
    (no : ∀ trace, Grown floor r s₀ (s.withTrace trace) ns → Leads p' (s.withTrace trace) Q) :
    Leads ((read f <&&> q) >>= fun b => if b = true then p else p') s Q := by
  have first : Leads ((match toBool (f s) with
      | true => q
      | false => pure (f s)) >>= fun b => if b = true then p else p') s Q := by
    cases holds : f s with
    | true =>
      exact g.ask (asks holds) fun _ trace g =>
        Leads.ite (fun _ => yes trace holds g) fun _ => no trace g
    | false => exact no s.trace g
  exact first

theorem makes_pureAnd {p : Parser Bool} (b : Bool) (h : Makes p s) : Makes (pure b <&&> p) s := by
  cases b with
  | true => exact h
  | false => exact .refl s

theorem makes_pureOr {p : Parser Bool} (b : Bool) (h : Makes p s) : Makes (pure b <||> p) s := by
  cases b with
  | true => exact .refl s
  | false => exact h

end Questions

end ScriptGrammar
