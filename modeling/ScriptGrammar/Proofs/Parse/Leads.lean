import ScriptGrammar.Parse.Grammar
import ScriptGrammar.Proofs.Parse.Steady

/-!
# Following a parser

`Leads p s Q` says what `p` comes to from `s`. Its rules go through a parser as it is written.
What is carried along is `Grown`: the nodes left since a node was begun, how far the cursor has
come at least, and that the goals of the grammar may still be called. A goal may be called where
the cursor has moved on, or in place of one of a higher rank; this is what bounds the recursion.
-/

namespace ScriptGrammar

theorem Parse.Moves.context {s t : Parse.State} (m : Parse.Moves s t) : t.context = s.context := by
  induction m with
  | trans _ _ first second => exact second.trans first
  | nested _ ih | inList _ _ ih | kept _ ih | rolledBack _ ih => exact ih
  | refl | advance | reread | report | close | closeMissing | enterName | starve | checkTurn
  | inContext => rfl

namespace Parser

open Parse

variable {α β : Type} {p : Parser α} {f : α → Parser β} {s t : State} {Q : β → State → Prop}

theorem context_run (p : Parser α) (s : State) : (p.run s).2.context = s.context :=
  (p.moves s).context

/-- What a turn hands on. -/
def Turn.value : Turn α → α
  | .again a | .done a => a

def Leads (p : Parser α) (s : State) (Q : α → State → Prop) : Prop := Q (p.run s).1 (p.run s).2

namespace Leads

theorem bind {P : α → State → Prop} (h : Leads p s P) (k : ∀ a t, P a t → Leads (f a) t Q) :
    Leads (p >>= f) s Q := k _ _ h

theorem mono {P P' : α → State → Prop} (h : Leads p s P) (imp : ∀ a t, P a t → P' a t) :
    Leads p s P' := imp _ _ h

theorem and {P P' : α → State → Prop} (h : Leads p s P) (h' : Leads p s P') :
    Leads p s fun a t => P a t ∧ P' a t := ⟨h, h'⟩

/-- What holds whatever came before. -/
theorem skip (k : ∀ a t, Leads (f a) t Q) : Leads (p >>= f) s Q := k _ _

theorem pure {P : α → State → Prop} {a : α} (h : P a s) : Leads (Pure.pure a) s P := h

theorem read {g : State → α} (h : Leads (f (g s)) s Q) : Leads (Parser.read g >>= f) s Q := h

theorem here {g : State → α} : Leads (Parser.read g) s fun _ t => t = s := rfl

theorem ite {c : Prop} [Decidable c] {p q : Parser β} (yes : c → Leads p s Q)
    (no : ¬ c → Leads q s Q) : Leads (if c then p else q) s Q := by
  split
  · next h => exact yes h
  · next h => exact no h

/-- Two branches that go on alike. -/
theorem fork {q : Parser β} (mid : α → State → Prop) {f : α → Parser β}
    (branches : (∀ a t, mid a t → Leads (f a) t Q) → Leads q s Q)
    (rest : ∀ a t, mid a t → Leads (f a) t Q) : Leads q s Q := branches rest

/-- A turn that goes on must have taken something. -/
def Turned (invariant : α → State → Prop) (Q : α → State → Prop) (s : State) :
    Turn α → State → Prop
  | .again a, t => invariant a t ∧ s.prevEnd < t.prevEnd
  | .done a, t => Q a t

theorem checkTurn_of_lt {before : Nat} (h : before < s.prevEnd) : s.checkTurn before = s := by
  have late : ¬ s.prevEnd ≤ before := Nat.not_le_of_lt h
  simp [State.checkTurn, late]

/-- Turns that take tokens of a source come to an end before the bound. -/
theorem turns {body : α → Parser (Turn α)} {Q : α → State → Prop} (size : Nat)
    (invariant : α → State → Prop) (below : ∀ a t, invariant a t → t.prevEnd ≤ size)
    (turn : ∀ a t, invariant a t → Leads (body a) t (Turned invariant Q t)) (fuel : Nat) (a : α)
    (s : State) (start : invariant a s) (enough : size - s.prevEnd < fuel) :
    Q (Parser.turns body fuel a s).1 (Parser.turns body fuel a s).2 := by
  induction fuel generalizing a s with
  | zero => omega
  | succ fuel ih =>
    have step := turn a s start
    unfold Leads at step
    cases ran : (body a).run s with
    | mk x t =>
      simp only [ran] at step
      cases x with
      | again b =>
        obtain ⟨holds, lt⟩ := step
        have le := below b t holds
        simp only [Parser.turns, ran, checkTurn_of_lt lt]
        exact ih b t holds (by omega)
      | done b =>
        simp only [Parser.turns, ran]
        exact step

/-- What every turn hands on, the last one hands over. -/
theorem handed {body : α → Parser (Turn α)} {P : α → Prop} {a : α} (start : P a)
    (turn : ∀ a t, t.context = s.context → P a → Leads (body a) t fun x _ => P x.value) :
    Leads (Parser.loop a body) s fun b _ => P b := by
  have all (fuel : Nat) (a : α) (t : State) (same : t.context = s.context) (holds : P a) :
      P (Parser.turns body fuel a t).1 := by
    induction fuel generalizing a t with
    | zero => exact holds
    | succ fuel ih =>
      have step := turn a t same holds
      have kept := ((body a).context_run t).trans same
      unfold Leads at step
      cases ran : (body a).run t with
      | mk x u =>
        simp only [ran] at step kept
        cases x with
        | again b =>
          simp only [Parser.turns, ran]
          exact ih b _ kept step
        | done b =>
          simp only [Parser.turns, ran]
          exact step
  exact all _ a s rfl start

theorem loop {a : α} {body : α → Parser (Turn α)} {Q : α → State → Prop}
    (invariant : α → State → Prop)
    (below : ∀ a t, invariant a t → t.prevEnd ≤ s.scanner.source.size) (start : invariant a s)
    (turn : ∀ a t, invariant a t → Leads (body a) t (Turned invariant Q t)) :
    Leads (Parser.loop a body) s Q := by
  apply turns _ invariant below turn _ a s start
  unfold turnBound
  omega

end Leads

section Makes

variable [Holds α] [Holds β]

/-- Leaves its result. -/
def Makes (p : Parser α) (s : State) : Prop := Leads p s fun a t => Yields s t (held a)

/-- Leaves its result and takes a token at least. -/
def Takes (p : Parser α) (s : State) : Prop :=
  Leads p s fun a t => Yields s t (held a) ∧ s.prevEnd < t.prevEnd

/-- Leaves its result, and takes a token at least if there is one. -/
def TakesSome (p : Parser (Option α)) (s : State) : Prop :=
  Leads p s fun o t => Yields s t (held o) ∧ (o.isSome → s.prevEnd < t.prevEnd)

theorem Takes.makes (h : Takes p s) : Makes p s := h.1

end Makes

/-- Answers without leaving anything but a trace. -/
def Asks (p : Parser α) (s : State) : Prop :=
  ∃ trace, (p.run s).2 = s.withTrace trace ∧ Yields s (s.withTrace trace) []

end Parser

open Parse ScriptGrammar.Parser

/-- What it makes in the context `c` carries this context. -/
def Parser.Stamps {α : Type} [Holds α] (c : Context) (p : Parser α) : Prop :=
  ∀ s, s.context = c → ∀ n ∈ held (p.run s).1, n.info.flags.context = c

namespace Goal

/-- The goals that are answered by a value. -/
def isValue : Goal → Bool
  | .assignment _ | .binary _ _ | .unary | .primary | .element _ => true
  | .statement | .type | .typeOperand _ | .binding | .namespaceTail _ => false

/-- A goal may stand at the very beginning of those of a higher rank only. -/
def rank : Goal → Nat
  | .statement => 5
  | .assignment _ => 4
  | .binary _ _ => 3
  | .unary | .type => 2
  | .primary | .typeOperand _ | .binding | .element _ | .namespaceTail _ => 1

/-- Where a goal may be called: an element only at a tag. -/
def Ready : Goal → State → Prop
  | .element _, s => s.options.isJsx ∧ s.token = .lessThanToken
  | _, _ => True

/-- What is known of an answer. -/
structure Answers (g : Goal) (p : Parser Node) (s : State) : Prop where
  makes : Makes p s
  takes : ∀ b, g = .element b → Takes p s
  promises : Leads p s (g.Promises s)

end Goal

/-- A goal may be called from here on: with any rank behind the cursor, and below `rank` at it. -/
structure Room [Grammar] (rank : Nat) (s : State) : Prop where
  steady : s.Steady
  stamps : ∀ (g : Goal) (c : Context), g.isValue → Stamps c (Grammar.parse g)
  answers : ∀ (g : Goal) (t : State), t.Steady → t.options = s.options →
    t.scanner.source = s.scanner.source → s.prevEnd ≤ t.prevEnd →
    (t.prevEnd = s.prevEnd → g.rank < rank) → g.Ready t → g.Answers (Grammar.parse g) t

/-- The nodes `ns` were left from `s₀` to `s`, and the last token taken ends at `floor` or
behind it. -/
structure Grown [Grammar] (floor rank : Nat) (s₀ s : State) (ns : List Node) : Prop where
  begun : s₀.Steady
  yields : Yields s₀ s ns
  room : Room rank s
  floor : floor ≤ s.prevEnd

section Rules

variable [Grammar] {α β : Type} {floor r r' : Nat} {s₀ s t : State} {ns : List Node}

namespace Room

theorem congr (h : Room r s) (steady : t.Steady) (options : t.options = s.options)
    (source : t.scanner.source = s.scanner.source) (prevEnd : t.prevEnd = s.prevEnd) :
    Room r t := by
  refine ⟨steady, h.stamps, fun g u hu ho hs le rank ready => ?_⟩
  rw [prevEnd] at le rank
  exact h.answers g u hu (ho.trans options) (hs.trans source) le rank ready

theorem later (h : Room r s) (y : Yields s t ns) : Room r t := by
  have kept := y.keeps h.steady
  have frame := y.frame h.steady
  refine ⟨kept.steady, h.stamps, fun g u hu ho hs le rank ready => ?_⟩
  refine h.answers g u hu (ho.trans frame.options) (hs.trans frame.scanner.source)
    (Nat.le_trans kept.prevEnd le) (fun same => rank ?_) ready
  exact Nat.le_antisymm (same ▸ kept.prevEnd) le

/-- Behind a token every goal may be called. -/
theorem behind (h : Room r s) (y : Yields s t ns) (lt : s.prevEnd < t.prevEnd) : Room r' t := by
  have kept := y.keeps h.steady
  have frame := y.frame h.steady
  refine ⟨kept.steady, h.stamps, fun g u hu ho hs le _ ready => ?_⟩
  have far : s.prevEnd < u.prevEnd := Nat.lt_of_lt_of_le lt le
  exact h.answers g u hu (ho.trans frame.options) (hs.trans frame.scanner.source)
    (Nat.le_of_lt far) (fun same => absurd same (Nat.ne_of_gt far)) ready

theorem inContext (h : Room r s) (c : Context) : Room r (s.withContext c) :=
  h.congr (h.steady.inContext c) rfl rfl rfl

theorem inList (h : Room r s) (l : List ListContext) : Room r (s.withLists l) :=
  h.congr (h.steady.inList l) rfl rfl rfl

theorem nested (h : Room r s) (n : Nat) : Room r (s.withDepth n) :=
  h.congr (h.steady.nested n) rfl rfl rfl

theorem openAttempt (h : Room r s) : Room r s.openAttempt :=
  h.congr h.steady.openAttempt rfl rfl rfl

theorem traced (h : Room r s) (trace : State.Trace) : Room r (s.withTrace trace) :=
  h.congr (h.steady.traced trace) rfl rfl rfl

theorem begin (h : Room r s) : Grown s.prevEnd r s s [] := ⟨h.steady, .refl s, h, Nat.le_refl _⟩

theorem goal (h : Room r s) (g : Goal) (rank : g.rank < r) (ready : g.Ready s) :
    g.Answers (Grammar.parse g) s :=
  h.answers g s h.steady rfl rfl (Nat.le_refl _) (fun _ => rank) ready

end Room

namespace Grown

variable [Holds α] {p : Parser α} {f : α → Parser β} {Q : β → State → Prop}

theorem steady (g : Grown floor r s₀ s ns) : s.Steady := g.room.steady

/-- Counts what is taken from here on. -/
theorem rebase (g : Grown floor r s₀ s ns) : Grown s.prevEnd r s₀ s ns :=
  ⟨g.begun, g.yields, g.room, Nat.le_refl _⟩

theorem lower {low : Nat} (g : Grown floor r s₀ s ns) (le : low ≤ floor) : Grown low r s₀ s ns :=
  ⟨g.begun, g.yields, g.room, Nat.le_trans le g.floor⟩

/-- What was left can be cut out of the source. -/
theorem cuts {n : Node} (g : Grown floor r s₀ s ns) (hn : n ∈ ns) : s.Cuts n.range :=
  (g.yields.cuts g.begun _).mpr ((g.yields.keeps g.begun).cuts n hn)

/-- What was left may be reported. -/
theorem since {n : Node} (g : Grown floor r s₀ s ns) (hn : n ∈ ns) : Since s₀ s n.range :=
  ⟨g.cuts hn, (g.yields.keeps g.begun).behind n hn⟩

/-- Reports what lies behind the beginning. -/
theorem report {range : Range} (g : Grown floor r s₀ s ns) (since : Since s₀ s range)
    (message : Message) (args : List String) :
    Grown floor r s₀ (s.report range message args) ns := by
  have y := Yields.report range message args g.yields (.inr since)
  exact ⟨g.begun, y, g.room.congr (y.keeps g.begun).steady rfl rfl rfl, g.floor⟩

theorem drop {ms : List Node} (g : Grown floor r s₀ s ns) (sub : ms.Sublist ns) :
    Grown floor r s₀ s ms := ⟨g.begun, g.yields.drop sub, g.room, g.floor⟩

theorem later {ms : List Node} (g : Grown floor r s₀ s ns) (y : Yields s t ms) :
    Grown floor r s₀ t (ns ++ ms) :=
  ⟨g.begun, g.yields.trans y, g.room.later y, Nat.le_trans g.floor (y.keeps g.steady).prevEnd⟩

theorem behind {ms : List Node} (g : Grown floor r s₀ s ns) (y : Yields s t ms)
    (lt : s.prevEnd < t.prevEnd) : Grown (floor + 1) r' s₀ t (ns ++ ms) :=
  ⟨g.begun, g.yields.trans y, g.room.behind y lt, Nat.lt_of_le_of_lt g.floor lt⟩

theorem still (g : Grown floor r s₀ s ns) (y : Yields s t []) : Grown floor r s₀ t ns :=
  List.append_nil ns ▸ g.later y

theorem beyond (g : Grown floor r s₀ s ns) (y : Yields s t []) (lt : s.prevEnd < t.prevEnd) :
    Grown (floor + 1) r' s₀ t ns := List.append_nil ns ▸ g.behind y lt

theorem makes (g : Grown floor r s₀ s ns) (h : Makes p s) :
    Leads p s fun a t => Grown floor r s₀ t (ns ++ held a) := g.later h

theorem takes (g : Grown floor r s₀ s ns) (h : Takes p s) :
    Leads p s fun a t => Grown (floor + 1) 6 s₀ t (ns ++ held a) := g.behind h.1 h.2

/-- Goes on behind what is made. -/
theorem on (g : Grown floor r s₀ s ns) (h : Makes p s)
    (k : ∀ a t, Grown floor r s₀ t (ns ++ held a) → Leads (f a) t Q) : Leads (p >>= f) s Q :=
  (g.makes h).bind k

/-- Goes on behind what is made, with what is known of it. -/
theorem onKnown {P : α → Prop} (g : Grown floor r s₀ s ns) (h : Makes p s)
    (known : Leads p s fun a _ => P a)
    (k : ∀ a t, Grown floor r s₀ t (ns ++ held a) → P a → Leads (f a) t Q) :
    Leads (p >>= f) s Q := k _ _ (g.later h) known

/-- Goes on behind what is taken. -/
theorem past (g : Grown floor r s₀ s ns) (h : Takes p s)
    (k : ∀ a t, Grown (floor + 1) 6 s₀ t (ns ++ held a) → Leads (f a) t Q) :
    Leads (p >>= f) s Q := (g.takes h).bind k

omit [Holds α] in
/-- Goes on with the answer, from the same state but for the trace. -/
theorem answer (g : Grown floor r s₀ s ns) (h : Asks p s)
    (k : ∀ trace, Grown floor r s₀ (s.withTrace trace) ns →
      Leads (f (p.run s).1) (s.withTrace trace) Q) : Leads (p >>= f) s Q := by
  obtain ⟨trace, same, y⟩ := h
  have rest := k trace (g.still y)
  rw [← same] at rest
  exact rest

omit [Holds α] in
theorem ask (g : Grown floor r s₀ s ns) (h : Asks p s)
    (k : ∀ a trace, Grown floor r s₀ (s.withTrace trace) ns → Leads (f a) (s.withTrace trace) Q) :
    Leads (p >>= f) s Q := g.answer h (k _)

/-- Gives back what was left, or some of it. -/
theorem gives {a : α} (g : Grown floor r s₀ s ns) (fits : (held a).Sublist ns) :
    Leads (pure a) s fun a t => Grown floor r s₀ t (held a) := g.drop fits

/-- Closes a node over what was left since it was begun. -/
theorem close {info : NodeInfo} {slots : List Slot} (g : Grown floor r s₀ s ns) (kind : Kind)
    (detail : Detail) (fits : (slots.flatMap held).Sublist ns)
    (marked : Marked (s.close kind s₀.nodeStart).1 info)
    (tiered : Tiered kind (slots.flatMap Slot.nodes))
    (joins : s.Joins kind (s.close kind s₀.nodeStart).1.range detail
      (slots.flatMap Slot.nodes))
    (formed : Formed s₀ s kind info detail slots) :
    Grown floor r s₀ (s.close kind s₀.nodeStart).2 [.ofSlots info detail slots] := by
  have y := Yields.node kind detail slots (g.yields.drop fits) marked formed tiered
    (marked.range ▸ joins)
  exact ⟨g.begun, y, g.room.congr (y.keeps g.begun).steady rfl rfl rfl, g.floor⟩

/-- Closes a node around the only one left. -/
theorem around {first : Node} {slots : List Slot} (g : Grown floor r s₀ s [first]) (kind : Kind)
    (fits : slots.flatMap held = [first])
    (tiered : Tiered kind (slots.flatMap Slot.nodes))
    (joins : s.Joins kind (s.close kind (s.nodeStartAt first.info)).1.range .none
      (slots.flatMap Slot.nodes))
    (formed : Formed s₀ s kind (s.close kind (s.nodeStartAt first.info)).1 .none slots) :
    Grown floor r s₀ (s.close kind (s.nodeStartAt first.info)).2
      [.ofSlots (s.close kind (s.nodeStartAt first.info)).1 .none slots] := by
  have y := Yields.around kind slots g.yields fits formed tiered joins
  exact ⟨g.begun, y, g.room.congr (y.keeps g.begun).steady rfl rfl rfl, g.floor⟩

variable {kind : Kind} {detail : Detail} {slots : List Slot}

theorem build (g : Grown floor r s₀ s ns) (fits : (slots.flatMap held).Sublist ns)
    (tiered : Tiered kind (slots.flatMap Slot.nodes))
    (joins : s.Joins kind (s.close kind s₀.nodeStart).1.range .none
      (slots.flatMap Slot.nodes))
    (formed : Formed s₀ s kind (s.close kind s₀.nodeStart).1 .none slots) :
    Leads (build kind s₀.nodeStart slots) s fun n t => Grown floor r s₀ t (held n) :=
  g.close kind .none fits (.refl _) tiered joins formed

theorem buildWith (g : Grown floor r s₀ s ns) (fits : (slots.flatMap held).Sublist ns)
    (tiered : Tiered kind (slots.flatMap Slot.nodes))
    (joins : s.Joins kind (s.close kind s₀.nodeStart).1.range detail
      (slots.flatMap Slot.nodes))
    (formed : Formed s₀ s kind (s.close kind s₀.nodeStart).1 detail slots) :
    Leads (buildWith kind s₀.nodeStart detail slots) s fun n t => Grown floor r s₀ t (held n) :=
  g.close kind detail fits (.refl _) tiered joins formed

/-- Closes a node of which nothing is asked. -/
theorem buildWithFree (g : Grown floor r s₀ s ns) (fits : (slots.flatMap held).Sublist ns)
    (free : kind.isFree = true) (bare : slotsAs .modifiers slots = []) :
    Leads (Parser.buildWith kind s₀.nodeStart detail slots) s fun n t =>
      Grown floor r s₀ t (held n) :=
  have lone := Kind.isBracketing_of_isFree free
  g.buildWith fits (tiered_of_isBracketing lone _) (joins_of_isBracketing lone _ _ _ _)
    (formed_of_isFree free (by rw [bare]; rfl))

theorem buildFree (g : Grown floor r s₀ s ns) (fits : (slots.flatMap held).Sublist ns)
    (free : kind.isFree = true) (bare : slotsAs .modifiers slots = []) :
    Leads (Parser.build kind s₀.nodeStart slots) s fun n t => Grown floor r s₀ t (held n) :=
  g.buildWithFree fits free bare

/-- Closes a node over what was read in brackets. -/
theorem buildBracketed (g : Grown floor r s₀ s ns) (fits : (slots.flatMap held).Sublist ns)
    (bracketed : Bracketed kind (slots.flatMap Slot.nodes))
    (lone : kind.isBracketing = true) (bare : slotsAs .modifiers slots = [])
    (single : kind.isLink = false) :
    Leads (Parser.build kind s₀.nodeStart slots) s fun n t => Grown floor r s₀ t (held n) :=
  g.build fits (tiered_of_isBracketing lone _) (joins_of_isBracketing lone _ _ _ _)
    (formed_of_isBracketing lone (by rw [bare]; rfl) bracketed
      fun link => by rw [single] at link; cases link)

end Grown

namespace Parser.Leads

variable [Holds α] {p : Parser α}

theorem makes (h : Leads p s fun a t => Grown floor r s₀ t (held a)) :
    Leads p s fun a t => Yields s₀ t (held a) := h.yields

theorem takes (h : Leads p s fun a t => Grown floor r s₀ t (held a)) (lt : s₀.prevEnd < floor) :
    Leads p s fun a t => Yields s₀ t (held a) ∧ s₀.prevEnd < t.prevEnd :=
  ⟨h.yields, Nat.lt_of_lt_of_le lt h.floor⟩

end Parser.Leads

/-- What one turn of a loop comes to: the nodes since `s₀` are those of the next turn, which may
count on `keep`, and the last turn ends with `finish`. -/
def GrowsWith (s₀ : State) (hold : α → List Node) (keep finish : α → State → Prop) (s : State) :
    Turn α → State → Prop :=
  Leads.Turned (fun a t => Yields s₀ t (hold a) ∧ keep a t)
    (fun a t => Yields s₀ t (hold a) ∧ s.prevEnd ≤ t.prevEnd ∧ finish a t) s

def Grows (s₀ : State) (hold : α → List Node) : State → Turn α → State → Prop :=
  GrowsWith s₀ hold (fun _ _ => True) fun _ _ => True

variable {hold : α → List Node}

theorem Grown.again {a : α} (g : Grown floor r s₀ t (hold a)) (lt : s.prevEnd < floor) :
    Leads (pure (.again a)) t (Grows s₀ hold s) :=
  ⟨⟨g.yields, trivial⟩, Nat.lt_of_lt_of_le lt g.floor⟩

theorem Grown.done {a : α} (g : Grown floor r s₀ t (hold a)) (le : s.prevEnd ≤ floor) :
    Leads (pure (.done a)) t (Grows s₀ hold s) := ⟨g.yields, Nat.le_trans le g.floor, trivial⟩

/-- Room is left wherever a parse from the same beginning comes to further on. -/
theorem Grown.along {ms : List Node} (g : Grown floor r s₀ s ns) (y : Yields s₀ t ms)
    (le : s.prevEnd ≤ t.prevEnd) : Grown floor r s₀ t ms := by
  have before := g.yields.frame g.begun
  have behind := y.frame g.begun
  have options : t.options = s.options := behind.options.trans before.options.symm
  have source : t.scanner.source = s.scanner.source :=
    behind.scanner.source.trans before.scanner.source.symm
  refine ⟨g.begun, y,
    ⟨(y.keeps g.begun).steady, g.room.stamps, fun goal u hu ho hs far rank ready => ?_⟩,
    Nat.le_trans g.floor le⟩
  refine g.room.answers goal u hu (ho.trans options) (hs.trans source) (Nat.le_trans le far)
    (fun same => rank ?_) ready
  exact Nat.le_antisymm (same ▸ le) far

/-- A loop whose every turn takes something. -/
theorem Grown.loopWith (hold : α → List Node) (keep finish : α → State → Prop) {a : α}
    {body : α → Parser (Turn α)} (g : Grown floor r s₀ s (hold a)) (start : keep a s)
    (turn : ∀ a t, Grown t.prevEnd r s₀ t (hold a) → floor ≤ t.prevEnd → keep a t →
      Leads (body a) t (GrowsWith s₀ hold keep finish t)) :
    Leads (Parser.loop a body) s fun b t => Grown floor r s₀ t (hold b) ∧ finish b t := by
  refine Leads.loop (fun b t => Grown floor r s₀ t (hold b) ∧ keep b t) (fun b t h => ?_)
    ⟨g, start⟩ fun b t h => ?_
  · have before := g.yields.frame g.begun
    have behind := h.1.yields.frame g.begun
    rw [before.scanner.source, ← behind.scanner.source]
    exact h.1.steady.prevEnd_le_size
  · apply (turn b t h.1.rebase h.1.floor h.2).mono
    intro x u turned
    cases x with
    | again c =>
      obtain ⟨⟨y, kept⟩, lt⟩ := turned
      exact ⟨⟨h.1.along y (Nat.le_of_lt lt), kept⟩, lt⟩
    | done c =>
      obtain ⟨y, le, ended⟩ := turned
      exact ⟨h.1.along y le, ended⟩

theorem Grown.loop (hold : α → List Node) {a : α} {body : α → Parser (Turn α)}
    (g : Grown floor r s₀ s (hold a))
    (turn : ∀ a t, Grown t.prevEnd r s₀ t (hold a) → Leads (body a) t (Grows s₀ hold t)) :
    Leads (Parser.loop a body) s fun b t => Grown floor r s₀ t (hold b) :=
  (g.loopWith hold _ _ trivial fun a t g _ _ => turn a t g).mono fun _ _ h => h.1

end Rules
end ScriptGrammar
