import ScriptGrammar.Parse.Document
import ScriptGrammar.Proofs.Parse.Openers
import ScriptGrammar.Proofs.Parse.Steady

/-!
# Two parses of one source under different options

The options may differ in the variant, or in the switches, which are then all off in the first
parse. Two runs of a parser, from states that differ in the options alone, should give the same
result and leave states that differ in the options alone. For the variant it is so where no `<` is
written, since only there the variant is asked for. Where a switch is asked for, the first parse
reports something that the switch forgives, and that excuses the second one. In an attempt that is
given up the report is taken back, but not from the list of all that was ever reported; and without
braces no attempt comes to a switch. A parser that does the same or is excused is indifferent to
the change if this may be said inside an attempt, and lenient if only outside of one. Both are
stated of a parser once and found for a composed one along its binds, branches and loops; the
search for them is the instance search.
-/

namespace ScriptGrammar

open Parse ScriptGrammar.Parser

-- A production is one bind after another, and each is a step of the search.
set_option synthInstance.maxSize 20000
set_option synthInstance.maxHeartbeats 200000

variable {α β : Type}

/-- A switch forgives it: a semicolon, the parenthesis of a condition or a handler is missing. -/
def Diagnostic.isForgivable (d : Diagnostic) : Bool :=
  match d.message with
  | .expected => d.args == [Kind.displayName .semicolonToken] ||
      d.args == [Kind.displayName .openParenToken]
  | .unexpectedWord | .catchOrFinallyExpected => true
  | _ => false

/-- Something was reported, at some time, that a switch forgives. -/
def Parse.State.Forgivable (s : State) : Prop := ∃ d ∈ s.reports, d.isForgivable

/-- Something was reported that a switch forgives, and has not been taken back. -/
def Parse.State.Lacks (s : State) : Prop := s.diagnostics ≠ #[] ∧ s.Forgivable

theorem Parse.State.Forgivable.moves {s t : State} (h : s.Forgivable) (frame : Frame s t) :
    t.Forgivable := by
  obtain ⟨d, hd, forgivable⟩ := h
  obtain ⟨more, grown⟩ := frame.reports
  exact ⟨d, grown ▸ Array.mem_append_left _ hd, forgivable⟩

theorem Parse.State.Lacks.moves {s t : State} (h : s.Lacks) (frame : Frame s t) : t.Lacks :=
  ⟨State.ne_empty_of_append frame.diagnostics h.1, h.2.moves frame⟩

/-- What the options of two parses may differ in. -/
inductive Change where
  | variant
  /-- The switches, none of them on in the first parse, in a source with braces or without. -/
  | switches (braces : Bool)

namespace Change

/-- These characters are not in the source. -/
def openers : Change → List Char
  | .variant => ['<']
  | .switches false => ['\x7b']
  | .switches true => []

/-- The options of the first parse and of the second. -/
def Relates : Change → Options → Options → Prop
  | .variant, o, o' => o' = { o with variant := o'.variant }
  | .switches _, o, o' => o = { variant := o'.variant }

/-- What the first parse has come to when the second need not do the same, inside an attempt or
outside. -/
inductive Excuses : Change → (inside : Bool) → State → Prop where
  | reported {s} : s.diagnostics ≠ #[] → Excuses (.switches false) false s
  | forgivable {inside s} : s.Forgivable → Excuses (.switches true) inside s

namespace Excuses

variable {ch : Change} {within : Bool} {s t : State}

theorem congr (h : ch.Excuses within s) (diagnostics : t.diagnostics = s.diagnostics)
    (reports : t.reports = s.reports) : ch.Excuses within t := by
  cases h with
  | reported some => exact .reported (diagnostics ▸ some)
  | forgivable found =>
    obtain ⟨d, hd, forgivable⟩ := found
    exact .forgivable ⟨d, reports ▸ hd, forgivable⟩

theorem moves (h : ch.Excuses within s) (frame : Frame s t) : ch.Excuses within t := by
  cases h with
  | reported some => exact .reported (State.ne_empty_of_append frame.diagnostics some)
  | forgivable found => exact .forgivable (found.moves frame)

/-- What excuses inside an attempt is not taken back with it. -/
theorem rollback (h : ch.Excuses true t) : ch.Excuses true (t.rollback s.checkpoint) := by
  cases h with
  | forgivable found => exact .forgivable found

/-- Inside an attempt less is excused. -/
theorem outside (h : ch.Excuses true s) : ch.Excuses false s := by
  cases h with
  | forgivable found => exact .forgivable found

/-- But for the switches in a source without braces, no less. -/
theorem inside (loose : ch ≠ .switches false) (h : ch.Excuses false s) : ch.Excuses true s := by
  cases h with
  | reported => exact absurd rfl loose
  | forgivable found => exact .forgivable found

theorem of_lacks {braces : Bool} (h : s.Lacks) : (Change.switches braces).Excuses false s := by
  cases braces with
  | false => exact .reported h.1
  | true => exact .forgivable h.2

end Excuses
end Change

variable {ch : Change} {inside : Bool} {s t : State} {o : Options}

namespace Parser

theorem run_bind (p : Parser α) (f : α → Parser β) (s : State) :
    (p >>= f).run s = (f (p.run s).1).run (p.run s).2 := rfl

theorem run_or {p q : Parser Bool} (h : p.run s = (false, t)) : (p <||> q).run s = q.run t := by
  show (orM p q).run s = _
  unfold orM
  rw [run_bind, h]
  rfl

theorem run_accept {k : Kind} (missing : s.token ≠ k) : (accept k).run s = (false, s) := by
  show (if s.token == k then _ else _ : Parser Bool).run s = _
  rw [beq_false_of_ne missing]
  rfl

theorem run_expect {k : Kind} (missing : s.token ≠ k) :
    (expect k).run s = (false, s.report s.tokenRange .expected [k.displayName]) := by
  unfold expect
  rw [run_bind, run_accept missing]
  rfl

theorem lacks_report {range : Range} {message : Message} {args : List String}
    (forgivable : (⟨range, message, args⟩ : Diagnostic).isForgivable) :
    (s.report range message args).Lacks :=
  ⟨State.report_ne_empty _ _ _ s, _, Array.mem_push_self, forgivable⟩

theorem lacks_expect {k : Kind} (missing : s.token ≠ k)
    (forgivable : k = .semicolonToken ∨ k = .openParenToken) : ((expect k).run s).2.Lacks := by
  rw [run_expect missing]
  refine lacks_report ?_
  rcases forgivable with rfl | rfl
  · rfl
  · rfl

end Parser

/-- The same state in a parse with other options. -/
def Parse.State.withOptions (s : State) (o : Options) : State := { s with options := o }

/-- The state belongs to the first of two parses, and `o` are the options of the second. -/
structure Parse.State.Twin (ch : Change) (s : State) (o : Options) : Prop where
  clear : s.Clear
  source : s.scanner.source.Avoids ch.openers
  token : s.token.Avoids ch.openers
  options : ch.Relates s.options o

namespace Parse.State.Twin

theorem moves (h : s.Twin ch o) (m : Moves s t) : t.Twin ch o := by
  have frame := m.frame h.clear
  have template : '\x60' ∈ ch.openers → '\x7d' ∈ ch.openers := by
    rcases ch with _ | _ | _ <;> decide
  exact ⟨frame.clear, frame.scanner.source ▸ h.source,
    m.avoids h.clear template h.source h.token, frame.options ▸ h.options⟩

theorem congr (h : s.Twin ch o) (scanner : t.scanner = s.scanner)
    (options : t.options = s.options) : t.Twin ch o := by
  obtain ⟨⟨sound, quiet⟩, source, token, relates⟩ := h
  refine ⟨⟨?_, ?_⟩, ?_, ?_, options ▸ relates⟩ <;> simp only [State.token, scanner]
  all_goals assumption

theorem withContext (h : s.Twin ch o) {c : Context} : (s.withContext c).Twin ch o :=
  h.congr rfl rfl

theorem withLists (h : s.Twin ch o) {l : List ListContext} : (s.withLists l).Twin ch o :=
  h.congr rfl rfl

theorem withDepth (h : s.Twin ch o) {n : Nat} : (s.withDepth n).Twin ch o := h.congr rfl rfl

theorem openAttempt (h : s.Twin ch o) : s.openAttempt.Twin ch o := h.congr rfl rfl

theorem excused (h : s.Twin ch o) (m : Moves s t) (excuse : ch.Excuses inside s) :
    ch.Excuses inside t := excuse.moves (m.frame h.clear)

/-- What is missing stays so. -/
theorem lacks_bind (h : s.Twin ch o) {p : Parser α} {f : α → Parser β}
    (lacks : (p.run s).2.Lacks) : ((p >>= f).run s).2.Lacks :=
  lacks.moves (((f (p.run s).1).moves (p.run s).2).frame (h.moves (p.moves s)).clear)

theorem sameSwitches (h : s.Twin .variant o) : o = { s.options with variant := o.variant } :=
  h.options

theorem strict {braces : Bool} (h : s.Twin (.switches braces) o) :
    s.options = { variant := o.variant } := h.options

theorem ne_angle (h : s.Twin .variant o) : s.token ≠ .lessThanToken := by
  intro at_
  exact h.token '<' (by decide) (by rw [at_]; rfl)

theorem ne_brace (h : s.Twin (.switches false) o) : s.token ≠ .openBraceToken := by
  intro at_
  exact h.token '\x7b' (by decide) (by rw [at_]; rfl)

end Parse.State.Twin

/-- What is looked at of the state does not depend on the options. -/
class Unseen (f : State → α) : Prop where
  same (s : State) (o : Options) : f (s.withOptions o) = f s

/-- From `s` on, `p` does the same with the options `o`. -/
def Parser.Agrees (p : Parser α) (s : State) (o : Options) : Prop :=
  p.run (s.withOptions o) = ((p.run s).1, (p.run s).2.withOptions o)

/-- From `s` on, `p` does the same with the options `o`, or is excused. -/
def Parser.Complies (ch : Change) (inside : Bool) (p : Parser α) (s : State) (o : Options) : Prop :=
  p.Agrees s o ∨ ch.Excuses inside (p.run s).2

/-- The change makes no difference to the parser, or it is excused. -/
class Compliant (ch : Change) (inside : Bool) (p : Parser α) : Prop where
  complies {s : State} {o : Options} : s.Twin ch o → p.Complies ch inside s o

/-- The parser may stand in an attempt. -/
abbrev Indifferent (ch : Change) (p : Parser α) : Prop := Compliant ch true p

/-- The parser may stand outside of attempts. -/
abbrev Lenient (ch : Change) (p : Parser α) : Prop := Compliant ch false p

namespace Unseen

instance scanner : Unseen fun s : State => s.scanner := ⟨fun _ _ => rfl⟩
instance token : Unseen fun s : State => s.token := ⟨fun _ _ => rfl⟩
instance tokenPos : Unseen fun s : State => s.tokenPos := ⟨fun _ _ => rfl⟩
instance tokenRange : Unseen fun s : State => s.tokenRange := ⟨fun _ _ => rfl⟩
instance onNewLine : Unseen fun s : State => s.onNewLine := ⟨fun _ _ => rfl⟩
instance context : Unseen fun s : State => s.context := ⟨fun _ _ => rfl⟩
instance lists : Unseen fun s : State => s.lists := ⟨fun _ _ => rfl⟩
instance diagnostics : Unseen fun s : State => s.diagnostics := ⟨fun _ _ => rfl⟩
instance nodeStart : Unseen fun s : State => s.nodeStart := ⟨fun _ _ => rfl⟩
instance nodeStartAt (first : NodeInfo) : Unseen fun s : State => s.nodeStartAt first :=
  ⟨fun _ _ => rfl⟩
instance atIdentifier : Unseen fun s : State => s.atIdentifier := ⟨fun _ _ => rfl⟩
instance atSemicolon : Unseen fun s : State => s.atSemicolon := ⟨fun _ _ => rfl⟩
instance atLiteralPropertyName : Unseen fun s : State => s.atLiteralPropertyName :=
  ⟨fun _ _ => rfl⟩
instance atBinding : Unseen fun s : State => s.atBinding := ⟨fun _ _ => rfl⟩
instance atHeritage : Unseen fun s : State => s.atHeritage := ⟨fun _ _ => rfl⟩
instance endsList (c : ListContext) : Unseen fun s : State => s.endsList c := ⟨fun _ _ => rfl⟩

instance const (a : α) : Unseen fun _ : State => a := ⟨fun _ _ => rfl⟩

instance (priority := low) comp (g : β → α) (f : State → β) [h : Unseen f] :
    Unseen fun s => g (f s) := ⟨fun s o => congrArg g (h.same s o)⟩

section

variable {f g : State → Bool} [hf : Unseen f] [hg : Unseen g]

instance and : Unseen fun s => f s && g s := ⟨fun s o => by rw [hf.same, hg.same]⟩

instance or : Unseen fun s => f s || g s := ⟨fun s o => by rw [hf.same, hg.same]⟩

end

section

variable [BEq β] {f g : State → β} [hf : Unseen f] [hg : Unseen g]

instance beq : Unseen fun s => f s == g s := ⟨fun s o => by rw [hf.same, hg.same]⟩

instance bne : Unseen fun s => f s != g s := ⟨fun s o => by rw [hf.same, hg.same]⟩

end

instance lt (n : Nat) (f : State → Nat) [h : Unseen f] : Unseen fun s => decide (n < f s) :=
  ⟨fun s o => by rw [h.same]⟩

end Unseen

namespace Parser.Agrees

variable {p : Parser α}

theorem bind {f : α → Parser β} (h : p.Agrees s o) (k : (f (p.run s).1).Agrees (p.run s).2 o) :
    (p >>= f).Agrees s o := by
  show (f (p.run (s.withOptions o)).1).run (p.run (s.withOptions o)).2 = _
  rw [h]
  exact k

theorem read {f : State → α} [h : Unseen f] : (Parser.read f).Agrees s o :=
  congrArg (·, s.withOptions o) (h.same s o)

theorem inContext {f : Context → Context} (h : p.Agrees (s.withContext (f s.context)) o) :
    (Parser.inContext f p).Agrees s o := by
  show (p.run ((s.withContext (f s.context)).withOptions o)).map id (·.withContext s.context) = _
  rw [h]
  rfl

theorem inList {c : ListContext} (h : p.Agrees (s.withLists (s.lists.insert c)) o) :
    (Parser.inList c p).Agrees s o := by
  show (p.run ((s.withLists (s.lists.insert c)).withOptions o)).map id (·.withLists s.lists) = _
  rw [h]
  rfl

theorem ahead (h : p.Agrees s.openAttempt o) : (Parser.ahead p).Agrees s o := by
  show (p.run (s.openAttempt.withOptions o)).map id (·.rollback s.checkpoint) = _
  rw [h]
  rfl

theorem attempt {p : Parser (Option α)} (h : p.Agrees s.openAttempt o) :
    (Parser.attempt p).Agrees s o := by
  have same : p.run (s.withOptions o).openAttempt = _ := h
  simp only [Agrees, Parser.attempt, same]
  rcases p.run s.openAttempt with ⟨_ | _, t⟩ <;> rfl

end Parser.Agrees

namespace Parser.Complies

variable {p : Parser α}

theorem bind {f : α → Parser β} (twin : s.Twin ch o) (h : p.Complies ch inside s o)
    (k : (f (p.run s).1).Complies ch inside (p.run s).2 o) :
    (p >>= f).Complies ch inside s o := by
  rcases h with agrees | excuse
  · exact k.imp_left agrees.bind
  · exact .inr ((twin.moves (p.moves s)).excused ((f _).moves _) excuse)

theorem step {f : α → Parser β} (twin : s.Twin ch o) (h : p.Complies ch inside s o)
    (k : ∀ a, Compliant ch inside (f a)) : (p >>= f).Complies ch inside s o :=
  h.bind twin ((k _).complies (twin.moves (p.moves s)))

theorem read {f : State → α} [Unseen f] {g : α → Parser β}
    (k : (g (f s)).Complies ch inside s o) : (Parser.read f >>= g).Complies ch inside s o :=
  k.imp_left (Agrees.bind .read)

theorem nested {q : Parser α}
    (h : s.depth < maxDepth → p.Complies ch inside (s.withDepth (s.depth + 1)) o)
    (k : q.Complies ch inside (s.report s.tokenRange .nestingTooDeep []) o) :
    (Parser.nested p q).Complies ch inside s o := by
  by_cases shallow : s.depth < maxDepth
  · have run (s : State) (h : s.depth < maxDepth) : (Parser.nested p q).run s =
        (p.run (s.withDepth (s.depth + 1))).map id (·.withDepth s.depth) := if_pos h
    rw [Complies, Agrees, run s shallow, run (s.withOptions o) shallow]
    refine (h shallow).imp (fun agrees => ?_) fun excuse => excuse.congr rfl rfl
    show (p.run ((s.withDepth (s.depth + 1)).withOptions o)).map id (·.withDepth s.depth) = _
    rw [agrees]
    rfl
  · have run (s : State) (h : ¬ s.depth < maxDepth) : (Parser.nested p q).run s =
        q.run (s.report s.tokenRange .nestingTooDeep []) := if_neg h
    rw [Complies, Agrees, run s shallow, run (s.withOptions o) shallow]
    exact k

theorem ahead (h : p.Complies ch true s.openAttempt o) :
    (Parser.ahead p).Complies ch true s o := h.imp .ahead .rollback

theorem attempt {p : Parser (Option α)} (h : p.Complies ch true s.openAttempt o) :
    (Parser.attempt p).Complies ch true s o := by
  refine h.imp .attempt fun excuse => ?_
  simp only [Parser.attempt]
  revert excuse
  rcases p.run s.openAttempt with ⟨_ | a, t⟩
  · exact .rollback
  · exact fun excuse => excuse.congr rfl rfl

end Parser.Complies

namespace Compliant

instance pure (a : α) : Compliant ch inside (Pure.pure a : Parser α) := ⟨fun _ => .inl rfl⟩

instance read (f : State → α) [Unseen f] : Compliant ch inside (Parser.read f) :=
  ⟨fun _ => .inl .read⟩

theorem step {p : Parser α} {f : α → Parser β} (h : Compliant ch inside p)
    (k : ∀ a, Compliant ch inside (f a)) : Compliant ch inside (p >>= f) :=
  ⟨fun twin => .step twin (h.complies twin) k⟩

instance bind (p : Parser α) (f : α → Parser β) [Compliant ch inside p]
    [∀ a, Compliant ch inside (f a)] : Compliant ch inside (p >>= f) := step ‹_› ‹_›

instance ite (c : Prop) [Decidable c] (p q : Parser α) [hp : Compliant ch inside p]
    [hq : Compliant ch inside q] : Compliant ch inside (if c then p else q) := by
  split
  · exact hp
  · exact hq

instance or (p q : Parser Bool) [h : Compliant ch inside p] [k : Compliant ch inside q] :
    Compliant ch inside (p <||> q) := by
  refine step h fun b => ?_
  cases b with
  | true => exact pure true
  | false => exact k

instance and (p q : Parser Bool) [h : Compliant ch inside p] [k : Compliant ch inside q] :
    Compliant ch inside (p <&&> q) := by
  refine step h fun b => ?_
  cases b with
  | true => exact k
  | false => exact pure false

instance advance (r : Reading) : Compliant ch inside (Parser.advance r) := ⟨fun _ => .inl rfl⟩

instance reread (r : Rereading) : Compliant ch inside (Parser.reread r) := ⟨fun _ => .inl rfl⟩

instance report (range : Range) (message : Message) (args : List String) :
    Compliant ch inside (Parser.report range message args) := ⟨fun _ => .inl rfl⟩

instance close (kind : Kind) (start : NodeStart) : Compliant ch inside (Parser.close kind start) :=
  ⟨fun _ => .inl rfl⟩

instance closeMissing (kind : Kind) : Compliant ch inside (Parser.closeMissing kind) :=
  ⟨fun _ => .inl rfl⟩

instance enterName (name : String) : Compliant ch inside (Parser.enterName name) :=
  ⟨fun _ => .inl rfl⟩

instance starve : Compliant ch inside Parser.starve := ⟨fun _ => .inl rfl⟩

instance delay (p : Unit → Parser α) [h : Compliant ch inside (p ())] :
    Compliant ch inside (Parser.delay p) := ⟨h.complies⟩

instance inContext (f : Context → Context) (p : Parser α) [h : Compliant ch inside p] :
    Compliant ch inside (Parser.inContext f p) :=
  ⟨fun twin => (h.complies twin.withContext).imp .inContext fun excuse => excuse.congr rfl rfl⟩

instance inList (c : ListContext) (p : Parser α) [h : Compliant ch inside p] :
    Compliant ch inside (Parser.inList c p) :=
  ⟨fun twin => (h.complies twin.withLists).imp .inList fun excuse => excuse.congr rfl rfl⟩

instance nested (p q : Parser α) [h : Compliant ch inside p] [k : Compliant ch inside q] :
    Compliant ch inside (Parser.nested p q) :=
  ⟨fun {s _} twin => .nested (fun _ => h.complies twin.withDepth)
    (k.complies (twin.moves (.report _ _ _ s)))⟩

instance ahead (p : Parser α) [h : Indifferent ch p] : Indifferent ch (Parser.ahead p) :=
  ⟨fun twin => .ahead (h.complies twin.openAttempt)⟩

instance attempt (p : Parser (Option α)) [h : Indifferent ch p] :
    Indifferent ch (Parser.attempt p) := ⟨fun twin => .attempt (h.complies twin.openAttempt)⟩

theorem turns {body : α → Parser (Turn α)} (h : ∀ a, Compliant ch inside (body a)) (fuel : Nat)
    (a : α) (twin : s.Twin ch o) : Parser.turns body fuel a (s.withOptions o) =
      ((Parser.turns body fuel a s).1, (Parser.turns body fuel a s).2.withOptions o) ∨
    ch.Excuses inside (Parser.turns body fuel a s).2 := by
  induction fuel generalizing a s with
  | zero => exact .inl rfl
  | succ fuel ih =>
    have moves := (body a).moves s
    have complies := (h a).complies twin
    simp only [Parser.Complies, Parser.Agrees] at complies
    simp only [Parser.turns]
    cases ran : (body a).run s with
    | mk turn t =>
      rw [ran] at moves complies
      have behind := twin.moves (.trans moves (.checkTurn s.prevEnd t))
      rcases complies with agrees | excuse
      · rw [agrees]
        cases turn with
        | again b => exact ih b behind
        | done b => exact .inl rfl
      · cases turn with
        | again b =>
          have excuse : ch.Excuses inside (t.checkTurn s.prevEnd) := excuse.congr rfl rfl
          exact .inr (behind.excused (moves_turns body fuel b _) excuse)
        | done b => exact .inr excuse

theorem again {a : α} {body : α → Parser (Turn α)} (h : ∀ a, Compliant ch inside (body a)) :
    Compliant ch inside (Parser.loop a body) :=
  ⟨fun {s _} twin => turns h (turnBound s) a twin⟩

instance loop (a : α) (body : α → Parser (Turn α)) [∀ a, Compliant ch inside (body a)] :
    Compliant ch inside (Parser.loop a body) := again ‹_›

/-- The token at hand is none that the change needs. -/
theorem token {f : Kind → Parser α} (h : ∀ k, k.Avoids ch.openers → Compliant ch inside (f k)) :
    Compliant ch inside (Parser.token >>= f) :=
  ⟨fun {s _} twin => .read ((h s.token twin.token).complies twin)⟩

/-- Options may be read, if not those that change. -/
theorem options {f : Options → Parser α} (same : ∀ o o', ch.Relates o o' → f o' = f o)
    (h : ∀ o, Compliant ch inside (f o)) : Compliant ch inside (Parser.options >>= f) := by
  refine ⟨fun {s o} twin => ?_⟩
  have run : (Parser.options >>= f).run (s.withOptions o) =
      (f s.options).run (s.withOptions o) := by
    show (f o).run (s.withOptions o) = _
    rw [same s.options o twin.options]
  rw [Parser.Complies, Parser.Agrees, run]
  exact (h s.options).complies twin

instance (priority := low) outside (p : Parser α) [h : Indifferent ch p] : Lenient ch p :=
  ⟨fun twin => (h.complies twin).imp_right .outside⟩

/-- Only the switches in a source without braces are forgiven more outside of attempts. -/
theorem indifferent (loose : ch ≠ .switches false) {p : Parser α} (h : Lenient ch p) :
    Indifferent ch p := ⟨fun twin => (h.complies twin).imp_right (.inside loose)⟩

/-- A question that the switches may answer otherwise, if what follows is then lacking something
without them. -/
theorem question {g : State → Bool} {f : Bool → Parser α}
    (same : ∀ s v, g (s.withOptions { s.options with variant := v }) = g s)
    (h : ∀ b, Indifferent ch (f b))
    (strict : ∀ {s : State} {o : Options} {braces : Bool}, s.Twin (.switches braces) o →
      g (s.withOptions o) ≠ g s → ((f (g s)).run s).2.Lacks) :
    Lenient ch (Parser.read g >>= f) := by
  refine ⟨fun {s o} twin => ?_⟩
  by_cases eq : g (s.withOptions o) = g s
  · have read : (Parser.read g).Agrees s o := congrArg (·, s.withOptions o) eq
    exact .bind twin (.inl read) (((h _).complies twin).imp_right .outside)
  · cases ch with
    | variant =>
      have eq' := same s o.variant
      rw [← twin.sameSwitches] at eq'
      exact absurd eq' eq
    | switches braces => exact .inr (Change.Excuses.of_lacks (strict twin eq))

end Compliant

/-- A question for an opening brace is denied where none stands. -/
class Opening (q : Parser Bool) : Prop where
  refuses {s : State} : s.token ≠ .openBraceToken → (q.run s).1 = false

instance : Opening (expect .openBraceToken) :=
  ⟨fun missing => congrArg Prod.fst (run_expect missing)⟩

/-- What is read behind a brace may depend on the switches: without braces it is not read. -/
theorem Compliant.behind {q : Parser Bool} [opening : Opening q] [h : Indifferent ch q]
    {f : Bool → Parser α} (inner : ch ≠ .switches false → Indifferent ch (f true))
    (outer : Indifferent ch (f false)) : Indifferent ch (q >>= f) := by
  refine ⟨fun {s o} twin => .bind twin (h.complies twin) ?_⟩
  have behind := twin.moves (q.moves s)
  cases found : (q.run s).1 with
  | false => exact outer.complies behind
  | true =>
    by_cases loose : ch = .switches false
    · subst loose
      rw [opening.refuses twin.ne_brace] at found
      cases found
    · exact (inner loose).complies behind

variable {kind k k₂ : Kind} {ks : List Kind} {message : Message} {complaint : Option Message}
  {args : List String} {start : NodeStart} {slots : List Slot} {detail : Detail} {x : Bool}
  {c : ListContext} {nodes : List Node} {list : Delimited} {pos : Nat} {rules : ModifierRules}
  {mods : Option (List Node)} {p : Parser α} [Indifferent ch p] {element : Parser Node}
  [Indifferent ch element] {q : Parser Bool} [Indifferent ch q]
  {next? : Bool → Parser (Option Node)} [∀ x, Indifferent ch (next? x)]

instance : Indifferent ch token := by unfold token; infer_instance
instance : Indifferent ch nodeStart := by unfold nodeStart; infer_instance
instance : Indifferent ch onNewLine := by unfold onNewLine; infer_instance
instance : Indifferent ch context := by unfold context; infer_instance
instance : Indifferent ch next := by unfold next; infer_instance
instance : Indifferent ch nextToken := by unfold nextToken; infer_instance
instance : Indifferent ch (aheadNext p) := by unfold aheadNext; infer_instance
instance : Indifferent ch (isAt kind) := by unfold isAt; infer_instance
instance : Indifferent ch (isAtAny ks) := by unfold isAtAny; infer_instance
instance : Indifferent ch (nextIs kind) := by unfold nextIs; infer_instance
instance : Indifferent ch (nextIsAny ks) := by unfold nextIsAny; infer_instance
instance : Indifferent ch (reportHere message args) := by unfold reportHere; infer_instance
instance : Indifferent ch (reportExpected kind) := by unfold reportExpected; infer_instance
instance : Indifferent ch (accept kind) := by unfold accept; infer_instance
instance : Indifferent ch (expect kind) := by unfold expect; infer_instance
instance : Indifferent ch takeToken := by unfold takeToken; infer_instance
instance : Indifferent ch (acceptToken kind) := by unfold acceptToken; infer_instance
instance : Indifferent ch (expectToken kind) := by unfold expectToken; infer_instance
instance : Indifferent ch (build kind start slots) := by unfold build; infer_instance
instance : Indifferent ch (buildWith kind start detail slots) := by unfold buildWith; infer_instance
instance : Indifferent ch (optionally x p) := by unfold optionally; infer_instance
instance : Indifferent ch (after kind p) := by unfold after; infer_instance

instance : Indifferent ch isIdentifier := by unfold isIdentifier; infer_instance
instance : Indifferent ch isWord := by unfold isWord; infer_instance
instance : Indifferent ch isIdentifierOnLine := by unfold isIdentifierOnLine; infer_instance
instance : Indifferent ch isWordOnLine := by unfold isWordOnLine; infer_instance
instance : Indifferent ch missingIdentifier := by unfold missingIdentifier; infer_instance
instance : Indifferent ch (identifierIf x complaint) := by unfold identifierIf; infer_instance
instance : Indifferent ch identifier := by unfold identifier; infer_instance
instance : Indifferent ch (identifierOr message) := by unfold identifierOr; infer_instance
instance : Indifferent ch identifierName := by unfold identifierName; infer_instance
instance : Indifferent ch (nameAfterDot x) := by unfold nameAfterDot; infer_instance
instance : Indifferent ch privateIdentifier := by unfold privateIdentifier; infer_instance
instance : Indifferent ch literal := by unfold literal; infer_instance
instance : Indifferent ch memberName := by unfold memberName; infer_instance
instance : Indifferent ch (entityName x complaint) := by unfold entityName; infer_instance

instance : Indifferent ch canEndStatement := by unfold canEndStatement; infer_instance
instance : Indifferent ch startsLeftHandSide := by unfold startsLeftHandSide; infer_instance
instance : Indifferent ch startsOperand := by unfold startsOperand; infer_instance
instance : Indifferent ch startsExpression := by unfold startsExpression; infer_instance
instance : Indifferent ch isNumber := by unfold isNumber; infer_instance
instance : Indifferent ch (startsPlainType x) := by
  unfold startsPlainType
  exact .step inferInstance fun _ => by split <;> infer_instance
instance : Indifferent ch startsParameter := by unfold startsParameter; infer_instance
instance : Indifferent ch startsType := by unfold startsType; infer_instance
instance : Indifferent ch isUsingName := by unfold isUsingName; infer_instance
instance : Indifferent ch declarationWalk := by
  unfold declarationWalk
  repeat' first | infer_instance | refine .step ?_ fun _ => ?_ | refine .again fun _ => ?_ | split
instance : Indifferent ch startsDeclaration := by unfold startsDeclaration; infer_instance
instance : Indifferent ch startsStatement := by
  unfold startsStatement
  repeat' first | infer_instance | refine .step ?_ fun _ => ?_ | split
instance : Indifferent ch typeMemberWalk := by unfold typeMemberWalk; infer_instance
instance : Indifferent ch classMemberWalk := by
  unfold classMemberWalk
  repeat' first | infer_instance | refine .step ?_ fun _ => ?_ | refine .again fun _ => ?_ | split

instance : Indifferent ch (startsElement c x) := by
  unfold startsElement
  repeat' first | infer_instance | refine .step ?_ fun _ => ?_ | split
instance : Indifferent ch (wantedBy cs) := by
  induction cs with
  | nil => exact .pure false
  | cons c cs ih => unfold wantedBy; infer_instance
instance : Indifferent ch (complain c) := by unfold complain; infer_instance
instance : Indifferent ch (listTurn c element nodes) := by unfold listTurn; infer_instance
instance : Indifferent ch (listOf c element) := by unfold listOf; infer_instance
instance : Indifferent ch (separator c pos) := by unfold separator; infer_instance
instance : Indifferent ch (delimitedTurn c element list) := by unfold delimitedTurn; infer_instance
instance : Indifferent ch (delimited c element) := by
  unfold delimited
  exact .step inferInstance fun _ => by split <;> infer_instance
instance : Indifferent ch (bracketed c kind k element) := by unfold bracketed; infer_instance
instance : Indifferent ch (checkRestComma list) := by
  unfold checkRestComma
  split <;> infer_instance
instance : Indifferent ch acceptSemicolon := by unfold acceptSemicolon; infer_instance

section

variable {p : Parser α} [Lenient ch p] {element : Parser Node} [Lenient ch element]

instance : Lenient ch (optionally x p) := by unfold optionally; infer_instance
instance : Lenient ch (after kind p) := by unfold after; infer_instance
instance : Lenient ch (listTurn c element nodes) := by unfold listTurn; infer_instance
instance : Lenient ch (listOf c element) := by unfold listOf; infer_instance

end

theorem run_acceptSemicolon (unended : s.atSemicolon = false) :
    acceptSemicolon.run s = (false, s) := by
  show (if s.atSemicolon then _ else _ : Parser Bool).run s = _
  rw [unended]
  rfl

/-- Nothing begins at what is no token. -/
theorem run_startsStatement (at_ : s.token = .unknown) : startsStatement.run s = (false, s) := by
  have unnamed : s.atIdentifier = false := by
    unfold State.atIdentifier
    rw [at_]
    rfl
  have operand : startsLeftHandSide.run s = (false, s) := by
    show (if s.token == .importKeyword then _ else _ : Parser Bool).run s = _
    rw [at_]
    show (s.token.startsLeftHandSide || s.atIdentifier, s) = _
    rw [at_, unnamed]
    rfl
  have expression : startsExpression.run s = (false, s) := by
    have operand : startsOperand.run s = (false, s) := by
      refine (run_or operand).trans ?_
      show (s.token.startsExpression || s.atIdentifier, s) = _
      rw [at_, unnamed]
      rfl
    refine (run_or operand).trans ?_
    show (s.token.binaryTier.isValid && Tier.comma.looserThan s.token.binaryTier, s) = _
    rw [at_]
    rfl
  have token : token.run s = (.unknown, s) := congrArg (·, s) at_
  unfold startsStatement
  rw [run_bind, token]
  exact expression

theorem lacks_reportNoSemicolon (e : Node) (known : s.token ≠ .unknown) :
    ((reportNoSemicolon e).run s).2.Lacks := by
  unfold reportNoSemicolon
  split
  · show ((if (!(s.token == .unknown)) = true then _ else _ : Parser Unit).run s).2.Lacks
    rw [beq_false_of_ne known]
    exact lacks_report rfl
  · exact lacks_report rfl

/-- Without a semicolon, a statement must be reported if the switch is off, or nothing may begin
behind it. -/
theorem Parser.Complies.unended {f : Bool → Parser α} [∀ b, Lenient .variant (f b)]
    (twin : s.Twin ch o) (strict : ((f false).run s).2.Lacks ∨
      s.token = .unknown ∧ (f false).Complies ch false s o) :
    (do
      let o ← Parser.options
      let b ← pure o.looseSemicolons <&&> startsStatement
      f b).Complies ch false s o := by
  cases ch with
  | variant =>
    refine (Compliant.options ?_ fun o => inferInstance).complies twin
    intro o o' relates
    have relates : o' = { o with variant := o'.variant } := relates
    rw [relates]
  | switches =>
    have run : (do
        let o ← Parser.options
        let b ← pure o.looseSemicolons <&&> startsStatement
        f b).run s = (f false).run s := by
      show (do let b ← pure s.options.looseSemicolons <&&> startsStatement; f b).run s = _
      rw [twin.strict]
      rfl
    rw [Complies, Agrees, run]
    rcases strict with lacks | ⟨at_, complies⟩
    · exact .inr (.of_lacks lacks)
    refine complies.imp_left fun agrees => ?_
    show (do let b ← pure o.looseSemicolons <&&> startsStatement; f b).run (s.withOptions o) = _
    cases o.looseSemicolons with
    | false => exact agrees
    | true =>
      show (f (startsStatement.run (s.withOptions o)).1).run
        (startsStatement.run (s.withOptions o)).2 = _
      rw [run_startsStatement (s := s.withOptions o) at_]
      exact agrees

/-- Whether a semicolon stands there does not depend on the options, but what is done without
one may. -/
theorem Compliant.ended {f : Bool → Parser α} (behind : Lenient ch (f true))
    (unended : ∀ {s : State} {o : Options}, s.Twin ch o → s.atSemicolon = false →
      (f false).Complies ch false s o) : Lenient ch (acceptSemicolon >>= f) := by
  refine ⟨fun {s o} twin => .bind twin (Compliant.complies twin) ?_⟩
  cases ended : s.atSemicolon with
  | true =>
    have taken : (acceptSemicolon.run s).1 = true := by
      show ((if s.atSemicolon then _ else _ : Parser Bool).run s).1 = _
      rw [ended]
      rfl
    rw [taken]
    exact behind.complies (twin.moves (acceptSemicolon.moves s))
  | false =>
    rw [run_acceptSemicolon ended]
    exact unended twin ended

instance : Lenient ch semicolon := by
  unfold semicolon
  refine .ended (inferInstanceAs (Lenient ch (pure ()))) fun {s o} twin unended =>
    .unended twin (.inl ?_)
  have missing : s.token ≠ .semicolonToken := by
    rintro at_
    simp [State.atSemicolon, at_] at unended
  exact lacks_expect missing (.inl rfl)

instance : Indifferent ch (buildModified kind start mods detail slots) := by
  unfold buildModified
  infer_instance
instance : Indifferent ch nextFollowsOnLine := by unfold nextFollowsOnLine; infer_instance
instance : Indifferent ch followsExport := by unfold followsExport; infer_instance
instance : Indifferent ch nextFollowsDefault := by
  unfold nextFollowsDefault
  exact .step inferInstance fun _ => by split <;> infer_instance
instance : Indifferent ch nextFollowsModifier := by
  unfold nextFollowsModifier
  repeat' first | infer_instance | refine .step ?_ fun _ => ?_ | split
instance : Indifferent ch (attemptIf q) := by unfold attemptIf; infer_instance
instance : Indifferent ch (modifier? rules x) := by unfold modifier?; infer_instance
instance : Indifferent ch (modifierList next?) := by
  unfold modifierList
  repeat' first | infer_instance | refine .step ?_ fun _ => ?_ | refine .again fun _ => ?_ | split
instance : Indifferent ch keywordModifiers := by unfold keywordModifiers; infer_instance
instance : Indifferent ch (buildLink kind start x slots) := by unfold buildLink; infer_instance
instance : Indifferent ch (templatePiece x) := by unfold templatePiece; infer_instance
instance : Indifferent ch (templateRest x) := by unfold templateRest; infer_instance

instance : Indifferent ch arrowAfterName := by
  unfold arrowAfterName
  exact .step inferInstance fun _ => by split <;> infer_instance
instance : Indifferent ch arrowAfterParen := by
  unfold arrowAfterParen
  exact .step inferInstance fun _ => by split <;> infer_instance
instance : Indifferent ch asyncArrowWalk := by unfold asyncArrowWalk; infer_instance
instance : Indifferent ch arrowModifiers := by unfold arrowModifiers; infer_instance
instance : Indifferent ch arrowToken := by unfold arrowToken; infer_instance

instance {braces : Bool} : Indifferent (.switches braces) arrowAfterAngle := by
  unfold arrowAfterAngle
  refine .step inferInstance fun _ => ?_
  split
  · infer_instance
  · refine .options (fun o o' relates => ?_) fun o => ?_
    · have relates : o = { variant := o'.variant } := relates
      rw [relates]
      rfl
    · split
      · infer_instance
      · exact .step inferInstance fun _ => by split <;> infer_instance

/-- Behind a parenthesis the variant is not asked for. -/
theorem complies_opening (twin : s.Twin .variant o) (opens : s.token = .openParenToken) :
    (do
      let opening ← token
      next
      if opening == .openParenToken then arrowAfterParen else arrowAfterAngle :
      Parser ArrowGuess).Complies .variant true s o := by
  refine .read ?_
  rw [opens]
  exact Compliant.complies (p := do next; arrowAfterParen) twin

theorem complies_arrowWalk (twin : s.Twin ch o)
    (opens : [.openParenToken, .lessThanToken, .asyncKeyword].contains s.token) :
    arrowWalk.Complies ch true s o := by
  cases ch with
  | switches =>
    unfold arrowWalk
    exact Compliant.complies twin
  | variant =>
    have opens : s.token = .openParenToken ∨ s.token = .asyncKeyword := by
      have other := twin.ne_angle
      simpa [other] using opens
    unfold arrowWalk
    refine .bind twin (Compliant.complies twin) ?_
    rcases opens with at_ | at_
    · rw [run_accept (by rw [at_]; decide)]
      exact complies_opening twin at_
    · have taken : (accept .asyncKeyword).run s = (true, s.advance .plain) := by
        show (if s.token == .asyncKeyword then _ else _ : Parser Bool).run s = _
        rw [at_]
        rfl
      rw [taken]
      -- Behind `async` a parenthesis or a `<` is wanted, which leaves the parenthesis.
      have twin := twin.moves (.advance .plain s)
      generalize s.advance .plain = t at twin
      refine .read (.read ?_)
      split
      · exact Compliant.complies twin
      · next opens =>
        have other := twin.ne_angle
        have opens : t.onNewLine = false ∧ t.token = .openParenToken := by
          simpa [other] using opens
        exact complies_opening twin opens.2

end ScriptGrammar
