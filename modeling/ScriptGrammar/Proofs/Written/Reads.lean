import ScriptGrammar.Proofs.OperatorChains
import ScriptGrammar.Proofs.Written.Bare
import ScriptGrammar.Proofs.Written.Words

/-!
# Reading words

`Reads p ws rest Q` says of a parser that where the words `ws` are left it takes some of them, so
that `rest` is left, reports nothing, and comes to what `Q` says. Its rules go through a parser as
it is written, as those of `Leads` do; the state is told by the words.
-/

namespace ScriptGrammar

open Parse ScriptGrammar.Parser

variable {src : Source} {d : Nat} {s t : State} {w : Word} {ws rest mid : List Word}

/-- The kind of the token at the cursor, where these words are left. -/
def headKind : List Word → Kind
  | [] => .endOfFileToken
  | w :: _ => w.kind

@[simp] theorem headKind_cons (w : Word) (ws : List Word) : headKind (w :: ws) = w.kind := rfl

/-- How far the token at the cursor is from the one before it. -/
def headGap : List Word → Nat
  | [] => 0
  | w :: _ => w.gap

/-- How many bytes the words take. -/
def extent (ws : List Word) : Nat := (layout (spell ws)).length

/-- The first of the words begins at `p`, if they are the last of the source. -/
def Begins (src : Source) (p : Nat) (ws : List Word) : Prop :=
  p + extent ws = src.size + headGap ws

theorem extent_cons (w : Word) (ws : List Word) :
    extent (w :: ws) = w.gap + (layout w.text.toList).length + extent ws := by
  have blanks : (layout (List.replicate w.gap ' ')).length = w.gap := by
    rw [length_layout_of_thin fun c hc => by rw [List.eq_of_mem_replicate hc]; rfl,
      List.length_replicate]
  simp only [extent, spell_cons, Word.chars, length_layout_append, blanks]

theorem extent_append (vs ws : List Word) : extent (vs ++ ws) = extent vs + extent ws := by
  simp only [extent, spell, List.flatMap_append, length_layout_append]

theorem headGap_le_extent (ws : List Word) : headGap ws ≤ extent ws := by
  cases ws with
  | nil => exact Nat.zero_le _
  | cons w ws =>
    rw [extent_cons, headGap]
    omega

/-- What comes behind does not begin before. -/
theorem Begins.le {p q : Nat} {vs ws : List Word} (h : Begins src p vs) (later : ws <:+ vs)
    (k : Begins src q ws) : p ≤ q := by
  obtain ⟨us, rfl⟩ := later
  unfold Begins at h k
  rw [extent_append] at h
  cases us with
  | nil =>
    have none : extent [] = 0 := rfl
    rw [none, List.nil_append] at h
    omega
  | cons u us =>
    have gap : headGap (u :: us ++ ws) ≤ extent (u :: us) := headGap_le_extent (u :: us)
    omega

theorem Word.Spelled.pos (h : w.Spelled) : 0 < (layout w.text.toList).length := by
  obtain ⟨c, more, chars, -⟩ := h.exists_cons
  rw [chars]
  exact Nat.lt_of_lt_of_le (Nat.succ_pos more.length) (length_le_layout (c :: more))

theorem Legible.of_append {vs : List Word} (h : Legible (vs ++ ws)) : Legible ws := by
  induction vs with
  | nil => exact h
  | cons v vs ih => exact ih h.2.2

theorem extent_lt {vs : List Word} (legible : Legible vs) (later : w :: ws <:+ vs) :
    extent ws < extent vs := by
  obtain ⟨us, rfl⟩ := later
  have pos := legible.of_append.1.pos
  rw [extent_append, extent_cons]
  omega

/-- What comes behind a word has a word before it. -/
theorem exists_cons_suffix (v : Word) (h : rest <:+ ws) : ∃ u, u :: rest <:+ v :: ws := by
  obtain ⟨us, rfl⟩ := h
  have split := List.dropLast_concat_getLast (List.cons_ne_nil v us)
  exact ⟨_, (v :: us).dropLast, by rw [List.append_cons, split, List.cons_append]⟩

/-- The scanner is on the first of the words, or at the end. -/
def Scanner.Before (s : Scanner) : List Word → Prop
  | [] => s.kind = .endOfFileToken ∧ s.start = s.fullStart
  | w :: ws => s.On w ws

/-- The words `ws` are left of the source, the cursor being on the first of them; nothing was
reported so far, and `d` guarded productions are open. -/
structure At (src : Source) (d : Nat) (s : State) (ws : List Word) : Prop where
  clear : s.Clear
  source : s.scanner.source = src
  skips : s.scanner.keepsTrivia = false
  follows : s.scanner.fullStart = s.prevEnd
  options : s.options = {}
  context : s.context = {}
  depth : s.depth = d
  silent : s.diagnostics = #[]
  /-- No placeholder lies ahead of the cursor. -/
  missing : s.missingAt ≤ s.tokenPos
  legible : Legible ws
  left : s.prevEnd + extent ws = src.size
  here : s.scanner.Before ws

/-- Nothing that `At` depends on differs. -/
structure SamePlace (s t : State) : Prop extends Unmoved s t where
  depth : t.depth = s.depth
  missing : t.missingAt = s.missingAt

theorem SamePlace.restored (h : Restored s t) : SamePlace s t := by
  rw [h.same]
  exact ⟨⟨rfl, rfl, rfl, rfl, rfl⟩, rfl, rfl⟩

namespace At

theorem unmoved (h : At src d s ws) (same : SamePlace s t) : At src d t ws := by
  obtain ⟨⟨scanner, prevEnd, diagnostics, options, context⟩, depth, missing⟩ := same
  obtain ⟨⟨sound, quiet⟩, source, skips, follows, plain, loose, deep, silent, behind, legible,
    left, here⟩ := h
  refine ⟨⟨?_, ?_⟩, ?_, ?_, ?_, options.trans plain, context.trans loose, depth.trans deep,
    diagnostics.trans silent, ?_, legible, ?_, ?_⟩ <;>
    simp only [State.tokenPos, scanner, prevEnd, missing]
  all_goals assumption

theorem token (h : At src d s ws) : s.token = headKind ws := by
  cases ws with
  | nil => exact h.here.1
  | cons w ws => exact h.here.kind

theorem tokenPos (h : At src d s ws) : s.tokenPos = s.prevEnd + headGap ws := by
  rw [← h.follows]
  cases ws with
  | nil => exact h.here.2
  | cons w ws => exact h.here.start

theorem begins (h : At src d s ws) : Begins src s.tokenPos ws := by
  have left := h.left
  have tokenPos := h.tokenPos
  unfold Begins
  omega

theorem advance (h : At src d s (w :: ws)) : At src d (s.advance .plain) ws := by
  have frame := frame_advance .plain h.clear
  have follows := Reading.plain.follows h.clear.sound
  have sound : s.scanner.scan.Sound := follows.sound
  have faces : s.scanner.Faces (spell ws) := h.here.faces
  have boundary : s.prevEnd ≤ s.scanner.stop ∧ s.scanner.stop ≤ src.size := by
    rw [← h.follows, ← h.source]
    exact ⟨Nat.le_trans h.clear.sound.fullStart_le h.clear.sound.start_le,
      Source.le_size_of_isBoundary h.clear.sound.stands.boundary⟩
  have full : s.scanner.scan.fullStart = s.scanner.stop := follows.fullStart
  obtain ⟨before, quiet⟩ : s.scanner.scan.Before ws ∧
      s.scanner.scan.pending = s.scanner.pending := by
    cases ws with
    | nil =>
      rw [Scanner.scan_end faces]
      exact ⟨⟨rfl, rfl⟩, rfl⟩
    | cons v ws => exact Scanner.on_scan h.clear.sound.stands faces h.skips h.legible.2.2
  refine ⟨frame.clear, frame.scanner.source.trans h.source, frame.scanner.keepsTrivia.trans h.skips,
    full, h.options, h.context, h.depth, ?_, ?_, h.legible.2.2, ?_, ?_⟩
  · show s.diagnostics ++ s.scanner.scan.pending = #[]
    rw [quiet, h.clear.quiet, h.silent]
    rfl
  · have start := sound.fullStart_le
    have missing := h.missing
    have le := h.clear.sound.start_le
    show s.missingAt ≤ s.scanner.scan.start
    unfold State.tokenPos at missing
    omega
  · show s.scanner.stop + extent ws = src.size
    have left : src.size - s.scanner.stop = extent ws := h.source ▸ faces.text.left
    omega
  · cases ws with
    | nil => exact before
    | cons v ws =>
      exact ⟨before.kind, before.value, before.start, before.sameLine, before.faces.whole,
        before.faces.text⟩

/-- A node may be closed if it was begun at the cursor or before. -/
theorem close (h : At src d s ws) {start : NodeStart} (began : start.pos ≤ s.tokenPos)
    (kind : Kind) : At src d (s.close kind start).2 ws := by
  refine ⟨⟨h.clear.sound, h.clear.quiet⟩, h.source, h.skips, h.follows, h.options, h.context,
    h.depth, h.silent, ?_, h.legible, h.left, h.here⟩
  show (if s.prevEnd < start.pos then start.pos else s.missingAt) ≤ s.tokenPos
  split
  · exact began
  · exact h.missing

theorem deeper (h : At src d s ws) (e : Nat) : At src e (s.withDepth e) ws :=
  ⟨⟨h.clear.sound, h.clear.quiet⟩, h.source, h.skips, h.follows, h.options, h.context, rfl,
    h.silent, h.missing, h.legible, h.left, h.here⟩

end At

/-- Where the words `ws` are left, `p` goes on to where `rest` is, and comes to what `Q` says. -/
def Reads {α : Type} (src : Source) (d : Nat) (p : Parser α) (ws rest : List Word)
    (Q : α → Prop) : Prop :=
  ∀ s, At src d s ws → Leads p s fun a t => Q a ∧ At src d t rest

namespace Reads

variable {α β : Type} {p q : Parser α} {f : α → Parser β} {P : α → Prop} {Q : β → Prop} {k : Kind}

theorem pure {a : α} (h : P a) : Reads src d (Pure.pure a) ws ws P := fun _ at_ => ⟨h, at_⟩

theorem bind (h : Reads src d p ws mid P) (goOn : ∀ a, P a → Reads src d (f a) mid rest Q) :
    Reads src d (p >>= f) ws rest Q := fun s at_ =>
  (h s at_).bind fun a t got => goOn a got.1 t got.2

/-- Where it is known what the first part comes to. -/
theorem known {a : α} (h : Reads src d p ws mid (· = a)) (goOn : Reads src d (f a) mid rest Q) :
    Reads src d (p >>= f) ws rest Q := by
  refine h.bind ?_
  rintro _ rfl
  exact goOn

theorem mono {P' : α → Prop} (h : Reads src d p ws rest P) (imp : ∀ a, P a → P' a) :
    Reads src d p ws rest P' := fun s at_ =>
  (h s at_).mono fun a _ got => ⟨imp a got.1, got.2⟩

theorem read {g : State → α} {a : α} (value : ∀ s, At src d s ws → g s = a)
    (h : Reads src d (f a) ws rest Q) : Reads src d (Parser.read g >>= f) ws rest Q := by
  intro s at_
  apply Leads.read
  rw [value s at_]
  exact h s at_

/-- Where the words begin may be given a name. -/
theorem ofLeft (h : ∀ e, e + extent ws = src.size → Reads src d p ws rest P) :
    Reads src d p ws rest P := fun s at_ => h s.prevEnd at_.left s at_

/-- Goes on alike whatever it sees. -/
theorem look {g : State → α} (h : ∀ a, Reads src d (f a) ws rest Q) :
    Reads src d (Parser.read g >>= f) ws rest Q := fun s at_ => Leads.read (h (g s) s at_)

theorem answer {g : State → α} (holds : ∀ s, At src d s ws → P (g s)) :
    Reads src d (Parser.read g) ws ws P := fun s at_ => ⟨holds s at_, at_⟩

/-- A question that need not be asked. -/
theorem and_false {p q : Parser Bool} (h : Reads src d p ws ws (· = false)) :
    Reads src d (p <&&> q) ws ws (· = false) := known h (pure rfl)

theorem and_true {p q : Parser Bool} {a : Bool} (first : Reads src d p ws ws (· = true))
    (second : Reads src d q ws ws (· = a)) : Reads src d (p <&&> q) ws ws (· = a) :=
  known first second

theorem or {p q : Parser Bool} {x y : Bool} (first : Reads src d p ws ws (· = x))
    (second : Reads src d q ws ws (· = y)) : Reads src d (p <||> q) ws ws (· = (x || y)) := by
  refine bind first ?_
  rintro x rfl
  cases x with
  | true => exact pure rfl
  | false => exact second

theorem token {f : Kind → Parser β} (h : Reads src d (f (headKind ws)) ws rest Q) :
    Reads src d (Parser.token >>= f) ws rest Q := read (fun _ at_ => at_.token) h

theorem isAt {f : Bool → Parser β} (h : Reads src d (f (headKind ws == k)) ws rest Q) :
    Reads src d (Parser.isAt k >>= f) ws rest Q :=
  read (g := (·.token == k)) (fun _ at_ => by rw [at_.token]) h

theorem isAtAny {ks : List Kind} {f : Bool → Parser β}
    (h : Reads src d (f (ks.contains (headKind ws))) ws rest Q) :
    Reads src d (Parser.isAtAny ks >>= f) ws rest Q :=
  read (g := fun s => ks.contains s.token) (fun _ at_ => by rw [at_.token]) h

theorem nodeStart {f : NodeStart → Parser β}
    (h : ∀ start, Begins src start.pos ws → Reads src d (f start) ws rest Q) :
    Reads src d (Parser.nodeStart >>= f) ws rest Q := fun s at_ =>
  Leads.read (h _ at_.begins s at_)

theorem ite {c : Prop} [Decidable c] (yes : c → Reads src d p ws rest P)
    (no : ¬ c → Reads src d q ws rest P) : Reads src d (if c then p else q) ws rest P := by
  split
  · next h => exact yes h
  · next h => exact no h

theorem ifAt (here : (headKind ws == k) = true) (h : Reads src d p ws rest P) :
    Reads src d (Parser.isAt k >>= fun b => if b = true then p else q) ws rest P :=
  isAt (by rw [here]; exact h)

theorem ifNotAt (away : (headKind ws == k) = false) (h : Reads src d q ws rest P) :
    Reads src d (Parser.isAt k >>= fun b => if b = true then p else q) ws rest P :=
  isAt (by rw [away]; exact h)

theorem next : Reads src d next (w :: ws) ws fun _ => True := fun _ at_ => ⟨trivial, at_.advance⟩

theorem accept (here : (w.kind == k) = true) :
    Reads src d (accept k) (w :: ws) ws (· = true) :=
  ifAt here (next.bind fun _ _ => pure rfl)

theorem accept_none (away : (headKind ws == k) = false) :
    Reads src d (Parser.accept k) ws ws (· = false) := ifNotAt away (pure rfl)

theorem expect (here : (w.kind == k) = true) :
    Reads src d (expect k) (w :: ws) ws (· = true) :=
  (accept here).known (pure rfl)

theorem acceptToken_none (away : (headKind ws == k) = false) :
    Reads src d (acceptToken k) ws ws (· = none) := ifNotAt away (pure rfl)

theorem after_none {p : Parser α} (away : (headKind ws == k) = false) :
    Reads src d (after k p) ws ws (· = none) :=
  (accept_none away).known (pure rfl)

theorem after {p : Parser α} (here : (w.kind == k) = true) (h : Reads src d p ws rest P) :
    Reads src d (Parser.after k p) (w :: ws) rest fun o => ∃ a, o = some a ∧ P a :=
  (accept here).known (h.bind fun a got => pure ⟨a, rfl, got⟩)

theorem enterName {name : String} : Reads src d (enterName name) ws ws fun _ => True :=
  fun _ at_ => ⟨trivial, at_.unmoved ⟨⟨rfl, rfl, rfl, rfl, rfl⟩, rfl, rfl⟩⟩

theorem close {start : NodeStart} {vs : List Word} (began : Begins src start.pos vs)
    (later : ws <:+ vs) (real : (k == .omittedExpression) = false) :
    Reads src d (close k start) ws ws (·.bare = .plain k) := fun _ at_ =>
  ⟨NodeInfo.bare_eq_plain real rfl, at_.close (began.le later at_.begins) k⟩

theorem build {start : NodeStart} {vs : List Word} {slots : List Slot} {shape : Node}
    (began : Begins src start.pos vs) (later : ws <:+ vs) (real : (k == .omittedExpression) = false)
    (same : .plain k (slots.map (·.map Node.bare)) = shape) :
    Reads src d (build k start slots) ws ws (·.bare = shape) :=
  (close began later real).bind fun info bare =>
    pure (by rw [Node.bare_ofSlots, bare, ← same]; rfl)

theorem buildModified {start : NodeStart} {vs : List Word} {slots : List Slot} {shape : Node}
    (began : Begins src start.pos vs) (later : ws <:+ vs) (real : (k == .omittedExpression) = false)
    (same : .plain k (.optList .modifiers none :: slots.map (·.map Node.bare)) = shape) :
    Reads src d (buildModified k start none .none slots) ws ws (·.bare = shape) :=
  (close began later real).bind fun info bare => pure <| by
    have unmodified : ({ info with modifiers := modifierFlags none } : NodeInfo).bare = .plain k :=
      congrArg (fun i : NodeInfo => { i with modifiers := {} }) bare
    rw [Node.bare_ofSlots, unmodified, ← same]
    rfl

/-- An omitted expression lies where it was begun. -/
theorem hole {start : NodeStart} (began : Begins src start.pos ws) :
    Reads src d (Parser.build .omittedExpression start []) ws ws (·.bare = .hole start.pos) := by
  intro s at_
  have pos : start.pos = s.tokenPos := by
    have here := at_.begins
    unfold Begins at began here
    omega
  have stop : max (max s.prevEnd start.pos)
      (if s.prevEnd < start.pos then start.pos else s.missingAt) = start.pos := by
    have missing := at_.missing
    have tokenPos := at_.tokenPos
    split <;> omega
  refine ⟨?_, at_.close (Nat.le_of_eq pos) .omittedExpression⟩
  show (Node.ofSlots { NodeInfo.plain .omittedExpression with range := ⟨start.pos, _⟩ } .none
    []) = .hole start.pos
  rw [stop]
  rfl

theorem takeToken (real : (w.kind == .omittedExpression) = false) :
    Reads src d takeToken (w :: ws) ws (·.bare = .token w.kind) :=
  nodeStart fun _ began => token <| next.bind fun _ _ =>
    (close began ⟨[w], rfl⟩ real).bind fun _ bare =>
      pure (congrArg (Node.leaf · .none) bare)

theorem identifierIf {n : PlainName} {b : Bool} {message : Option Message} :
    Reads src d (identifierIf true message) (.name n b :: ws) ws (·.bare = n.node) := by
  refine nodeStart fun start began => token ?_
  refine read (a := n.text) (fun s at_ => at_.here.value rfl) ?_
  exact next.bind fun _ _ => (close began ⟨[_], rfl⟩ rfl).bind fun _ bare =>
    enterName.bind fun _ _ => pure (congrArg (Node.leaf · (.name n.text none)) bare)

theorem inContext {g : Context → Context} (plain : g {} = {}) (h : Reads src d p ws rest P) :
    Reads src d (inContext g p) ws rest P := by
  intro s at_
  have same : g s.context = s.context := by rw [at_.context, plain]
  have inner := h _ (at_.unmoved (t := s.withContext (g s.context)) ⟨⟨rfl, rfl, rfl, rfl, same⟩,
    rfl, rfl⟩)
  exact ⟨inner.1, inner.2.unmoved ⟨⟨rfl, rfl, rfl, rfl, at_.context.trans inner.2.context.symm⟩,
    rfl, rfl⟩⟩

theorem inList {c : ListContext} (h : Reads src d p ws rest P) :
    Reads src d (inList c p) ws rest P := by
  intro s at_
  have inner := h _ (at_.unmoved (t := s.withLists (s.lists.insert c)) ⟨⟨rfl, rfl, rfl, rfl, rfl⟩,
    rfl, rfl⟩)
  exact ⟨inner.1, inner.2.unmoved ⟨⟨rfl, rfl, rfl, rfl, rfl⟩, rfl, rfl⟩⟩

theorem nested {refused : Parser α} (room : d < maxDepth)
    (h : Reads src (d + 1) p ws rest P) : Reads src d (nested p refused) ws rest P := by
  intro s at_
  obtain rfl := at_.depth
  have inner := h _ (at_.deeper (s.depth + 1))
  exact leads_nested_lt room ⟨inner.1, inner.2.deeper s.depth⟩

theorem ahead {rest' : List Word} (h : Reads src d p ws rest' P) :
    Reads src d (ahead p) ws ws P := by
  intro s at_
  have inner := h _ (at_.unmoved (t := s.openAttempt) ⟨.openAttempt s, rfl, rfl⟩)
  exact ⟨inner.1, at_.unmoved (.restored (restored_ahead at_.clear p))⟩

theorem aheadNext (h : Reads src d p ws rest P) :
    Reads src d (aheadNext p) (w :: ws) (w :: ws) P := ahead (next.bind fun _ _ => h)

theorem attempt {p : Parser (Option α)} (h : Reads src d p ws rest fun o => ∃ a, o = some a ∧ P a) :
    Reads src d (attempt p) ws rest fun o => ∃ a, o = some a ∧ P a := by
  intro s at_
  obtain ⟨⟨a, found, got⟩, behind⟩ :=
    h _ (at_.unmoved (t := s.openAttempt) ⟨.openAttempt s, rfl, rfl⟩)
  unfold Leads Parser.attempt
  cases ran : p.run s.openAttempt with
  | mk o t =>
    simp only [ran] at found behind ⊢
    subst found
    exact ⟨⟨a, rfl, got⟩, behind.unmoved ⟨⟨rfl, rfl, rfl, rfl, rfl⟩, rfl, rfl⟩⟩

theorem attempt_none {p : Parser (Option α)} {rest' : List Word}
    (h : Reads src d p ws rest' (· = none)) : Reads src d (Parser.attempt p) ws ws (· = none) := by
  intro s at_
  have inner := h _ (at_.unmoved (t := s.openAttempt) ⟨.openAttempt s, rfl, rfl⟩)
  apply (attempt_eq_none at_.clear inner.1).mono
  rintro o t ⟨none, restored⟩
  exact ⟨none, at_.unmoved (.restored restored)⟩

theorem goal {fuel : Nat} {g : Goal} {R : Node → Prop}
    (h : @Reads Node src d (@step ⟨goal fuel⟩ g) ws rest R) :
    Reads src d (Parser.goal (fuel + 1) g) ws rest R := h

/-- What a turn of a loop may come to: what is handed on, with fewer words left, or the end. -/
def Turned (invariant : α → List Word → Prop) (rest : List Word) (P : α → Prop)
    (us vs : List Word) : Turn α → Prop
  | .again a => invariant a vs ∧ ∃ u, u :: vs <:+ us
  | .done a => P a ∧ vs = rest

theorem loop {a : α} {body : α → Parser (Turn α)} (invariant : α → List Word → Prop)
    (start : invariant a ws)
    (turn : ∀ a us, invariant a us →
      ∃ vs, Reads src d (body a) us vs (Turned invariant rest P us vs)) :
    Reads src d (Parser.loop a body) ws rest P := by
  intro s at_
  apply Leads.loop fun a t => ∃ us, invariant a us ∧ At src d t us
  · rintro a t ⟨us, -, behind⟩
    have left := behind.left
    rw [at_.source]
    omega
  · exact ⟨ws, start, at_⟩
  rintro a t ⟨us, holds, here⟩
  obtain ⟨vs, reads⟩ := turn a us holds
  apply (reads t here).mono
  rintro x u ⟨turned, behind⟩
  cases x with
  | again b =>
    obtain ⟨holds, _, later⟩ := turned
    refine ⟨⟨vs, holds, behind⟩, ?_⟩
    have lt := extent_lt here.legible later
    have before := here.left
    have after := behind.left
    omega
  | done b =>
    obtain ⟨got, rfl⟩ := turned
    exact ⟨got, behind⟩

/-- A loop whose first turn is the last. -/
theorem once {a : α} {body : α → Parser (Turn α)}
    (turn : Reads src d (body a) ws rest fun x => ∃ b, x = .done b ∧ P b) :
    Reads src d (Parser.loop a body) ws rest P := by
  refine loop (fun b us => b = a ∧ us = ws) ⟨rfl, rfl⟩ ?_
  rintro _ _ ⟨rfl, rfl⟩
  refine ⟨rest, turn.mono ?_⟩
  rintro _ ⟨b, rfl, got⟩
  exact ⟨got, rfl⟩

/-- A loop of two turns. -/
theorem twice {a : α} {body : α → Parser (Turn α)} {R : α → Prop} (less : ∃ u, u :: mid <:+ ws)
    (first : Reads src d (body a) ws mid fun x => ∃ b, x = .again b ∧ R b)
    (second : ∀ b, R b → Reads src d (body b) mid rest fun x => ∃ c, x = .done c ∧ P c) :
    Reads src d (Parser.loop a body) ws rest P := by
  refine loop (fun b us => b = a ∧ us = ws ∨ R b ∧ us = mid) (.inl ⟨rfl, rfl⟩) ?_
  rintro b us (⟨rfl, rfl⟩ | ⟨got, rfl⟩)
  · refine ⟨mid, first.mono ?_⟩
    rintro _ ⟨b, rfl, got⟩
    exact ⟨.inr ⟨got, rfl⟩, less⟩
  · refine ⟨rest, (second b got).mono ?_⟩
    rintro _ ⟨c, rfl, got⟩
    exact ⟨got, rfl⟩

end Reads
end ScriptGrammar
