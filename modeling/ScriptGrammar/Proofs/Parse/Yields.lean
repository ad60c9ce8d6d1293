import ScriptGrammar.Proofs.Parse.Formed

/-!
# What a parse leaves behind

`Yields s t ns` says that a parse went from `s` to `t` and left the nodes `ns`, in this order. A
node is closed over exactly the nodes left since it was begun; nodes may be dropped, never moved.
Neither reaching a bound nor a turn that takes nothing is among the steps, so a parse that yields
does not run out. Facts about trees are inductions over `Yields`; that the grammar yields is
shown production by production elsewhere.
-/

namespace ScriptGrammar

/-- What holds nodes, in order. -/
class Holds (α : Type) where
  held : α → List Node

export Holds (held)

section Holds

variable {α β : Type} [Holds α] [Holds β]

instance : Holds Node := ⟨fun n => [n]⟩

instance : Holds (List Node) := ⟨id⟩

instance : Holds (Option α) := ⟨fun o => o.elim [] held⟩

instance : Holds (α × β) := ⟨fun p => held p.1 ++ held p.2⟩

instance : Holds Unit := ⟨fun _ => []⟩

instance : Holds Bool := ⟨fun _ => []⟩

instance : Holds Kind := ⟨fun _ => []⟩

/-- The nodes in a slot are held as they were before they got their part. -/
instance : Holds Slot where
  held
    | .one _ n => held n
    | .opt _ n => held n
    | .list _ ns => held ns
    | .optList _ ns => held ns

@[simp] theorem held_node (n : Node) : held n = [n] := rfl

@[simp] theorem held_list (ns : List Node) : held ns = ns := rfl

@[simp] theorem held_none : held (none : Option α) = [] := rfl

@[simp] theorem held_some (a : α) : held (some a) = held a := rfl

@[simp] theorem held_pair (a : α) (b : β) : held (a, b) = held a ++ held b := rfl

@[simp] theorem held_unit (u : Unit) : held u = [] := rfl

@[simp] theorem held_bool (b : Bool) : held b = [] := rfl

@[simp] theorem held_kind (k : Kind) : held k = [] := rfl

@[simp] theorem held_slot_one (p : Part) (n : Node) : held (Slot.one p n) = [n] := rfl

@[simp] theorem held_slot_opt (p : Part) (n : Option Node) : held (Slot.opt p n) = held n := rfl

@[simp] theorem held_slot_list (p : Part) (ns : List Node) : held (Slot.list p ns) = ns := rfl

@[simp] theorem held_slot_optList (p : Part) (ns : Option (List Node)) :
    held (Slot.optList p ns) = held ns := rfl

end Holds

theorem Slot.nodes_eq (slot : Slot) : ∃ p, slot.nodes = (held slot).map (·.as p) := by
  cases slot with
  | one p n => exact ⟨p, rfl⟩
  | opt p n => cases n <;> exact ⟨p, rfl⟩
  | list p ns => exact ⟨p, rfl⟩
  | optList p ns => cases ns <;> exact ⟨p, rfl⟩

@[simp] theorem Node.part_as (n : Node) (p : Part) : (n.as p).part = p := by cases n; rfl

@[simp] theorem Node.info_as (n : Node) (p : Part) : (n.as p).info = n.info := by cases n; rfl

@[simp] theorem Node.children_as (n : Node) (p : Part) : (n.as p).children = n.children := by
  cases n; rfl

@[simp] theorem Node.kind_as (n : Node) (p : Part) : (n.as p).kind = n.kind := by cases n; rfl

@[simp] theorem Node.detail_as (n : Node) (p : Part) : (n.as p).detail = n.detail := by
  cases n; rfl

@[simp] theorem Node.isMissing_as (n : Node) (p : Part) : (n.as p).isMissing = n.isMissing := by
  cases n; rfl

@[simp] theorem Node.childrenAs_as (n : Node) (p q : Part) :
    (n.as p).childrenAs q = n.childrenAs q := by cases n; rfl

@[simp] theorem Node.tier_as (n : Node) (p : Part) : (n.as p).tier = n.tier := by cases n; rfl

@[simp] theorem Node.isCast_as (n : Node) (p : Part) : (n.as p).isCast = n.isCast := by cases n; rfl

@[simp] theorem Node.allowsIn_as (n : Node) (p : Part) : (n.as p).allowsIn = n.allowsIn := by
  cases n; rfl

@[simp] theorem Node.isUndecorated_as (n : Node) (p : Part) :
    (n.as p).isUndecorated = n.isUndecorated := by cases n; rfl

@[simp] theorem Node.isPlace_as (n : Node) (p : Part) : (n.as p).isPlace = n.isPlace := by
  cases n; rfl

@[simp] theorem Node.isThis_as (n : Node) (p : Part) : (n.as p).isThis = n.isThis := by
  cases n; rfl

@[simp] theorem Node.trails_as (n : Node) (p : Part) : (n.as p).Trails ↔ n.Trails := by
  simp [Trails]

theorem Node.BreaksOff.as {n : Node} (h : n.BreaksOff) (p : Part) : (n.as p).BreaksOff := by
  cases h with
  | missing missing => exact .missing (by simpa using missing)
  | bareYield kind bare => exact .bareYield (by simpa using kind) (by simpa using bare)
  | yield kind he inner => exact .yield (by simpa using kind) (by simpa using he) inner
  | block kind hb block => exact .block (by simpa using kind) (by simpa using hb) block
  | arrow kind hb inner => exact .arrow (by simpa using kind) (by simpa using hb) inner

theorem Node.children_ofSlots (info : NodeInfo) (detail : Detail) (slots : List Slot) :
    (Node.ofSlots info detail slots).children = slots.flatMap Slot.nodes := rfl

theorem Node.mem_childrenAs {info : NodeInfo} {detail : Detail} {slots : List Slot} {p : Part}
    {n : Node} (among : .one p n ∈ slots) :
    n.as p ∈ (Node.ofSlots info detail slots).childrenAs p := by
  have child : n.as p ∈ slots.flatMap Slot.nodes :=
    List.mem_flatMap.mpr ⟨_, among, List.mem_singleton_self _⟩
  exact List.mem_filter.mpr ⟨child, by simp⟩

@[simp] theorem Node.range_ofSlots (info : NodeInfo) (detail : Detail) (slots : List Slot) :
    (Node.ofSlots info detail slots).range = info.range := rfl

@[simp] theorem Node.range_as (n : Node) (p : Part) : (n.as p).range = n.range := by cases n; rfl

@[simp] theorem Node.containsError_ofSlots (info : NodeInfo) (detail : Detail)
    (slots : List Slot) :
    (Node.ofSlots info detail slots).containsError = info.flags.containsError := rfl

theorem tiered_binary {left operator right : Node} (h : operator.kind.isJoining →
      (operator.kind.takesLeft left.tier ∨ left.isCast ∨ left.Trails) ∧
        operator.kind.takesRight right.tier) :
    Tiered .binaryExpression ([Slot.one .left left, .one .operatorToken operator,
      .one .right right].flatMap Slot.nodes) := by
  simpa [Tiered, playing, Slot.nodes] using h

theorem tiered_comma {left operator right : Node} (comma : operator.kind = .commaToken) :
    Tiered .binaryExpression ([Slot.one .left left, .one .operatorToken operator,
      .one .right right].flatMap Slot.nodes) :=
  tiered_binary fun joins => (by simp [comma, Kind.isJoining] at joins)

/-- What holds of the nodes in the slots of a part holds of the children that play it. -/
theorem forall_playing {p : Part} {P : Node → Prop} {slots : List Slot}
    (as : ∀ n : Node, P (n.as p) ↔ P n)
    (all : ∀ slot ∈ slots, slot.part = p → ∀ n ∈ held slot, P n) :
    ∀ c ∈ playing p (slots.flatMap Slot.nodes), P c := by
  intro c hc
  rw [playing_slots] at hc
  obtain ⟨slot, among, inside⟩ := List.mem_flatMap.mp hc
  obtain ⟨among, same⟩ := List.mem_filter.mp among
  have same : slot.part = p := eq_of_beq same
  obtain ⟨q, nodes⟩ := slot.nodes_eq
  have part := Slot.part_of_mem inside
  rw [nodes] at inside
  obtain ⟨n, held, rfl⟩ := List.mem_map.mp inside
  rw [Node.part_as, same] at part
  rw [part]
  exact (as n).mpr (all slot among same n held)

/-- The ways to read a token again that only markup uses. -/
def Rereading.isMarkup : Rereading → Bool
  | .content | .tagName => true
  | .greater | .slash | .template _ => false

namespace Parse

/-- Only marks that say nothing of errors differ. -/
structure Marked (a b : NodeInfo) : Prop where
  kind : b.kind = a.kind
  range : b.range = a.range
  id : b.id = a.id
  missing : b.flags.missing = a.flags.missing
  hasError : b.flags.hasError = a.flags.hasError
  containsError : b.flags.containsError = a.flags.containsError

theorem Marked.refl (a : NodeInfo) : Marked a a := ⟨rfl, rfl, rfl, rfl, rfl, rfl⟩

/-- The range can be cut out of the source. -/
def State.Cuts (s : State) (range : Range) : Prop :=
  s.scanner.source.sliceable range.pos range.stop

theorem State.Clear.cuts_token {s : State} (h : s.Clear) : s.Cuts s.tokenRange :=
  Source.sliceable_of h.sound.start_le h.sound.start h.sound.stands.boundary

/-- The nodes stand from `pos` to `stop` without a gap. -/
def Tiles (pos : Nat) : List Node → (stop : Nat) → Prop
  | [], stop => pos = stop
  | n :: ns, stop => n.range.pos = pos ∧ Tiles n.range.stop ns stop

theorem Tiles.append {ms ns : List Node} {pos mid stop : Nat} (h : Tiles pos ms mid)
    (k : Tiles mid ns stop) : Tiles pos (ms ++ ns) stop := by
  induction ms generalizing pos with
  | nil => exact h ▸ k
  | cons m ms ih => exact ⟨h.1, ih h.2⟩

theorem tiles_singleton {n : Node} {pos stop : Nat} (range : n.range = ⟨pos, stop⟩) :
    Tiles pos [n] stop := ⟨congrArg Range.pos range, congrArg Range.stop range⟩

theorem Tiles.as {ns : List Node} {pos stop : Nat} (h : Tiles pos ns stop) (p : Part) :
    Tiles pos (ns.map (·.as p)) stop := by
  induction ns generalizing pos with
  | nil => exact h
  | cons n ns ih =>
    refine ⟨by simpa using h.1, ?_⟩
    rw [Node.range_as]
    exact ih h.2

/-- A tag, content and a tag. The content stands from the end of one tag to the beginning of the
other without a gap. -/
def Enclosed (opens closes : Kind) (range : Range) (parts : List Node) : Prop :=
  ∃ opening content closing, parts = opening :: (content ++ [closing]) ∧
    (opening.kind = opens ∧ opening.range.pos = range.pos) ∧
    Tiles opening.range.stop content closing.range.pos ∧
    (closing.kind = closes ∧ closing.range.stop = range.stop)

theorem enclosed_slots {opens closes : Kind} {range : Range} {opening closing : Node}
    {content : List Node} (p q r : Part)
    (opened : opening.kind = opens ∧ opening.range.pos = range.pos)
    (tiles : Tiles opening.range.stop content closing.range.pos)
    (closed : closing.kind = closes ∧ closing.range.stop = range.stop) :
    Enclosed opens closes range
      ([Slot.one p opening, .list q content, .one r closing].flatMap Slot.nodes) := by
  refine ⟨opening.as p, content.map (·.as q), closing.as r, by simp [Slot.nodes], ?_, ?_, ?_⟩
  · simpa using opened
  · simpa using tiles.as q
  · simpa using closed

/-- The parts of an element leave no gap, and text is what the source has there. -/
def Seamless (src : Source) (kind : Kind) (range : Range) (detail : Detail) (parts : List Node) :
    Prop :=
  match kind with
  | .jsxElement => Enclosed .jsxOpeningElement .jsxClosingElement range parts
  | .jsxFragment => Enclosed .jsxOpeningFragment .jsxClosingFragment range parts
  | .jsxText => ∃ blank, detail = .content (src.slice range.pos range.stop) blank
  | _ => True

/-- A node is seamless as long as nothing was reported. -/
def State.Joins (t : State) (kind : Kind) (range : Range) (detail : Detail) (parts : List Node) :
    Prop := t.diagnostics = #[] → Seamless t.scanner.source kind range detail parts

theorem joins_of_isBracketing {kind : Kind} (lone : kind.isBracketing = true) (t : State)
    (range : Range) (detail : Detail) (parts : List Node) : t.Joins kind range detail parts := by
  intro _
  unfold Seamless
  split
  all_goals trivial

/-- A token is no part of an element. -/
theorem joins_told {s : State} {kind : Kind} {detail : Detail} (tells : Tells s kind detail)
    (t : State) (range : Range) (parts : List Node) : t.Joins kind range detail parts := by
  intro _
  unfold Seamless
  cases tells with
  | sign plain =>
    split
    all_goals first | trivial | next same => rw [same] at plain; cases plain
  | word | privateName => trivial
  | text text =>
    split
    all_goals first | trivial | next same => rw [same] at text; cases text

/-- At `t`, in a parse that began at `s`, the range may be reported. -/
def Since (s t : State) (range : Range) : Prop := t.Cuts range ∧ s.prevEnd ≤ range.pos

/-- What is missing at the token was reported: there, or since the last node was closed. -/
structure State.Blamed (s : State) : Prop where
  some : s.diagnostics ≠ #[]
  told : s.errorPending ∨ s.diagnostics.back?.any (·.range.pos == s.tokenPos)

inductive Yields : State → State → List Node → Prop where
  | refl (s) : Yields s s []
  | trans {s t u ms ns} : Yields s t ms → Yields t u ns → Yields s u (ms ++ ns)
  | drop {s t ms ns} : Yields s t ns → ms.Sublist ns → Yields s t ms
  | advance (r) {s} : (r ≠ .plain → s.options.isJsx) → Yields s (s.advance r) []
  | greater (s) : Yields s (s.reread .greater) []
  /-- A token that is read again is taken then. Content is read anew only after an error. -/
  | settle (r) {s t ns} : (r.isMarkup → s.options.isJsx) → (r = .content → s.diagnostics ≠ #[]) →
      Yields (s.reread r) t ns → s.prevEnd < t.prevEnd → Yields s t ns
  | report (range message args) {s t ns} : Yields s t ns → range = t.tokenRange ∨ Since s t range →
      Yields s (t.report range message args) ns
  | enterName (name s) : Yields s (s.enterName name) []
  | inContext (c) {s t ns} : Yields (s.withContext c) t ns → Yields s (t.withContext s.context) ns
  | inList (l) {s t ns} : Yields (s.withLists l) t ns → Yields s (t.withLists s.lists) ns
  | nested {s t ns} : Yields (s.withDepth (s.depth + 1)) t ns → Yields s (t.withDepth s.depth) ns
  | kept {s t ns} : Yields s.openAttempt t ns → Yields s t.closeAttempt ns
  | rolledBack {s t ns} : Yields s.openAttempt t ns → Yields s (t.rollback s.checkpoint) []
  | node (kind detail slots) {s t info} : Yields s t (slots.flatMap held) →
      Marked (t.close kind s.nodeStart).1 info → Formed s t kind info detail slots →
      Tiered kind (slots.flatMap Slot.nodes) →
      t.Joins kind info.range detail (slots.flatMap Slot.nodes) →
      Yields s (t.close kind s.nodeStart).2 [.ofSlots info detail slots]
  /-- A node around one that was there before. -/
  | around (kind slots) {s t first} : Yields s t [first] → slots.flatMap held = [first] →
      Formed s t kind (t.close kind (t.nodeStartAt first.info)).1 .none slots →
      Tiered kind (slots.flatMap Slot.nodes) →
      t.Joins kind (t.close kind (t.nodeStartAt first.info)).1.range .none
        (slots.flatMap Slot.nodes) →
      Yields s (t.close kind (t.nodeStartAt first.info)).2
        [.ofSlots (t.close kind (t.nodeStartAt first.info)).1 .none slots]
  | missing (kind detail) {s} : s.Blamed → kind.isVerbatim = false → kind.isLink = false →
      Yields s (s.closeMissing kind).2 [.leaf (s.closeMissing kind).1 detail]
  /-- A placeholder around a placeholder. -/
  | missingAround (kind slots) {s t first} : s.diagnostics ≠ #[] → Yields s t [first] →
      slots.flatMap held = [first] → first.isMissing → first.range = .empty s.tokenPos →
      Formed s t kind (t.close kind s.nodeStart).1 .none slots →
      Tiered kind (slots.flatMap Slot.nodes) →
      Yields s (t.close kind s.nodeStart).2
        [.ofSlots { (t.close kind s.nodeStart).1 with
            range := first.range
            flags := { (t.close kind s.nodeStart).1.flags with missing := true } } .none slots]
  /-- A placeholder for a closing tag gets the one for its name afterwards. -/
  | missingTag {s} : s.options.isJsx → s.Blamed →
      Yields s ((s.closeMissing .jsxClosingElement).2.closeMissing .identifier).2
        [.ofSlots (s.closeMissing .jsxClosingElement).1 .none [.one .tagName
          (.leaf ((s.closeMissing .jsxClosingElement).2.closeMissing .identifier).1
            (.name "" none))]]

variable {s t u : State} {ms ns : List Node}

/-- The token at the cursor can always be reported. -/
theorem yields_reportHere (message : Message) (args : List String) (s : State) :
    Yields s (s.report s.tokenRange message args) [] := .report _ message args (.refl s) (.inl rfl)

theorem Yields.moves (y : Yields s t ns) : Moves s t := by
  induction y with
  | refl s => exact .refl s
  | trans _ _ first second => exact .trans first second
  | drop _ _ ih => exact ih
  | advance r => exact .advance r _
  | greater s => exact .reread .greater s
  | settle r _ _ _ _ ih => exact .trans (.reread r _) ih
  | report range message args _ _ ih => exact .trans ih (.report range message args _)
  | enterName name s => exact .enterName name s
  | inContext c _ ih => exact .inContext c ih
  | inList l _ ih => exact .inList l ih
  | nested _ ih => exact .nested ih
  | kept _ ih => exact .kept ih
  | rolledBack _ ih => exact .rolledBack ih
  | node kind _ _ _ _ _ _ _ ih => exact .trans ih (.close kind _ _)
  | around kind _ _ _ _ _ _ ih => exact .trans ih (.close kind _ _)
  | missing kind => exact .closeMissing kind _
  | missingAround kind _ _ _ _ _ _ _ _ ih => exact .trans ih (.close kind _ _)
  | missingTag => exact .trans (.closeMissing _ _) (.closeMissing _ _)

/-- No bound was reached, and no loop turned without taking a token. -/
theorem Yields.bounded (y : Yields s t ns) :
    t.exhausted = s.exhausted ∧ t.stalled = s.stalled := by
  induction y with
  | trans _ _ first second => exact ⟨second.1.trans first.1, second.2.trans first.2⟩
  | drop _ _ ih | settle _ _ _ _ _ ih | inContext _ _ ih | inList _ _ ih | nested _ ih | kept _ ih
  | rolledBack _ ih | node _ _ _ _ _ _ _ _ ih | around _ _ _ _ _ _ _ ih
  | missingAround _ _ _ _ _ _ _ _ _ ih | report _ _ _ _ _ ih => exact ih
  | refl | advance | greater | enterName | missing | missingTag => exact ⟨rfl, rfl⟩

end Parse
end ScriptGrammar
