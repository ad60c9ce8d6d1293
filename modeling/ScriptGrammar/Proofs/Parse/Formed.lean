import ScriptGrammar.Parse.Modifier
import ScriptGrammar.Proofs.Parse.Chains
import ScriptGrammar.Proofs.Parse.Frame

/-!
# How a node is formed

What is asked of a node when it is closed, beside the tiers of its operands: a leaf is the token
it stands on, the flags of a node are those of its modifiers, what stands in brackets was read
under the grammar that brackets open, and a link carries the mark of its chain. Of most kinds of
nodes nothing is asked; they are told by `Kind.isFree`.
-/

namespace ScriptGrammar

namespace Kind

variable {k : Kind}

/-- A token that is a node by itself. -/
def isPlain (k : Kind) : Bool := k.isPunctuation || k.isKeywordToken

/-- A token that is a node with its value. -/
def isText : Kind → Bool
  | .numericLiteral | .bigIntLiteral | .stringLiteral | .regularExpressionLiteral
  | .noSubstitutionTemplateLiteral | .templateHead | .templateMiddle | .templateTail => true
  | _ => false

/-- A literal whose value is what the source has there. -/
def isVerbatim : Kind → Bool
  | .numericLiteral | .bigIntLiteral | .regularExpressionLiteral => true
  | _ => false

theorem isVerbatim_of_isPlain (h : k.isPlain = true) : k.isVerbatim = false := by
  cases k <;> first | rfl | cases h

theorem not_isLink_of_isPlain (h : k.isPlain = true) : k.isLink = false := by
  cases k <;> first | rfl | cases h

theorem more_of_isPlain (h : k.isPlain = true) : k ≠ .endOfFileToken := by
  rintro rfl
  cases h

theorem more_of_isText (h : k.isText = true) : k ≠ .endOfFileToken := by
  rintro rfl
  cases h

end Kind

namespace Parse

/-- A leaf carries what the token at `s` tells. -/
inductive Tells (s : State) : Kind → Detail → Prop where
  | sign (plain : s.token.isPlain) : Tells s s.token .none
  | word (word : s.token.isWord) (keyword : Option Kind) :
      Tells s .identifier (.name s.scanner.value keyword)
  | privateName (at_ : s.token = .privateIdentifier) :
      Tells s .privateIdentifier (.privateName s.scanner.value)
  | text (text : s.token.isText) (flags : TokenFlags) :
      Tells s s.token (.literal s.scanner.value flags)

/-- From `s` to `t` the token at `s` was taken, and no placeholder was left. -/
structure Passes (s t : State) : Prop where
  prevEnd : t.prevEnd = s.scanner.stop
  missingAt : t.missingAt = s.missingAt

theorem passes_advance (r : Reading) (s : State) : Passes s (s.advance r) := ⟨rfl, rfl⟩

end Parse

def Slot.part : Slot → Part
  | .one p _ | .opt p _ | .list p _ | .optList p _ => p

/-- The children that the slots of a part hold. -/
def slotsAs (p : Part) (slots : List Slot) : List Node :=
  (slots.filter (·.part == p)).flatMap Slot.nodes

theorem Slot.part_of_mem {slot : Slot} {n : Node} (h : n ∈ slot.nodes) : n.part = slot.part := by
  have part_as (n : Node) (p : Part) : (n.as p).part = p := by cases n; rfl
  cases slot with
  | one p m => rw [List.mem_singleton.mp h]; exact part_as _ _
  | opt p m | list p ms | optList p ms =>
    obtain ⟨m, _, rfl⟩ := List.mem_map.mp h
    exact part_as _ _

theorem playing_slots (p : Part) (slots : List Slot) :
    playing p (slots.flatMap Slot.nodes) = slotsAs p slots := by
  unfold playing slotsAs
  induction slots with
  | nil => rfl
  | cons slot slots ih =>
    rw [List.flatMap_cons, List.filter_append, ih, List.filter_cons]
    split
    · next same =>
      rw [List.flatMap_cons, List.filter_eq_self.mpr fun n hn => ?_]
      rwa [Slot.part_of_mem hn]
    · next other =>
      rw [List.filter_eq_nil_iff.mpr fun n hn => ?_, List.nil_append]
      rwa [Slot.part_of_mem hn]

/-- The flags of a node with these slots: those of its modifiers, but for a `this` parameter. -/
def slotFlags (kind : Kind) (slots : List Slot) : ModifierFlags :=
  if kind == .parameter && (slotsAs .name slots).any Node.isThis then {}
  else modifierFlags (some (slotsAs .modifiers slots))

@[simp] theorem slotFlags_nil (kind : Kind) : slotFlags kind [] = {} := by
  simp [slotFlags, slotsAs, modifierFlags]

/-- The modifiers of a node stand in one slot. -/
theorem modifierFlags_slots (mods : Option (List Node)) {slots : List Slot}
    (bare : slotsAs .modifiers slots = []) :
    modifierFlags (some (slotsAs .modifiers (.optList .modifiers mods :: slots))) =
      modifierFlags mods := by
  have kind_as (n : Node) (p : Part) : (n.as p).kind = n.kind := by cases n; rfl
  have only : slotsAs .modifiers (.optList .modifiers mods :: slots) =
      (Slot.optList .modifiers mods).nodes := by
    change (Slot.optList .modifiers mods).nodes ++ slotsAs .modifiers slots = _
    rw [bare, List.append_nil]
  rw [only]
  simp only [modifierFlags, Slot.nodes, Option.getD_some, List.foldl_map, kind_as]

/-- The mark of a chain goes on from the target of a link, and its own `?.` sets it. -/
theorem Node.chains_ofSlots {info : NodeInfo} {slots : List Slot} {e : Node} {mark : Bool}
    (detail : Detail) (chained : info.kind.isChained)
    (target : slotsAs info.kind.targetPart slots = [e.as info.kind.targetPart])
    (rest : e.Chains mark) :
    (Node.ofSlots info detail slots).Chains
      (mark || !(slotsAs .questionDotToken slots).isEmpty) := by
  have part (p : Part) : (Node.ofSlots info detail slots).childrenAs p = slotsAs p slots :=
    playing_slots p slots
  have own : (Node.ofSlots info detail slots).hasQuestionDot =
      !(slotsAs .questionDotToken slots).isEmpty := by rw [Node.hasQuestionDot, part]
  rw [← own]
  exact .behind chained ((part _).trans target) (rest.as _)

namespace Node

/-- The node was read where `in` is an operator. -/
def allowsIn (n : Node) : Bool := !n.info.flags.context.disallowIn

/-- The node was read outside of a decorator. -/
def isUndecorated (n : Node) : Bool := !n.info.flags.context.decorator

/-- What marks a place in a list and is no value itself. -/
def isPlace (n : Node) : Bool := n.kind == .spreadElement || n.kind == .omittedExpression

end Node

/-- What stands in brackets was read under the grammar they open. -/
def Bracketed (kind : Kind) (children : List Node) : Prop :=
  match kind with
  | .callExpression | .newExpression =>
    ∀ c ∈ playing .arguments children, c.isPlace ∨ c.allowsIn
  | .arrayLiteralExpression => ∀ c ∈ playing .elements children, c.isPlace ∨ c.allowsIn
  | .spreadElement | .spreadAssignment => ∀ c ∈ playing .expression children, c.allowsIn
  | .propertyAssignment => ∀ c ∈ playing .initializer children, c.allowsIn
  | .shorthandPropertyAssignment =>
    ∀ c ∈ playing .objectAssignmentInitializer children, c.allowsIn
  | .parenthesizedExpression | .computedPropertyName | .templateSpan =>
    ∀ c ∈ playing .expression children, c.allowsIn ∧ c.isUndecorated
  | .elementAccessExpression =>
    ∀ c ∈ playing .argumentExpression children, c.isMissing ∨ c.allowsIn ∧ c.isUndecorated
  | _ => True

theorem bracketed_nil (kind : Kind) : Bracketed kind [] := by
  unfold Bracketed
  split
  all_goals trivial

namespace Parse

/-- A node of this kind, begun at `s`, may be closed at `t`. -/
structure Formed (s t : State) (kind : Kind) (info : NodeInfo) (detail : Detail)
    (slots : List Slot) : Prop where
  leaf : kind.isLeaf = true → slots = [] ∧ Passes s t ∧ Tells s kind detail
  modifiers : info.modifiers = slotFlags kind slots
  bracketed : Bracketed kind (slots.flatMap Slot.nodes)
  chained : kind.isLink = true →
    (Node.ofSlots info detail slots).Chains info.flags.optionalChain

variable {s t : State} {kind : Kind} {info : NodeInfo} {detail : Detail} {slots : List Slot}

theorem bracketed_of_isFree (free : kind.isFree = true) (children : List Node) :
    Bracketed kind children := by
  unfold Bracketed
  split
  all_goals trivial

theorem not_isLeaf_of_isFree (free : kind.isFree = true) : kind.isLeaf = false := by
  unfold Kind.isFree at free
  split at free
  all_goals first | cases free | simpa using free

theorem not_isLeaf_of_isBracketing (lone : kind.isBracketing = true) : kind.isLeaf = false := by
  unfold Kind.isBracketing at lone
  split at lone
  all_goals first | rfl | exact not_isLeaf_of_isFree lone

theorem not_isLink_of_isFree (free : kind.isFree = true) : kind.isLink = false := by
  unfold Kind.isLink
  split
  all_goals first | rfl | cases free

theorem slotFlags_of_isBracketing (lone : kind.isBracketing = true) (slots : List Slot) :
    slotFlags kind slots = modifierFlags (some (slotsAs .modifiers slots)) := by
  have other : kind ≠ .parameter := by
    rintro rfl
    cases lone
  simp [slotFlags, other]

theorem formed_of_isBracketing (lone : kind.isBracketing = true)
    (modifiers : info.modifiers = modifierFlags (some (slotsAs .modifiers slots)))
    (bracketed : Bracketed kind (slots.flatMap Slot.nodes))
    (chained : kind.isLink = true →
      (Node.ofSlots info detail slots).Chains info.flags.optionalChain) :
    Formed s t kind info detail slots where
  leaf leaf := by rw [not_isLeaf_of_isBracketing lone] at leaf; cases leaf
  modifiers := modifiers.trans (slotFlags_of_isBracketing lone slots).symm
  bracketed := bracketed
  chained := chained

theorem formed_of_isFree (free : kind.isFree = true)
    (modifiers : info.modifiers = modifierFlags (some (slotsAs .modifiers slots))) :
    Formed s t kind info detail slots :=
  formed_of_isBracketing (Kind.isBracketing_of_isFree free) modifiers (bracketed_of_isFree free _)
    fun link => by rw [not_isLink_of_isFree free] at link; cases link

/-- A token is no link. -/
theorem not_isLink_of_tells (tells : Tells s kind detail) : kind.isLink = false := by
  cases tells with
  | sign plain => exact Kind.not_isLink_of_isPlain plain
  | word | privateName => rfl
  | text text =>
    unfold Kind.isLink
    split
    all_goals first | rfl | next same => rw [same] at text; cases text

/-- A leaf is formed by the token it stands on. -/
theorem formed_leaf (passes : Passes s t) (tells : Tells s kind detail)
    (modifiers : info.modifiers = {}) : Formed s t kind info detail [] where
  leaf _ := ⟨rfl, passes, tells⟩
  modifiers := modifiers.trans (slotFlags_nil kind).symm
  bracketed := bracketed_nil kind
  chained link := by rw [not_isLink_of_tells tells] at link; cases link

end Parse
end ScriptGrammar
