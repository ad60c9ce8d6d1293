import ScriptGrammar.Parse.Expression
import ScriptGrammar.Proofs.Scanner.Faithful

/-!
# Operands and their tiers

Each operator takes operands of its own tier or tighter ones. `Tiered` says so of a node when it
is closed; it is a premise of closing one, so it holds of every tree. What a goal promises is what
the operator around its answer has to know: how tightly the answer holds together, and that no
operator was left at the cursor that should have gone into it. There are two exceptions. Behind
`as` and `satisfies` any operator goes on. An arrow function with a block, a `yield` alone and a
placeholder break off: they end before what follows was looked at, and so do an assignment and a
conditional expression that end in one.
-/

namespace ScriptGrammar

namespace Node

/-- How tightly a value holds together, as an operand. -/
def tier (n : Node) : Tier :=
  match n.kind with
  | .binaryExpression => ((n.childAs? .operatorToken).map (·.kind.binaryTier)).getD .invalid
  | .arrowFunction | .yieldExpression => .assignment
  | .conditionalExpression => .conditional
  | .asExpression | .satisfiesExpression => .relational
  | _ => .invalid

/-- A value that ends before the operator behind it was looked at. -/
inductive BreaksOff : Node → Prop where
  | missing {n : Node} (missing : n.isMissing) : BreaksOff n
  | bareYield {n : Node} (kind : n.kind = .yieldExpression)
      (bare : n.childrenAs .expression = []) : BreaksOff n
  | yield {n e : Node} (kind : n.kind = .yieldExpression) (he : e ∈ n.childrenAs .expression)
      (inner : BreaksOff e) : BreaksOff n
  | block {n body : Node} (kind : n.kind = .arrowFunction) (hb : body ∈ n.childrenAs .body)
      (block : body.kind = .block) : BreaksOff n
  | arrow {n body : Node} (kind : n.kind = .arrowFunction) (hb : body ∈ n.childrenAs .body)
      (inner : BreaksOff body) : BreaksOff n

/-- An assignment or a conditional expression that ends in a value which breaks off. -/
def Trails (n : Node) : Prop :=
  (n.kind = .binaryExpression ∧ n.tier = .assignment ∧ ∃ e ∈ n.childrenAs .right, e.BreaksOff) ∨
    n.kind = .conditionalExpression ∧ ∃ e ∈ n.childrenAs .whenFalse, e.BreaksOff

/-- A value behind which every operator goes on. -/
def isCast (n : Node) : Bool := n.kind == .asExpression || n.kind == .satisfiesExpression

end Node

namespace Kind

/-- The operator takes an operand of tier `t` on its left. -/
def takesLeft (k : Kind) (t : Tier) : Bool :=
  if k.isRightAssociative then k.binaryTier.looserThan t else !t.looserThan k.binaryTier

/-- The operator takes an operand of tier `t` on its right. -/
def takesRight (k : Kind) (t : Tier) : Bool :=
  if k.isRightAssociative then !t.looserThan k.binaryTier else k.binaryTier.looserThan t

/-- The loosest operand that the operator takes on its right. -/
def rightTier (k : Kind) : Tier := if k.isRightAssociative then k.binaryTier else k.binaryTier.next

/-- An operator between values that is neither a comma nor an assignment. -/
def isJoining (k : Kind) : Bool := k != .commaToken && !k.isAssignment

/-- A node that no operator between operands takes part in. -/
def isOperand : Kind → Bool
  | .binaryExpression | .arrowFunction | .yieldExpression | .conditionalExpression
  | .asExpression | .satisfiesExpression => false
  | _ => true

/-- What is written behind an operand and is marked where it stands behind a `?.`. -/
def isLink : Kind → Bool
  | .propertyAccessExpression | .elementAccessExpression | .callExpression
  | .nonNullExpression => true
  | _ => false

/-- What is written behind an operand: a link, or a template. -/
def isChained (k : Kind) : Bool := k.isLink || k == .taggedTemplateExpression

/-- An operand that stands first in a chain. -/
def isFirst (k : Kind) : Bool := k.isOperand && !k.isChained

theorem isOperand_of_isFirst {k : Kind} (first : k.isFirst = true) : k.isOperand = true :=
  (Bool.and_eq_true_iff.mp first).1

/-- How tightly a type holds together, as an operand. -/
def typeGrip : Kind → Tier
  | .conditionalType | .functionType | .constructorType => .conditional
  | .unionType => .bitwiseOr
  | .intersectionType => .bitwiseAnd
  | .typeOperator => .unary
  | _ => .invalid

end Kind

/-- The tiers whose operators group to the right. -/
def Tier.isRightward (t : Tier) : Bool :=
  [assignment, conditional, exponentiation].any (·.value == t.value)

theorem Tier.value_next {t : Tier} (le : t.value ≤ Tier.exponentiation.value) :
    t.next.value = t.value + 1 := by
  revert le
  cases t <;> decide

namespace Kind

variable {k l : Kind} {t : Tier}

theorem binaryTier_le (valid : k.binaryTier.isValid) :
    k.binaryTier.value ≤ Tier.exponentiation.value := by
  unfold binaryTier at valid ⊢
  split
  · decide
  · next other =>
    rw [if_neg other] at valid
    split at valid
    all_goals first | decide | cases valid

/-- Only a comma is looser than an assignment. -/
theorem assignment_le_binaryTier (k : Kind) :
    k.binaryTier = .comma ∨ k.binaryTier.looserThan .assignment = false := by
  cases k <;> first | exact .inl rfl | exact .inr rfl

/-- Operators of one tier group alike. -/
theorem isRightAssociative_eq (k : Kind) : k.isRightAssociative = k.binaryTier.isRightward := by
  cases k <;> rfl

theorem takesLeft_of_looserThan (tight : k.binaryTier.looserThan t) : k.takesLeft t := by
  unfold takesLeft
  split
  · exact tight
  · simp only [Tier.looserThan, decide_eq_true_eq, Bool.not_eq_true', decide_eq_false_iff_not]
      at tight ⊢
    omega

theorem takesLeft_invalid (valid : k.binaryTier.isValid) : k.takesLeft .invalid := by
  apply takesLeft_of_looserThan
  have le := binaryTier_le valid
  exact decide_eq_true (Nat.lt_of_le_of_lt le (by decide))

theorem takesRight_of_rightTier (valid : k.binaryTier.isValid)
    (tight : t.looserThan k.rightTier = false) : k.takesRight t := by
  have next := Tier.value_next (binaryTier_le valid)
  unfold takesRight
  unfold rightTier at tight
  split
  · next right => simpa [right] using tight
  · next left =>
    rw [if_neg left] at tight
    simp only [Tier.looserThan, decide_eq_true_eq, decide_eq_false_iff_not] at tight ⊢
    omega

/-- Operators that group differently have different tiers. -/
theorem binaryTier_ne (right : l.isRightAssociative) (left : ¬ k.isRightAssociative) :
    l.binaryTier.value ≠ k.binaryTier.value := by
  intro same
  rw [isRightAssociative_eq, Tier.isRightward] at left right
  exact left (same ▸ right)

/-- Behind an operation comes an operator that was too loose for its right operand. -/
theorem takesLeft_of_rightTier (valid : k.binaryTier.isValid)
    (loose : l.binaryTier.looserThan k.rightTier) : l.takesLeft k.binaryTier := by
  have next := Tier.value_next (binaryTier_le valid)
  unfold rightTier at loose
  split at loose
  · exact takesLeft_of_looserThan loose
  · next left =>
    have le : l.binaryTier.value ≤ k.binaryTier.value := by
      simp only [Tier.looserThan, decide_eq_true_eq] at loose
      omega
    unfold takesLeft
    split
    · next right => exact decide_eq_true (Nat.lt_of_le_of_ne le (binaryTier_ne right left))
    · simp only [Tier.looserThan, Bool.not_eq_true', decide_eq_false_iff_not]
      omega

end Kind

theorem Node.tier_of_isOperand {n : Node} (operand : n.kind.isOperand) : n.tier = .invalid := by
  unfold Node.tier
  split
  all_goals first | rfl | simp_all [Kind.isOperand]

theorem Node.tier_of_isCast {n : Node} (cast : n.isCast) : n.tier = .relational := by
  simp only [Node.isCast, Bool.or_eq_true, beq_iff_eq] at cast
  rcases cast with kind | kind
  · simp [Node.tier, kind]
  · simp [Node.tier, kind]

/-- The children that play a part. -/
def playing (p : Part) (children : List Node) : List Node := children.filter (·.part == p)

/-- The operands of a node are as tight as its operator asks for. -/
def Tiered (kind : Kind) (children : List Node) : Prop :=
  match kind with
  | .binaryExpression => ∀ operator ∈ playing .operatorToken children, operator.kind.isJoining →
      (∀ e ∈ playing .left children,
        operator.kind.takesLeft e.tier ∨ e.isCast ∨ e.Trails) ∧
      ∀ e ∈ playing .right children, operator.kind.takesRight e.tier
  | .asExpression | .satisfiesExpression =>
    ∀ e ∈ playing .expression children, Kind.asKeyword.takesLeft e.tier ∨ e.Trails
  | .conditionalExpression =>
    ∀ e ∈ playing .condition children, Kind.questionToken.takesLeft e.tier ∨ e.Trails
  | .unionType => ∀ c ∈ playing .types children, Tier.bitwiseOr.looserThan c.kind.typeGrip
  | .intersectionType => ∀ c ∈ playing .types children, Tier.bitwiseAnd.looserThan c.kind.typeGrip
  | .arrayType => ∀ c ∈ playing .elementType children, Tier.unary.looserThan c.kind.typeGrip
  | .indexedAccessType => ∀ c ∈ playing .objectType children, Tier.unary.looserThan c.kind.typeGrip
  | .typeOperator => ∀ c ∈ playing .typeNode children, Tier.bitwiseAnd.looserThan c.kind.typeGrip
  | .conditionalType =>
    (∀ c ∈ playing .checkType children, c.kind ≠ .conditionalType) ∧
      ∀ c ∈ playing .extendsType children, c.kind ≠ .conditionalType
  | _ => True

/-- The kinds of which nothing is asked when they are closed. -/
def Kind.isFree : Kind → Bool
  | .binaryExpression | .asExpression | .satisfiesExpression | .conditionalExpression
  | .unionType | .intersectionType | .arrayType | .indexedAccessType | .typeOperator
  | .conditionalType | .jsxElement | .jsxFragment | .jsxText
  | .callExpression | .newExpression | .arrayLiteralExpression | .spreadElement
  | .spreadAssignment | .propertyAssignment | .shorthandPropertyAssignment
  | .parenthesizedExpression | .computedPropertyName | .templateSpan | .elementAccessExpression
  | .propertyAccessExpression | .nonNullExpression | .parameter => false
  | k => !k.isLeaf

/-- The kinds of which no more is asked than what stands in brackets and how links are marked. -/
def Kind.isBracketing : Kind → Bool
  | .callExpression | .newExpression | .arrayLiteralExpression | .spreadElement
  | .spreadAssignment | .propertyAssignment | .shorthandPropertyAssignment
  | .parenthesizedExpression | .computedPropertyName | .templateSpan
  | .elementAccessExpression | .propertyAccessExpression | .nonNullExpression => true
  | k => k.isFree

theorem Kind.isBracketing_of_isFree {kind : Kind} (free : kind.isFree = true) :
    kind.isBracketing = true := by
  unfold isBracketing
  split
  all_goals first | rfl | exact free

theorem tiered_of_isBracketing {kind : Kind} (lone : kind.isBracketing = true)
    (children : List Node) : Tiered kind children := by
  unfold Tiered
  split
  all_goals trivial

theorem tiered_nil (kind : Kind) : Tiered kind [] := by
  unfold Tiered
  split
  all_goals simp [playing]

/-- The name `this`. -/
def Node.isThis (n : Node) : Bool :=
  match n.detail with
  | .name _ (some .thisKeyword) => true
  | _ => false

namespace Parse.State

variable (s : State)

/-- The operator at the cursor may not go on with a value here, or not with an operation. -/
def refuses (operation : Bool) : Bool :=
  s.token == .inKeyword && s.context.disallowIn ||
    (s.token == .asKeyword || s.token == .satisfiesKeyword) && s.onNewLine ||
    s.token.isAssignment && operation

/-- No operator stands at the cursor that binds a value as tightly as `min`. -/
def rests (min : Tier) (operation : Bool) : Bool :=
  !s.token.binaryTier.isValid || s.token.binaryTier.looserThan min ||
    s.token.binaryTier == .comma || s.refuses operation

theorem rests_congr {s t : State} {min : Tier} {operation : Bool} (token : t.token = s.token)
    (line : t.onNewLine = s.onNewLine) (context : t.context.disallowIn = s.context.disallowIn) :
    t.rests min operation = s.rests min operation := by
  simp only [rests, refuses, token, line, context]

/-- An operator between types stands at the cursor, or a bracket behind one. -/
def joinsType : Bool :=
  match s.token with
  | .barToken | .ampersandToken => true
  | .openBracketToken => !s.onNewLine
  | _ => false

/-- What joins types at the cursor is looser than `tier`. -/
def EndsType (tier : Tier) : Prop := s.joinsType → s.token.typeTier.looserThan tier

/-- Content is at the cursor. It begins where the last token ended: the end of the source, a tag, a
brace, or text as the source has it. -/
structure OnContent : Prop where
  pos : s.tokenPos = s.prevEnd
  token : s.token ∈ [.endOfFileToken, .lessThanToken, .lessThanSlashToken, .openBraceToken] ∨
    s.token ∈ [.jsxText, .jsxTextAllWhiteSpaces] ∧ s.scanner.value = s.scanner.text

end Parse.State

/-- The node reaches from where it was begun to the content behind it. -/
def Spans (s : Parse.State) (n : Node) (t : Parse.State) : Prop :=
  t.diagnostics = #[] → t.OnContent ∧ n.range = ⟨s.tokenPos, t.tokenPos⟩

/-- A type down to the tier `min`: its operator is as tight, one of a prefix aside, and so is none
that was left at the cursor. -/
structure TypeAnswer (min : Tier) (s : Parse.State) (n : Node) (t : Parse.State) : Prop where
  grip : n.kind.typeGrip.looserThan min = false ∨ n.kind = .typeOperator
  ends : n.kind ≠ .conditionalType → t.EndsType min
  bare : s.context.disallowConditionalTypes → n.kind ≠ .conditionalType

/-- A value down to the tier `min`. -/
structure ValueAnswer (min : Tier) (n : Node) (t : Parse.State) : Prop where
  tier : n.tier.looserThan min = false
  rests : t.rests min n.kind.isOperation
  settled : (t.reread .greater).token = t.token

/-- No operator is left behind a value that could have gone on with it, unless it breaks off. -/
def ValueEnds (n : Node) (t : Parse.State) : Prop := t.rests .assignment true ∨ n.BreaksOff

/-- What the operator or the element around an answer has to know of it. -/
def Goal.Promises : Goal → Parse.State → Node → Parse.State → Prop
  | .assignment _, _, n, t => ValueEnds n t
  | .binary min _, _, n, t => ValueAnswer min n t
  | .unary, _, n, _ => n.kind.isOperand
  | .primary, _, n, _ => n.kind.isFirst
  | .element inExpression, s, n, t => n.kind.isFirst ∧ (inExpression = false → Spans s n t)
  | .type, s, n, _ => s.context.disallowConditionalTypes → n.kind ≠ .conditionalType
  | .typeOperand min, s, n, t => TypeAnswer min s n t
  | .binding, _, n, _ => n.isThis = false
  | .statement, _, _, _ | .namespaceTail _, _, _, _ => True

end ScriptGrammar
