import ScriptGrammar.Proofs.Written.Reads

/-!
# Reading operands

An operand before a token that closes it is the whole expression. Names are read by every goal of
the grammar that may come to one.
-/

namespace ScriptGrammar

open Parse ScriptGrammar.Parser

variable {src : Source} {d : Nat} {v w : Word} {ws rest : List Word} {n : PlainName} {b : Bool}
  {P : Node → Prop}

/-- Tokens that no expression goes on with. -/
def closingKinds : List Kind :=
  [.commaToken, .closeParenToken, .closeBracketToken, .semicolonToken]

/-- The tokens that operands begin with here. -/
def openingKinds : List Kind := [.identifier, .openParenToken, .openBracketToken]

/-- A token of one of the kinds is none of another kind. -/
theorem headKind_beq {ks : List Kind} {k : Kind} (among : headKind ws ∈ ks) (other : k ∉ ks) :
    (headKind ws == k) = false :=
  beq_eq_false_iff_ne.mpr fun same => other (same ▸ among)

/-- In the plain context every such word may be an identifier. -/
theorem At.atIdentifier {s : State} (h : At src d s ws) :
    s.atIdentifier = (headKind ws).isIdentifierLike := by
  unfold State.atIdentifier
  rw [h.token, h.context]
  split
  · next kind => rw [kind]; rfl
  · next kind => rw [kind]; rfl
  · rfl

theorem reads_identifier : Reads src d identifier (.name n b :: ws) ws (·.bare = n.node) :=
  .read (fun _ at_ => at_.atIdentifier) .identifierIf

theorem reads_nameOperand : Reads src d nameOperand (.name n b :: ws) ws (·.bare = n.node) :=
  .read (fun _ at_ => at_.atIdentifier) .identifierIf

/-- Names that come behind others. -/
def namesBehind (ns : List PlainName) : List Word :=
  ns.flatMap fun n => [.fixed .commaToken false, .name n true]

theorem headKind_namesBehind (ns : List PlainName) (closed : headKind ws ∈ closingKinds) :
    headKind (namesBehind ns ++ ws) ∈ closingKinds := by
  cases ns with
  | nil => exact closed
  | cons n ns => exact List.mem_cons_self

/-- As they are written. -/
theorem toList_names (n : PlainName) (ns : List PlainName) :
    (", ".intercalate ((n :: ns).map (·.text))).toList =
      n.text.toList ++ spell (namesBehind ns) := by
  have comma : ", ".toList = [',', ' '] := by decide
  have sign : (Word.fixed .commaToken false).chars = [','] := by decide
  rw [String.toList_intercalate, comma]
  induction ns generalizing n with
  | nil => simp [namesBehind]
  | cons m ns ih =>
    have ih := ih m
    simp only [List.map_cons] at ih
    simp only [List.map_cons, List.intercalate_cons_cons, ih]
    simp [namesBehind, sign]

theorem legible_names (ns : List PlainName) (apart : v.spaced || !v.kind.isWord)
    (legible : Legible (v :: ws)) : Legible (.name n b :: (namesBehind ns ++ v :: ws)) := by
  induction ns generalizing n b with
  | nil => exact .name apart legible
  | cons m ns ih => exact .name rfl (.sign (by decide) rfl ih)

section Grammars

variable [Grammar]

theorem reads_primaryStep_name :
    Reads src d primaryStep (.name n b :: ws) ws (·.bare = n.node) := .token reads_nameOperand

theorem reads_bindingStep_name :
    Reads src d bindingStep (.name n b :: ws) ws (·.bare = n.node) := .token reads_identifier

theorem reads_postfixes_none {start : NodeStart} {first : Node} {calls : Bool}
    (quiet : (headKind ws).postfixTier = .invalid) :
    Reads src d (postfixes start first calls) ws ws (· = first) := by
  unfold postfixes
  refine Reads.bind (P := fun c => c.target = first) (.once (.token ?_)) fun c same => .pure same
  rw [quiet]
  exact .pure ⟨_, rfl, rfl⟩

theorem reads_leftHandSide (primary : Reads src d (Grammar.parse .primary) ws rest P)
    (quiet : (headKind rest).postfixTier = .invalid) : Reads src d leftHandSide ws rest P := by
  refine .nodeStart fun start _ => primary.bind fun first made => ?_
  exact (reads_postfixes_none quiet).mono fun _ same => same ▸ made

theorem reads_unary (opens : headKind ws ∈ openingKinds)
    (operand : Reads src d leftHandSide ws rest P)
    (quiet : (headKind rest).postfixTier = .invalid) : Reads src d unary ws rest P := by
  have starts : Reads src d startsUpdate ws ws (· = true) := by
    refine .token ?_
    simp only [openingKinds, List.mem_cons, List.not_mem_nil, or_false] at opens
    rcases opens with kind | kind | kind <;> rw [kind] <;> exact .pure rfl
  refine starts.known ?_
  show Reads src d update ws rest P
  refine .nodeStart fun start _ => .token ?_
  simp (disch := decide) only [headKind_beq opens, Bool.or_false, Bool.false_eq_true, if_false]
  refine .read (a := {}) (fun s at_ => at_.options) ?_
  refine operand.bind fun e made => .token ?_
  rw [quiet]
  exact .pure made

omit [Grammar] in
/-- Behind an operand that is closed comes no operator. -/
theorem stops_of_closed {min : Tier} (closed : headKind ws ∈ closingKinds) :
    (!(headKind ws).binaryTier.isValid || (headKind ws).binaryTier.looserThan min ||
      (headKind ws).binaryTier == .comma) = true := by
  have all : ∀ k ∈ closingKinds, k.binaryTier = .invalid ∨ k.binaryTier = .comma := by decide
  rcases all _ closed with none | comma
  · simp [none, Tier.isValid]
  · simp [comma]

theorem reads_binaryRest_none {start : NodeStart} {min : Tier} {left : Node} {arrowTypes : Bool}
    (closed : headKind ws ∈ closingKinds) :
    Reads src d (binaryRest start min left arrowTypes) ws ws (· = left) := by
  refine .once (.ifNotAt (headKind_beq closed (by decide)) (.token ?_))
  exact .ite (fun _ => .pure ⟨left, rfl, rfl⟩) fun goesOn => absurd (stops_of_closed closed) goesOn

omit [Grammar] in
theorem postfixTier_of_closed (closed : headKind ws ∈ closingKinds) :
    (headKind ws).postfixTier = .invalid := by
  have all : ∀ k ∈ closingKinds, k.postfixTier = .invalid := by decide
  exact all _ closed

theorem reads_binaryStep {min : Tier} {arrowTypes : Bool} (opens : headKind ws ∈ openingKinds)
    (operand : Reads src d leftHandSide ws rest P) (closed : headKind rest ∈ closingKinds) :
    Reads src d (binaryStep min arrowTypes) ws rest P := by
  refine .nodeStart fun start _ => ?_
  refine (reads_unary opens operand (postfixTier_of_closed closed)).bind fun left made => ?_
  exact (reads_binaryRest_none closed).mono fun _ same => same ▸ made

/-- An assignment expression where no arrow function begins. -/
theorem reads_assignmentStep {arrowTypes : Bool} (room : d < maxDepth)
    (opens : headKind ws ∈ openingKinds)
    (noParens : Reads src (d + 1) (parenthesizedArrow? arrowTypes) ws ws (· = none))
    (noName : Reads src (d + 1) (simpleArrow? arrowTypes) ws ws (· = none))
    (binary : Reads src (d + 1) (Grammar.parse (.binary .assignment arrowTypes)) ws rest P) :
    Reads src d (assignmentStep arrowTypes) ws rest P := by
  have noYield : Reads src (d + 1) isYield ws ws (· = false) :=
    .isAt (by rw [headKind_beq opens (by decide)]; exact .pure rfl)
  refine .nested room (noYield.known ?_)
  refine noParens.known ?_
  refine noName.known ?_
  exact binary

theorem reads_parenthesizedArrow?_other {arrowTypes : Bool}
    (other : headKind ws ∈ [.identifier, .openBracketToken]) :
    Reads src d (parenthesizedArrow? arrowTypes) ws ws (· = none) := by
  refine .isAtAny ?_
  simp only [List.mem_cons, List.not_mem_nil, or_false] at other
  rcases other with kind | kind <;> rw [kind] <;> exact .pure rfl

theorem reads_simpleArrow?_none {arrowTypes : Bool} (opens : headKind ws ∈ openingKinds)
    (noName : Reads src d (isIdentifier <&&> nextIs .equalsGreaterThanToken) ws ws (· = false)) :
    Reads src d (simpleArrow? arrowTypes) ws ws (· = none) := by
  have plain : Reads src d (isAt .asyncKeyword <&&> aheadNext asyncArrowWalk) ws ws (· = false) :=
    .and_false (.answer fun s at_ => by rw [at_.token]; exact headKind_beq opens (by decide))
  refine plain.known ?_
  refine Reads.known noName ?_
  exact .pure rfl

theorem reads_simpleArrow?_name {arrowTypes : Bool}
    (noArrow : (headKind ws == .equalsGreaterThanToken) = false) :
    Reads src d (simpleArrow? arrowTypes) (.name n b :: ws) (.name n b :: ws) (· = none) :=
  reads_simpleArrow?_none List.mem_cons_self <|
    .and_true (.answer fun s at_ => at_.atIdentifier)
      (.aheadNext (.answer fun s at_ => by rw [at_.token]; exact noArrow))

theorem reads_simpleArrow?_sign {arrowTypes : Bool}
    (sign : headKind ws ∈ [.openParenToken, .openBracketToken]) :
    Reads src d (simpleArrow? arrowTypes) ws ws (· = none) := by
  refine reads_simpleArrow?_none (List.mem_cons_of_mem _ sign)
    (.and_false (.answer fun s at_ => ?_))
  have all : ∀ k ∈ [Kind.openParenToken, .openBracketToken], k.isIdentifierLike = false := by decide
  rw [at_.atIdentifier, all _ sign]

/-- The grammar reads a name where an assignment expression may stand. -/
def ReadsNames (src : Source) : Prop :=
  ∀ {d : Nat} {n : PlainName} {b arrowTypes : Bool} {ws : List Word}, d < maxDepth →
    headKind ws ∈ closingKinds →
    Reads src d (Grammar.parse (.assignment arrowTypes)) (.name n b :: ws) ws (·.bare = n.node)

/-- Two operands with an operator between them. -/
def Node.operation (left : Node) (operator : Kind) (right : Node) : Node :=
  .plain .binaryExpression
    [.one .left left, .one .operatorToken (.token operator), .one .right right]

/-- The first operand and the others, joined by commas from the left. -/
def Node.joinedByCommas (first : Node) (ns : List PlainName) : Node :=
  ns.foldl (fun left n => left.operation .commaToken n.node) first

omit [Grammar] in
theorem reads_buildBinary {start : NodeStart} {left operator right l r : Node} {k : Kind}
    (began : Begins src start.pos ws) (later : rest <:+ ws) (first : left.bare = l)
    (between : operator.bare = .token k) (second : right.bare = r) :
    Reads src d (buildBinary start left operator right) rest rest (·.bare = l.operation k r) := by
  subst first second
  exact .build began later rfl (by simp [Slot.map, Node.operation, between])

/-- An expression is an assignment expression and the names behind it. -/
theorem reads_expression {first : Node} (names : ReadsNames src) (room : d < maxDepth)
    (ns : List PlainName) (closed : headKind rest ∈ closingKinds)
    (noComma : (headKind rest == .commaToken) = false) (later : namesBehind ns ++ rest <:+ ws)
    (operand : Reads src d (Grammar.parse (.assignment true)) ws (namesBehind ns ++ rest)
      (·.bare = first)) :
    Reads src d expression ws rest (·.bare = first.joinedByCommas ns) := by
  refine .inContext rfl (.nodeStart fun start began => Reads.bind operand fun left made => ?_)
  -- The operands so far are joined, the names `ms` are left.
  refine .loop (fun left us => ∃ ms, us = namesBehind ms ++ rest ∧ us <:+ ws ∧
    left.bare.joinedByCommas ms = first.joinedByCommas ns) ⟨ns, rfl, later, by rw [made]⟩ ?_
  rintro left _ ⟨ms, rfl, later, same⟩
  cases ms with
  | nil => exact ⟨rest, .ifNotAt noComma (.pure ⟨same, rfl⟩)⟩
  | cons m ms =>
    refine ⟨namesBehind ms ++ rest, .ifAt rfl ?_⟩
    refine (Reads.takeToken rfl).bind fun operator comma => ?_
    refine (names room (headKind_namesBehind ms closed)).bind fun right made => ?_
    have behind : namesBehind ms ++ rest <:+ namesBehind (m :: ms) ++ rest := ⟨[_, _], rfl⟩
    refine (reads_buildBinary began (behind.trans later) rfl comma made).bind fun node made' => ?_
    exact .pure ⟨⟨ms, rfl, behind.trans later, made' ▸ same⟩, _, [_], rfl⟩

theorem reads_expressionWithIn (h : Reads src d expression ws rest P) :
    Reads src d expressionWithIn ws rest P := by
  unfold expressionWithIn allowingIn
  exact .inContext rfl h

theorem reads_assignmentWithIn (h : Reads src d (Grammar.parse (.assignment true)) ws rest P) :
    Reads src d assignmentWithIn ws rest P := by
  unfold assignmentWithIn allowingIn
  exact .inContext rfl h

theorem reads_parenthesized (names : ReadsNames src) (room : d < maxDepth) (ns : List PlainName) :
    Reads src d parenthesized
      (.fixed .openParenToken b :: .name n false ::
        (namesBehind ns ++ .fixed .closeParenToken false :: ws)) ws
      (·.bare = .plain .parenthesizedExpression
        [.one .expression (n.node.joinedByCommas ns)]) := by
  refine .nodeStart fun start began => (Reads.expect rfl).bind fun _ _ => ?_
  have closed : headKind (.fixed .closeParenToken false :: ws) ∈ closingKinds := by
    simp [closingKinds]
  have inside := reads_expression names room ns closed rfl (List.suffix_cons _ _)
    (names (n := n) (b := false) room (headKind_namesBehind ns closed))
  refine (reads_expressionWithIn inside).bind fun e made => (Reads.expect rfl).bind fun _ _ => ?_
  refine .build began ?_ rfl (by simp [Slot.map, made])
  exact ⟨.fixed .openParenToken b :: .name n false ::
    (namesBehind ns ++ [.fixed .closeParenToken false]), by simp⟩

end Grammars
end ScriptGrammar
