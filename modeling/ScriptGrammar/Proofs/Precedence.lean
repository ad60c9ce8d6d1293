import ScriptGrammar.Proofs.Forms

/-!
# Operands as tight as their operators

That every node was closed over operands its operator takes holds at all nodes of a tree. Between
types there is no exception. Between values there are two: `as` and `satisfies` end in a type, so
whatever stands behind it goes on with the whole; and the loop that folds operators goes on behind
an assignment or a conditional expression whose last part broke off.
-/

namespace ScriptGrammar

open Parse

/-- The operands are as tight as their operators ask for, from here down. -/
def Node.AllTiered (n : Node) : Prop := n.Throughout fun kind _ _ children => Tiered kind children

theorem Node.allTiered_iff {n : Node} :
    n.AllTiered ↔ Tiered n.kind n.children ∧ ∀ c ∈ n.children, c.AllTiered := throughout_iff

theorem Document.allTiered_root (names : NameTable) (options : Options) (src : Source) :
    (parseWith names options src).root.AllTiered := fun n hn =>
  (carries_root names options src n hn).tiered

/-- What a type may not have as the operand that plays a part. -/
def Kind.barred : Kind → List (Part × List Kind)
  | .unionType => [(.types, [.unionType, .conditionalType, .functionType, .constructorType])]
  | .intersectionType => [(.types, [.unionType, .intersectionType, .conditionalType,
      .functionType, .constructorType])]
  | .arrayType => [(.elementType, [.unionType, .intersectionType, .conditionalType,
      .functionType, .constructorType, .typeOperator])]
  | .indexedAccessType => [(.objectType, [.unionType, .intersectionType, .conditionalType,
      .functionType, .constructorType, .typeOperator])]
  | .typeOperator => [(.typeNode, [.unionType, .intersectionType, .conditionalType,
      .functionType, .constructorType])]
  | .conditionalType =>
    [(.checkType, [.conditionalType]), (.extendsType, [.conditionalType])]
  | _ => []

/-- A kind that holds together more tightly than `tier` is none of those that do not. -/
theorem Kind.not_mem_of_typeGrip {k : Kind} {tier : Tier} {ks : List Kind}
    (tight : tier.looserThan k.typeGrip) (loose : ∀ l ∈ ks, tier.looserThan l.typeGrip = false) :
    k ∉ ks := by
  intro among
  rw [loose k among] at tight
  cases tight

theorem Tiered.barred {kind : Kind} {children : List Node} (h : Tiered kind children) :
    ∀ b ∈ kind.barred, ∀ c ∈ playing b.1 children, c.kind ∉ b.2 := by
  unfold Kind.barred
  split
  case h_6 => simpa [Tiered] using h
  case h_7 => exact fun _ no => (by cases no)
  all_goals
    rw [List.forall_mem_singleton]
    exact fun c hc => Kind.not_mem_of_typeGrip (h c hc) (by decide)

/-- In no tree does a type hold an operand of a looser kind, whether the source has errors or
not. -/
theorem Document.parse_tiers_types (names : NameTable) (options : Options) (src : Source) :
    ∀ n ∈ (parseWith names options src).root.postorder,
      ∀ b ∈ n.kind.barred, ∀ c ∈ n.childrenAs b.1, c.kind ∉ b.2 :=
  fun n hn => (allTiered_root names options src n hn).barred

/-- A union of an intersection and an array. -/
theorem Document.parse_tiers_types_union :
    ∃ n ∈ (parseWith {} {} (Source.ofString "type T = A & B | C[]")).root.postorder,
      n.kind = .unionType ∧ (n.childrenAs .types).length = 2 ∧
        ∀ c ∈ n.childrenAs .types, c.kind ≠ .unionType := by
  have found : (parseWith {} {} (Source.ofString "type T = A & B | C[]")).root.postorder.any
      (fun n => n.kind == .unionType && (n.childrenAs .types).length == 2) := by decide +kernel
  obtain ⟨n, hn, holds⟩ := List.any_eq_true.mp found
  simp only [Bool.and_eq_true, beq_iff_eq] at holds
  refine ⟨n, hn, holds.1, holds.2, fun c hc kind => ?_⟩
  have barred := parse_tiers_types {} {} _ n hn
  rw [holds.1] at barred
  exact barred _ (List.mem_singleton_self _) c hc (by simp [kind])

/-- Each operand of a value is as tight as its operator asks for. -/
def Node.isStrict (n : Node) : Bool :=
  match n.kind with
  | .binaryExpression => (n.childrenAs .operatorToken).all fun operator =>
    !operator.kind.isJoining || (n.childrenAs .left).all (operator.kind.takesLeft ·.tier) &&
      (n.childrenAs .right).all (operator.kind.takesRight ·.tier)
  | .asExpression | .satisfiesExpression =>
    (n.childrenAs .expression).all (!·.tier.looserThan .relational)
  | .conditionalExpression => (n.childrenAs .condition).all (Tier.conditional.looserThan ·.tier)
  | _ => true

/-- The operator behind a type takes the whole cast. -/
theorem Document.parse_loosens_cast :
    ¬ ∀ n ∈ (parseWith {} {} (Source.ofString "a as T + b")).root.postorder, n.isStrict := by
  have found : (parseWith {} {} (Source.ofString "a as T + b")).root.postorder.all Node.isStrict =
      false := by decide +kernel
  simpa using found

/-- A right operand is as tight as its operator asks for. So are a left one, what is cast and a
condition, unless they are let pass: a cast before an operator, and anywhere an assignment or a
conditional expression that ends in a value which breaks off. -/
theorem Document.parse_tiers_values (names : NameTable) (options : Options) (src : Source) :
    ∀ n ∈ (parseWith names options src).root.postorder,
      (n.kind = .binaryExpression → ∀ operator ∈ n.childrenAs .operatorToken,
        operator.kind.isJoining →
          (∀ e ∈ n.childrenAs .left, ¬ e.isCast → ¬ e.Trails → operator.kind.takesLeft e.tier) ∧
          ∀ e ∈ n.childrenAs .right, operator.kind.takesRight e.tier) ∧
      (n.isCast → ∀ e ∈ n.childrenAs .expression, ¬ e.Trails →
        e.tier.looserThan .relational = false) ∧
      (n.kind = .conditionalExpression → ∀ e ∈ n.childrenAs .condition, ¬ e.Trails →
        Tier.conditional.looserThan e.tier) := by
  intro n hn
  have tiered := allTiered_root names options src n hn
  refine ⟨fun kind operator ho joins => ?_, fun cast e he plain => ?_, fun kind e he plain => ?_⟩
  · rw [kind] at tiered
    obtain ⟨left, right⟩ := tiered operator ho joins
    exact ⟨fun e he other plain => (left e he).resolve_right (·.elim other plain), right⟩
  · have taken : !e.tier.looserThan .relational := by
      simp only [Node.isCast, Bool.or_eq_true, beq_iff_eq] at cast
      rcases cast with kind | kind
      all_goals
        rw [kind] at tiered
        exact (tiered e he).resolve_right plain
    simpa using taken
  · rw [kind] at tiered
    exact (tiered e he).resolve_right plain

/-- A sum whose left operand is a product. -/
theorem Document.parse_tiers_values_sum :
    ∃ n ∈ (parseWith {} {} (Source.ofString "a * b + c")).root.postorder, n.tier = .additive ∧
      ∃ operator ∈ n.childrenAs .operatorToken, ∃ e ∈ n.childrenAs .left,
        e.tier = .multiplicative ∧ operator.kind.takesLeft e.tier := by
  have found : (parseWith {} {} (Source.ofString "a * b + c")).root.postorder.any fun n =>
      n.kind == .binaryExpression && n.tier == .additive &&
        (n.childrenAs .operatorToken).any fun operator => operator.kind.isJoining &&
          (n.childrenAs .left).any fun e => e.kind == .binaryExpression &&
            e.tier == .multiplicative := by decide +kernel
  simp only [List.any_eq_true, Bool.and_eq_true, beq_iff_eq] at found
  obtain ⟨n, hn, ⟨kind, tier⟩, operator, ho, joins, e, he, product, tight⟩ := found
  have other : ¬ e.isCast := by simp [Node.isCast, product]
  have plain : ¬ e.Trails := by simp [Node.Trails, product, tight]
  have taken := (parse_tiers_values {} {} _ n hn).1 kind operator ho joins
  exact ⟨n, hn, tier, operator, ho, e, he, tight, taken.1 e he other plain⟩

end ScriptGrammar
