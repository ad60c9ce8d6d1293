import ScriptGrammar.Proofs.Parse.Tiers

/-!
# Chains

Links and templates stand behind what they apply to, and so make a chain. While one is read, a
single mark goes along from link to link: it is set by a `?.` and never taken back. What the mark
is at the end of a chain is told by the chain, but for one case. A `?.` before a template with type
arguments sets the mark and leaves no token.
-/

namespace ScriptGrammar

namespace Kind

/-- The part in which a link or a template holds what it applies to. -/
def targetPart (k : Kind) : Part := if k == .taggedTemplateExpression then .tag else .expression

end Kind

namespace Node

/-- Written with a `?.`. -/
def hasQuestionDot (n : Node) : Bool := !(n.childrenAs .questionDotToken).isEmpty

/-- A template with type arguments between it and its tag. -/
def isTypedTemplate (n : Node) : Bool :=
  n.kind == .taggedTemplateExpression && n.optionalLists.contains .typeArguments

/-- `m` is come to from `n` by going from each link or template to what it applies to. -/
inductive OnSpine (m : Node) : Node → Prop where
  | self (chained : m.kind.isChained) : OnSpine m m
  | behind {n e : Node} (chained : n.kind.isChained) (target : e ∈ n.childrenAs n.kind.targetPart)
      (rest : OnSpine m e) : OnSpine m n

/-- The chain that ends in the node was read with this mark at its end. -/
inductive Chains : Node → Bool → Prop where
  | first {n : Node} (first : n.kind.isChained = false) : Chains n false
  | behind {n e : Node} {mark : Bool} (chained : n.kind.isChained)
      (target : n.childrenAs n.kind.targetPart = [e]) (rest : Chains e mark) :
      Chains n (mark || n.hasQuestionDot)
  | typed {n : Node} (typed : n.isTypedTemplate) : Chains n true

variable {m n : Node} {mark : Bool}

/-- The kind, the children and the lists that were written tell all there is to a chain. -/
theorem Chains.congr (h : n.Chains mark) (kind : m.kind = n.kind)
    (children : m.children = n.children)
    (lists : m.optionalLists = n.optionalLists) : m.Chains mark := by
  have playing (p : Part) : m.childrenAs p = n.childrenAs p := by
    rw [childrenAs, childrenAs, children]
  cases h with
  | first first => exact .first (by rw [kind, first])
  | behind chained target rest =>
    have dot : m.hasQuestionDot = n.hasQuestionDot := by rw [hasQuestionDot, playing]; rfl
    rw [← dot]
    exact .behind (by rw [kind, chained]) (by rw [kind, playing, target]) rest
  | typed typed => exact .typed (by rw [isTypedTemplate, kind, lists]; exact typed)

theorem Chains.as (h : n.Chains mark) (p : Part) : (n.as p).Chains mark := by
  cases n
  exact h.congr rfl rfl rfl

/-- Behind a `?.` the mark is set. -/
theorem Chains.of_hasQuestionDot (h : n.Chains mark) (spine : m.OnSpine n)
    (has : m.hasQuestionDot) :
    mark = true := by
  induction h with
  | first first =>
    cases spine with
    | self chained | behind chained =>
      rw [first] at chained
      cases chained
  | behind _ target _ ih =>
    cases spine with
    | self => rw [has, Bool.or_true]
    | behind _ among rest =>
      rw [target] at among
      obtain rfl := List.mem_singleton.mp among
      rw [ih rest, Bool.true_or]
  | typed => rfl

/-- The mark is set by a `?.`, and only a template with type arguments hides it. -/
theorem Chains.exists_onSpine (h : n.Chains mark) (set : mark = true) :
    ∃ m : Node, m.OnSpine n ∧ (m.hasQuestionDot ∨ m.isTypedTemplate) := by
  induction h with
  | first => cases set
  | @behind n e mark chained target rest ih =>
    rcases Bool.or_eq_true_iff.mp set with before | here
    · obtain ⟨m, spine, found⟩ := ih before
      have among : e ∈ n.childrenAs n.kind.targetPart := target ▸ List.mem_singleton_self e
      exact ⟨m, .behind chained among spine, found⟩
    · exact ⟨n, .self chained, .inl here⟩
  | @typed n typed =>
    have kind : n.kind = .taggedTemplateExpression := eq_of_beq (Bool.and_eq_true_iff.mp typed).1
    exact ⟨n, .self (by rw [kind]; rfl), .inr typed⟩

end Node
end ScriptGrammar
