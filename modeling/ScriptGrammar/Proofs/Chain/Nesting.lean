import ScriptGrammar.Proofs.Parse.Tiers

/-!
# Chains of operators

A chain is plain names with operators between them, written with one space on each side of an
operator. A tree over the chain is well nested if each operation takes its operands: of one tier
the operations group to the left, or to the right if their operators do. Reading a tree from left
to right gives a chain, and a chain is read off one well-nested tree at most.
-/

namespace ScriptGrammar

/-- A name written without escapes that is no keyword. -/
def isPlainName (text : String) : Bool :=
  text.toList.head?.any isIdentifierStart && text.toList.all isIdentifierPart &&
    Kind.ofWord text == .identifier

structure PlainName where
  text : String
  plain : isPlainName text

/-- The operators of chains, with their spelling. -/
def joiningOperators : List (Kind × String) := [
  (.questionQuestionToken, "??"), (.barBarToken, "||"), (.ampersandAmpersandToken, "&&"),
  (.barToken, "|"), (.caretToken, "^"), (.ampersandToken, "&"), (.equalsEqualsToken, "=="),
  (.exclamationEqualsToken, "!="), (.equalsEqualsEqualsToken, "==="),
  (.exclamationEqualsEqualsToken, "!=="), (.lessThanToken, "<"), (.greaterThanToken, ">"),
  (.lessThanEqualsToken, "<="), (.greaterThanEqualsToken, ">="), (.instanceOfKeyword, "instanceof"),
  (.inKeyword, "in"), (.lessThanLessThanToken, "<<"), (.greaterThanGreaterThanToken, ">>"),
  (.greaterThanGreaterThanGreaterThanToken, ">>>"), (.plusToken, "+"), (.minusToken, "-"),
  (.asteriskToken, "*"), (.slashToken, "/"), (.percentToken, "%"), (.asteriskAsteriskToken, "**")]

structure Operator where
  kind : Kind
  text : String
  listed : (kind, text) ∈ joiningOperators

/-- One name more than operators. -/
@[ext]
structure OperatorChain where
  first : PlainName
  rest : List (Operator × PlainName)

namespace OperatorChain

def words (c : OperatorChain) : List String :=
  c.first.text :: c.rest.flatMap fun p => [p.1.text, p.2.text]

def text (c : OperatorChain) : String := " ".intercalate c.words

/-- Two chains with an operator between them. -/
def join (a : OperatorChain) (o : Operator) (b : OperatorChain) : OperatorChain :=
  ⟨a.first, a.rest ++ (o, b.first) :: b.rest⟩

/-- How the operators and names behind a name are written. -/
def tail : List (Operator × PlainName) → List Char
  | [] => []
  | (o, n) :: r => ' ' :: (o.text.toList ++ ' ' :: (n.text.toList ++ tail r))

theorem toList_text (c : OperatorChain) :
    c.text.toList = c.first.text.toList ++ tail c.rest := by
  obtain ⟨first, rest⟩ := c
  simp only [text, words, String.toList_intercalate, List.map_cons]
  have space : " ".toList = [' '] := by decide
  rw [space]
  induction rest generalizing first with
  | nil => simp [tail]
  | cons p r ih =>
    obtain ⟨o, n⟩ := p
    simp only [List.flatMap_cons, List.cons_append, List.nil_append, List.map_cons,
      List.intercalate_cons_cons, ih, tail, List.append_assoc]

end OperatorChain

inductive OperatorTree where
  | name (n : PlainName)
  | operation (left : OperatorTree) (o : Operator) (right : OperatorTree)

namespace OperatorTree

/-- The names and operators from left to right. -/
def chain : OperatorTree → OperatorChain
  | name n => ⟨n, []⟩
  | operation l o r => l.chain.join o r.chain

/-- How tightly the tree holds together, as an operand: a name does so above all tiers. -/
def tier : OperatorTree → Tier
  | name _ => .invalid
  | operation _ o _ => o.kind.binaryTier

/-- Every operation takes its operands. -/
def Nested : OperatorTree → Prop
  | name _ => True
  | operation l o r =>
    (o.kind.takesLeft l.tier ∧ o.kind.takesRight r.tier) ∧ l.Nested ∧ r.Nested

end OperatorTree

namespace Kind

variable {k l : Kind} {s t : Tier}

theorem takesLeft_mono (h : k.takesLeft s) (le : s.value ≤ t.value) : k.takesLeft t := by
  unfold takesLeft at h ⊢
  split at h
  · next right =>
    simp only [right, if_true, Tier.looserThan, decide_eq_true_eq] at h ⊢
    omega
  · next left =>
    simp only [left, Bool.false_eq_true, if_false, Tier.looserThan, Bool.not_eq_true',
      decide_eq_false_iff_not] at h ⊢
    omega

theorem takesRight_mono (h : k.takesRight s) (le : s.value ≤ t.value) : k.takesRight t := by
  unfold takesRight at h ⊢
  split at h
  · next right =>
    simp only [right, if_true, Tier.looserThan, Bool.not_eq_true', decide_eq_false_iff_not] at h ⊢
    omega
  · next left =>
    simp only [left, Bool.false_eq_true, if_false, Tier.looserThan, decide_eq_true_eq] at h ⊢
    omega

theorem value_le_of_takesLeft (h : k.takesLeft t) : k.binaryTier.value ≤ t.value := by
  unfold takesLeft at h
  split at h
  · simp only [Tier.looserThan, decide_eq_true_eq] at h
    omega
  · simp only [Tier.looserThan, Bool.not_eq_true', decide_eq_false_iff_not] at h
    omega

theorem value_le_of_takesRight (h : k.takesRight t) : k.binaryTier.value ≤ t.value := by
  unfold takesRight at h
  split at h
  · simp only [Tier.looserThan, Bool.not_eq_true', decide_eq_false_iff_not] at h
    omega
  · simp only [Tier.looserThan, decide_eq_true_eq] at h
    omega

/-- Of two operators only one may stand above the other. -/
theorem not_takesRight_of_takesLeft (h : l.takesLeft k.binaryTier) :
    k.takesRight l.binaryTier = false := by
  have le := value_le_of_takesLeft h
  unfold takesLeft at h
  unfold takesRight
  split
  · next right =>
    rw [Bool.not_eq_false']
    split at h
    · exact h
    · next left => exact decide_eq_true (Nat.lt_of_le_of_ne le (binaryTier_ne right left).symm)
  · exact decide_eq_false (Nat.not_lt_of_le le)

end Kind

namespace OperatorTree

variable {t u : OperatorTree}

/-- No operator of a well-nested tree is looser than the one on top. -/
theorem Nested.tight (h : t.Nested) :
    ∀ p ∈ t.chain.rest, t.tier.value ≤ p.1.kind.binaryTier.value := by
  induction t with
  | name n => exact fun _ no => (nomatch no)
  | operation l o r left right =>
    obtain ⟨⟨takesLeft, takesRight⟩, hl, hr⟩ := h
    intro p hp
    rcases List.mem_append.mp hp with hp | hp
    · exact Nat.le_trans (Kind.value_le_of_takesLeft takesLeft) (left hl p hp)
    rcases List.mem_cons.mp hp with rfl | hp
    · exact Nat.le_refl _
    · exact Nat.le_trans (Kind.value_le_of_takesRight takesRight) (right hr p hp)

/-- The operators on top of two trees over one chain do not follow one another. -/
theorem not_before {l r l' r' : OperatorTree} {o o' : Operator}
    {between : List (Operator × PlainName)} (h : (operation l o r).Nested)
    (h' : (operation l' o' r').Nested)
    (before : l'.chain.rest = l.chain.rest ++ (o, r.chain.first) :: between)
    (behind : r.chain.rest = between ++ (o', r'.chain.first) :: r'.chain.rest) : False := by
  have inLeft : (o, r.chain.first) ∈ l'.chain.rest := by simp [before]
  have inRight : (o', r'.chain.first) ∈ r.chain.rest := by simp [behind]
  have takesLeft : o'.kind.takesLeft o.kind.binaryTier :=
    Kind.takesLeft_mono h'.1.1 (h'.2.1.tight _ inLeft)
  have takesRight : o.kind.takesRight o'.kind.binaryTier :=
    Kind.takesRight_mono h.1.2 (h.2.2.tight _ inRight)
  rw [Kind.not_takesRight_of_takesLeft takesLeft] at takesRight
  cases takesRight

/-- Where two lists with an element picked out are one, the picked ones coincide, or one of them
comes first. -/
theorem append_cons_cases {α : Type} {a b : α} {as bs cs ds : List α}
    (same : as ++ a :: bs = cs ++ b :: ds) :
    (as = cs ∧ a = b ∧ bs = ds) ∨ (∃ m, cs = as ++ a :: m ∧ bs = m ++ b :: ds) ∨
      ∃ m, as = cs ++ b :: m ∧ ds = m ++ a :: bs := by
  rcases List.append_eq_append_iff.mp same with ⟨m, before, behind⟩ | ⟨m, before, behind⟩
  · cases m with
    | nil =>
      obtain ⟨top, rest⟩ := List.cons.inj behind
      exact .inl ⟨by simp [before], top, rest⟩
    | cons p m =>
      obtain ⟨rfl, rest⟩ := List.cons.inj behind
      exact .inr (.inl ⟨m, before, rest⟩)
  · cases m with
    | nil =>
      obtain ⟨top, rest⟩ := List.cons.inj behind
      exact .inl ⟨by simp [before], top.symm, rest.symm⟩
    | cons p m =>
      obtain ⟨rfl, rest⟩ := List.cons.inj behind
      exact .inr (.inr ⟨m, before, rest⟩)

/-- A well-nested tree is told by what it reads as. -/
theorem Nested.eq_of_chain (ht : t.Nested) (hu : u.Nested) (same : t.chain = u.chain) : t = u := by
  induction t generalizing u with
  | name n =>
    cases u with
    | name m => exact congrArg name (congrArg OperatorChain.first same)
    | operation l o r => simp [chain, OperatorChain.join] at same
  | operation l o r left right =>
    cases u with
    | name m => simp [chain, OperatorChain.join] at same
    | operation l' o' r' =>
      obtain ⟨first, rest⟩ := OperatorChain.mk.inj same
      rcases append_cons_cases rest with ⟨before, top, behind⟩ | ⟨m, before, behind⟩ |
        ⟨m, before, behind⟩
      · obtain ⟨rfl, second⟩ := Prod.mk.inj top
        rw [left ht.2.1 hu.2.1 (OperatorChain.ext first before),
          right ht.2.2 hu.2.2 (OperatorChain.ext second behind)]
      · exact (not_before ht hu before behind).elim
      · exact (not_before hu ht before behind).elim

end OperatorTree
end ScriptGrammar
