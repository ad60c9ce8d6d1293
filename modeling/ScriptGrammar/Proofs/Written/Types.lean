import ScriptGrammar.Parse.TypeExpression
import ScriptGrammar.Proofs.Written.Lists

/-!
# Reading type arguments, parameters and elements
-/

namespace ScriptGrammar

open Parse ScriptGrammar.Parser

variable {src : Source} {d : Nat} {v w : Word} {ws rest vs : List Word} {n : PlainName} {b : Bool}
  {P : Node → Prop}

section Grammars

variable [Grammar]

/-- A name as a type. -/
def Node.asType (name : Node) : Node :=
  .plain .typeReference [.one .typeName name, .optList .typeArguments none]

/-- The tokens that stand behind a type argument. -/
def afterTypeKinds : List Kind := [.commaToken, .greaterThanToken]

theorem reads_typeReference (behind : headKind ws ∈ afterTypeKinds) :
    Reads src d typeReference (.name n b :: ws) ws (·.bare = n.node.asType) := by
  have name : Reads src d (entityName true (some .typeExpected)) (.name n b :: ws) ws
      (·.bare = n.node) := by
    refine .nodeStart fun _ _ => .read (a := true) (fun s at_ => by rw [at_.token]; rfl) ?_
    refine Reads.identifierIf.bind fun first made => .once ?_
    refine (Reads.accept_none (headKind_beq behind (by decide))).known ?_
    exact .pure ⟨first, rfl, made⟩
  have noArguments : Reads src d typeArgumentsOnLine? ws ws (· = none) :=
    .look fun line => .ite (fun _ => .pure rfl) fun _ => .isAt <| by
      rw [headKind_beq behind (by decide)]
      exact .pure rfl
  refine .nodeStart fun start began => name.bind fun name made => ?_
  refine noArguments.known ?_
  exact .build began ⟨[_], rfl⟩ rfl (by simp [Slot.map, made, Node.asType])

theorem reads_typeOperandStep {min : Tier} (behind : headKind ws ∈ afterTypeKinds) :
    Reads src d (typeOperandStep min) (.name n b :: ws) ws (·.bare = n.node.asType) := by
  have operator : Reads src d typeOperator (.name n b :: ws) ws (·.bare = n.node.asType) :=
    .nodeStart fun _ _ => .token <| .inContext rfl <| .token (reads_typeReference behind)
  refine .nodeStart fun start _ => .token (operator.bind fun left made => .once (.token ?_))
  have loose : (headKind ws).typeTier = .invalid := by
    have all : ∀ k ∈ afterTypeKinds, k.typeTier = .invalid := by decide
    exact all _ behind
  rw [loose]
  exact .pure ⟨left, rfl, made⟩

theorem reads_typeStep (room : d < maxDepth)
    (operand : Reads src (d + 1) (Grammar.parse (.typeOperand .conditional)) (.name n b :: ws) ws
      P) :
    Reads src d typeStep (.name n b :: ws) ws P := by
  have starts : Reads src (d + 1) startsFunctionType (.name n b :: ws) (.name n b :: ws)
      (· = false) := .token (.pure rfl)
  refine .nested room (.inContext rfl (starts.known ?_))
  exact operand

end Grammars
end ScriptGrammar
