import ScriptGrammar.Proofs.Options.Indifferent

/-!
# The productions under a change of the options

One instance for each production, along its binds, branches and loops. Three of them ask for the
variant: what an operand and an update begin with, and what an arrow function may begin with. They
do so at a `<` only. The end of a statement or a member, a condition and a `try` ask for a switch.
In an expression or a type all these are in braces: in a block, a class, an object literal or an
object type.
-/

namespace ScriptGrammar

open Parse ScriptGrammar.Parser

set_option synthInstance.maxSize 20000
set_option synthInstance.maxHeartbeats 200000

/-- The goals that statements are not part of, unless in braces. -/
def Goal.isInner : Goal → Bool
  | .statement | .namespaceTail _ => false
  | _ => true

/-- The change makes no difference to what the grammar answers. -/
class Answers (ch : Change) [Grammar] : Prop where
  inner {g : Goal} : g.isInner → Indifferent ch (Grammar.parse g)
  all (g : Goal) : Lenient ch (Grammar.parse g)

variable {α : Type} {ch : Change} [Grammar] [Answers ch]
  {kind k k₂ : Kind} {start : NodeStart} {slots : List Slot} {part : Part} {n m l : Node}
  {a b d : Option Node} {mods : Option (List Node)} {x y : Bool} {c : ListContext} {min : Tier}
  {rules : ModifierRules} {flags : SignatureFlags} {sig : Signature} {chain : Chain}
  {tag : TagName} {mark : NodeFlags → NodeFlags} {spec : Specifier}

instance : Indifferent ch (Grammar.parse (.assignment x)) := Answers.inner rfl
instance : Indifferent ch (Grammar.parse (.binary min x)) := Answers.inner rfl
instance : Indifferent ch (Grammar.parse .unary) := Answers.inner rfl
instance : Indifferent ch (Grammar.parse .primary) := Answers.inner rfl
instance : Indifferent ch (Grammar.parse .type) := Answers.inner rfl
instance : Indifferent ch (Grammar.parse (.typeOperand min)) := Answers.inner rfl
instance : Indifferent ch (Grammar.parse .binding) := Answers.inner rfl
instance : Indifferent ch (Grammar.parse (.element x)) := Answers.inner rfl
instance (g : Goal) : Lenient ch (Grammar.parse g) := Answers.all g
instance : Lenient ch statement := by unfold statement; infer_instance
instance : Indifferent ch (assignment x) := by unfold assignment; infer_instance
instance : Indifferent ch type := by unfold type; infer_instance
instance : Indifferent ch binding := by unfold binding; infer_instance
instance {p : Parser α} [Indifferent ch p] : Indifferent ch (allowingIn p) := by
  unfold allowingIn
  infer_instance
instance {p : Parser α} [Indifferent ch p] : Indifferent ch (disallowingIn p) := by
  unfold disallowingIn
  infer_instance
instance {p : Parser α} [Indifferent ch p] : Indifferent ch (withConditionalTypes x p) := by
  unfold withConditionalTypes
  infer_instance
instance {p : Parser α} [Indifferent ch p] : Indifferent ch (inFunction x y p) := by
  unfold inFunction
  infer_instance
instance : Indifferent ch expression := by unfold expression; infer_instance
instance : Indifferent ch expressionWithIn := by unfold expressionWithIn; infer_instance
instance : Indifferent ch assignmentWithIn := by unfold assignmentWithIn; infer_instance
instance : Indifferent ch typeAfterColon := by unfold typeAfterColon; infer_instance
instance : Indifferent ch initializer := by unfold initializer; infer_instance
instance : Indifferent ch typeArguments := by unfold typeArguments; infer_instance
instance : Indifferent ch typeArguments? := by unfold typeArguments?; infer_instance
instance : Indifferent ch typeArgumentsOnLine? := by unfold typeArgumentsOnLine?; infer_instance
instance : Indifferent ch missingType := by unfold missingType; infer_instance

instance : Indifferent ch spreadElement := by unfold spreadElement; infer_instance
instance : Indifferent ch argument := by
  unfold argument
  exact .step inferInstance fun _ => by split <;> infer_instance
instance : Indifferent ch arguments := by unfold arguments; infer_instance
instance {element : Parser Node} [Indifferent ch element] :
    Indifferent ch (templateSpans kind part x element) := by
  unfold templateSpans
  infer_instance
instance : Indifferent ch (templateExpression x) := by unfold templateExpression; infer_instance
instance : Indifferent ch (taggedTemplate start n mods) := by unfold taggedTemplate; infer_instance
instance : Indifferent ch (valueTypeArguments x) := by unfold valueTypeArguments; infer_instance
instance : Indifferent ch (propertyLink start chain a) := by unfold propertyLink; infer_instance
instance : Indifferent ch (indexLink start chain a) := by unfold indexLink; infer_instance
instance : Indifferent ch (callLink start chain a mods) := by unfold callLink; infer_instance
instance : Indifferent ch (angleLink? start chain a) := by
  unfold angleLink?
  exact .step inferInstance fun _ => by split <;> infer_instance
instance : Indifferent ch (link? start chain a x) := by
  unfold link?
  exact .step inferInstance fun _ => by split <;> infer_instance
instance : Indifferent ch (postfixes start n x) := by
  unfold postfixes
  repeat' first
    | infer_instance | refine .step ?_ fun _ => ?_ | refine .again fun _ => ?_ | dsimp only | split
instance : Indifferent ch leftHandSide := by unfold leftHandSide; infer_instance

instance : Indifferent ch decorator := by unfold decorator; infer_instance
instance : Indifferent ch (modifiers rules) := by unfold modifiers; infer_instance

instance : Indifferent ch expectBody := by unfold expectBody; infer_instance
instance : Opening expectBody := by
  refine ⟨fun missing => ?_⟩
  unfold expectBody
  rw [run_bind, run_accept missing]
  rfl
instance {q : Parser Bool} [Opening q] [Indifferent ch q] : Indifferent ch (blockAfter kind q) := by
  unfold blockAfter
  refine .step inferInstance fun _ => .behind ?_ ?_
  · intro loose
    simp only [↓reduceIte]
    exact .indifferent loose inferInstance
  · simp only [Bool.false_eq_true, ↓reduceIte]
    infer_instance
instance : Indifferent ch block := by unfold block; infer_instance
instance {q : Parser Bool} [Opening q] [Indifferent ch q] :
    Indifferent ch (functionBlock flags q) := by unfold functionBlock; infer_instance
instance : Lenient ch typeMemberEnd := by unfold typeMemberEnd; infer_instance
instance : Lenient ch (functionBody flags) := by unfold functionBody; infer_instance
instance : Indifferent ch typeParameter := by unfold typeParameter; infer_instance
instance : Indifferent ch typeParameters := by unfold typeParameters; infer_instance
instance : Indifferent ch parameter := by unfold parameter; infer_instance
instance : Indifferent ch (parameters flags) := by unfold parameters; infer_instance
instance : Indifferent ch predicateName := by unfold predicateName; infer_instance
instance : Indifferent ch typeOrPredicate := by
  unfold typeOrPredicate
  repeat' first | infer_instance | refine .step ?_ fun _ => ?_ | split
instance : Indifferent ch resultType := by unfold resultType; infer_instance
instance : Indifferent ch (returnType x) := by unfold returnType; infer_instance
instance : Indifferent ch (signature flags x) := by unfold signature; infer_instance
instance : Indifferent ch computedPropertyName := by unfold computedPropertyName; infer_instance
instance : Indifferent ch propertyName := by
  unfold propertyName
  exact .step inferInstance fun _ => by split <;> infer_instance
instance : Indifferent ch accessorKeyword := by unfold accessorKeyword; infer_instance
instance : Lenient ch (accessor start mods kind flags) := by unfold accessor; infer_instance
instance : Lenient ch (methodMember start mods a n b) := by unfold methodMember; infer_instance
instance : Indifferent ch indexSignatureWalk := by unfold indexSignatureWalk; infer_instance
instance : Indifferent ch isIndexSignature := by unfold isIndexSignature; infer_instance
instance : Lenient ch (indexSignature start mods) := by unfold indexSignature; infer_instance

instance : Indifferent ch (buildBindingElement start a b n) := by
  unfold buildBindingElement
  infer_instance
instance : Indifferent ch arrayBindingElement := by unfold arrayBindingElement; infer_instance
instance : Indifferent ch objectBindingElement := by unfold objectBindingElement; infer_instance
instance {element : Parser Node} [Indifferent ch element] :
    Indifferent ch (bindingPattern kind c k k₂ element) := by
  unfold bindingPattern
  infer_instance
instance : Indifferent ch bindingStep := by
  unfold bindingStep
  exact .step inferInstance fun _ => by split <;> infer_instance
instance : Indifferent ch (variableDeclaration x) := by unfold variableDeclaration; infer_instance
instance : Indifferent ch variableKeyword := by
  unfold variableKeyword
  exact .step inferInstance fun _ => by split <;> infer_instance
instance : Indifferent ch soleNameWalk := by unfold soleNameWalk; infer_instance
instance : Indifferent ch (variableDeclarationList x) := by
  unfold variableDeclarationList
  infer_instance
instance : Lenient ch (variableStatement start mods) := by unfold variableStatement; infer_instance

instance : Indifferent ch (typeOperand min) := by unfold typeOperand; infer_instance
instance : Indifferent ch keywordNoDot := by unfold keywordNoDot; infer_instance
instance : Indifferent ch (literalType x) := by unfold literalType; infer_instance
instance : Indifferent ch typeReference := by unfold typeReference; infer_instance
instance : Indifferent ch typeQuery := by unfold typeQuery; infer_instance
instance : Indifferent ch importType := by unfold importType; infer_instance
instance : Indifferent ch parenthesizedType := by unfold parenthesizedType; infer_instance
instance : Indifferent ch templateLiteralType := by unfold templateLiteralType; infer_instance
instance : Indifferent ch thisNode := by unfold thisNode; infer_instance
instance : Indifferent ch (buildPredicate start a n b) := by unfold buildPredicate; infer_instance
instance : Indifferent ch thisTypeOrPredicate := by unfold thisTypeOrPredicate; infer_instance
instance : Indifferent ch assertsPredicate := by unfold assertsPredicate; infer_instance
instance : Lenient ch (signatureMember start kind) := by unfold signatureMember; infer_instance
instance : Lenient ch (propertyOrMethodSignature start mods) := by
  unfold propertyOrMethodSignature
  infer_instance
instance : Lenient ch typeMember := by
  unfold typeMember
  repeat' first | infer_instance | refine .step ?_ fun _ => ?_ | split
instance : Indifferent ch typeMembers := by
  unfold typeMembers
  refine .behind ?_ (inferInstanceAs (Indifferent ch (pure [])))
  intro loose
  simp only [Bool.not_true, Bool.false_eq_true, ↓reduceIte]
  exact .indifferent loose inferInstance
instance : Indifferent ch typeLiteral := by unfold typeLiteral; infer_instance
instance : Indifferent ch mappedTypeWalk := by unfold mappedTypeWalk; infer_instance
instance : Indifferent ch (signed kind) := by unfold signed; infer_instance
instance : Indifferent ch (buildTypeParameter start n a) := by
  unfold buildTypeParameter
  infer_instance
instance : Lenient ch mappedType := by unfold mappedType; infer_instance
instance : Indifferent ch tupleNameWalk := by
  unfold tupleNameWalk
  repeat' first | infer_instance | refine .step ?_ fun _ => ?_ | split
instance : Indifferent ch tupleElementType := by unfold tupleElementType; infer_instance
instance : Indifferent ch tupleElement := by unfold tupleElement; infer_instance
instance : Indifferent ch tupleType := by unfold tupleType; infer_instance
instance : Indifferent ch parameterWalk := by unfold parameterWalk; infer_instance
instance : Indifferent ch functionTypeWalk := by unfold functionTypeWalk; infer_instance
instance : Indifferent ch startsFunctionType := by
  unfold startsFunctionType
  exact .step inferInstance fun _ => by split <;> infer_instance
instance : Indifferent ch functionType := by unfold functionType; infer_instance
instance : Indifferent ch primaryType := by
  unfold primaryType
  refine .token fun k other => ?_
  split
  -- Behind the brace even a mapped type, which is no list of members, asks for a switch.
  case h_22 =>
    by_cases loose : ch = .switches false
    · subst loose
      exact absurd rfl (other '\x7b' (by decide))
    · exact .indifferent loose inferInstance
  all_goals repeat' first | infer_instance | refine .step ?_ fun _ => ?_ | split
instance : Indifferent ch inferBound := by unfold inferBound; infer_instance
instance : Indifferent ch inferType := by unfold inferType; infer_instance
instance : Indifferent ch typeOperator := by
  unfold typeOperator
  exact .step inferInstance fun _ => .step inferInstance fun _ => by split <;> infer_instance
instance : Indifferent ch (typeMembersBehind start kind n) := by
  unfold typeMembersBehind
  infer_instance
instance : Indifferent ch (arrayOrIndexedType start n) := by
  unfold arrayOrIndexedType
  infer_instance
instance : Indifferent ch (conditionalType start n) := by unfold conditionalType; infer_instance
instance : Indifferent ch (typeRest start min n) := by
  unfold typeRest
  repeat' first | infer_instance | refine .step ?_ fun _ => ?_ | refine .again fun _ => ?_ | split
instance : Indifferent ch (typeOperandStep min) := by unfold typeOperandStep; infer_instance
instance : Indifferent ch typeStep := by unfold typeStep; infer_instance

instance : Indifferent ch (buildFunction kind start mods a b sig d) := by
  unfold buildFunction
  infer_instance
instance : Lenient ch (functionDeclaration start mods) := by
  unfold functionDeclaration
  infer_instance
instance : Indifferent ch functionExpression := by unfold functionExpression; infer_instance
instance : Indifferent ch expressionWithTypeArguments := by
  unfold expressionWithTypeArguments
  infer_instance
instance : Indifferent ch heritageClause := by unfold heritageClause; infer_instance
instance : Indifferent ch heritageClauses := by unfold heritageClauses; infer_instance
instance : Lenient ch (propertyDeclaration start mods n a) := by
  unfold propertyDeclaration
  infer_instance
instance : Lenient ch (propertyOrMethod start mods) := by unfold propertyOrMethod; infer_instance
instance : Indifferent ch (staticBlock start) := by unfold staticBlock; infer_instance
instance : Indifferent ch isConstructorName := by
  unfold isConstructorName
  exact .step inferInstance fun _ => by split <;> infer_instance
instance : Lenient ch (constructorMember start mods) := by unfold constructorMember; infer_instance
instance : Indifferent ch startsMemberName := by unfold startsMemberName; infer_instance
instance : Lenient ch classMember := by
  unfold classMember
  repeat' first | infer_instance | refine .step ?_ fun _ => ?_ | split
instance : Indifferent ch isImplementsClause := by unfold isImplementsClause; infer_instance
instance : Indifferent ch (classLike kind start mods) := by
  unfold classLike
  refine .step inferInstance fun _ => .step inferInstance fun _ => .step inferInstance fun _ =>
    .step inferInstance fun _ => .step inferInstance fun _ => .behind ?_ ?_
  · intro loose
    simp only [↓reduceIte]
    exact .indifferent loose inferInstance
  · simp only [Bool.false_eq_true, ↓reduceIte]
    infer_instance
instance : Indifferent ch classExpression := by unfold classExpression; infer_instance
instance : Indifferent ch (interfaceDeclaration start mods) := by
  unfold interfaceDeclaration
  infer_instance
instance : Lenient ch (typeAliasDeclaration start mods) := by
  unfold typeAliasDeclaration
  infer_instance
instance : Indifferent ch enumMember := by unfold enumMember; infer_instance
instance : Indifferent ch (enumDeclaration start mods) := by unfold enumDeclaration; infer_instance

instance : Indifferent ch (arrowBody flags x) := by unfold arrowBody; infer_instance
instance : Indifferent ch (buildArrow start mods sig n m) := by unfold buildArrow; infer_instance
instance : Indifferent ch (parenthesizedArrow x y) := by unfold parenthesizedArrow; infer_instance
instance : Indifferent ch (parenthesizedArrow? x) := by
  unfold parenthesizedArrow?
  refine ⟨fun {s o} twin => .read ?_⟩
  cases opens : [.openParenToken, .lessThanToken, .asyncKeyword].contains s.token with
  | false => exact Compliant.complies (p := pure none) twin
  | true =>
    refine .step twin (.ahead (complies_arrowWalk twin.openAttempt opens)) fun guess => ?_
    cases guess <;> infer_instance
instance : Indifferent ch (simpleArrow start mods n x) := by unfold simpleArrow; infer_instance
instance : Indifferent ch (simpleArrow? x) := by unfold simpleArrow?; infer_instance

/-- Where a `<` stands, the variant is not what changes. -/
theorem isJsx_eq (other : k.Avoids ch.openers) {o o' : Options} (relates : ch.Relates o o') :
    (k == .lessThanToken && o'.isJsx) = (k == .lessThanToken && o.isJsx) := by
  cases ch with
  | variant =>
    have other : k ≠ .lessThanToken := by
      rintro rfl
      exact other '<' (by decide) rfl
    simp only [beq_false_of_ne other, Bool.false_and]
  | switches =>
    have relates : o = { variant := o'.variant } := relates
    rw [relates]
    rfl

instance : Indifferent ch operand := by unfold operand; infer_instance
instance : Indifferent ch (buildUnary kind start k n) := by unfold buildUnary; infer_instance
instance : Indifferent ch isAwait := by unfold isAwait; infer_instance
instance : Indifferent ch update := by
  unfold update
  refine .step inferInstance fun start => .token fun k other => ?_
  split
  · infer_instance
  · refine .options (fun o o' relates => ?_) fun o => inferInstance
    simp only [isJsx_eq other relates]
instance : Indifferent ch typeAssertion := by unfold typeAssertion; infer_instance
instance : Indifferent ch (unaryOperation kind) := by unfold unaryOperation; infer_instance
instance : Indifferent ch unaryWorker := by
  unfold unaryWorker
  exact .step inferInstance fun _ => by split <;> infer_instance
instance : Indifferent ch unaryStep := by unfold unaryStep; infer_instance
instance : Indifferent ch startsUpdate := by
  unfold startsUpdate
  refine .token fun k other => ?_
  split
  case h_9 =>
    refine .options (fun o o' relates => ?_) fun o => inferInstance
    exact congrArg pure (isJsx_eq other relates)
  all_goals infer_instance
instance : Indifferent ch unary := by unfold unary; infer_instance
instance : Indifferent ch (conditionalRest start n x) := by unfold conditionalRest; infer_instance
instance : Indifferent ch (buildBinary start n m l) := by unfold buildBinary; infer_instance
instance : Indifferent ch (operation? start n kind x) := by unfold operation?; infer_instance
instance : Indifferent ch (binaryRest start min n x) := by
  unfold binaryRest
  repeat' first
    | infer_instance | refine .step ?_ fun _ => ?_ | refine .again fun _ => ?_ | dsimp only | split
instance : Indifferent ch (binaryStep min x) := by unfold binaryStep; infer_instance
instance : Indifferent ch isYield := by unfold isYield; infer_instance
instance : Indifferent ch yieldExpression := by unfold yieldExpression; infer_instance
instance : Indifferent ch (assignmentWorker x) := by
  unfold assignmentWorker
  repeat' first | infer_instance | refine .step ?_ fun _ => ?_ | split
instance : Indifferent ch (assignmentStep x) := by unfold assignmentStep; infer_instance

instance : Indifferent ch nameOperand := by unfold nameOperand; infer_instance
instance : Indifferent ch parenthesized := by unfold parenthesized; infer_instance
instance : Indifferent ch arrayLiteral := by unfold arrayLiteral; infer_instance
instance : Indifferent ch (shorthandProperty start n) := by unfold shorthandProperty; infer_instance
instance : Indifferent ch (propertyAssignment start n) := by
  unfold propertyAssignment
  infer_instance
instance : Lenient ch (objectProperty start mods) := by unfold objectProperty; infer_instance
instance : Lenient ch objectMember := by
  unfold objectMember
  repeat' first | infer_instance | refine .step ?_ fun _ => ?_ | split
instance : Indifferent ch objectLiteral := by
  unfold objectLiteral bracketed
  refine .step inferInstance fun _ => .step (.behind ?_ ?_) fun _ => inferInstance
  · intro loose
    have member : Indifferent ch objectMember := .indifferent loose inferInstance
    infer_instance
  · simp only [Bool.false_eq_true, ↓reduceIte]
    infer_instance
instance : Indifferent ch (metaProperty start kind) := by unfold metaProperty; infer_instance
instance : Indifferent ch importOperand := by unfold importOperand; infer_instance
instance : Indifferent ch newExpression := by unfold newExpression; infer_instance
instance : Indifferent ch regularExpression := by unfold regularExpression; infer_instance
instance : Indifferent ch primaryStep := by
  unfold primaryStep
  exact .step inferInstance fun _ => by split <;> infer_instance

instance : Indifferent ch nextContent := by unfold nextContent; infer_instance
instance : Indifferent ch enterContent := by unfold enterContent; infer_instance
instance : Indifferent ch (closeAngle x) := by unfold closeAngle; infer_instance
instance : Indifferent ch tagIdentifier := by unfold tagIdentifier; infer_instance
instance : Indifferent ch tagWord := by unfold tagWord; infer_instance
instance : Indifferent ch tagName := by unfold tagName; infer_instance
instance : Indifferent ch (elementExpression x) := by unfold elementExpression; infer_instance
instance : Indifferent ch attributeValue := by
  unfold attributeValue
  exact .step inferInstance fun _ => .step inferInstance fun _ => by split <;> infer_instance
instance : Indifferent ch tagAttribute := by unfold tagAttribute; infer_instance
instance : Indifferent ch tagAttributes := by unfold tagAttributes; infer_instance
instance : Indifferent ch (openingTag x) := by unfold openingTag; infer_instance
instance : Indifferent ch (textOf n) := ⟨fun _ => .inl rfl⟩
instance : Indifferent ch (closingTag n tag x) := by unfold closingTag; infer_instance
instance : Indifferent ch (closingFragment x) := by unfold closingFragment; infer_instance
instance : Indifferent ch contentText := by unfold contentText; infer_instance
instance : Indifferent ch child := by
  unfold child
  exact .step inferInstance fun _ => .step inferInstance fun _ => by split <;> infer_instance
instance : Indifferent ch (childList a) := by
  unfold childList
  exact .step inferInstance fun _ => by split <;> infer_instance
instance : Indifferent ch (elementStep x) := by
  unfold elementStep
  exact .step inferInstance fun _ => .step inferInstance fun _ => by split <;> infer_instance

instance : Indifferent ch moduleBlock := by unfold moduleBlock; infer_instance
instance : Indifferent ch (buildModule start mods mark n a) := by unfold buildModule; infer_instance
instance : Lenient ch (namespaceBody x) := by unfold namespaceBody; infer_instance
instance : Lenient ch (namespaceTailStep x) := by unfold namespaceTailStep; infer_instance
instance : Lenient ch (ambientModule start mods) := by unfold ambientModule; infer_instance
instance : Lenient ch (moduleDeclaration start mods) := by unfold moduleDeclaration; infer_instance
instance : Indifferent ch moduleExportName := by unfold moduleExportName; infer_instance
instance : Indifferent ch moduleSpecifier := by unfold moduleSpecifier; infer_instance
instance : Indifferent ch importAttribute := by unfold importAttribute; infer_instance
instance : Indifferent ch importAttributes := by unfold importAttributes; infer_instance
instance : Indifferent ch reservedHere := ⟨fun _ => .inl rfl⟩
instance : Indifferent ch specifierName := by unfold specifierName; infer_instance
instance : Indifferent ch (afterTypeWord spec) := by unfold afterTypeWord; infer_instance
instance : Indifferent ch (specifier kind) := by
  unfold specifier
  repeat' first | infer_instance | refine .step ?_ fun _ => ?_ | dsimp only | split
instance : Indifferent ch (namedSpecifiers kind k) := by unfold namedSpecifiers; infer_instance
instance : Indifferent ch namespaceImport := by unfold namespaceImport; infer_instance
instance : Indifferent ch (importClause start a x) := by unfold importClause; infer_instance
instance : Indifferent ch moduleReference := by unfold moduleReference; infer_instance
instance : Lenient ch (importEquals start mods n x) := by unfold importEquals; infer_instance
instance : Indifferent ch typeMarksImport := by unfold typeMarksImport; infer_instance
instance : Lenient ch (importDeclaration start mods) := by
  unfold importDeclaration
  repeat' first | infer_instance | refine .step ?_ fun _ => ?_ | dsimp only | split
instance : Lenient ch (exportAssignment start mods) := by unfold exportAssignment; infer_instance
instance : Lenient ch (namespaceExport start) := by unfold namespaceExport; infer_instance
instance : Indifferent ch exportClause := by unfold exportClause; infer_instance
instance : Lenient ch (exportDeclaration start mods) := by unfold exportDeclaration; infer_instance
instance : Indifferent ch (missingDeclaration start mods) := by
  unfold missingDeclaration
  infer_instance
instance : Lenient ch (declarationAfter start mods) := by
  unfold declarationAfter
  repeat' first | infer_instance | refine .step ?_ fun _ => ?_ | split
instance : Lenient ch declaration := by unfold declaration; infer_instance

instance : Lenient ch condition := by
  unfold condition
  refine .question (fun _ _ => rfl) (fun _ => inferInstance) fun {s o _} twin differs => ?_
  have asked : (s.options.looseParens && s.token != .openParenToken) = false := by
    rw [twin.strict]
    rfl
  have missing : s.token ≠ .openParenToken := by
    rintro at_
    have at_' : (s.withOptions o).token = .openParenToken := at_
    simp [at_, at_'] at differs
  rw [asked]
  exact twin.lacks_bind (lacks_expect missing (.inr rfl))
instance : Lenient ch ifStatement := by unfold ifStatement; infer_instance
instance : Lenient ch doStatement := by unfold doStatement; infer_instance
instance : Lenient ch whileStatement := by unfold whileStatement; infer_instance
instance : Lenient ch withStatement := by unfold withStatement; infer_instance
instance : Indifferent ch isLetDeclaration := by unfold isLetDeclaration; infer_instance
instance : Indifferent ch startsLoopVariables := by
  unfold startsLoopVariables
  exact .step inferInstance fun _ => by split <;> infer_instance
instance : Indifferent ch loopInitializer := by unfold loopInitializer; infer_instance
instance : Lenient ch (memberLoop start a n x) := by unfold memberLoop; infer_instance
instance : Lenient ch (clauseLoop start a) := by unfold clauseLoop; infer_instance
instance : Lenient ch forStatement := by
  unfold forStatement
  repeat' first | infer_instance | refine .step ?_ fun _ => ?_ | split
instance : Lenient ch (jumpStatement kind) := by unfold jumpStatement; infer_instance
instance : Lenient ch returnStatement := by unfold returnStatement; infer_instance
instance : Lenient ch throwStatement := by unfold throwStatement; infer_instance
instance : Lenient ch switchClause := by unfold switchClause; infer_instance
instance : Lenient ch caseBlock := by unfold caseBlock; infer_instance
instance : Lenient ch switchStatement := by unfold switchStatement; infer_instance
instance : Indifferent ch catchClause := by unfold catchClause; infer_instance
instance : Lenient ch (finallyBlock x) := by
  unfold finallyBlock
  refine .step inferInstance fun _ => ?_
  split
  · infer_instance
  show Lenient ch (do
    if ← Parser.read fun s => x || s.options.bareTry then return none
    reportHere .catchOrFinallyExpected []
    return some (← block))
  refine .question (fun _ _ => rfl) (fun _ => inferInstance) fun {s o _} twin differs => ?_
  have asked : (x || s.options.bareTry) = false := by
    rw [twin.strict]
    cases x with
    | false => rfl
    | true => exact absurd rfl differs
  rw [asked]
  exact twin.lacks_bind (lacks_report rfl)
instance : Lenient ch tryStatement := by unfold tryStatement; infer_instance
instance : Indifferent ch (reportNoSemicolon n) := by unfold reportNoSemicolon; infer_instance
instance : Lenient ch expressionStatement := by
  unfold expressionStatement
  refine .step inferInstance fun start => .step inferInstance fun e =>
    .step inferInstance fun labelled => ?_
  split
  · infer_instance
  · refine .ended
      (inferInstanceAs (Lenient ch (build .expressionStatement start [.one .expression e])))
      fun {s o} twin _ => .unended twin ?_
    by_cases at_ : s.token = .unknown
    · exact .inr ⟨at_, Compliant.complies twin⟩
    · exact .inl (twin.lacks_bind (lacks_reportNoSemicolon e at_))
instance : Indifferent ch emptyStatement := by unfold emptyStatement; infer_instance
instance : Lenient ch debuggerStatement := by unfold debuggerStatement; infer_instance
instance {q : Parser Bool} {make : NodeStart → Parser Node} [Indifferent ch q]
    [∀ start, Lenient ch (make start)] : Lenient ch (statementIf q make) := by
  unfold statementIf
  infer_instance
instance : Lenient ch statementWorker := by
  unfold statementWorker
  exact .step inferInstance fun _ => by split <;> infer_instance
instance : Indifferent ch refusedStatement := by unfold refusedStatement; infer_instance
instance : Lenient ch statementStep := by unfold statementStep; infer_instance

end ScriptGrammar
