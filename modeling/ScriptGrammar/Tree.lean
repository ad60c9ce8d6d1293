import ScriptGrammar.Flags
import ScriptGrammar.Range

/-!
# Syntax trees

A node has a kind, a range, flags and a number of creation; its children stand in source order,
each knowing the part it plays in its parent. What else a node carries (the text of a name, the
operator of a unary expression) is its detail. An optional list that was written is remembered
even when it is empty.
-/

namespace ScriptGrammar

/-- The part a node plays in its parent. -/
inductive Part where
  | root
  | statements | endOfFileToken | left | right | expression | modifiers | name | constraint
  | defaultType | dotDotDotToken | questionToken | declaredType | initializer | asteriskToken
  | typeParameters | parameters | returnType | body | equalsGreaterThanToken | head | spans
  | literal | elements | properties | objectAssignmentInitializer | questionDotToken
  | argumentExpression | typeArguments | arguments | tag | template | typeNode | operand
  | operatorToken | condition | whenTrue | colonToken | whenFalse | openingElement | children
  | closingElement | tagName | attributes | openingFragment | closingFragment | namespaceName
  | typeName | exprName | members | elementType | types | checkType | extendsType | trueType
  | falseType | typeParameter | objectType | indexType | readonlyToken | nameType
  | assertsModifier | parameterName | argument | qualifier | propertyName | declarationList
  | declarations | exclamationToken | thenStatement | elseStatement | statement | incrementor
  | awaitModifier | label | caseBlock | clauses | tryBlock | catchClause | finallyBlock
  | variableDeclaration | block | heritageClauses | postfixToken | importClause | moduleSpecifier
  | namedBindings | value | moduleReference | exportClause
deriving DecidableEq, Inhabited

def Part.text : Part → String
  | .root => "root"
  | .statements => "statements"
  | .endOfFileToken => "end_of_file_token"
  | .left => "left"
  | .right => "right"
  | .expression => "expression"
  | .modifiers => "modifiers"
  | .name => "name"
  | .constraint => "constraint"
  | .defaultType => "default"
  | .dotDotDotToken => "dot_dot_dot_token"
  | .questionToken => "question_token"
  | .declaredType => "type_annotation"
  | .initializer => "initializer"
  | .asteriskToken => "asterisk_token"
  | .typeParameters => "type_parameters"
  | .parameters => "parameters"
  | .returnType => "return_type"
  | .body => "body"
  | .equalsGreaterThanToken => "equals_greater_than_token"
  | .head => "head"
  | .spans => "spans"
  | .literal => "literal"
  | .elements => "elements"
  | .properties => "properties"
  | .objectAssignmentInitializer => "object_assignment_initializer"
  | .questionDotToken => "question_dot_token"
  | .argumentExpression => "argument_expression"
  | .typeArguments => "type_arguments"
  | .arguments => "arguments"
  | .tag => "tag"
  | .template => "template"
  | .typeNode => "type_node"
  | .operand => "operand"
  | .operatorToken => "operator_token"
  | .condition => "condition"
  | .whenTrue => "when_true"
  | .colonToken => "colon_token"
  | .whenFalse => "when_false"
  | .openingElement => "opening_element"
  | .children => "children"
  | .closingElement => "closing_element"
  | .tagName => "tag_name"
  | .attributes => "attributes"
  | .openingFragment => "opening_fragment"
  | .closingFragment => "closing_fragment"
  | .namespaceName => "namespace"
  | .typeName => "type_name"
  | .exprName => "expr_name"
  | .members => "members"
  | .elementType => "element_type"
  | .types => "types"
  | .checkType => "check_type"
  | .extendsType => "extends_type"
  | .trueType => "true_type"
  | .falseType => "false_type"
  | .typeParameter => "type_parameter"
  | .objectType => "object_type"
  | .indexType => "index_type"
  | .readonlyToken => "readonly_token"
  | .nameType => "name_type"
  | .assertsModifier => "asserts_modifier"
  | .parameterName => "parameter_name"
  | .argument => "argument"
  | .qualifier => "qualifier"
  | .propertyName => "property_name"
  | .declarationList => "declaration_list"
  | .declarations => "declarations"
  | .exclamationToken => "exclamation_token"
  | .thenStatement => "then_statement"
  | .elseStatement => "else_statement"
  | .statement => "statement"
  | .incrementor => "incrementor"
  | .awaitModifier => "await_modifier"
  | .label => "label"
  | .caseBlock => "case_block"
  | .clauses => "clauses"
  | .tryBlock => "try_block"
  | .catchClause => "catch_clause"
  | .finallyBlock => "finally_block"
  | .variableDeclaration => "variable_declaration"
  | .block => "block"
  | .heritageClauses => "heritage_clauses"
  | .postfixToken => "postfix_token"
  | .importClause => "import_clause"
  | .moduleSpecifier => "module_specifier"
  | .namedBindings => "named_bindings"
  | .value => "value"
  | .moduleReference => "module_reference"
  | .exportClause => "export_clause"

/-- Plain source, or source where `<` may open an element. -/
inductive Variant where
  | standard | jsx
deriving DecidableEq, Inhabited

def Variant.name : Variant → String
  | .standard => "Standard"
  | .jsx => "Jsx"

/-- What a node carries beside its children. -/
inductive Detail where
  | none
  | name (text : String) (keyword : Option Kind)
  | privateName (text : String)
  | literal (text : String) (flags : TokenFlags)
  | content (text : String) (blank : Bool)
  | operator (kind : Kind)
  | metaKeyword (kind : Kind)
  | introducer (kind : Kind)
  | typeOf (flag : Bool)
  | typeOnly (flag : Bool)
  | exportEquals (flag : Bool)
  | variant (v : Variant)
deriving DecidableEq, Inhabited

structure NodeInfo where
  kind : Kind
  range : Range
  flags : NodeFlags
  modifiers : ModifierFlags := {}
  id : Nat
deriving DecidableEq, Inhabited

inductive Node where
  | mk (info : NodeInfo) (part : Part) (detail : Detail) (optionalLists : List Part)
      (children : List Node)
deriving Inhabited

namespace Node

def info : Node → NodeInfo | mk i _ _ _ _ => i

def part : Node → Part | mk _ p _ _ _ => p

def detail : Node → Detail | mk _ _ d _ _ => d

/-- The optional lists that were written. -/
def optionalLists : Node → List Part | mk _ _ _ l _ => l

def children : Node → List Node | mk _ _ _ _ c => c

/-- The node in another part. -/
def as (p : Part) : Node → Node | mk i _ d l c => mk i p d l c

variable (n : Node)

def kind : Kind := n.info.kind

def range : Range := n.info.range

def id : Nat := n.info.id

def isMissing : Bool := n.info.flags.missing

def containsError : Bool := n.info.flags.containsError

/-- The text of a name; empty for any other node. -/
def nameText : String :=
  match n.detail with
  | .name text _ => text
  | _ => ""

def childrenAs (p : Part) : List Node := n.children.filter (·.part == p)

def childAs? (p : Part) : Option Node := n.children.find? (·.part == p)

/-- How many nodes each written optional list holds. -/
def listLengths : List (Part × Nat) := n.optionalLists.map fun p => (p, (n.childrenAs p).length)

end Node

/-- One slot of a node under construction. -/
inductive Slot where
  | one (part : Part) (node : Node)
  | opt (part : Part) (node : Option Node)
  | list (part : Part) (nodes : List Node)
  | optList (part : Part) (nodes : Option (List Node))

namespace Slot

def nodes : Slot → List Node
  | one p n => [n.as p]
  | opt p n => n.toList.map (·.as p)
  | list p ns => ns.map (·.as p)
  | optList p ns => (ns.getD []).map (·.as p)

def optional? : Slot → Option Part
  | optList p (some _) => some p
  | _ => none

end Slot

/-- A node from its slots, in order. -/
def Node.ofSlots (info : NodeInfo) (detail : Detail) (slots : List Slot) : Node :=
  .mk info .root detail (slots.filterMap Slot.optional?) (slots.flatMap Slot.nodes)

def Node.leaf (info : NodeInfo) (detail : Detail) : Node := .mk info .root detail [] []

end ScriptGrammar
