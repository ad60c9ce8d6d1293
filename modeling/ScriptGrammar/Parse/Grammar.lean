import ScriptGrammar.Parse.List

/-!
# Goals

The productions through which the grammar returns to itself. All others are written out in terms
of a `Grammar` that answers for these, so each is an ordinary definition; the knot is tied once,
with a bound on the depth.
-/

namespace ScriptGrammar

inductive Goal where
  | statement
  /-- An assignment expression; `arrowTypes` allows an arrow function to state its result. -/
  | assignment (arrowTypes : Bool)
  /-- An operand and the operators behind it that bind at least as tightly as `min`. -/
  | binary (min : Tier) (arrowTypes : Bool)
  | unary
  | primary
  | type
  | typeOperand (min : Tier)
  | binding
  /-- An element; `inExpression` tells it from one that is the child of another. -/
  | element (inExpression : Bool)
  /-- The rest of a dotted namespace name, with its body. -/
  | namespaceTail (named : Bool)
deriving DecidableEq

class Grammar where
  parse : Goal → Parser Node

/-- What a function's signature says of its body: `yield` and `await` are operators in it, or it
is the signature of a type member and there is no body. -/
structure SignatureFlags where
  yield : Bool := false
  await : Bool := false
  type : Bool := false
deriving DecidableEq

namespace Parser

variable {α : Type} [Grammar]

def statement : Parser Node := Grammar.parse .statement

def assignment (arrowTypes : Bool) : Parser Node := Grammar.parse (.assignment arrowTypes)

def type : Parser Node := Grammar.parse .type

def binding : Parser Node := Grammar.parse .binding

def allowingIn (p : Parser α) : Parser α := inContext ({ · with disallowIn := false }) p

def disallowingIn (p : Parser α) : Parser α := inContext ({ · with disallowIn := true }) p

def withConditionalTypes (allowed : Bool) (p : Parser α) : Parser α :=
  inContext ({ · with disallowConditionalTypes := !allowed }) p

/-- Runs `p` with `yield` and `await` as operators or not. -/
def inFunction (yield await : Bool) (p : Parser α) : Parser α :=
  inContext ({ · with yield, await }) p

/-- Assignment expressions joined by commas. -/
def expression : Parser Node := inContext ({ · with decorator := false }) do
  let start ← nodeStart
  let first ← assignment true
  loop first fun left => do
    if ← isAt .commaToken then
      let operator ← takeToken
      let right ← assignment true
      return .again (← build .binaryExpression start
        [.one .left left, .one .operatorToken operator, .one .right right])
    return .done left

def expressionWithIn : Parser Node := allowingIn expression

def assignmentWithIn : Parser Node := allowingIn (assignment true)

/-- A type after a colon, if there is one. -/
def typeAfterColon : Parser (Option Node) := after .colonToken type

/-- A value after an equals sign, if there is one. -/
def initializer : Parser (Option Node) := after .equalsToken (assignment true)

def typeArguments : Parser (List Node) := do
  return (← bracketed .typeArguments .lessThanToken .greaterThanToken type).elements

def typeArguments? : Parser (Option (List Node)) := do
  optionally (← isAt .lessThanToken) typeArguments

/-- Type arguments on the line of what they apply to. -/
def typeArgumentsOnLine? : Parser (Option (List Node)) := do
  if ← onNewLine then return none else typeArguments?

/-- A placeholder type, the error having been reported. -/
def missingType : Parser Node := do
  let start ← nodeStart
  let name ← missingIdentifier
  let info ← close .typeReference start
  return .ofSlots
    { info with range := name.range, flags := { info.flags with missing := true } } .none
    [.one .typeName name, .optList .typeArguments none]

end Parser
end ScriptGrammar
