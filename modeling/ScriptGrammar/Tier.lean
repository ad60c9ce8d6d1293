import ScriptGrammar.Kind.Class

/-!
# Precedence tiers

One scale for value and type operators, loosest first. A kind that is no operator has the tier
`invalid`, which stands above all others and leads nowhere.
-/

namespace ScriptGrammar

inductive Tier where
  | comma | spread | yield | assignment | conditional | nullishCoalescing | logicalOr | logicalAnd
  | bitwiseOr | bitwiseXor | bitwiseAnd | equality | relational | shift | additive
  | multiplicative | exponentiation | unary | update | leftHandSide | member | primary | highest
  | invalid
deriving DecidableEq, Inhabited

namespace Tier

def all : List Tier := [.comma, .spread, .yield, .assignment, .conditional, .nullishCoalescing,
  .logicalOr, .logicalAnd, .bitwiseOr, .bitwiseXor, .bitwiseAnd, .equality, .relational, .shift,
  .additive, .multiplicative, .exponentiation, .unary, .update, .leftHandSide, .member, .primary,
  .highest, .invalid]

def name : Tier → String
  | .comma => "Comma"
  | .spread => "Spread"
  | .yield => "Yield"
  | .assignment => "Assignment"
  | .conditional => "Conditional"
  | .nullishCoalescing => "NullishCoalescing"
  | .logicalOr => "LogicalOr"
  | .logicalAnd => "LogicalAnd"
  | .bitwiseOr => "BitwiseOr"
  | .bitwiseXor => "BitwiseXor"
  | .bitwiseAnd => "BitwiseAnd"
  | .equality => "Equality"
  | .relational => "Relational"
  | .shift => "Shift"
  | .additive => "Additive"
  | .multiplicative => "Multiplicative"
  | .exponentiation => "Exponentiation"
  | .unary => "Unary"
  | .update => "Update"
  | .leftHandSide => "LeftHandSide"
  | .member => "Member"
  | .primary => "Primary"
  | .highest => "Highest"
  | .invalid => "Invalid"

def ofName? (s : String) : Option Tier := all.find? (·.name == s)

def value (t : Tier) : Nat := if t = .invalid then 255 else t.ctorIdx

def isValid (t : Tier) : Bool := t != .invalid

/-- The next tighter tier; the highest stays where it is. -/
def next : Tier → Tier
  | .comma => .spread
  | .spread => .yield
  | .yield => .assignment
  | .assignment => .conditional
  | .conditional => .nullishCoalescing
  | .nullishCoalescing => .logicalOr
  | .logicalOr => .logicalAnd
  | .logicalAnd => .bitwiseOr
  | .bitwiseOr => .bitwiseXor
  | .bitwiseXor => .bitwiseAnd
  | .bitwiseAnd => .equality
  | .equality => .relational
  | .relational => .shift
  | .shift => .additive
  | .additive => .multiplicative
  | .multiplicative => .exponentiation
  | .exponentiation => .unary
  | .unary => .update
  | .update => .leftHandSide
  | .leftHandSide => .member
  | .member => .primary
  | .primary | .highest => .highest
  | .invalid => .invalid

def looserThan (s t : Tier) : Bool := s.value < t.value

/-- The tiers above this one, in order. -/
def tighter (t : Tier) : List Tier := all.filter t.looserThan

end Tier

namespace Kind

/-- The tier of an infix operator between values. -/
def binaryTier (k : Kind) : Tier :=
  if k.isAssignment then .assignment else
  match k with
  | .commaToken => .comma
  | .questionToken => .conditional
  | .questionQuestionToken => .nullishCoalescing
  | .barBarToken => .logicalOr
  | .ampersandAmpersandToken => .logicalAnd
  | .barToken => .bitwiseOr
  | .caretToken => .bitwiseXor
  | .ampersandToken => .bitwiseAnd
  | .equalsEqualsToken | .exclamationEqualsToken | .equalsEqualsEqualsToken
  | .exclamationEqualsEqualsToken => .equality
  | .lessThanToken | .greaterThanToken | .lessThanEqualsToken | .greaterThanEqualsToken
  | .instanceOfKeyword | .inKeyword | .asKeyword | .satisfiesKeyword => .relational
  | .lessThanLessThanToken | .greaterThanGreaterThanToken
  | .greaterThanGreaterThanGreaterThanToken => .shift
  | .plusToken | .minusToken => .additive
  | .asteriskToken | .slashToken | .percentToken => .multiplicative
  | .asteriskAsteriskToken => .exponentiation
  | _ => .invalid

/-- The tier of a form written after its operand. -/
def postfixTier (k : Kind) : Tier :=
  match k with
  | .dotToken | .questionDotToken | .openBracketToken | .openParenToken | .exclamationToken
  | .lessThanToken | .noSubstitutionTemplateLiteral | .templateHead => .member
  | .plusPlusToken | .minusMinusToken => .update
  | _ => .invalid

/-- The tier of an operator between types. -/
def typeTier (k : Kind) : Tier :=
  match k with
  | .extendsKeyword => .conditional
  | .barToken => .bitwiseOr
  | .ampersandToken => .bitwiseAnd
  | .openBracketToken => .member
  | _ => .invalid

end Kind
end ScriptGrammar
