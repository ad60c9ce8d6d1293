import ScriptGrammar.Kind

/-!
# Classes of kinds

Intervals of the kind order, and the start sets the grammar asks about: what a token may begin.
-/

namespace ScriptGrammar.Kind

def between (lo hi k : Kind) : Bool := lo.index ≤ k.index && k.index ≤ hi.index

variable (k : Kind)

def isToken : Bool := between .unknown .ofKeyword k

def isTrivia : Bool := between .singleLineCommentTrivia .conflictMarkerTrivia k

def isLiteral : Bool := between .numericLiteral .noSubstitutionTemplateLiteral k

def isTemplatePiece : Bool := between .noSubstitutionTemplateLiteral .templateTail k

def isPunctuation : Bool := between .openBraceToken .questionQuestionEqualsToken k

def isAssignment : Bool := between .equalsToken .questionQuestionEqualsToken k

def isKeywordToken : Bool := between .breakKeyword .ofKeyword k

/-- Words that are never identifiers. -/
def isReserved : Bool := between .breakKeyword .withKeyword k

/-- Words reserved in strict code only. -/
def isStrictReserved : Bool := between .implementsKeyword .yieldKeyword k

/-- Identifiers and every keyword that is not reserved. -/
def isIdentifierLike : Bool := k == .identifier || between .implementsKeyword .ofKeyword k

/-- Identifiers and all keywords. -/
def isWord : Bool := k == .identifier || k.isKeywordToken

def isTypeNode : Bool := between .typePredicate .importType k

def startsExpression : Bool :=
  k.isIdentifierLike || [.numericLiteral, .bigIntLiteral, .stringLiteral,
    .noSubstitutionTemplateLiteral, .templateHead, .regularExpressionLiteral, .privateIdentifier,
    .openParenToken, .openBracketToken, .openBraceToken, .slashToken, .slashEqualsToken,
    .plusToken, .minusToken, .tildeToken, .exclamationToken, .plusPlusToken, .minusMinusToken,
    .lessThanToken, .atToken, .thisKeyword, .superKeyword, .nullKeyword, .trueKeyword,
    .falseKeyword, .functionKeyword, .classKeyword, .newKeyword, .deleteKeyword, .voidKeyword,
    .typeOfKeyword, .importKeyword].contains k

/-- Primary expressions that may be called or indexed; an import needs the token after it. -/
def startsLeftHandSide : Bool :=
  [.identifier, .numericLiteral, .bigIntLiteral, .stringLiteral, .noSubstitutionTemplateLiteral,
    .templateHead, .regularExpressionLiteral, .openParenToken, .openBracketToken, .openBraceToken,
    .slashToken, .slashEqualsToken, .thisKeyword, .superKeyword, .nullKeyword, .trueKeyword,
    .falseKeyword, .functionKeyword, .classKeyword, .newKeyword].contains k

def startsType : Bool :=
  k.isIdentifierLike || [.numericLiteral, .bigIntLiteral, .stringLiteral,
    .noSubstitutionTemplateLiteral, .templateHead, .openBraceToken, .openBracketToken,
    .openParenToken, .lessThanToken, .barToken, .ampersandToken, .asteriskToken, .questionToken,
    .exclamationToken, .dotDotDotToken, .minusToken, .nullKeyword, .thisKeyword, .typeOfKeyword,
    .voidKeyword, .trueKeyword, .falseKeyword, .newKeyword, .importKeyword,
    .functionKeyword].contains k

def startsStatement : Bool :=
  [.atToken, .semicolonToken, .openBraceToken, .varKeyword, .letKeyword, .functionKeyword,
    .classKeyword, .enumKeyword, .ifKeyword, .doKeyword, .whileKeyword, .forKeyword,
    .continueKeyword, .breakKeyword, .returnKeyword, .withKeyword, .switchKeyword, .throwKeyword,
    .tryKeyword, .debuggerKeyword, .catchKeyword, .finallyKeyword, .asyncKeyword,
    .declareKeyword, .interfaceKeyword, .moduleKeyword, .namespaceKeyword, .typeKeyword,
    .globalKeyword].contains k

def startsDeclaration : Bool :=
  [.atToken, .varKeyword, .letKeyword, .constKeyword, .usingKeyword, .awaitKeyword,
    .functionKeyword, .classKeyword, .enumKeyword, .interfaceKeyword, .typeKeyword,
    .moduleKeyword, .namespaceKeyword, .globalKeyword, .importKeyword, .exportKeyword,
    .declareKeyword, .abstractKeyword, .accessorKeyword, .asyncKeyword, .publicKeyword,
    .privateKeyword, .protectedKeyword, .readonlyKeyword, .staticKeyword,
    .overrideKeyword].contains k

def startsParameter : Bool :=
  k.isIdentifierLike ||
    [.dotDotDotToken, .atToken, .thisKeyword, .openBracketToken, .openBraceToken].contains k

/-- Words, string and number literals and private names. -/
def startsPropertyName : Bool :=
  k.isWord || [.stringLiteral, .numericLiteral, .bigIntLiteral, .privateIdentifier].contains k

def isModifier : Bool :=
  [.abstractKeyword, .accessorKeyword, .asyncKeyword, .constKeyword, .declareKeyword,
    .defaultKeyword, .exportKeyword, .inKeyword, .outKeyword, .overrideKeyword, .privateKeyword,
    .protectedKeyword, .publicKeyword, .readonlyKeyword, .staticKeyword].contains k

def followsModifier : Bool :=
  k.startsPropertyName ||
    [.openBracketToken, .openBraceToken, .asteriskToken, .dotDotDotToken].contains k

/-- Operators that group from right to left. -/
def isRightAssociative : Bool :=
  k.isAssignment || k == .asteriskAsteriskToken || k == .questionToken

/-- The classes, each with the place of its bit in `classBits`. -/
def classes : List Bool := [k.startsExpression, k.startsType, k.startsStatement,
  k.startsDeclaration, k.startsParameter, k.startsPropertyName, k.isModifier, k.followsModifier,
  k.isReserved, k.isRightAssociative, k.startsLeftHandSide]

def classBits : Nat := k.classes.foldr (fun b n => 2 * n + b.toNat) 0

end ScriptGrammar.Kind
