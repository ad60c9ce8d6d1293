/-!
# The catalogue of messages

A message has a label, a number, a category and a template. Its name here says what went wrong;
the wording is in the template, where a number in braces stands for an argument.
-/

namespace ScriptGrammar

inductive Category where
  | warning | error | suggestion | message
deriving DecidableEq, Inhabited

def Category.text : Category → String
  | .warning => "warning"
  | .error => "error"
  | .suggestion => "suggestion"
  | .message => "message"

def Category.all : List Category := [.warning, .error, .suggestion, .message]

inductive Message where
  | unterminatedString | asteriskSlashExpected | digitExpected | hexadecimalDigitExpected
  | unexpectedEndOfText | invalidCharacter | unterminatedTemplate | unterminatedRegularExpression
  | conflictMarker | unicodeEscapeOutOfRange | unterminatedUnicodeEscape | separatorNotAllowed
  | consecutiveSeparators | wordAfterNumber | octalLiteral | octalEscape | identifierExpected
  | expected | trailingComma | unexpectedToken | trailingCommaAfterRest | expressionExpected
  | typeExpected | declarationOrStatementExpected | statementExpected | caseOrDefaultExpected
  | propertyOrSignatureExpected | enumMemberExpected | variableDeclarationExpected
  | argumentExpressionExpected | propertyAssignmentExpected | expressionOrCommaExpected
  | parameterDeclarationExpected | typeParameterDeclarationExpected | typeArgumentExpected
  | stringLiteralExpected | propertyPatternExpected | elementPatternExpected
  | lineBreakNotPermitted | lineBreakBeforeArrow | braceOrSemicolonExpected | declarationExpected
  | classMemberExpected | identifierNotReservedExpected | unexpectedWord | catchOrFinallyExpected
  | elementNotClosed | closingTagMismatch | nestingTooDeep
deriving DecidableEq, Inhabited

namespace Message

structure Entry where
  label : String
  code : Nat
  template : String

def entry : Message → Entry
  | .unterminatedString =>
    ⟨"UNTERMINATED_STRING_LITERAL",
      1002, "Unterminated string literal."⟩
  | .asteriskSlashExpected => ⟨"ASTERISK_SLASH_EXPECTED", 1010, "'*/' expected."⟩
  | .digitExpected => ⟨"DIGIT_EXPECTED", 1124, "Digit expected."⟩
  | .hexadecimalDigitExpected =>
    ⟨"HEXADECIMAL_DIGIT_EXPECTED",
      1125, "Hexadecimal digit expected."⟩
  | .unexpectedEndOfText => ⟨"UNEXPECTED_END_OF_TEXT", 1126, "Unexpected end of text."⟩
  | .invalidCharacter => ⟨"INVALID_CHARACTER", 1127, "Invalid character."⟩
  | .unterminatedTemplate =>
    ⟨"UNTERMINATED_TEMPLATE_LITERAL",
      1160, "Unterminated template literal."⟩
  | .unterminatedRegularExpression =>
    ⟨"UNTERMINATED_REGULAR_EXPRESSION_LITERAL",
      1161, "Unterminated regular expression literal."⟩
  | .conflictMarker =>
    ⟨"MERGE_CONFLICT_MARKER_ENCOUNTERED",
      1185, "Merge conflict marker encountered."⟩
  | .unicodeEscapeOutOfRange =>
    ⟨"AN_EXTENDED_UNICODE_ESCAPE_VALUE_MUST_BE_BETWEEN_0X0_AND_0X10FFFF_INCLUSIVE",
      1198, "An extended Unicode escape value must be between 0x0 and 0x10FFFF inclusive."⟩
  | .unterminatedUnicodeEscape =>
    ⟨"UNTERMINATED_UNICODE_ESCAPE_SEQUENCE",
      1199, "Unterminated Unicode escape sequence."⟩
  | .separatorNotAllowed =>
    ⟨"NUMERIC_SEPARATORS_ARE_NOT_ALLOWED_HERE",
      6188, "Numeric separators are not allowed here."⟩
  | .consecutiveSeparators =>
    ⟨"MULTIPLE_CONSECUTIVE_NUMERIC_SEPARATORS_ARE_NOT_PERMITTED",
      6189, "Multiple consecutive numeric separators are not permitted."⟩
  | .wordAfterNumber =>
    ⟨"AN_IDENTIFIER_OR_KEYWORD_CANNOT_IMMEDIATELY_FOLLOW_A_NUMERIC_LITERAL",
      1351, "An identifier or keyword cannot immediately follow a numeric literal."⟩
  | .octalLiteral =>
    ⟨"OCTAL_LITERALS_ARE_NOT_ALLOWED_USE_THE_SYNTAX_0",
      1121, "Octal literals are not allowed. Use the syntax '\x7b0\x7d'."⟩
  | .octalEscape =>
    ⟨"OCTAL_ESCAPE_SEQUENCES_ARE_NOT_ALLOWED_USE_THE_SYNTAX_0",
      1487, "Octal escape sequences are not allowed. Use the syntax '\x7b0\x7d'."⟩
  | .identifierExpected => ⟨"IDENTIFIER_EXPECTED", 1003, "Identifier expected."⟩
  | .expected => ⟨"_0_EXPECTED", 1005, "'\x7b0\x7d' expected."⟩
  | .trailingComma => ⟨"TRAILING_COMMA_NOT_ALLOWED", 1009, "Trailing comma not allowed."⟩
  | .unexpectedToken => ⟨"UNEXPECTED_TOKEN", 1012, "Unexpected token."⟩
  | .trailingCommaAfterRest =>
    ⟨"A_REST_PARAMETER_OR_BINDING_PATTERN_MAY_NOT_HAVE_A_TRAILING_COMMA",
      1013, "A rest parameter or binding pattern may not have a trailing comma."⟩
  | .expressionExpected => ⟨"EXPRESSION_EXPECTED", 1109, "Expression expected."⟩
  | .typeExpected => ⟨"TYPE_EXPECTED", 1110, "Type expected."⟩
  | .declarationOrStatementExpected =>
    ⟨"DECLARATION_OR_STATEMENT_EXPECTED",
      1128, "Declaration or statement expected."⟩
  | .statementExpected => ⟨"STATEMENT_EXPECTED", 1129, "Statement expected."⟩
  | .caseOrDefaultExpected =>
    ⟨"CASE_OR_DEFAULT_EXPECTED",
      1130, "'case' or 'default' expected."⟩
  | .propertyOrSignatureExpected =>
    ⟨"PROPERTY_OR_SIGNATURE_EXPECTED",
      1131, "Property or signature expected."⟩
  | .enumMemberExpected => ⟨"ENUM_MEMBER_EXPECTED", 1132, "Enum member expected."⟩
  | .variableDeclarationExpected =>
    ⟨"VARIABLE_DECLARATION_EXPECTED",
      1134, "Variable declaration expected."⟩
  | .argumentExpressionExpected =>
    ⟨"ARGUMENT_EXPRESSION_EXPECTED",
      1135, "Argument expression expected."⟩
  | .propertyAssignmentExpected =>
    ⟨"PROPERTY_ASSIGNMENT_EXPECTED",
      1136, "Property assignment expected."⟩
  | .expressionOrCommaExpected =>
    ⟨"EXPRESSION_OR_COMMA_EXPECTED",
      1137, "Expression or comma expected."⟩
  | .parameterDeclarationExpected =>
    ⟨"PARAMETER_DECLARATION_EXPECTED",
      1138, "Parameter declaration expected."⟩
  | .typeParameterDeclarationExpected =>
    ⟨"TYPE_PARAMETER_DECLARATION_EXPECTED",
      1139, "Type parameter declaration expected."⟩
  | .typeArgumentExpected => ⟨"TYPE_ARGUMENT_EXPECTED", 1140, "Type argument expected."⟩
  | .stringLiteralExpected =>
    ⟨"STRING_LITERAL_EXPECTED",
      1141, "String literal expected."⟩
  | .propertyPatternExpected =>
    ⟨"PROPERTY_DESTRUCTURING_PATTERN_EXPECTED",
      1180, "Property destructuring pattern expected."⟩
  | .elementPatternExpected =>
    ⟨"ARRAY_ELEMENT_DESTRUCTURING_PATTERN_EXPECTED",
      1181, "Array element destructuring pattern expected."⟩
  | .lineBreakNotPermitted =>
    ⟨"LINE_BREAK_NOT_PERMITTED_HERE",
      1142, "Line break not permitted here."⟩
  | .lineBreakBeforeArrow =>
    ⟨"LINE_TERMINATOR_NOT_PERMITTED_BEFORE_ARROW",
      1200, "Line terminator not permitted before arrow."⟩
  | .braceOrSemicolonExpected => ⟨"OR_EXPECTED", 1144, "'\x7b' or ';' expected."⟩
  | .declarationExpected => ⟨"DECLARATION_EXPECTED", 1146, "Declaration expected."⟩
  | .classMemberExpected =>
    ⟨"UNEXPECTED_TOKEN_A_CONSTRUCTOR_METHOD_ACCESSOR_OR_PROPERTY_WAS_EXPECTED",
      1068, "Unexpected token. A constructor, method, accessor, or property was expected."⟩
  | .identifierNotReservedExpected =>
    ⟨"IDENTIFIER_EXPECTED_0_IS_A_RESERVED_WORD_THAT_CANNOT_BE_USED_HERE",
      1359, "Identifier expected. '\x7b0\x7d' is a reserved word that cannot be used here."⟩
  | .unexpectedWord =>
    ⟨"UNEXPECTED_KEYWORD_OR_IDENTIFIER",
      1434, "Unexpected keyword or identifier."⟩
  | .catchOrFinallyExpected =>
    ⟨"CATCH_OR_FINALLY_EXPECTED",
      1472, "'catch' or 'finally' expected."⟩
  | .elementNotClosed =>
    ⟨"JSX_ELEMENT_0_HAS_NO_CORRESPONDING_CLOSING_TAG",
      17008, "JSX element '\x7b0\x7d' has no corresponding closing tag."⟩
  | .closingTagMismatch =>
    ⟨"EXPECTED_CORRESPONDING_JSX_CLOSING_TAG_FOR_0",
      17002, "Expected corresponding JSX closing tag for '\x7b0\x7d'."⟩
  | .nestingTooDeep =>
    ⟨"MAXIMUM_NESTING_DEPTH_EXCEEDED",
      1000, "Maximum nesting depth exceeded."⟩

def all : List Message := [
  .unterminatedString, .asteriskSlashExpected, .digitExpected, .hexadecimalDigitExpected,
  .unexpectedEndOfText, .invalidCharacter, .unterminatedTemplate, .unterminatedRegularExpression,
  .conflictMarker, .unicodeEscapeOutOfRange, .unterminatedUnicodeEscape, .separatorNotAllowed,
  .consecutiveSeparators, .wordAfterNumber, .octalLiteral, .octalEscape, .identifierExpected,
  .expected, .trailingComma, .unexpectedToken, .trailingCommaAfterRest, .expressionExpected,
  .typeExpected, .declarationOrStatementExpected, .statementExpected, .caseOrDefaultExpected,
  .propertyOrSignatureExpected, .enumMemberExpected, .variableDeclarationExpected,
  .argumentExpressionExpected, .propertyAssignmentExpected, .expressionOrCommaExpected,
  .parameterDeclarationExpected, .typeParameterDeclarationExpected, .typeArgumentExpected,
  .stringLiteralExpected, .propertyPatternExpected, .elementPatternExpected,
  .lineBreakNotPermitted, .lineBreakBeforeArrow, .braceOrSemicolonExpected, .declarationExpected,
  .classMemberExpected, .identifierNotReservedExpected, .unexpectedWord, .catchOrFinallyExpected,
  .elementNotClosed, .closingTagMismatch, .nestingTooDeep]

def label (m : Message) : String := m.entry.label

def code (m : Message) : Nat := m.entry.code

def template (m : Message) : String := m.entry.template

/-- Every message of the catalogue is an error. -/
def category (_ : Message) : Category := .error

def ofLabel? (s : String) : Option Message := all.find? (·.label == s)

def ofCode? (n : Nat) : Option Message := all.find? (·.code == n)

end Message
end ScriptGrammar
