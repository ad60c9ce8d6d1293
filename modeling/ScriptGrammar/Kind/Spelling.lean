import ScriptGrammar.Kind

/-!
# Spellings

The fixed text of punctuators and keywords, the keyword a word spells, and how messages name a
token.
-/

namespace ScriptGrammar.Kind

/-- The punctuators with their text. -/
def punctuators : List (Kind × String) := [
  (.openBraceToken, "\x7b"), (.closeBraceToken, "\x7d"), (.openParenToken, "("),
  (.closeParenToken, ")"), (.openBracketToken, "["), (.closeBracketToken, "]"), (.dotToken, "."),
  (.dotDotDotToken, "..."), (.semicolonToken, ";"), (.commaToken, ","),
  (.questionDotToken, "?."), (.lessThanToken, "<"), (.lessThanSlashToken, "</"),
  (.greaterThanToken, ">"), (.lessThanEqualsToken, "<="), (.greaterThanEqualsToken, ">="),
  (.equalsEqualsToken, "=="), (.exclamationEqualsToken, "!="), (.equalsEqualsEqualsToken, "==="),
  (.exclamationEqualsEqualsToken, "!=="), (.equalsGreaterThanToken, "=>"), (.plusToken, "+"),
  (.minusToken, "-"), (.asteriskToken, "*"), (.asteriskAsteriskToken, "**"), (.slashToken, "/"),
  (.percentToken, "%"), (.plusPlusToken, "++"), (.minusMinusToken, "--"),
  (.lessThanLessThanToken, "<<"), (.greaterThanGreaterThanToken, ">>"),
  (.greaterThanGreaterThanGreaterThanToken, ">>>"), (.ampersandToken, "&"), (.barToken, "|"),
  (.caretToken, "^"), (.exclamationToken, "!"), (.tildeToken, "~"),
  (.ampersandAmpersandToken, "&&"), (.barBarToken, "||"), (.questionToken, "?"),
  (.colonToken, ":"), (.atToken, "@"), (.questionQuestionToken, "??"), (.backtickToken, "\x60"),
  (.hashToken, "#"), (.equalsToken, "="), (.plusEqualsToken, "+="), (.minusEqualsToken, "-="),
  (.asteriskEqualsToken, "*="), (.asteriskAsteriskEqualsToken, "**="), (.slashEqualsToken, "/="),
  (.percentEqualsToken, "%="), (.lessThanLessThanEqualsToken, "<<="),
  (.greaterThanGreaterThanEqualsToken, ">>="),
  (.greaterThanGreaterThanGreaterThanEqualsToken, ">>>="), (.ampersandEqualsToken, "&="),
  (.barEqualsToken, "|="), (.caretEqualsToken, "^="), (.barBarEqualsToken, "||="),
  (.ampersandAmpersandEqualsToken, "&&="), (.questionQuestionEqualsToken, "??=")]

/-- The keywords with their text. -/
def keywords : List (Kind × String) := [
  (.breakKeyword, "break"), (.caseKeyword, "case"), (.catchKeyword, "catch"),
  (.classKeyword, "class"), (.constKeyword, "const"), (.continueKeyword, "continue"),
  (.debuggerKeyword, "debugger"), (.defaultKeyword, "default"), (.deleteKeyword, "delete"),
  (.doKeyword, "do"), (.elseKeyword, "else"), (.enumKeyword, "enum"), (.exportKeyword, "export"),
  (.extendsKeyword, "extends"), (.falseKeyword, "false"), (.finallyKeyword, "finally"),
  (.forKeyword, "for"), (.functionKeyword, "function"), (.ifKeyword, "if"),
  (.importKeyword, "import"), (.inKeyword, "in"), (.instanceOfKeyword, "instanceof"),
  (.newKeyword, "new"), (.nullKeyword, "null"), (.returnKeyword, "return"),
  (.superKeyword, "super"), (.switchKeyword, "switch"), (.thisKeyword, "this"),
  (.throwKeyword, "throw"), (.trueKeyword, "true"), (.tryKeyword, "try"),
  (.typeOfKeyword, "typeof"), (.varKeyword, "var"), (.voidKeyword, "void"),
  (.whileKeyword, "while"), (.withKeyword, "with"), (.implementsKeyword, "implements"),
  (.interfaceKeyword, "interface"), (.letKeyword, "let"), (.packageKeyword, "package"),
  (.privateKeyword, "private"), (.protectedKeyword, "protected"), (.publicKeyword, "public"),
  (.staticKeyword, "static"), (.yieldKeyword, "yield"), (.abstractKeyword, "abstract"),
  (.accessorKeyword, "accessor"), (.asKeyword, "as"), (.assertsKeyword, "asserts"),
  (.assertKeyword, "assert"), (.anyKeyword, "any"), (.asyncKeyword, "async"),
  (.awaitKeyword, "await"), (.booleanKeyword, "boolean"), (.constructorKeyword, "constructor"),
  (.declareKeyword, "declare"), (.getKeyword, "get"), (.inferKeyword, "infer"),
  (.intrinsicKeyword, "intrinsic"), (.isKeyword, "is"), (.keyOfKeyword, "keyof"),
  (.moduleKeyword, "module"), (.namespaceKeyword, "namespace"), (.neverKeyword, "never"),
  (.outKeyword, "out"), (.readonlyKeyword, "readonly"), (.requireKeyword, "require"),
  (.numberKeyword, "number"), (.objectKeyword, "object"), (.satisfiesKeyword, "satisfies"),
  (.setKeyword, "set"), (.stringKeyword, "string"), (.symbolKeyword, "symbol"),
  (.typeKeyword, "type"), (.undefinedKeyword, "undefined"), (.uniqueKeyword, "unique"),
  (.unknownKeyword, "unknown"), (.usingKeyword, "using"), (.fromKeyword, "from"),
  (.globalKeyword, "global"), (.bigIntKeyword, "bigint"), (.overrideKeyword, "override"),
  (.ofKeyword, "of")]

def punctuationText? (k : Kind) : Option String := (punctuators.find? (·.1 == k)).map (·.2)

def keywordText? (k : Kind) : Option String := (keywords.find? (·.1 == k)).map (·.2)

def text? (k : Kind) : Option String := k.punctuationText? <|> k.keywordText?

/-- The keyword spelled by `word`. -/
def ofKeyword? (word : String) : Option Kind := (keywords.find? (·.2 == word)).map (·.1)

/-- Only words as long as a keyword may be, with a small first letter, are looked up. -/
def mayBeKeyword (word : String) : Bool :=
  2 ≤ word.utf8ByteSize && word.utf8ByteSize ≤ 11 && word.toList.head?.any Char.isLower

/-- The kind of an identifier written without escapes. -/
def ofWord (word : String) : Kind :=
  (if mayBeKeyword word then ofKeyword? word else none).getD .identifier

/-- How a message names a token of this kind. -/
def displayName (k : Kind) : String :=
  k.text?.getD <| match k with
    | .endOfFileToken => "end of file"
    | .identifier => "identifier"
    | .privateIdentifier => "private identifier"
    | .numericLiteral => "numeric literal"
    | .bigIntLiteral => "bigint literal"
    | .stringLiteral => "string literal"
    | .regularExpressionLiteral => "regular expression literal"
    | .noSubstitutionTemplateLiteral | .templateHead | .templateMiddle | .templateTail =>
      "template literal"
    | .jsxText | .jsxTextAllWhiteSpaces => "JSX text"
    | _ => "token"

end ScriptGrammar.Kind
