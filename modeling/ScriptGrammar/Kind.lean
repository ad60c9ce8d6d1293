/-!
# Kinds of tokens and nodes

Tokens come first, in blocks: specials and trivia, literals, punctuators, names, keywords. Nodes
follow. The order is part of the data: a kind's index is its place here, and the word classes
are intervals of it.
-/

namespace ScriptGrammar

/-- What a token or a node is. -/
inductive Kind where
  -- specials, trivia, literals
  | unknown | endOfFileToken | singleLineCommentTrivia | multiLineCommentTrivia | newLineTrivia
  | whitespaceTrivia | shebangTrivia | conflictMarkerTrivia | numericLiteral | bigIntLiteral
  | stringLiteral | jsxText | jsxTextAllWhiteSpaces | regularExpressionLiteral
  | noSubstitutionTemplateLiteral | templateHead | templateMiddle | templateTail
  -- punctuators
  | openBraceToken | closeBraceToken | openParenToken | closeParenToken | openBracketToken
  | closeBracketToken | dotToken | dotDotDotToken | semicolonToken | commaToken
  | questionDotToken | lessThanToken | lessThanSlashToken | greaterThanToken
  | lessThanEqualsToken | greaterThanEqualsToken | equalsEqualsToken | exclamationEqualsToken
  | equalsEqualsEqualsToken | exclamationEqualsEqualsToken | equalsGreaterThanToken | plusToken
  | minusToken | asteriskToken | asteriskAsteriskToken | slashToken | percentToken
  | plusPlusToken | minusMinusToken | lessThanLessThanToken | greaterThanGreaterThanToken
  | greaterThanGreaterThanGreaterThanToken | ampersandToken | barToken | caretToken
  | exclamationToken | tildeToken | ampersandAmpersandToken | barBarToken | questionToken
  | colonToken | atToken | questionQuestionToken | backtickToken | hashToken | equalsToken
  | plusEqualsToken | minusEqualsToken | asteriskEqualsToken | asteriskAsteriskEqualsToken
  | slashEqualsToken | percentEqualsToken | lessThanLessThanEqualsToken
  | greaterThanGreaterThanEqualsToken | greaterThanGreaterThanGreaterThanEqualsToken
  | ampersandEqualsToken | barEqualsToken | caretEqualsToken | barBarEqualsToken
  | ampersandAmpersandEqualsToken | questionQuestionEqualsToken
  -- names
  | identifier | privateIdentifier
  -- keywords: reserved, reserved in strict code, contextual
  | breakKeyword | caseKeyword | catchKeyword | classKeyword | constKeyword | continueKeyword
  | debuggerKeyword | defaultKeyword | deleteKeyword | doKeyword | elseKeyword | enumKeyword
  | exportKeyword | extendsKeyword | falseKeyword | finallyKeyword | forKeyword | functionKeyword
  | ifKeyword | importKeyword | inKeyword | instanceOfKeyword | newKeyword | nullKeyword
  | returnKeyword | superKeyword | switchKeyword | thisKeyword | throwKeyword | trueKeyword
  | tryKeyword | typeOfKeyword | varKeyword | voidKeyword | whileKeyword | withKeyword
  | implementsKeyword | interfaceKeyword | letKeyword | packageKeyword | privateKeyword
  | protectedKeyword | publicKeyword | staticKeyword | yieldKeyword | abstractKeyword
  | accessorKeyword | asKeyword | assertsKeyword | assertKeyword | anyKeyword | asyncKeyword
  | awaitKeyword | booleanKeyword | constructorKeyword | declareKeyword | getKeyword
  | inferKeyword | intrinsicKeyword | isKeyword | keyOfKeyword | moduleKeyword | namespaceKeyword
  | neverKeyword | outKeyword | readonlyKeyword | requireKeyword | numberKeyword | objectKeyword
  | satisfiesKeyword | setKeyword | stringKeyword | symbolKeyword | typeKeyword
  | undefinedKeyword | uniqueKeyword | unknownKeyword | usingKeyword | fromKeyword
  | globalKeyword | bigIntKeyword | overrideKeyword | ofKeyword
  -- nodes
  | qualifiedName | computedPropertyName | typeParameter | parameter | decorator
  | propertySignature | propertyDeclaration | methodSignature | methodDeclaration
  | classStaticBlockDeclaration | constructor | getAccessor | setAccessor | callSignature
  | constructSignature | indexSignature | typePredicate | typeReference | functionType
  | constructorType | typeQuery | typeLiteral | arrayType | tupleType | optionalType | restType
  | unionType | intersectionType | conditionalType | inferType | parenthesizedType | thisType
  | typeOperator | indexedAccessType | mappedType | literalType | namedTupleMember
  | templateLiteralType | templateLiteralTypeSpan | importType | objectBindingPattern
  | arrayBindingPattern | bindingElement | arrayLiteralExpression | objectLiteralExpression
  | propertyAccessExpression | elementAccessExpression | callExpression | newExpression
  | taggedTemplateExpression | typeAssertionExpression | parenthesizedExpression
  | functionExpression | arrowFunction | deleteExpression | typeOfExpression | voidExpression
  | awaitExpression | prefixUnaryExpression | postfixUnaryExpression | binaryExpression
  | conditionalExpression | templateExpression | yieldExpression | spreadElement
  | classExpression | omittedExpression | expressionWithTypeArguments | asExpression
  | nonNullExpression | metaProperty | satisfiesExpression | templateSpan | semicolonClassElement
  | block | emptyStatement | variableStatement | expressionStatement | ifStatement | doStatement
  | whileStatement | forStatement | forInStatement | forOfStatement | continueStatement
  | breakStatement | returnStatement | withStatement | switchStatement | labeledStatement
  | throwStatement | tryStatement | debuggerStatement | variableDeclaration
  | variableDeclarationList | functionDeclaration | classDeclaration | interfaceDeclaration
  | typeAliasDeclaration | enumDeclaration | moduleDeclaration | moduleBlock | caseBlock
  | namespaceExportDeclaration | importEqualsDeclaration | importDeclaration | importClause
  | namespaceImport | namedImports | importSpecifier | exportAssignment | exportDeclaration
  | namedExports | namespaceExport | exportSpecifier | missingDeclaration
  | externalModuleReference | jsxElement | jsxSelfClosingElement | jsxOpeningElement
  | jsxClosingElement | jsxFragment | jsxOpeningFragment | jsxClosingFragment | jsxAttribute
  | jsxAttributes | jsxSpreadAttribute | jsxExpression | jsxNamespacedName | caseClause
  | defaultClause | heritageClause | catchClause | importAttributes | importAttribute
  | propertyAssignment | shorthandPropertyAssignment | spreadAssignment | enumMember | sourceFile
deriving DecidableEq, Inhabited

namespace Kind

def index (k : Kind) : Nat := k.ctorIdx

/-- Every kind, in order. -/
def all : List Kind := [
  .unknown, .endOfFileToken, .singleLineCommentTrivia, .multiLineCommentTrivia, .newLineTrivia,
  .whitespaceTrivia, .shebangTrivia, .conflictMarkerTrivia, .numericLiteral, .bigIntLiteral,
  .stringLiteral, .jsxText, .jsxTextAllWhiteSpaces, .regularExpressionLiteral,
  .noSubstitutionTemplateLiteral, .templateHead, .templateMiddle, .templateTail, .openBraceToken,
  .closeBraceToken, .openParenToken, .closeParenToken, .openBracketToken, .closeBracketToken,
  .dotToken, .dotDotDotToken, .semicolonToken, .commaToken, .questionDotToken, .lessThanToken,
  .lessThanSlashToken, .greaterThanToken, .lessThanEqualsToken, .greaterThanEqualsToken,
  .equalsEqualsToken, .exclamationEqualsToken, .equalsEqualsEqualsToken,
  .exclamationEqualsEqualsToken, .equalsGreaterThanToken, .plusToken, .minusToken,
  .asteriskToken, .asteriskAsteriskToken, .slashToken, .percentToken, .plusPlusToken,
  .minusMinusToken, .lessThanLessThanToken, .greaterThanGreaterThanToken,
  .greaterThanGreaterThanGreaterThanToken, .ampersandToken, .barToken, .caretToken,
  .exclamationToken, .tildeToken, .ampersandAmpersandToken, .barBarToken, .questionToken,
  .colonToken, .atToken, .questionQuestionToken, .backtickToken, .hashToken, .equalsToken,
  .plusEqualsToken, .minusEqualsToken, .asteriskEqualsToken, .asteriskAsteriskEqualsToken,
  .slashEqualsToken, .percentEqualsToken, .lessThanLessThanEqualsToken,
  .greaterThanGreaterThanEqualsToken, .greaterThanGreaterThanGreaterThanEqualsToken,
  .ampersandEqualsToken, .barEqualsToken, .caretEqualsToken, .barBarEqualsToken,
  .ampersandAmpersandEqualsToken, .questionQuestionEqualsToken, .identifier, .privateIdentifier,
  .breakKeyword, .caseKeyword, .catchKeyword, .classKeyword, .constKeyword, .continueKeyword,
  .debuggerKeyword, .defaultKeyword, .deleteKeyword, .doKeyword, .elseKeyword, .enumKeyword,
  .exportKeyword, .extendsKeyword, .falseKeyword, .finallyKeyword, .forKeyword, .functionKeyword,
  .ifKeyword, .importKeyword, .inKeyword, .instanceOfKeyword, .newKeyword, .nullKeyword,
  .returnKeyword, .superKeyword, .switchKeyword, .thisKeyword, .throwKeyword, .trueKeyword,
  .tryKeyword, .typeOfKeyword, .varKeyword, .voidKeyword, .whileKeyword, .withKeyword,
  .implementsKeyword, .interfaceKeyword, .letKeyword, .packageKeyword, .privateKeyword,
  .protectedKeyword, .publicKeyword, .staticKeyword, .yieldKeyword, .abstractKeyword,
  .accessorKeyword, .asKeyword, .assertsKeyword, .assertKeyword, .anyKeyword, .asyncKeyword,
  .awaitKeyword, .booleanKeyword, .constructorKeyword, .declareKeyword, .getKeyword,
  .inferKeyword, .intrinsicKeyword, .isKeyword, .keyOfKeyword, .moduleKeyword, .namespaceKeyword,
  .neverKeyword, .outKeyword, .readonlyKeyword, .requireKeyword, .numberKeyword, .objectKeyword,
  .satisfiesKeyword, .setKeyword, .stringKeyword, .symbolKeyword, .typeKeyword,
  .undefinedKeyword, .uniqueKeyword, .unknownKeyword, .usingKeyword, .fromKeyword,
  .globalKeyword, .bigIntKeyword, .overrideKeyword, .ofKeyword, .qualifiedName,
  .computedPropertyName, .typeParameter, .parameter, .decorator, .propertySignature,
  .propertyDeclaration, .methodSignature, .methodDeclaration, .classStaticBlockDeclaration,
  .constructor, .getAccessor, .setAccessor, .callSignature, .constructSignature, .indexSignature,
  .typePredicate, .typeReference, .functionType, .constructorType, .typeQuery, .typeLiteral,
  .arrayType, .tupleType, .optionalType, .restType, .unionType, .intersectionType,
  .conditionalType, .inferType, .parenthesizedType, .thisType, .typeOperator, .indexedAccessType,
  .mappedType, .literalType, .namedTupleMember, .templateLiteralType, .templateLiteralTypeSpan,
  .importType, .objectBindingPattern, .arrayBindingPattern, .bindingElement,
  .arrayLiteralExpression, .objectLiteralExpression, .propertyAccessExpression,
  .elementAccessExpression, .callExpression, .newExpression, .taggedTemplateExpression,
  .typeAssertionExpression, .parenthesizedExpression, .functionExpression, .arrowFunction,
  .deleteExpression, .typeOfExpression, .voidExpression, .awaitExpression,
  .prefixUnaryExpression, .postfixUnaryExpression, .binaryExpression, .conditionalExpression,
  .templateExpression, .yieldExpression, .spreadElement, .classExpression, .omittedExpression,
  .expressionWithTypeArguments, .asExpression, .nonNullExpression, .metaProperty,
  .satisfiesExpression, .templateSpan, .semicolonClassElement, .block, .emptyStatement,
  .variableStatement, .expressionStatement, .ifStatement, .doStatement, .whileStatement,
  .forStatement, .forInStatement, .forOfStatement, .continueStatement, .breakStatement,
  .returnStatement, .withStatement, .switchStatement, .labeledStatement, .throwStatement,
  .tryStatement, .debuggerStatement, .variableDeclaration, .variableDeclarationList,
  .functionDeclaration, .classDeclaration, .interfaceDeclaration, .typeAliasDeclaration,
  .enumDeclaration, .moduleDeclaration, .moduleBlock, .caseBlock, .namespaceExportDeclaration,
  .importEqualsDeclaration, .importDeclaration, .importClause, .namespaceImport, .namedImports,
  .importSpecifier, .exportAssignment, .exportDeclaration, .namedExports, .namespaceExport,
  .exportSpecifier, .missingDeclaration, .externalModuleReference, .jsxElement,
  .jsxSelfClosingElement, .jsxOpeningElement, .jsxClosingElement, .jsxFragment,
  .jsxOpeningFragment, .jsxClosingFragment, .jsxAttribute, .jsxAttributes, .jsxSpreadAttribute,
  .jsxExpression, .jsxNamespacedName, .caseClause, .defaultClause, .heritageClause, .catchClause,
  .importAttributes, .importAttribute, .propertyAssignment, .shorthandPropertyAssignment,
  .spreadAssignment, .enumMember, .sourceFile]

def name : Kind → String
  | .unknown => "Unknown"
  | .endOfFileToken => "EndOfFileToken"
  | .singleLineCommentTrivia => "SingleLineCommentTrivia"
  | .multiLineCommentTrivia => "MultiLineCommentTrivia"
  | .newLineTrivia => "NewLineTrivia"
  | .whitespaceTrivia => "WhitespaceTrivia"
  | .shebangTrivia => "ShebangTrivia"
  | .conflictMarkerTrivia => "ConflictMarkerTrivia"
  | .numericLiteral => "NumericLiteral"
  | .bigIntLiteral => "BigIntLiteral"
  | .stringLiteral => "StringLiteral"
  | .jsxText => "JsxText"
  | .jsxTextAllWhiteSpaces => "JsxTextAllWhiteSpaces"
  | .regularExpressionLiteral => "RegularExpressionLiteral"
  | .noSubstitutionTemplateLiteral => "NoSubstitutionTemplateLiteral"
  | .templateHead => "TemplateHead"
  | .templateMiddle => "TemplateMiddle"
  | .templateTail => "TemplateTail"
  | .openBraceToken => "OpenBraceToken"
  | .closeBraceToken => "CloseBraceToken"
  | .openParenToken => "OpenParenToken"
  | .closeParenToken => "CloseParenToken"
  | .openBracketToken => "OpenBracketToken"
  | .closeBracketToken => "CloseBracketToken"
  | .dotToken => "DotToken"
  | .dotDotDotToken => "DotDotDotToken"
  | .semicolonToken => "SemicolonToken"
  | .commaToken => "CommaToken"
  | .questionDotToken => "QuestionDotToken"
  | .lessThanToken => "LessThanToken"
  | .lessThanSlashToken => "LessThanSlashToken"
  | .greaterThanToken => "GreaterThanToken"
  | .lessThanEqualsToken => "LessThanEqualsToken"
  | .greaterThanEqualsToken => "GreaterThanEqualsToken"
  | .equalsEqualsToken => "EqualsEqualsToken"
  | .exclamationEqualsToken => "ExclamationEqualsToken"
  | .equalsEqualsEqualsToken => "EqualsEqualsEqualsToken"
  | .exclamationEqualsEqualsToken => "ExclamationEqualsEqualsToken"
  | .equalsGreaterThanToken => "EqualsGreaterThanToken"
  | .plusToken => "PlusToken"
  | .minusToken => "MinusToken"
  | .asteriskToken => "AsteriskToken"
  | .asteriskAsteriskToken => "AsteriskAsteriskToken"
  | .slashToken => "SlashToken"
  | .percentToken => "PercentToken"
  | .plusPlusToken => "PlusPlusToken"
  | .minusMinusToken => "MinusMinusToken"
  | .lessThanLessThanToken => "LessThanLessThanToken"
  | .greaterThanGreaterThanToken => "GreaterThanGreaterThanToken"
  | .greaterThanGreaterThanGreaterThanToken => "GreaterThanGreaterThanGreaterThanToken"
  | .ampersandToken => "AmpersandToken"
  | .barToken => "BarToken"
  | .caretToken => "CaretToken"
  | .exclamationToken => "ExclamationToken"
  | .tildeToken => "TildeToken"
  | .ampersandAmpersandToken => "AmpersandAmpersandToken"
  | .barBarToken => "BarBarToken"
  | .questionToken => "QuestionToken"
  | .colonToken => "ColonToken"
  | .atToken => "AtToken"
  | .questionQuestionToken => "QuestionQuestionToken"
  | .backtickToken => "BacktickToken"
  | .hashToken => "HashToken"
  | .equalsToken => "EqualsToken"
  | .plusEqualsToken => "PlusEqualsToken"
  | .minusEqualsToken => "MinusEqualsToken"
  | .asteriskEqualsToken => "AsteriskEqualsToken"
  | .asteriskAsteriskEqualsToken => "AsteriskAsteriskEqualsToken"
  | .slashEqualsToken => "SlashEqualsToken"
  | .percentEqualsToken => "PercentEqualsToken"
  | .lessThanLessThanEqualsToken => "LessThanLessThanEqualsToken"
  | .greaterThanGreaterThanEqualsToken => "GreaterThanGreaterThanEqualsToken"
  | .greaterThanGreaterThanGreaterThanEqualsToken => "GreaterThanGreaterThanGreaterThanEqualsToken"
  | .ampersandEqualsToken => "AmpersandEqualsToken"
  | .barEqualsToken => "BarEqualsToken"
  | .caretEqualsToken => "CaretEqualsToken"
  | .barBarEqualsToken => "BarBarEqualsToken"
  | .ampersandAmpersandEqualsToken => "AmpersandAmpersandEqualsToken"
  | .questionQuestionEqualsToken => "QuestionQuestionEqualsToken"
  | .identifier => "Identifier"
  | .privateIdentifier => "PrivateIdentifier"
  | .breakKeyword => "BreakKeyword"
  | .caseKeyword => "CaseKeyword"
  | .catchKeyword => "CatchKeyword"
  | .classKeyword => "ClassKeyword"
  | .constKeyword => "ConstKeyword"
  | .continueKeyword => "ContinueKeyword"
  | .debuggerKeyword => "DebuggerKeyword"
  | .defaultKeyword => "DefaultKeyword"
  | .deleteKeyword => "DeleteKeyword"
  | .doKeyword => "DoKeyword"
  | .elseKeyword => "ElseKeyword"
  | .enumKeyword => "EnumKeyword"
  | .exportKeyword => "ExportKeyword"
  | .extendsKeyword => "ExtendsKeyword"
  | .falseKeyword => "FalseKeyword"
  | .finallyKeyword => "FinallyKeyword"
  | .forKeyword => "ForKeyword"
  | .functionKeyword => "FunctionKeyword"
  | .ifKeyword => "IfKeyword"
  | .importKeyword => "ImportKeyword"
  | .inKeyword => "InKeyword"
  | .instanceOfKeyword => "InstanceOfKeyword"
  | .newKeyword => "NewKeyword"
  | .nullKeyword => "NullKeyword"
  | .returnKeyword => "ReturnKeyword"
  | .superKeyword => "SuperKeyword"
  | .switchKeyword => "SwitchKeyword"
  | .thisKeyword => "ThisKeyword"
  | .throwKeyword => "ThrowKeyword"
  | .trueKeyword => "TrueKeyword"
  | .tryKeyword => "TryKeyword"
  | .typeOfKeyword => "TypeOfKeyword"
  | .varKeyword => "VarKeyword"
  | .voidKeyword => "VoidKeyword"
  | .whileKeyword => "WhileKeyword"
  | .withKeyword => "WithKeyword"
  | .implementsKeyword => "ImplementsKeyword"
  | .interfaceKeyword => "InterfaceKeyword"
  | .letKeyword => "LetKeyword"
  | .packageKeyword => "PackageKeyword"
  | .privateKeyword => "PrivateKeyword"
  | .protectedKeyword => "ProtectedKeyword"
  | .publicKeyword => "PublicKeyword"
  | .staticKeyword => "StaticKeyword"
  | .yieldKeyword => "YieldKeyword"
  | .abstractKeyword => "AbstractKeyword"
  | .accessorKeyword => "AccessorKeyword"
  | .asKeyword => "AsKeyword"
  | .assertsKeyword => "AssertsKeyword"
  | .assertKeyword => "AssertKeyword"
  | .anyKeyword => "AnyKeyword"
  | .asyncKeyword => "AsyncKeyword"
  | .awaitKeyword => "AwaitKeyword"
  | .booleanKeyword => "BooleanKeyword"
  | .constructorKeyword => "ConstructorKeyword"
  | .declareKeyword => "DeclareKeyword"
  | .getKeyword => "GetKeyword"
  | .inferKeyword => "InferKeyword"
  | .intrinsicKeyword => "IntrinsicKeyword"
  | .isKeyword => "IsKeyword"
  | .keyOfKeyword => "KeyOfKeyword"
  | .moduleKeyword => "ModuleKeyword"
  | .namespaceKeyword => "NamespaceKeyword"
  | .neverKeyword => "NeverKeyword"
  | .outKeyword => "OutKeyword"
  | .readonlyKeyword => "ReadonlyKeyword"
  | .requireKeyword => "RequireKeyword"
  | .numberKeyword => "NumberKeyword"
  | .objectKeyword => "ObjectKeyword"
  | .satisfiesKeyword => "SatisfiesKeyword"
  | .setKeyword => "SetKeyword"
  | .stringKeyword => "StringKeyword"
  | .symbolKeyword => "SymbolKeyword"
  | .typeKeyword => "TypeKeyword"
  | .undefinedKeyword => "UndefinedKeyword"
  | .uniqueKeyword => "UniqueKeyword"
  | .unknownKeyword => "UnknownKeyword"
  | .usingKeyword => "UsingKeyword"
  | .fromKeyword => "FromKeyword"
  | .globalKeyword => "GlobalKeyword"
  | .bigIntKeyword => "BigIntKeyword"
  | .overrideKeyword => "OverrideKeyword"
  | .ofKeyword => "OfKeyword"
  | .qualifiedName => "QualifiedName"
  | .computedPropertyName => "ComputedPropertyName"
  | .typeParameter => "TypeParameter"
  | .parameter => "Parameter"
  | .decorator => "Decorator"
  | .propertySignature => "PropertySignature"
  | .propertyDeclaration => "PropertyDeclaration"
  | .methodSignature => "MethodSignature"
  | .methodDeclaration => "MethodDeclaration"
  | .classStaticBlockDeclaration => "ClassStaticBlockDeclaration"
  | .constructor => "Constructor"
  | .getAccessor => "GetAccessor"
  | .setAccessor => "SetAccessor"
  | .callSignature => "CallSignature"
  | .constructSignature => "ConstructSignature"
  | .indexSignature => "IndexSignature"
  | .typePredicate => "TypePredicate"
  | .typeReference => "TypeReference"
  | .functionType => "FunctionType"
  | .constructorType => "ConstructorType"
  | .typeQuery => "TypeQuery"
  | .typeLiteral => "TypeLiteral"
  | .arrayType => "ArrayType"
  | .tupleType => "TupleType"
  | .optionalType => "OptionalType"
  | .restType => "RestType"
  | .unionType => "UnionType"
  | .intersectionType => "IntersectionType"
  | .conditionalType => "ConditionalType"
  | .inferType => "InferType"
  | .parenthesizedType => "ParenthesizedType"
  | .thisType => "ThisType"
  | .typeOperator => "TypeOperator"
  | .indexedAccessType => "IndexedAccessType"
  | .mappedType => "MappedType"
  | .literalType => "LiteralType"
  | .namedTupleMember => "NamedTupleMember"
  | .templateLiteralType => "TemplateLiteralType"
  | .templateLiteralTypeSpan => "TemplateLiteralTypeSpan"
  | .importType => "ImportType"
  | .objectBindingPattern => "ObjectBindingPattern"
  | .arrayBindingPattern => "ArrayBindingPattern"
  | .bindingElement => "BindingElement"
  | .arrayLiteralExpression => "ArrayLiteralExpression"
  | .objectLiteralExpression => "ObjectLiteralExpression"
  | .propertyAccessExpression => "PropertyAccessExpression"
  | .elementAccessExpression => "ElementAccessExpression"
  | .callExpression => "CallExpression"
  | .newExpression => "NewExpression"
  | .taggedTemplateExpression => "TaggedTemplateExpression"
  | .typeAssertionExpression => "TypeAssertionExpression"
  | .parenthesizedExpression => "ParenthesizedExpression"
  | .functionExpression => "FunctionExpression"
  | .arrowFunction => "ArrowFunction"
  | .deleteExpression => "DeleteExpression"
  | .typeOfExpression => "TypeOfExpression"
  | .voidExpression => "VoidExpression"
  | .awaitExpression => "AwaitExpression"
  | .prefixUnaryExpression => "PrefixUnaryExpression"
  | .postfixUnaryExpression => "PostfixUnaryExpression"
  | .binaryExpression => "BinaryExpression"
  | .conditionalExpression => "ConditionalExpression"
  | .templateExpression => "TemplateExpression"
  | .yieldExpression => "YieldExpression"
  | .spreadElement => "SpreadElement"
  | .classExpression => "ClassExpression"
  | .omittedExpression => "OmittedExpression"
  | .expressionWithTypeArguments => "ExpressionWithTypeArguments"
  | .asExpression => "AsExpression"
  | .nonNullExpression => "NonNullExpression"
  | .metaProperty => "MetaProperty"
  | .satisfiesExpression => "SatisfiesExpression"
  | .templateSpan => "TemplateSpan"
  | .semicolonClassElement => "SemicolonClassElement"
  | .block => "Block"
  | .emptyStatement => "EmptyStatement"
  | .variableStatement => "VariableStatement"
  | .expressionStatement => "ExpressionStatement"
  | .ifStatement => "IfStatement"
  | .doStatement => "DoStatement"
  | .whileStatement => "WhileStatement"
  | .forStatement => "ForStatement"
  | .forInStatement => "ForInStatement"
  | .forOfStatement => "ForOfStatement"
  | .continueStatement => "ContinueStatement"
  | .breakStatement => "BreakStatement"
  | .returnStatement => "ReturnStatement"
  | .withStatement => "WithStatement"
  | .switchStatement => "SwitchStatement"
  | .labeledStatement => "LabeledStatement"
  | .throwStatement => "ThrowStatement"
  | .tryStatement => "TryStatement"
  | .debuggerStatement => "DebuggerStatement"
  | .variableDeclaration => "VariableDeclaration"
  | .variableDeclarationList => "VariableDeclarationList"
  | .functionDeclaration => "FunctionDeclaration"
  | .classDeclaration => "ClassDeclaration"
  | .interfaceDeclaration => "InterfaceDeclaration"
  | .typeAliasDeclaration => "TypeAliasDeclaration"
  | .enumDeclaration => "EnumDeclaration"
  | .moduleDeclaration => "ModuleDeclaration"
  | .moduleBlock => "ModuleBlock"
  | .caseBlock => "CaseBlock"
  | .namespaceExportDeclaration => "NamespaceExportDeclaration"
  | .importEqualsDeclaration => "ImportEqualsDeclaration"
  | .importDeclaration => "ImportDeclaration"
  | .importClause => "ImportClause"
  | .namespaceImport => "NamespaceImport"
  | .namedImports => "NamedImports"
  | .importSpecifier => "ImportSpecifier"
  | .exportAssignment => "ExportAssignment"
  | .exportDeclaration => "ExportDeclaration"
  | .namedExports => "NamedExports"
  | .namespaceExport => "NamespaceExport"
  | .exportSpecifier => "ExportSpecifier"
  | .missingDeclaration => "MissingDeclaration"
  | .externalModuleReference => "ExternalModuleReference"
  | .jsxElement => "JsxElement"
  | .jsxSelfClosingElement => "JsxSelfClosingElement"
  | .jsxOpeningElement => "JsxOpeningElement"
  | .jsxClosingElement => "JsxClosingElement"
  | .jsxFragment => "JsxFragment"
  | .jsxOpeningFragment => "JsxOpeningFragment"
  | .jsxClosingFragment => "JsxClosingFragment"
  | .jsxAttribute => "JsxAttribute"
  | .jsxAttributes => "JsxAttributes"
  | .jsxSpreadAttribute => "JsxSpreadAttribute"
  | .jsxExpression => "JsxExpression"
  | .jsxNamespacedName => "JsxNamespacedName"
  | .caseClause => "CaseClause"
  | .defaultClause => "DefaultClause"
  | .heritageClause => "HeritageClause"
  | .catchClause => "CatchClause"
  | .importAttributes => "ImportAttributes"
  | .importAttribute => "ImportAttribute"
  | .propertyAssignment => "PropertyAssignment"
  | .shorthandPropertyAssignment => "ShorthandPropertyAssignment"
  | .spreadAssignment => "SpreadAssignment"
  | .enumMember => "EnumMember"
  | .sourceFile => "SourceFile"

def ofName? (s : String) : Option Kind := all.find? (·.name == s)

end Kind
end ScriptGrammar
