import ArchLint.Java.Content
import ArchLint.Java.Lexeme

/-!
# The grammar

What stands inside a node of each kind. A tree conforms to the grammar if this holds of all its
nodes, comments apart: they may stand between any two children.
-/

namespace ArchLint.Java

namespace Grammar

open Content

def literals : List Kind :=
  [ .decimalIntegerLiteral, .hexIntegerLiteral, .octalIntegerLiteral, .binaryIntegerLiteral,
    .decimalFloatingPointLiteral, .hexFloatingPointLiteral, .trueLiteral, .falseLiteral,
    .characterLiteral, .stringLiteral, .nullLiteral ]

/-- Expressions that need no parentheses in front of a dot. -/
def primaries : List Kind :=
  literals ++
    [ .classLiteral, .this, .identifier, .parenthesizedExpression, .objectCreationExpression,
      .fieldAccess, .arrayAccess, .methodInvocation, .methodReference, .arrayCreationExpression,
      .templateExpression ]

def expressions : List Kind :=
  primaries ++
    [ .assignmentExpression, .binaryExpression, .instanceofExpression, .lambdaExpression,
      .ternaryExpression, .updateExpression, .unaryExpression, .castExpression, .switchExpression ]

def simpleTypes : List Kind :=
  [ .voidType, .integralType, .floatingPointType, .booleanType, .typeIdentifier,
    .scopedTypeIdentifier, .genericType ]

def plainTypes : List Kind :=
  simpleTypes ++ [.arrayType]

def types : List Kind :=
  plainTypes ++ [.annotatedType]

def annotationUses : List Kind :=
  [.plainAnnotationUse, .annotationUse]

def names : List Kind :=
  [.identifier, .scopedIdentifier]

def elementValues : List Kind :=
  expressions ++ .elementValueArrayInitializer :: annotationUses

def initializers : List Kind :=
  expressions ++ [.arrayInitializer]

def declarations : List Kind :=
  [ .moduleDeclaration, .packageDeclaration, .importDeclaration, .classDeclaration,
    .recordDeclaration, .interfaceDeclaration, .annotationTypeDeclaration, .enumDeclaration ]

def statements : List Kind :=
  declarations ++
    [ .expressionStatement, .labeledStatement, .ifStatement, .whileStatement, .forStatement,
      .enhancedForStatement, .block, .assertStatement, .doStatement, .breakStatement,
      .continueStatement, .returnStatement, .yieldStatement, .switchExpression,
      .synchronizedStatement, .localVariableDeclaration, .throwStatement, .tryStatement,
      .tryWithResourcesStatement ]

def classMembers : List Kind :=
  [ .fieldDeclaration, .recordDeclaration, .methodDeclaration, .compactConstructorDeclaration,
    .classDeclaration, .interfaceDeclaration, .annotationTypeDeclaration, .enumDeclaration, .block,
    .staticInitializer, .constructorDeclaration ]

def interfaceMembers : List Kind :=
  [ .constantDeclaration, .enumDeclaration, .methodDeclaration, .classDeclaration,
    .interfaceDeclaration, .recordDeclaration, .annotationTypeDeclaration ]

def annotationMembers : List Kind :=
  [ .annotationTypeElementDeclaration, .constantDeclaration, .classDeclaration,
    .interfaceDeclaration, .enumDeclaration, .annotationTypeDeclaration ]

def moduleDirectives : List Kind :=
  [ .requiresModuleDirective, .exportsModuleDirective, .opensModuleDirective,
    .usesModuleDirective, .providesModuleDirective ]

def modifierWords : List String :=
  [ "public", "protected", "private", "abstract", "static", "final", "strictfp", "default",
    "synchronized", "native", "transient", "volatile", "sealed", "non-sealed" ]

def assignmentSigns : List String :=
  ["=", "+=", "-=", "*=", "/=", "&=", "|=", "^=", "%=", "<<=", ">>=", ">>>="]

def binarySigns : List String :=
  [ ">", "<", ">=", "<=", "==", "!=", "&&", "||", "+", "-", "*", "/", "&", "|", "^", "%", "<<",
    ">>", ">>>" ]

def expression : Content := node expressions

def identifier : Content := node [.identifier]

def orSemicolon (kinds : List Kind) : Content :=
  .child { kinds := .token :: kinds, texts := [";"] }

def statement : Content := orSemicolon statements

def statementAs (f : Field) : Content :=
  .child { field := some f, kinds := .token :: statements, texts := [";"] }

def annotated : Content := .many (node annotationUses)

def modified : Content := opt (node [.modifiers])

def name : Content := role .name [.identifier]

def variableId : Content :=
  all [role .name [.identifier, .underscorePattern], opt (role .dimensions [.dimensions])]

def declarators : Content :=
  all [modified, role .type plainTypes, commas1 (role .declarator [.variableDeclarator]),
    token ";"]

def typeArguments : Content := opt (role .typeArguments [.typeArguments])

def typeParameters : Content := opt (role .typeParameters [.typeParameters])

def interfaces : Content := opt (role .interfaces [.superInterfaces])

def permits : Content := opt (role .permits [.permits])

def argumentList : Content := role .arguments [.argumentList]

def condition : Content := role .condition [.parenthesizedExpression]

def typeList : Content := node [.typeList]

def catches : Content := .many (node [.catchClause])

def packageDirective (word : String) : Content :=
  all [token word, role .package names,
    opt (.seq (token "to") (commas1 (role .modules names))), token ";"]

/-- What stands inside a node of each kind. -/
def content : Kind → Content
  | .program => .many (orSemicolon (.methodDeclaration :: statements))
  -- expressions
  | .castExpression =>
    all [parens (separated (token "&") (role .type types)), role .value expressions]
  | .assignmentExpression =>
    all [role .left [.identifier, .fieldAccess, .arrayAccess], tokenAs .operator assignmentSigns,
      role .right expressions]
  | .binaryExpression =>
    all [role .left expressions, tokenAs .operator binarySigns, role .right expressions]
  | .instanceofExpression =>
    all [role .left expressions, token "instanceof", opt (token "final"),
      any [.seq (role .right types) (opt name), role .pattern [.recordPattern]]]
  | .lambdaExpression =>
    all [role .parameters [.identifier, .formalParameters, .inferredParameters], token "->",
      role .body (.block :: expressions)]
  | .inferredParameters => parens (commas1 identifier)
  | .ternaryExpression =>
    all [role .condition expressions, token "?", role .consequence expressions, token ":",
      role .alternative expressions]
  | .unaryExpression => all [tokenAs .operator ["+", "-", "!", "~"], role .operand expressions]
  | .updateExpression =>
    let sign := oneOf ["++", "--"]
    any [.seq expression sign, .seq sign expression]
  | .arrayCreationExpression =>
    all [token "new", annotated, role .type simpleTypes,
      any
        [ .seq (many1 (role .dimensions [.dimensionsExpr])) (opt (role .dimensions [.dimensions])),
          .seq (role .dimensions [.dimensions]) (role .value [.arrayInitializer]) ]]
  | .dimensionsExpr => .seq annotated (brackets expression)
  | .parenthesizedExpression => parens expression
  | .classLiteral => all [node plainTypes, token ".", token "class"]
  | .objectCreationExpression =>
    all [opt (.seq (node primaries) (token ".")), token "new", annotated,
      opt (.seq (role .typeArguments [.typeArguments]) annotated), role .type simpleTypes,
      argumentList, opt (node [.classBody])]
  | .fieldAccess =>
    all [role .object (.super :: primaries), opt (.seq (token ".") (node [.super])), token ".",
      role .field [.identifier, .this]]
  | .templateExpression =>
    all [role .templateProcessor primaries, token ".", role .templateArgument [.stringLiteral]]
  | .arrayAccess => .seq (role .array primaries) (brackets (role .index expressions))
  | .methodInvocation =>
    all [any
        [ name,
          all [role .object (.super :: primaries), token ".",
            opt (.seq (node [.super]) (token ".")), typeArguments, name] ],
      argumentList]
  | .argumentList => parens (commas expression)
  | .methodReference =>
    all [node (.super :: types ++ primaries), token "::", opt (node [.typeArguments]),
      any [token "new", identifier]]
  | .switchExpression => all [token "switch", condition, role .body [.switchBlock]]
  | .switchBlock =>
    braces (.alt (.many (node [.switchBlockStatementGroup])) (.many (node [.switchRule])))
  | .switchBlockStatementGroup =>
    .seq (many1 (.seq (node [.switchLabel]) (token ":"))) (.many statement)
  | .switchRule =>
    all [node [.switchLabel], token "->", node [.expressionStatement, .throwStatement, .block]]
  | .switchLabel =>
    any
      [ all [token "case", any [node [.pattern], commas1 expression], opt (node [.guard])],
        token "default" ]
  | .pattern => node [.typePattern, .recordPattern]
  | .typePattern => .seq (node plainTypes) identifier
  | .recordPattern => .seq (node [.identifier, .genericType]) (node [.recordPatternBody])
  | .recordPatternBody => parens (commas (node [.recordPatternComponent, .recordPattern]))
  | .recordPatternComponent =>
    any [node [.underscorePattern], .seq (node plainTypes) identifier]
  | .guard => .seq (token "when") expression
  | .stringLiteral =>
    let parts := Content.many
      (node [.stringFragment, .multilineStringFragment, .escapeSequence, .stringInterpolation])
    any [between "\"" "\"" parts, between "\"\"\"" "\"\"\"" parts]
  | .stringInterpolation => between "\\\x7b" "\x7d" expression
  | .arrayInitializer => braces (.seq (commas (node initializers)) (opt (token ",")))
  -- types
  | .integralType => oneOf ["byte", "short", "int", "long", "char"]
  | .floatingPointType => oneOf ["float", "double"]
  | .typeArguments => between "<" ">" (commas (node (.wildcard :: types)))
  | .wildcard =>
    all [annotated, token "?",
      opt (.seq (any [token "extends", node [.super]]) (node types))]
  | .dimensions => many1 (.seq annotated (.seq (token "[") (token "]")))
  | .annotatedType => .seq (many1 (node annotationUses)) (node plainTypes)
  | .scopedTypeIdentifier =>
    all [node [.typeIdentifier, .scopedTypeIdentifier, .genericType], token ".", annotated,
      node [.typeIdentifier]]
  | .genericType =>
    .seq (node [.typeIdentifier, .scopedTypeIdentifier]) (node [.typeArguments])
  | .arrayType => .seq (role .element plainTypes) (role .dimensions [.dimensions])
  | .typeParameters => between "<" ">" (commas1 (node [.typeParameter]))
  | .typeParameter => all [annotated, node [.typeIdentifier], opt (node [.typeBound])]
  | .typeBound => .seq (token "extends") (separated (token "&") (node types))
  | .typeList => commas1 (node types)
  | .superclass => .seq (token "extends") (node types)
  | .superInterfaces => .seq (token "implements") typeList
  | .extendsInterfaces => .seq (token "extends") typeList
  | .permits => .seq (token "permits") typeList
  | .throws => .seq (token "throws") (commas1 (node types))
  -- statements
  | .block => braces (.many statement)
  | .expressionStatement => .seq expression (token ";")
  | .labeledStatement => all [identifier, token ":", statement]
  | .assertStatement =>
    all [token "assert", expression, opt (.seq (token ":") expression), token ";"]
  | .doStatement =>
    all [token "do", statementAs .body, token "while", condition, token ";"]
  | .breakStatement => all [token "break", opt identifier, token ";"]
  | .continueStatement => all [token "continue", opt identifier, token ";"]
  | .returnStatement => all [token "return", opt expression, token ";"]
  | .yieldStatement => all [token "yield", expression, token ";"]
  | .synchronizedStatement =>
    all [token "synchronized", node [.parenthesizedExpression], role .body [.block]]
  | .throwStatement => all [token "throw", expression, token ";"]
  | .tryStatement =>
    all [token "try", role .body [.block],
      any [many1 (node [.catchClause]), .seq catches (node [.finallyClause])]]
  | .catchClause => all [token "catch", parens (node [.catchFormalParameter]), role .body [.block]]
  | .catchFormalParameter => all [modified, node [.catchType], variableId]
  | .catchType => separated (token "|") (node plainTypes)
  | .finallyClause => .seq (token "finally") (node [.block])
  | .tryWithResourcesStatement =>
    all [token "try", role .resources [.resourceSpecification], role .body [.block], catches,
      opt (node [.finallyClause])]
  | .resourceSpecification =>
    parens (.seq (separated (token ";") (node [.resource])) (opt (token ";")))
  | .resource =>
    any
      [ all [modified, role .type plainTypes, variableId, token "=", role .value expressions],
        node [.identifier, .fieldAccess] ]
  | .ifStatement =>
    all [token "if", condition, statementAs .consequence,
      opt (.seq (token "else") (statementAs .alternative))]
  | .whileStatement => all [token "while", condition, statementAs .body]
  | .forStatement =>
    all [token "for", token "(",
      any
        [ role .init [.localVariableDeclaration],
          .seq (commas (role .init expressions)) (token ";") ],
      opt (role .condition expressions), token ";", commas (role .update expressions), token ")",
      statementAs .body]
  | .enhancedForStatement =>
    all [token "for", token "(", modified, role .type plainTypes, variableId, token ":",
      role .value expressions, token ")", statementAs .body]
  | .localVariableDeclaration => declarators
  -- declarations
  | .moduleDeclaration =>
    all [annotated, opt (token "open"), token "module", role .name names, role .body [.moduleBody]]
  | .moduleBody => braces (.many (node moduleDirectives))
  | .requiresModuleDirective =>
    all [token "requires", .many (role .modifiers [.requiresModifier]), role .module names,
      token ";"]
  | .requiresModifier => oneOf ["transitive", "static"]
  | .exportsModuleDirective => packageDirective "exports"
  | .opensModuleDirective => packageDirective "opens"
  | .usesModuleDirective => all [token "uses", role .type names, token ";"]
  | .providesModuleDirective =>
    all [token "provides", role .provided names, token "with", node names,
      .many (.seq (token ",") (role .provider names)), token ";"]
  | .packageDeclaration => all [annotated, token "package", node names, token ";"]
  | .importDeclaration =>
    all [token "import", opt (token "static"), node names,
      opt (.seq (token ".") (node [.asterisk])), token ";"]
  | .scopedIdentifier => all [role .scope names, token ".", name]
  | .classDeclaration =>
    all [modified, token "class", name, typeParameters, opt (role .superclass [.superclass]),
      interfaces, permits, role .body [.classBody]]
  | .recordDeclaration =>
    all [modified, token "record", name, typeParameters, role .parameters [.formalParameters],
      interfaces, role .body [.classBody]]
  | .interfaceDeclaration =>
    all [modified, token "interface", name, typeParameters, opt (node [.extendsInterfaces]),
      permits, role .body [.interfaceBody]]
  | .annotationTypeDeclaration =>
    all [modified, token "@interface", name, role .body [.annotationTypeBody]]
  | .enumDeclaration => all [modified, token "enum", name, interfaces, role .body [.enumBody]]
  | .classBody => braces (.many (orSemicolon classMembers))
  | .interfaceBody => braces (.many (orSemicolon interfaceMembers))
  | .annotationTypeBody => braces (.many (orSemicolon annotationMembers))
  | .enumBody =>
    braces (all [commas (node [.enumConstant]), opt (token ","),
      opt (node [.enumBodyDeclarations])])
  | .enumBodyDeclarations => .seq (token ";") (.many (orSemicolon classMembers))
  | .enumConstant => all [modified, name, opt argumentList, opt (role .body [.classBody])]
  | .modifiers =>
    many1 (.child { kinds := .token :: annotationUses, texts := modifierWords })
  | .staticInitializer => .seq (token "static") (node [.block])
  | .constructorDeclaration =>
    all [modified, typeParameters, name, role .parameters [.formalParameters],
      opt (node [.throws]), role .body [.constructorBody]]
  | .constructorBody =>
    braces (.seq (opt (node [.explicitConstructorInvocation])) (.many statement))
  | .explicitConstructorInvocation =>
    all [any
        [ .seq typeArguments (role .constructor [.this, .super]),
          all [role .object primaries, token ".", typeArguments, role .constructor [.super]] ],
      argumentList, token ";"]
  | .compactConstructorDeclaration => all [modified, name, role .body [.block]]
  | .fieldDeclaration | .constantDeclaration => declarators
  | .methodDeclaration =>
    all [modified, opt (.seq (role .typeParameters [.typeParameters]) annotated),
      role .type plainTypes, name, role .parameters [.formalParameters],
      opt (role .dimensions [.dimensions]), opt (node [.throws]),
      any [role .body [.block], token ";"]]
  | .annotationTypeElementDeclaration =>
    all [modified, role .type plainTypes, name, token "(", token ")",
      opt (role .dimensions [.dimensions]),
      opt (.seq (token "default") (role .value elementValues)), token ";"]
  | .variableDeclarator => .seq variableId (opt (.seq (token "=") (role .value initializers)))
  | .formalParameters =>
    parens (any
      [ node [.receiverParameter],
        .seq (opt (.seq (node [.receiverParameter]) (token ",")))
          (commas (node [.formalParameter, .spreadParameter])) ])
  | .formalParameter => all [modified, role .type plainTypes, variableId]
  | .receiverParameter =>
    all [annotated, node plainTypes, .many (.seq identifier (token ".")), node [.this]]
  | .spreadParameter =>
    all [modified, node plainTypes, token "...", annotated, node [.variableDeclarator]]
  | .plainAnnotationUse => .seq (token "@") (role .name names)
  | .annotationUse =>
    all [token "@", role .name names, role .arguments [.annotationArgumentList]]
  | .annotationArgumentList =>
    parens (any [node elementValues, commas (node [.elementValuePair])])
  | .elementValuePair =>
    all [role .key [.identifier], token "=", role .value elementValues]
  | .elementValueArrayInitializer =>
    braces (.seq (commas (node elementValues)) (opt (token ",")))
  | _ => .empty

def isWord (text : String) : Bool :=
  match text.toList with
  | [] => false
  | c :: cs => Lexeme.isWordStart c && cs.all Lexeme.isWordPart

def hasLegalText (c : Cst) : Bool :=
  match c.kind with
  | .identifier | .typeIdentifier => isWord c.text
  | _ => true

end Grammar

namespace Cst

def parts (c : Cst) : List Cst :=
  c.children.filter fun d => !d.isComment

/-- The node itself is as the grammar says, whatever is inside its children. Comments play no
role. -/
def fitsGrammar (c : Cst) : Bool :=
  (Grammar.content c.kind).accepts c.parts && Grammar.hasLegalText c &&
    c.children.all fun d => !d.isComment || d.field.isNone

mutual

/-- The node and all nodes inside it are as the grammar says. -/
def conforms : Cst → Bool
  | .node kind field line text children =>
    fitsGrammar (.node kind field line text children) && allConform children

def allConform : List Cst → Bool
  | [] => true
  | c :: cs => conforms c && allConform cs

end

/-- The line at which a node departs from the grammar: that of the first child that cannot stand
where it does, or its own if something is missing. -/
def misfitLine (c : Cst) : Nat :=
  (((Grammar.content c.kind).stray? c.parts).getD c).line

mutual

/-- The line of the first departure from the grammar, outer nodes before inner ones. -/
def misfit? : Cst → Option Nat
  | .node kind field line text children =>
    if fitsGrammar (.node kind field line text children) then misfitAmong? children
    else some (misfitLine (.node kind field line text children))

def misfitAmong? : List Cst → Option Nat
  | [] => none
  | c :: cs =>
    match misfit? c with
    | some line => some line
    | none => misfitAmong? cs

end

end Cst

end ArchLint.Java
