/-!
# Concrete syntax trees

What the parser hands on: every token of the file in the place where the grammar puts it, with
the role it plays there. Comments are nodes like any other and may stand between any two tokens.
-/

namespace ArchLint.Java

inductive Kind where
  | program
  | token
  | lineComment
  | blockComment
  | error
  | missing
  | decimalIntegerLiteral
  | hexIntegerLiteral
  | octalIntegerLiteral
  | binaryIntegerLiteral
  | decimalFloatingPointLiteral
  | hexFloatingPointLiteral
  | trueLiteral
  | falseLiteral
  | characterLiteral
  | stringLiteral
  | nullLiteral
  | stringFragment
  | multilineStringFragment
  | stringInterpolation
  | escapeSequence
  | castExpression
  | assignmentExpression
  | binaryExpression
  | instanceofExpression
  | lambdaExpression
  | inferredParameters
  | ternaryExpression
  | unaryExpression
  | updateExpression
  | arrayCreationExpression
  | dimensionsExpr
  | parenthesizedExpression
  | classLiteral
  | objectCreationExpression
  | fieldAccess
  | templateExpression
  | arrayAccess
  | methodInvocation
  | argumentList
  | methodReference
  | switchExpression
  | switchBlock
  | switchBlockStatementGroup
  | switchRule
  | switchLabel
  | pattern
  | typePattern
  | recordPattern
  | recordPatternBody
  | recordPatternComponent
  | underscorePattern
  | guard
  | this
  | super
  | identifier
  | block
  | expressionStatement
  | labeledStatement
  | assertStatement
  | doStatement
  | breakStatement
  | continueStatement
  | returnStatement
  | yieldStatement
  | synchronizedStatement
  | throwStatement
  | tryStatement
  | catchClause
  | catchFormalParameter
  | catchType
  | finallyClause
  | tryWithResourcesStatement
  | resourceSpecification
  | resource
  | ifStatement
  | whileStatement
  | forStatement
  | enhancedForStatement
  | localVariableDeclaration
  | plainAnnotationUse
  | annotationUse
  | annotationArgumentList
  | elementValuePair
  | elementValueArrayInitializer
  | moduleDeclaration
  | moduleBody
  | requiresModuleDirective
  | requiresModifier
  | exportsModuleDirective
  | opensModuleDirective
  | usesModuleDirective
  | providesModuleDirective
  | packageDeclaration
  | importDeclaration
  | asterisk
  | scopedIdentifier
  | enumDeclaration
  | enumBody
  | enumBodyDeclarations
  | enumConstant
  | classDeclaration
  | modifiers
  | typeParameters
  | typeParameter
  | typeBound
  | superclass
  | superInterfaces
  | typeList
  | permits
  | classBody
  | staticInitializer
  | constructorDeclaration
  | constructorBody
  | explicitConstructorInvocation
  | fieldDeclaration
  | recordDeclaration
  | annotationTypeDeclaration
  | annotationTypeBody
  | annotationTypeElementDeclaration
  | interfaceDeclaration
  | extendsInterfaces
  | interfaceBody
  | constantDeclaration
  | variableDeclarator
  | arrayInitializer
  | formalParameters
  | formalParameter
  | receiverParameter
  | spreadParameter
  | throws
  | methodDeclaration
  | compactConstructorDeclaration
  | typeIdentifier
  | annotatedType
  | scopedTypeIdentifier
  | genericType
  | arrayType
  | integralType
  | floatingPointType
  | booleanType
  | voidType
  | typeArguments
  | wildcard
  | dimensions
  deriving DecidableEq, Repr, Inhabited

inductive Field where
  | name
  | type
  | body
  | value
  | left
  | right
  | operator
  | operand
  | object
  | field
  | arguments
  | typeArguments
  | parameters
  | dimensions
  | declarator
  | key
  | element
  | array
  | index
  | condition
  | consequence
  | alternative
  | init
  | update
  | constructor
  | superclass
  | interfaces
  | permits
  | typeParameters
  | scope
  | resources
  | module
  | modifiers
  | package
  | modules
  | provided
  | provider
  | templateProcessor
  | templateArgument
  | pattern
  deriving DecidableEq, Repr

inductive Cst where
  | node (kind : Kind) (field : Option Field) (line : Nat) (text : String) (children : List Cst)
  deriving Repr, Inhabited

namespace Kind

def isComment (k : Kind) : Bool :=
  k matches .lineComment | .blockComment

def isAnnotating (k : Kind) : Bool :=
  k matches .annotationUse | .plainAnnotationUse

def isFault (k : Kind) : Bool :=
  k matches .error | .missing

def isLiteral (k : Kind) : Bool :=
  k matches .decimalIntegerLiteral | .hexIntegerLiteral | .octalIntegerLiteral |
    .binaryIntegerLiteral | .decimalFloatingPointLiteral | .hexFloatingPointLiteral |
    .trueLiteral | .falseLiteral | .characterLiteral | .stringLiteral | .nullLiteral |
    .classLiteral

end Kind

namespace Cst

def kind : Cst → Kind
  | .node k _ _ _ _ => k

def field : Cst → Option Field
  | .node _ f _ _ _ => f

/-- The line of the first token, counted from one. -/
def line : Cst → Nat
  | .node _ _ l _ _ => l

/-- The source text of a leaf, a literal or a primitive type. -/
def text : Cst → String
  | .node _ _ _ t _ => t

def children : Cst → List Cst
  | .node _ _ _ _ cs => cs

def withField (f : Field) : Cst → Cst
  | .node k _ l t cs => .node k (some f) l t cs

def isNamed (c : Cst) : Bool :=
  c.kind ≠ .token

def isComment (c : Cst) : Bool :=
  c.kind.isComment

def named (c : Cst) : List Cst :=
  c.children.filter isNamed

/-- The first child that plays the role `f`. -/
def get? (c : Cst) (f : Field) : Option Cst :=
  c.children.find? fun d => d.field = some f

def getAll (c : Cst) (f : Field) : List Cst :=
  c.children.filter fun d => d.field = some f

mutual

def weight : Cst → Nat
  | .node _ _ _ _ cs => weights cs + 1

def weights : List Cst → Nat
  | [] => 0
  | c :: cs => weight c + weights cs

end

mutual

def hasFault : Cst → Bool
  | .node k _ _ _ cs => k.isFault || anyFault cs

def anyFault : List Cst → Bool
  | [] => false
  | c :: cs => hasFault c || anyFault cs

end

theorem weights_append (as bs : List Cst) : weights (as ++ bs) = weights as + weights bs := by
  induction as with
  | nil => simp [weights]
  | cons a as ih => simp [weights, ih, Nat.add_assoc]

theorem weight_eq (c : Cst) : c.weight = weights c.children + 1 := by
  cases c
  simp [weight, children]

/-- The line of the first fault among `pending`, searched in pre-order; trees without a fault are
passed over as a whole. -/
def firstFaultAmong : List Cst → Option Nat
  | [] => none
  | c :: rest =>
    if c.kind.isFault then some c.line
    else if c.hasFault then firstFaultAmong (c.children ++ rest)
    else firstFaultAmong rest
termination_by pending => weights pending
decreasing_by
  · simp only [weights_append, weights, weight_eq]; omega
  · simp only [weights, weight_eq]; omega

/-- The line of the first fault in the order of the source. -/
def firstFaultLine (c : Cst) : Option Nat :=
  firstFaultAmong [c]

end Cst

end ArchLint.Java
