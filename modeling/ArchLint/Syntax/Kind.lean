/-!
# Node kinds

The constructs that a syntax tree tells apart, whatever the language it was read from.
-/

namespace ArchLint.Syntax

inductive Kind where
  | compilationUnit
  | packageDef
  | importDef
  | staticImport
  | classDef
  | interfaceDef
  | enumDef
  | objBlock
  | modifiers
  | modifier
  | annotationUse
  | annotationMemberValuePair
  | extendsClause
  | implementsClause
  | ctorDef
  | methodDef
  | parameters
  | parameterDef
  | variableDef
  | type
  | typeArguments
  | arrayDeclarator
  | slist
  | expr
  | elist
  | assign
  | ident
  | dot
  | star
  | literalThis
  | literalSuper
  | literal
  | methodCall
  | literalNew
  | indexOp
  | arrayInit
  | lambda
  | operator
  | forEach
  | other
  deriving DecidableEq, Repr, Inhabited

namespace Kind

def all : List Kind :=
  [.compilationUnit, .packageDef, .importDef, .staticImport, .classDef, .interfaceDef,
   .enumDef, .objBlock, .modifiers, .modifier, .annotationUse, .annotationMemberValuePair,
   .extendsClause, .implementsClause, .ctorDef, .methodDef, .parameters, .parameterDef,
   .variableDef, .type, .typeArguments, .arrayDeclarator, .slist, .expr, .elist, .assign,
   .ident, .dot, .star, .literalThis, .literalSuper, .literal, .methodCall, .literalNew,
   .indexOp, .arrayInit, .lambda, .operator, .forEach, .other]

def tag : Kind → String
  | .compilationUnit => "COMPILATION_UNIT"
  | .packageDef => "PACKAGE_DEF"
  | .importDef => "IMPORT"
  | .staticImport => "STATIC_IMPORT"
  | .classDef => "CLASS_DEF"
  | .interfaceDef => "INTERFACE_DEF"
  | .enumDef => "ENUM_DEF"
  | .objBlock => "OBJBLOCK"
  | .modifiers => "MODIFIERS"
  | .modifier => "MODIFIER"
  | .annotationUse => "ANNOTATION"
  | .annotationMemberValuePair => "ANNOTATION_MEMBER_VALUE_PAIR"
  | .extendsClause => "EXTENDS_CLAUSE"
  | .implementsClause => "IMPLEMENTS_CLAUSE"
  | .ctorDef => "CTOR_DEF"
  | .methodDef => "METHOD_DEF"
  | .parameters => "PARAMETERS"
  | .parameterDef => "PARAMETER_DEF"
  | .variableDef => "VARIABLE_DEF"
  | .type => "TYPE"
  | .typeArguments => "TYPE_ARGUMENTS"
  | .arrayDeclarator => "ARRAY_DECLARATOR"
  | .slist => "SLIST"
  | .expr => "EXPR"
  | .elist => "ELIST"
  | .assign => "ASSIGN"
  | .ident => "IDENT"
  | .dot => "DOT"
  | .star => "STAR"
  | .literalThis => "LITERAL_THIS"
  | .literalSuper => "LITERAL_SUPER"
  | .literal => "LITERAL"
  | .methodCall => "METHOD_CALL"
  | .literalNew => "LITERAL_NEW"
  | .indexOp => "INDEX_OP"
  | .arrayInit => "ARRAY_INIT"
  | .lambda => "LAMBDA"
  | .operator => "OPERATOR"
  | .forEach => "FOR_EACH"
  | .other => "OTHER"

def label : Kind → String
  | .compilationUnit => "CompilationUnit"
  | .packageDef => "PackageDef"
  | .importDef => "Import"
  | .staticImport => "StaticImport"
  | .classDef => "ClassDef"
  | .interfaceDef => "InterfaceDef"
  | .enumDef => "EnumDef"
  | .objBlock => "ObjBlock"
  | .modifiers => "Modifiers"
  | .modifier => "Modifier"
  | .annotationUse => "Annotation"
  | .annotationMemberValuePair => "AnnotationMemberValuePair"
  | .extendsClause => "ExtendsClause"
  | .implementsClause => "ImplementsClause"
  | .ctorDef => "CtorDef"
  | .methodDef => "MethodDef"
  | .parameters => "Parameters"
  | .parameterDef => "ParameterDef"
  | .variableDef => "VariableDef"
  | .type => "Type"
  | .typeArguments => "TypeArguments"
  | .arrayDeclarator => "ArrayDeclarator"
  | .slist => "Slist"
  | .expr => "Expr"
  | .elist => "Elist"
  | .assign => "Assign"
  | .ident => "Ident"
  | .dot => "Dot"
  | .star => "Star"
  | .literalThis => "LiteralThis"
  | .literalSuper => "LiteralSuper"
  | .literal => "Literal"
  | .methodCall => "MethodCall"
  | .literalNew => "New"
  | .indexOp => "IndexOp"
  | .arrayInit => "ArrayInit"
  | .lambda => "Lambda"
  | .operator => "Operator"
  | .forEach => "ForEach"
  | .other => "Other"

def ofTag? (s : String) : Option Kind :=
  all.find? fun k => k.tag == s

def isScope (k : Kind) : Bool :=
  k matches .classDef | .ctorDef | .methodDef

def isDeclaration (k : Kind) : Bool :=
  k matches .variableDef | .parameterDef

/-- Kinds whose meaning is a dotted name. -/
def holdsName (k : Kind) : Bool :=
  k matches .packageDef | .importDef | .staticImport

end Kind

end ArchLint.Syntax
