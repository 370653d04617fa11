import ArchLint.Java.Plan
import ArchLint.SourceParser

/-!
# From concrete to abstract syntax

The concrete grammar is much richer than what rules look at. Declarations, assignments, member
access and imports get shapes of their own; all else becomes `OTHER` with its named children.

* Every declarator of `int a = 1, b;` becomes a `VARIABLE_DEF` of its own.
* Parentheses vanish; their content takes their place.
* `x = v` becomes `ASSIGN(x, v)` and `x += v` becomes `OPERATOR "+="`.
* Records are classes tagged `record`, with their components as fields.
-/

namespace ArchLint.Java

open Syntax (Term Tree)

namespace Cst

theorem weight_le_of_mem {c : Cst} {cs : List Cst} (h : c ∈ cs) : c.weight ≤ weights cs := by
  induction h with
  | head => simp [weights]
  | tail _ _ ih => simp only [weights]; omega

theorem weight_lt_of_get? {c d : Cst} {f : Field} (h : c.get? f = some d) :
    d.weight < c.weight := by
  have := weight_le_of_mem (List.mem_of_find?_eq_some h)
  rw [c.weight_eq]
  omega

def isAnnotating (c : Cst) : Bool := c.kind.isAnnotating

mutual

/-- The name of a type or a dotted name, without type arguments, annotations and comments. -/
def typeName : Cst → String
  | .node kind _ _ text children =>
    match kind with
    | .genericType => firstTypeName children
    | .scopedTypeIdentifier | .scopedIdentifier => ".".intercalate (segmentNames children)
    | .arrayType => elementTypeName children
    | .annotatedType | .catchType => lastTypeName children
    | _ => text

def firstTypeName : List Cst → String
  | [] => ""
  | c :: cs =>
    if c.isNamed && c.kind ≠ .typeArguments then typeName c else firstTypeName cs

def segmentNames : List Cst → List String
  | [] => []
  | c :: cs =>
    if c.isNamed && !c.isAnnotating && !c.isComment then typeName c :: segmentNames cs
    else segmentNames cs

def elementTypeName : List Cst → String
  | [] => ""
  | c :: cs => if c.field = some .element then typeName c else elementTypeName cs

/-- The name of the last child that is neither an annotation nor a comment. -/
def lastTypeName : List Cst → String
  | [] => ""
  | c :: cs =>
    if c.isNamed && !c.isAnnotating && !c.isComment && !hasTypePart cs then typeName c
    else lastTypeName cs

def hasTypePart : List Cst → Bool
  | [] => false
  | c :: cs => c.isNamed && !c.isAnnotating && !c.isComment || hasTypePart cs

end

/-- A left-nested operator chain from the outermost level to the innermost. -/
def spine (c : Cst) : List Cst :=
  match _h : c.get? .left with
  | some left => if left.kind = .binaryExpression then c :: left.spine else [c]
  | none => [c]
termination_by c.weight
decreasing_by exact weight_lt_of_get? _h

def operatorText (c : Cst) : String :=
  match c.get? .operator with
  | some operator => operator.text
  | none => ((c.children.find? fun d => !d.isNamed).map text).getD ""

end Cst

namespace Plan

def nest (kind : Syntax.Kind) (c : Cst) : Plan :=
  .node kind none c.line (holes c.named)

def expr (c : Cst) : Plan :=
  .node .expr none c.line [.hole c]

def typeRef (type : Option Cst) (line : Nat) : Plan :=
  match type with
  | none => leaf .type line
  | some type =>
    .node .type none type.line
      (qualified type.typeName type.line ::
        if type.kind = .arrayType then [leaf .arrayDeclarator type.line] else [])

def nameOf (name : Option Cst) (line : Nat) : Plan :=
  match name with
  | some name => ident name.text name.line
  | none => ident "" line

/-- An argument of an annotation: a value, or a member with its value. -/
def annotationArgument (c : Cst) : Plan :=
  if c.kind = .elementValuePair then
    .node .annotationMemberValuePair none c.line
      ([nameOf (c.get? .key) c.line, leaf .assign c.line] ++ ((c.get? .value).map expr).toList)
  else expr c

def annotated (c : Cst) : Plan :=
  .node .annotationUse none c.line
    (((c.get? .name).map fun name => qualified name.typeName c.line).toList ++
      match c.get? .arguments with
      | some arguments => (arguments.named.filter (!·.isComment)).map annotationArgument
      | none => [])

def modifier (c : Cst) : Option Plan :=
  if c.isAnnotating then some (annotated c)
  else if c.isNamed then none
  else some (token .modifier c.text c.line)

def modifierList (c : Cst) : Plan :=
  .node .modifiers none c.line (c.children.filterMap modifier)

def modifiers (c : Cst) : Plan :=
  match c.named.find? (·.kind = .modifiers) with
  | some list => modifierList list
  | none => leaf .modifiers c.line

def isName (c : Cst) : Bool :=
  c.kind matches .identifier | .scopedIdentifier

def package (c : Cst) : List Plan :=
  match c.named.find? isName with
  | none => []
  | some name => [.node .packageDef none c.line [qualified name.typeName c.line]]

def import_ (c : Cst) : List Plan :=
  match (c.children.filter isName).getLast? with
  | none => []
  | some name =>
    let isStatic := c.children.any fun d => d.kind = .token && d.text == "static"
    let star := if c.children.any (·.kind = .asterisk) then ".*" else ""
    [.node (if isStatic then .staticImport else .importDef) none c.line
      [qualified (name.typeName ++ star) c.line]]

def initializer (declarator value : Cst) : Plan :=
  let sign := declarator.children.find? fun d => d.kind = .token && d.text == "="
  .node .assign none ((sign.map Cst.line).getD value.line)
    [if value.kind = .arrayInitializer then .hole value else expr value]

def arrayMark (c : Cst) (line : Nat) : List Plan :=
  if (c.get? .dimensions).isSome then [leaf .arrayDeclarator line] else []

def variable_ (declaration declarator : Cst) : Plan :=
  let line := declarator.line
  .node .variableDef none line
    ([modifiers declaration, typeRef (declaration.get? .type) line,
        nameOf (declarator.get? .name) line] ++
      arrayMark declarator line ++
      ((declarator.get? .value).map (initializer declarator)).toList)

def variableDefs (c : Cst) : List Plan :=
  (c.getAll .declarator).map (variable_ c)

/-- A component of a record, as a field. -/
def component (c : Cst) : Plan :=
  .node .variableDef none c.line
    ([modifiers c, typeRef (c.get? .type) c.line, nameOf (c.get? .name) c.line] ++
      arrayMark c c.line)

/-- The type of a parameter, which its form decides. -/
def parameterType (c : Cst) : Option Cst :=
  match c.kind with
  | .spreadParameter =>
    c.named.find? fun d => !(d.kind matches .modifiers | .variableDeclarator)
  | .catchFormalParameter => c.named.find? (·.kind = .catchType)
  | _ => c.get? .type

def parameterName (c : Cst) : Option Cst :=
  match c.kind with
  | .spreadParameter => (c.named.find? (·.kind = .variableDeclarator)).bind (·.get? .name)
  | _ => c.get? .name

def parameter (c : Cst) : Plan :=
  .node .parameterDef none c.line
    [modifiers c, typeRef (parameterType c) c.line, nameOf (parameterName c) c.line]

def isParameter (c : Cst) : Bool :=
  c.kind matches .formalParameter | .spreadParameter

def parameters (list : Option Cst) (line : Nat) : Plan :=
  match list with
  | none => leaf .parameters line
  | some list =>
    .node .parameters none list.line ((list.named.filter isParameter).map parameter)

def inferredParameter (c : Cst) : Plan :=
  .node .parameterDef none c.line
    [leaf .modifiers c.line, leaf .type c.line, nameOf (some c) c.line]

def resource (c : Cst) : Plan :=
  match c.get? .name with
  | none => nest .other c
  | some name =>
    .node .variableDef none c.line
      ([modifiers c, typeRef (c.get? .type) c.line, nameOf (some name) c.line] ++
        ((c.get? .value).map (initializer c)).toList)

def clause (kind : Syntax.Kind) (c : Cst) : Plan :=
  let types := c.named.flatMap fun d => if d.kind = .typeList then d.named else [d]
  .node kind none c.line
    ((types.filter (!·.isComment)).map fun type => qualified type.typeName type.line)

def clause? (c : Cst) : Option Plan :=
  match c.kind with
  | .superclass | .extendsInterfaces => some (clause .extendsClause c)
  | .superInterfaces => some (clause .implementsClause c)
  | _ => none

def member (c : Cst) : List Plan :=
  if c.kind = .enumBodyDeclarations then holes c.named else [.hole c]

def body (c : Cst) (components : Option Cst) : Plan :=
  let fields := match components with
    | some list => (list.named.filter (·.kind = .formalParameter)).map component
    | none => []
  .node .objBlock none c.line (fields ++ c.named.flatMap member)

def typeDeclaration (kind : Syntax.Kind) (c : Cst) : Plan :=
  let isRecord := c.kind = .recordDeclaration
  .node kind (if isRecord then some "record" else none) c.line
    ([modifiers c, nameOf (c.get? .name) c.line] ++ c.named.filterMap clause? ++
      [match c.get? .body with
        | some b => body b (if isRecord then c.get? .parameters else none)
        | none => leaf .objBlock c.line])

def method (c : Cst) : Plan :=
  .node .methodDef none c.line
    ([modifiers c, typeRef (c.get? .type) c.line, nameOf (c.get? .name) c.line,
        parameters (c.get? .parameters) c.line] ++ holes (c.get? .body).toList)

def constructor_ (c : Cst) : Plan :=
  .node .ctorDef none c.line
    ([modifiers c, nameOf (c.get? .name) c.line, parameters (c.get? .parameters) c.line] ++
      holes (c.get? .body).toList)

def forEach (c : Cst) : Plan :=
  .node .forEach none c.line
    ([.node .variableDef none c.line
        [modifiers c, typeRef (c.get? .type) c.line, nameOf (c.get? .name) c.line]] ++
      ((c.get? .value).map expr).toList ++ holes (c.get? .body).toList)

def lambdaParameters (c : Cst) : Plan :=
  match c.get? .parameters with
  | none => parameters none c.line
  | some list =>
    match list.kind with
    | .identifier => .node .parameters none c.line [inferredParameter list]
    | .inferredParameters =>
      .node .parameters none c.line
        ((list.named.filter (·.kind = .identifier)).map inferredParameter)
    | _ => parameters (some list) c.line

def lambda (c : Cst) : Plan :=
  .node .lambda none c.line
    (lambdaParameters c ::
      match c.get? .body with
      | none => []
      | some b => [if b.kind = .block then .hole b else expr b])

def assignment (c : Cst) : Plan :=
  let operator := ((c.get? .operator).map Cst.text).getD "="
  let parts := holes (c.get? .left).toList ++ holes (c.get? .right).toList
  if operator == "=" then .node .assign none c.line parts
  else .node .operator (some operator) c.line parts

def operator (c : Cst) : Plan :=
  .node .operator (some c.operatorText) c.line (holes c.named)

def enclose (inner : Plan) (level : Cst) : Plan :=
  .node .operator (some level.operatorText) level.line
    (inner :: holes (level.named.filter (·.field ≠ some .left)))

/-- A left-nested chain of binary operators, built from the inside. Its levels share one step of
lowering, so a long chain is not deep. -/
def chain (c : Cst) : Plan :=
  match c.spine.reverse with
  | [] => operator c
  | innermost :: outer => outer.foldl enclose (operator innermost)

def fieldAccess (c : Cst) : Plan :=
  match c.get? .object, c.get? .field with
  | some object, some field => .node .dot none c.line [.hole object, .hole field]
  | _, _ => nest .other c

def methodCall (c : Cst) : Plan :=
  let name := c.get? .name
  let callee := match c.get? .object with
    | some object =>
      if name.isSome then .node .dot none c.line [.hole object, nameOf name c.line]
      else nameOf name c.line
    | none => nameOf name c.line
  let arguments := match c.get? .arguments with
    | some list => .hole list
    | none => leaf .elist c.line
  .node .methodCall none c.line [callee, arguments]

def arrayAccess (c : Cst) : Plan :=
  match c.get? .array, c.get? .index with
  | some array, some index => .node .indexOp none c.line [.hole array, expr index]
  | _, _ => nest .other c

def creation (c : Cst) : Plan :=
  .node .literalNew none c.line
    (typeRef (c.get? .type) c.line ::
      holes (c.named.filter fun d => d.field ≠ some .type && !d.isComment))

/-- One level of lowering. -/
def ofCst (c : Cst) : List Plan :=
  if c.kind.isLiteral then [token .literal c.text c.line]
  else
    match c.kind with
    | .lineComment | .blockComment => []
    | .packageDeclaration => package c
    | .importDeclaration => import_ c
    | .classDeclaration | .recordDeclaration => [typeDeclaration .classDef c]
    | .interfaceDeclaration | .annotationTypeDeclaration => [typeDeclaration .interfaceDef c]
    | .enumDeclaration => [typeDeclaration .enumDef c]
    | .classBody | .interfaceBody | .enumBody | .annotationTypeBody => [body c none]
    | .fieldDeclaration | .constantDeclaration | .localVariableDeclaration => variableDefs c
    | .methodDeclaration | .annotationTypeElementDeclaration => [method c]
    | .constructorDeclaration | .compactConstructorDeclaration => [constructor_ c]
    | .formalParameter | .spreadParameter | .catchFormalParameter => [parameter c]
    | .resource => [resource c]
    | .enhancedForStatement => [forEach c]
    | .lambdaExpression => [lambda c]
    | .modifiers => [modifierList c]
    | .annotationUse | .plainAnnotationUse => [annotated c]
    | .block | .constructorBody => [nest .slist c]
    | .expressionStatement => [nest .expr c]
    | .argumentList => [nest .elist c]
    | .arrayInitializer => [nest .arrayInit c]
    | .explicitConstructorInvocation => [nest .methodCall c]
    | .parenthesizedExpression => holes c.named
    | .assignmentExpression => [assignment c]
    | .binaryExpression => [chain c]
    | .unaryExpression | .updateExpression => [operator c]
    | .fieldAccess => [fieldAccess c]
    | .methodInvocation => [methodCall c]
    | .arrayAccess => [arrayAccess c]
    | .objectCreationExpression | .arrayCreationExpression => [creation c]
    | .this => [leaf .literalThis c.line]
    | .super => [leaf .literalSuper c.line]
    | .identifier | .typeIdentifier => [ident c.text c.line]
    | .scopedIdentifier => [qualified c.typeName c.line]
    | .integralType | .floatingPointType | .booleanType | .voidType | .genericType
    | .scopedTypeIdentifier | .arrayType => [typeRef (some c) c.line]
    | _ => [nest .other c]

end Plan

structure TooDeep where
  line : Nat
  deriving DecidableEq, Repr

/-- Lowers a node together with what is inside it, at most `depth` levels deep. -/
def Cst.lower : Nat → Cst → Except TooDeep (List Term)
  | 0, c => .error ⟨c.line⟩
  | depth + 1, c => Plan.fillAll (Cst.lower depth) (Plan.ofCst c)

/-- Deepest nesting that is lowered. -/
def maxDepth : Nat := 512

def Cst.toTerm (program : Cst) : Except TooDeep Term :=
  match Plan.fillAll (Cst.lower maxDepth) (Plan.holes program.named) with
  | .ok terms => .ok (.node .compilationUnit none 1 terms)
  | .error e => .error e

/-- The syntax tree of a concrete tree without faults. -/
def Cst.toTree (program : Cst) : Except ParseError Tree :=
  match program.toTerm with
  | .error e => .error (.nestingTooDeep e.line maxDepth)
  | .ok term =>
    match Tree.ofTerm term with
    | .ok tree => .ok tree
    | .error e => .error (.tree e)

end ArchLint.Java
