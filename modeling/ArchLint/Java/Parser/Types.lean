import ArchLint.Java.Parser.Basic

/-!
# Names, types and annotations

The parsers of a recursive grammar call each other through `self`, which runs the parser of a
`Goal`. Loops take `limit` turns at most, the number of lexemes of the file.
-/

namespace ArchLint.Java.Parser

/-- The constructs that occur inside each other. -/
inductive Goal where
  /-- An expression whose operators bind at least as tightly as `level`. A lambda may start here
  only if `arrow` is set: in `case x -> …` the arrow belongs to the label. -/
  | expression (level : Nat) (arrow : Bool)
  | unary (arrow : Bool)
  /-- A unary expression that leaves `++` and `--` after it alone. -/
  | operand (arrow : Bool)
  | simpleType
  | unannotatedType
  | type
  | typeArguments
  | annotated
  | elementValue
  | arguments
  | arrayInitializer
  | recordPattern
  | formalParameters
  | statement (topLevel : Bool)
  | block
  | classBody
  | interfaceBody
  | annotationBody
  | enumBody
  | switchBody
  deriving DecidableEq, Repr

variable (self : Goal → Parser Piece) (limit : Nat)

/-- A word after a dot that is not one of the keywords with a meaning of their own there. -/
def isMember (l : Lexeme) : Bool :=
  l.isWord && !l.isKeywordIn ["class", "this", "super", "new"]

def scopedName : Nat → Piece → Parser Piece
  | 0, _ => fail
  | n + 1, scope => do
    if ← ahead fun ls => (front ls).isMark "." && (front ls.tail).isWord then
      let dot ← mark "."
      let name ← identifier
      scopedName n (.node .scopedIdentifier [scope.as .scope, dot, name.as .name])
    else return scope

def name : Parser Piece := do
  scopedName limit (← identifier)

def elementValuePair : Parser Piece := do
  let key ← identifier
  let equals ← mark "="
  let value ← self .elementValue
  return .node .elementValuePair [key.as .key, equals, value.as .value]

def annotationArguments : Parser Piece := do
  let opening ← mark "("
  let values ←
    if ← atMark ")" then pure []
    else if ← ahead fun ls => (front ls).isWord && (front ls.tail).isMark "=" then
      commaSeparated limit (do return [← elementValuePair self])
    else pure [← self .elementValue]
  let closing ← mark ")"
  return .node .annotationArgumentList ([opening] ++ values ++ [closing])

def annotated : Parser Piece := do
  let sign ← mark "@"
  let name ← name limit
  if ← atMark "(" then
    let arguments ← annotationArguments self limit
    return .node .annotationUse [sign, name.as .name, arguments.as .arguments]
  else return .node .plainAnnotationUse [sign, name.as .name]

def annotations : Parser (List Piece) :=
  manyWhile (fun ls => (front ls).isMark "@") (do return [← self .annotated]) limit #[]

def braced (kind : Kind) (value : Parser Piece) : Parser Piece := do
  let opening ← mark "\x7b"
  let values ← manyWhile (fun ls => !(front ls).isMarkIn ["\x7d", ","])
    (do
      let value ← value
      if ← ahead fun ls => (front ls).isMark "," && !(front ls.tail).isMark "\x7d" then
        let comma ← mark ","
        if (← peek).isMark "," then fail
        return [value, comma]
      else if ← ahead fun ls => (front ls).isMarkIn ["\x7d", ","] then return [value]
      else fail)
    limit #[]
  let comma ← optionalIf (·.isMark ",") do return [← mark ","]
  let closing ← mark "\x7d"
  return .node kind ([opening] ++ values ++ comma ++ [closing])

def elementValue : Parser Piece := do
  if ← atMark "\x7b" then braced limit .elementValueArrayInitializer (self .elementValue)
  else if ← atMark "@" then self .annotated
  else self (.expression 0 true)

def primitiveKind? : String → Option Kind
  | "byte" | "short" | "int" | "long" | "char" => some .integralType
  | "float" | "double" => some .floatingPointType
  | "boolean" => some .booleanType
  | "void" => some .voidType
  | _ => none

def isPrimitive (l : Lexeme) : Bool :=
  l.isWord && (primitiveKind? l.text).isSome

def primitive (kind : Kind) : Parser Piece := do
  let l ← next
  match kind with
  | .booleanType | .voidType => return .leaf kind l
  | _ => return (Piece.node kind [.leaf .token l]).withText l.text

def wildcard (leading : List Piece) : Parser Piece := do
  let sign ← mark "?"
  let bounds ←
    if ← atKeyword "extends" then pure [← keyword "extends", ← self .type]
    else if ← atKeyword "super" then pure [← keywordLeaf .super "super", ← self .type]
    else pure []
  return .node .wildcard (leading ++ [sign] ++ bounds)

def typeArgument : Parser Piece := do
  let leading ← annotations self limit
  if ← atMark "?" then wildcard self leading
  else
    let type ← self .unannotatedType
    return if leading.isEmpty then type else .node .annotatedType (leading ++ [type])

def typeArguments : Parser Piece := do
  let opening ← mark "<"
  let types ←
    if ← atMark ">" then pure []
    else commaSeparated limit (do return [← typeArgument self limit])
  let closing ← mark ">"
  return .node .typeArguments ([opening] ++ types ++ [closing])

def classTypeRest : Nat → Piece → Parser Piece
  | 0, _ => fail
  | n + 1, base => do
    if base.kind ≠ .genericType && (← atMark "<") then
      let arguments ← self .typeArguments
      classTypeRest n (.node .genericType [base, arguments])
    else if ← ahead fun ls => (front ls).isMark "." &&
        (isMember (front ls.tail) || (front ls.tail).isMark "@") then
      let dot ← mark "."
      let leading ← annotations self limit
      let name ← leafIf .typeIdentifier isMember
      classTypeRest n (.node .scopedTypeIdentifier ([base, dot] ++ leading ++ [name]))
    else return base

def simpleType : Parser Piece := do
  let l ← peek
  match (if l.isWord then primitiveKind? l.text else none) with
  | some kind => primitive kind
  | none => classTypeRest self limit limit (← leafIf .typeIdentifier (·.isWord))

def dimension : Parser (List Piece) := do
  let leading ← annotations self limit
  return leading ++ [← mark "[", ← mark "]"]

def dimensionList : Nat → Array Piece → Parser (List Piece)
  | 0, _ => fail
  | n + 1, done => do
    let l ← peek
    if l.isMark "[" || l.isMark "@" then
      match ← attempt (dimension self limit) with
      | some parts => dimensionList n (done ++ parts)
      | none => return done.toList
    else return done.toList

def dimensions : Parser (Option Piece) := do
  let parts ← dimensionList self limit limit #[]
  return if parts.isEmpty then none else some (.node .dimensions parts)

def nameDimensions : Parser (List Piece) := do
  return (← dimensions self limit).toList.map (·.as .dimensions)

def unannotatedType : Parser Piece := do
  let element ← self .simpleType
  match ← dimensions self limit with
  | some dimensions =>
    return .node .arrayType [element.as .element, dimensions.as .dimensions]
  | none => return element

def type : Parser Piece := do
  let leading ← annotations self limit
  let type ← self .unannotatedType
  return if leading.isEmpty then type else .node .annotatedType (leading ++ [type])

def typeList : Parser Piece := do
  return .node .typeList (← commaSeparated limit (do return [← self .type]))

def typeBound : Parser Piece := do
  let extends_ ← keyword "extends"
  let first ← self .type
  let rest ← manyWhile (fun ls => (front ls).isMark "&")
    (do return [← mark "&", ← self .type]) limit #[]
  return .node .typeBound ([extends_, first] ++ rest)

def typeParameter : Parser Piece := do
  let leading ← annotations self limit
  let name ← leafIf .typeIdentifier (·.isWord)
  let bound ← optionalIf (·.isKeyword "extends") do return [← typeBound self limit]
  return .node .typeParameter (leading ++ [name] ++ bound)

def typeParameters : Parser Piece := do
  let opening ← mark "<"
  let parameters ← commaSeparated limit (do return [← typeParameter self limit])
  let closing ← mark ">"
  return .node .typeParameters ([opening] ++ parameters ++ [closing])

def modifierKeywords : List String :=
  ["public", "protected", "private", "abstract", "static", "final", "strictfp", "default",
    "synchronized", "native", "transient", "volatile"]

/-- `non-sealed` is one token, though its parts look like three. -/
def atNonSealed (ls : List Lexeme) : Bool :=
  match ls with
  | a :: b :: c :: _ =>
    a.isKeyword "non" && b.isMark "-" && c.isKeyword "sealed" && a.stop = b.start && b.stop = c.start
  | _ => false

/-- `sealed` is a modifier where a declaration goes on after it, and else a name. -/
def atSealed (ls : List Lexeme) : Bool :=
  (front ls).isKeyword "sealed" &&
    let l := front ls.tail
    l.isMark "@" || l.isMark "@interface" || l.isWord && !l.isKeyword "instanceof"

def atModifier (ls : List Lexeme) : Bool :=
  (front ls).isMark "@" || (front ls).isKeywordIn modifierKeywords || atSealed ls || atNonSealed ls

def modifier : Parser Piece := do
  if ← atMark "@" then self .annotated
  else if ← ahead atNonSealed then
    let non ← next
    let dash ← next
    let sealed_ ← next
    return .leaf .token { non with text := non.text ++ dash.text ++ sealed_.text }
  else return .leaf .token (← next)

def modifiers : Parser (List Piece) := do
  let parts ← manyWhile atModifier (do return [← modifier self]) limit #[]
  return if parts.isEmpty then [] else [.node .modifiers parts]

/-- The name of a variable; an underscore names nothing. -/
def variableName : Parser Piece := do
  if ← atKeyword "_" then keywordLeaf .underscorePattern "_" else identifier

def variableId : Parser (List Piece) := do
  let name ← variableName
  return name.as .name :: (← nameDimensions self limit)

def variableInitializer : Parser Piece := do
  if ← atMark "\x7b" then self .arrayInitializer else self (.expression 0 true)

def variableDeclarator : Parser Piece := do
  let id ← variableId self limit
  let value ← optionalIf (·.isMark "=") do
    return [← mark "=", (← variableInitializer self).as .value]
  return .node .variableDeclarator (id ++ value)

def variableDeclarators : Parser (List Piece) :=
  commaSeparated limit (do return [(← variableDeclarator self limit).as .declarator])

/-- The parameter that stands for the object itself: `Outer Outer.this`. After annotations a plain
`this` is read as the name of an ordinary parameter. -/
def receiverParameter : Parser Piece := do
  let leading ← annotations self limit
  let type ← self .unannotatedType
  let path ← manyWhile (fun ls => !(front ls).isKeyword "this")
    (do return [← identifier, ← mark "."]) limit #[]
  if !leading.isEmpty && path.isEmpty then fail
  let this ← keywordLeaf .this "this"
  return .node .receiverParameter (leading ++ [type] ++ path ++ [this])

def formalParameter : Parser Piece := do
  let leading ← modifiers self limit
  let type ← self .unannotatedType
  if ← atMark "..." then
    let dots ← mark "..."
    let annotations ← annotations self limit
    let declarator ← variableDeclarator self limit
    return .node .spreadParameter (leading ++ [type, dots] ++ annotations ++ [declarator])
  else
    let id ← variableId self limit
    return .node .formalParameter (leading ++ [type.as .type] ++ id)

def formalParameters : Parser Piece := do
  let opening ← mark "("
  let receiver ← attempt (receiverParameter self limit)
  let comma ←
    if receiver.isSome then optionalIf (·.isMark ",") do return [← mark ","] else pure []
  let parameters ←
    if (← atMark ")") || (receiver.isSome && comma.isEmpty) then pure []
    else commaSeparated limit (do return [← formalParameter self limit])
  let closing ← mark ")"
  return .node .formalParameters ([opening] ++ receiver.toList ++ comma ++ parameters ++ [closing])

end ArchLint.Java.Parser
