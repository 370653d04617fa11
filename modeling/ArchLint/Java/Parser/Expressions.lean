import ArchLint.Java.Parser.Types

/-!
# Expressions

Operators are parsed by precedence; a lambda or an assignment takes all that follows it.
-/

namespace ArchLint.Java.Parser

variable (self : Goal → Parser Piece) (limit : Nat)

/-- Binary operators with the tightness of their binding. -/
def binaryLevel? : String → Option Nat
  | "||" => some 4
  | "&&" => some 5
  | "|" => some 6
  | "^" => some 7
  | "&" => some 8
  | "==" | "!=" => some 9
  | "<" | ">" | "<=" | ">=" => some 10
  | "<<" | ">>" | ">>>" => some 11
  | "+" | "-" => some 12
  | "*" | "/" | "%" => some 13
  | _ => none

def conditionalLevel : Nat := 3

def instanceofLevel : Nat := 10

def assignmentOperators : List String :=
  ["=", "+=", "-=", "*=", "/=", "&=", "|=", "^=", "%=", "<<=", ">>=", ">>>="]

def adjacent (a b : Lexeme) : Bool :=
  a.stop = b.start

/-- The operator at the front: `>` goes together with the `>` and `=` right after it. -/
def operatorAhead (ls : List Lexeme) : Option (Lexeme × List Lexeme) :=
  match ls with
  | [] => none
  | first :: rest =>
    if first.kind ≠ .punctuation then none
    else if first.text ≠ ">" then some (first, rest)
    else some (glue 3 first rest)
where
  glue : Nat → Lexeme → List Lexeme → Lexeme × List Lexeme
    | 0, l, rest => (l, rest)
    | n + 1, l, rest =>
      match rest with
      | following :: rest' =>
        if adjacent l following && following.isMark ">" && n ≠ 0 then
          glue n { l with text := l.text ++ ">" } rest'
        else if adjacent l following && following.isMark "=" then
          ({ l with text := l.text ++ "=" }, rest')
        else (l, rest)
      | [] => (l, rest)

def operatorIf (test : String → Bool) : Parser (Option Piece) := fun ls =>
  match operatorAhead ls with
  | some (l, rest) => if test l.text then .ok (some (.leaf .token l), rest) else .ok (none, ls)
  | none => .ok (none, ls)

def interpolation : Parser Piece := do
  let opening ← mark "\\\x7b"
  let value ← self (.expression 0 true)
  let closing ← mark "\x7d"
  return .node .stringInterpolation [opening, value, closing]

def isQuotedPart (l : Lexeme) : Bool :=
  match l.kind with
  | .fragment _ | .escape => true
  | .punctuation => l.text == "\\\x7b"
  | _ => false

def quotedPart : Parser Piece := do
  let l ← peek
  match l.kind with
  | .fragment kind => return .leaf kind (← next)
  | .escape => return .leaf .escapeSequence (← next)
  | _ => interpolation self

def stringLiteral : Parser Piece := fun ls =>
  let parser : Parser Piece := do
    let opening ← leafIf .token (·.kind = .quote)
    let parts ← manyWhile (fun ls => isQuotedPart (front ls)) (do return [← quotedPart self]) limit #[]
    let closing ← leafIf .token (·.kind = .quote)
    return .node .stringLiteral ([opening] ++ parts ++ [closing])
  match parser ls with
  | .ok (piece, rest) =>
    let stop := (front rest).start - (front rest).gap.length
    .ok (piece.withText (sourceText ls stop), rest)
  | .error e => .error e

def wordLiteral? : String → Option Kind
  | "true" => some .trueLiteral
  | "false" => some .falseLiteral
  | "null" => some .nullLiteral
  | _ => none

def classLiteral : Parser Piece := fun ls =>
  let parser : Parser Piece := do
    let type ← self .unannotatedType
    let dot ← mark "."
    let word ← keyword "class"
    return .node .classLiteral [type, dot, word]
  match parser ls with
  | .ok (piece, rest) =>
    let stop := (front rest).start - (front rest).gap.length
    .ok (piece.withText (sourceText ls stop), rest)
  | .error e => .error e

def methodReferenceRest (qualifier : Piece) : Parser Piece := do
  let sign ← mark "::"
  let arguments ← optionalIf (·.isMark "<") do return [← self .typeArguments]
  let method ← if ← atKeyword "new" then keyword "new" else identifier
  return .node .methodReference ([qualifier, sign] ++ arguments ++ [method])

def typeMethodReference : Parser Piece := do
  methodReferenceRest self (← self .type)

/-- The dotted name at the front ends in something that only a type can end in, or is followed by
`.class`. -/
def typeNameAhead : Nat → List Lexeme → Bool
  | 0, _ => false
  | n + 1, ls =>
    let after := ls.tail
    if !(front ls).isWord then false
    else if (front after).isMark "<" then true
    else if (front after).isMark "[" then (front after.tail).isMark "]"
    else if (front after).isMark "@" then true
    else if (front after).isMark "." then
      (front after.tail).isKeyword "class" || (front after.tail).isMark "@" ||
        typeNameAhead n after.tail
    else false

def arguments : Parser Piece := do
  let opening ← mark "("
  let values ←
    if ← atMark ")" then pure []
    else commaSeparated limit (do return [← self (.expression 0 true)])
  let closing ← mark ")"
  return .node .argumentList ([opening] ++ values ++ [closing])

def dimensionExpression : Parser (List Piece) := do
  let leading ← annotations self limit
  let opening ← mark "["
  let value ← self (.expression 0 true)
  let closing ← mark "]"
  return [(Piece.node .dimensionsExpr (leading ++ [opening, value, closing])).as .dimensions]

def atIndex (ls : List Lexeme) : Bool :=
  (front ls).isMark "[" && !(front ls.tail).isMark "]"

def arrayCreationRest (parts : List Piece) : Parser Piece := do
  let sizes ← manyWhile atIndex (dimensionExpression self limit) limit #[]
  if sizes.isEmpty then
    match ← attempt (dimensionExpression self limit) with
    | some first =>
      let more ← manyWhile atIndex (dimensionExpression self limit) limit first.toArray
      return .node .arrayCreationExpression (parts ++ more ++ (← nameDimensions self limit))
    | none =>
      match ← dimensions self limit with
      | some brackets =>
        let value ← self .arrayInitializer
        return .node .arrayCreationExpression
          (parts ++ [brackets.as .dimensions, value.as .value])
      | none => fail
  else
    return .node .arrayCreationExpression (parts ++ sizes ++ (← nameDimensions self limit))

def creation (outer : List Piece) : Parser Piece := do
  let word ← keyword "new"
  let leading ← annotations self limit
  let typeArguments ← optionalIf (·.isMark "<") do
    return (← self .typeArguments).as .typeArguments :: (← annotations self limit)
  let type ← self .simpleType
  let parts := outer ++ [word] ++ leading ++ typeArguments ++ [type.as .type]
  if ← atMark "(" then
    let arguments ← self .arguments
    let body ← optionalIf (·.isMark "\x7b") do return [← self .classBody]
    return .node .objectCreationExpression (parts ++ [arguments.as .arguments] ++ body)
  else if outer.isEmpty && typeArguments.isEmpty then arrayCreationRest self limit parts
  else fail

def member (object : Piece) (between : List Piece) : Parser Piece := do
  let typeArguments ← optionalIf (·.isMark "<") do
    return [(← self .typeArguments).as .typeArguments]
  if typeArguments.isEmpty && (← atKeyword "this") then
    let this ← keywordLeaf .this "this"
    return .node .fieldAccess ([object.as .object] ++ between ++ [this.as .field])
  else
    let name ← leafIf .identifier isMember
    if ← atMark "(" then
      let arguments ← self .arguments
      return .node .methodInvocation
        ([object.as .object] ++ between ++ typeArguments ++
          [name.as .name, arguments.as .arguments])
    else if typeArguments.isEmpty then
      return .node .fieldAccess ([object.as .object] ++ between ++ [name.as .field])
    else fail

def outerMember (object dot : Piece) : Parser Piece := do
  let super ← keywordLeaf .super "super"
  let second ← mark "."
  member self object [dot, super, second]

/-- A call to a constructor of the superclass follows: `.super(` or `.<T>super(`. -/
def superCallAhead : Parser Bool :=
  succeeds do
    let _ ← mark "."
    let _ ← optionalIf (·.isMark "<") do return [← self .typeArguments]
    let _ ← keyword "super"
    mark "("

def primaryRest : Nat → Piece → Parser Piece
  | 0, _ => fail
  | n + 1, object => do
    let l ← peek
    if l.isMark "." then
      if ← superCallAhead self then return object
      let dot ← mark "."
      let following ← peek
      if following.isKeyword "new" then
        primaryRest n (← creation self limit [object, dot])
      else if following.isKeyword "super" then
        primaryRest n (← outerMember self object dot)
      else if following.kind = .quote then
        let text ← stringLiteral self limit
        primaryRest n (.node .templateExpression
          [object.as .templateProcessor, dot, text.as .templateArgument])
      else primaryRest n (← member self object [dot])
    else if l.isMark "[" then
      let opening ← mark "["
      let index ← self (.expression 0 true)
      let closing ← mark "]"
      primaryRest n (.node .arrayAccess [object.as .array, opening, index.as .index, closing])
    else if l.isMark "::" then primaryRest n (← methodReferenceRest self object)
    else return object

def superMember : Parser Piece := do
  let super ← keywordLeaf .super "super"
  if ← atMark "::" then methodReferenceRest self super
  else
    let dot ← mark "."
    if ← atKeyword "super" then outerMember self super dot else member self super [dot]

def wordPrimary : Parser Piece := do
  let l ← peek
  match wordLiteral? l.text with
  | some kind => return .leaf kind (← next)
  | none =>
    if l.text == "this" then keywordLeaf .this "this"
    else if l.text == "super" then superMember self
    else if l.text == "new" then creation self limit []
    else
      let typed ←
        if ← ahead fun ls => isPrimitive (front ls) || typeNameAhead limit ls then
          match ← attempt (classLiteral self) with
          | some piece => pure (some piece)
          | none => attempt (typeMethodReference self)
        else pure none
      match typed with
      | some piece => return piece
      | none =>
        if isPrimitive l then fail
        else
          let name ← identifier
          if ← atMark "(" then
            let arguments ← self .arguments
            return .node .methodInvocation [name.as .name, arguments.as .arguments]
          else return name

def lambdaRest (parameters : Piece) : Parser Piece := do
  let arrow ← mark "->"
  let body ← if ← atMark "\x7b" then self .block else self (.expression 0 true)
  return .node .lambdaExpression [parameters.as .parameters, arrow, body.as .body]

def inferredAhead : Nat → List Lexeme → Bool
  | 0, _ => false
  | n + 1, ls =>
    (front ls).isWord &&
      if (front ls.tail).isMark "," then inferredAhead n ls.tail.tail
      else (front ls.tail).isMark ")" && (front ls.tail.tail).isMark "->"

def inferredParameters : Parser Piece := do
  let opening ← mark "("
  let names ← commaSeparated limit (do return [← identifier])
  let closing ← mark ")"
  return .node .inferredParameters ([opening] ++ names ++ [closing])

def typedParameters : Parser Piece := do
  let parameters ← self .formalParameters
  if ← atMark "->" then return parameters else fail

/-- A type that can be read as an expression too. -/
def isAmbiguousType (p : Piece) : Bool :=
  match p.tree with
  | .node .typeIdentifier _ _ _ _ => true
  | .node .scopedTypeIdentifier _ _ _ cs => cs.all fun c => c.kind ≠ .genericType && !c.kind.isAnnotating
  | _ => false

/-- An operand can start here, and nothing that could go on with an expression. -/
def startsOperand (l : Lexeme) : Bool :=
  match l.kind with
  | .word => l.text ≠ "instanceof"
  | .literal _ | .quote => true
  | .punctuation => l.isMarkIn ["(", "!", "~", "@"]
  | _ => false

/-- What follows a type in parentheses shows that it is a cast. -/
def castFollows (types : List Piece) (ls : List Lexeme) : Bool :=
  match types with
  | [type] =>
    if isAmbiguousType type then
      startsOperand (front ls) ||
        (front ls).isMarkIn ["++", "--"] && startsOperand (front ls.tail)
    else true
  | _ => true

def castType : Parser (List Piece) := do
  let opening ← mark "("
  let first ← self .type
  let more ← manyWhile (fun ls => (front ls).isMark "&")
    (do return [← mark "&", (← self .type).as .type]) limit #[]
  let closing ← mark ")"
  if ← ahead (castFollows (first :: more)) then
    return [opening, first.as .type] ++ more ++ [closing]
  else fail

def parenthesized : Parser Piece := do
  let opening ← mark "("
  let value ← self (.expression 0 true)
  let closing ← mark ")"
  return .node .parenthesizedExpression [opening, value, closing]

def isAssignable (k : Kind) : Bool :=
  k matches .identifier | .fieldAccess | .arrayAccess

def primaryOrAssignment (arrow : Bool) (first : Piece) : Parser Piece := do
  let left ← primaryRest self limit limit first
  if isAssignable left.kind then
    match ← operatorIf assignmentOperators.contains with
    | some operator =>
      let right ← self (.expression 0 arrow)
      return .node .assignmentExpression [left.as .left, operator.as .operator, right.as .right]
    | none => return left
  else return left

def afterParenthesis (arrow : Bool) : Parser Piece := do
  let l := front (← get).tail
  let couldBeType := l.isWord || l.isMark "@"
  if arrow && (← ahead fun ls => inferredAhead limit ls.tail) then
    lambdaRest self (← inferredParameters limit)
  else
    let parameters ←
      if arrow && (couldBeType || l.isMark ")") then attempt (typedParameters self) else pure none
    match parameters with
    | some parameters => lambdaRest self parameters
    | none =>
      match ← (if couldBeType then attempt (castType self limit) else pure none) with
      | some types =>
        let value ← self (.unary arrow)
        return .node .castExpression (types ++ [value.as .value])
      | none => primaryOrAssignment self limit arrow (← parenthesized self)

def switchExpression : Parser Piece := do
  let word ← keyword "switch"
  let condition ← parenthesized self
  let body ← self .switchBody
  return .node .switchExpression [word, condition.as .condition, body.as .body]

def operand (arrow : Bool) : Parser Piece := do
  let l ← peek
  match l.kind with
  | .punctuation =>
    if l.isMarkIn ["+", "-", "!", "~"] then
      let operator := Piece.leaf .token (← next)
      let value ← self (.operand arrow)
      return .node .unaryExpression [operator.as .operator, value.as .operand]
    else if l.isMarkIn ["++", "--"] then
      let operator := Piece.leaf .token (← next)
      let value ← self (.operand arrow)
      return .node .updateExpression [operator, value]
    else if l.isMark "(" then afterParenthesis self limit arrow
    else if l.isMark "@" then primaryOrAssignment self limit arrow (← typeMethodReference self)
    else fail
  | .word =>
    if arrow && (← ahead fun ls => (front ls.tail).isMark "->") then
      lambdaRest self (← identifier)
    else if ← ahead fun ls => (front ls).isKeyword "switch" && (front ls.tail).isMark "(" then
      switchExpression self
    else primaryOrAssignment self limit arrow (← wordPrimary self limit)
  | .literal kind => primaryOrAssignment self limit arrow (.leaf kind (← next))
  | .quote => primaryOrAssignment self limit arrow (← stringLiteral self limit)
  | _ => fail

def postfixes : Nat → Piece → Parser Piece
  | 0, _ => fail
  | n + 1, value => do
    if (← peek).isMarkIn ["++", "--"] then
      postfixes n (.node .updateExpression [value, .leaf .token (← next)])
    else return value

def unary (arrow : Bool) : Parser Piece := do
  postfixes limit (← operand self limit arrow)

def instanceofRest (left : Piece) : Parser Piece := do
  let word ← keyword "instanceof"
  let final ← optionalIf (·.isKeyword "final") do return [← keyword "final"]
  let parts := [left.as .left, word] ++ final
  match ← attempt (self .recordPattern) with
  | some pattern => return .node .instanceofExpression (parts ++ [pattern.as .pattern])
  | none =>
    let type ← self .type
    let name ← optionalIf (fun l => l.isWord && !l.isKeyword "instanceof")
      do return [(← identifier).as .name]
    return .node .instanceofExpression (parts ++ [type.as .right] ++ name)

def levelAhead (ls : List Lexeme) : Option Nat :=
  if (front ls).isKeyword "instanceof" then some instanceofLevel
  else
    match operatorAhead ls with
    | some (l, _) => if l.text == "?" then some conditionalLevel else binaryLevel? l.text
    | none => none

/-- Goes on with the operators that bind at least as tightly as `level`. -/
def binaryRest (level : Nat) (arrow : Bool) : Nat → Piece → Parser Piece
  | 0, _ => fail
  | n + 1, left => do
    match levelAhead (← get) with
    | none => return left
    | some found =>
      if found < level then return left
      else if ← atKeyword "instanceof" then
        binaryRest level arrow n (← postfixes (n + 1) (← instanceofRest self left))
      else if found = conditionalLevel then
        let question ← mark "?"
        let consequence ← self (.expression 0 true)
        let colon ← mark ":"
        let alternative ← self (.expression conditionalLevel arrow)
        binaryRest level arrow n (.node .ternaryExpression
          [left.as .condition, question, consequence.as .consequence, colon,
            alternative.as .alternative])
      else
        match ← operatorIf fun text => (binaryLevel? text).isSome with
        | none => fail
        | some operator =>
          let right ← self (.expression (found + 1) arrow)
          binaryRest level arrow n (.node .binaryExpression
            [left.as .left, operator.as .operator, right.as .right])

def expression (level : Nat) (arrow : Bool) : Parser Piece := do
  binaryRest self level arrow limit (← unary self limit arrow)

def arrayInitializer : Parser Piece :=
  braced limit .arrayInitializer (variableInitializer self)

def recordComponent : Parser Piece := do
  if ← ahead fun ls => (front ls).isKeyword "_" && (front ls.tail).isMarkIn [",", ")"] then
    return .node .recordPatternComponent [← keywordLeaf .underscorePattern "_"]
  else
    match ← attempt (self .recordPattern) with
    | some pattern => return pattern
    | none =>
      let type ← self .unannotatedType
      let name ← identifier
      return .node .recordPatternComponent [type, name]

def recordPatternBody : Parser Piece := do
  let opening ← mark "("
  let components ←
    if ← atMark ")" then pure []
    else commaSeparated limit (do return [← recordComponent self])
  let closing ← mark ")"
  return .node .recordPatternBody ([opening] ++ components ++ [closing])

def recordPattern : Parser Piece := do
  let type ←
    if ← ahead fun ls => (front ls).isWord && (front ls.tail).isMark "(" then identifier
    else
      let type ← self .simpleType
      if type.kind = .genericType && (← atMark "(") then pure type else fail
  return .node .recordPattern [type, ← recordPatternBody self limit]

end ArchLint.Java.Parser
