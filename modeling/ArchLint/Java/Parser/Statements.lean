import ArchLint.Java.Parser.Declarations

/-!
# Statements
-/

namespace ArchLint.Java.Parser

variable (self : Goal → Parser Piece) (limit : Nat)

def expressionKeywords : List String :=
  ["new", "this", "super", "switch", "true", "false", "null"]

/-- A type and a name with something after it that can follow only in a declaration. -/
def variableAhead (followers : List String) : Parser Bool :=
  succeeds do
    if (← peek).isKeywordIn expressionKeywords then fail
    let _ ← self .unannotatedType
    let _ ← leafIf .identifier fun l => l.isWord && !l.isKeyword "instanceof"
    leafIf .token (·.isMarkIn followers)

def expressionStatement : Parser Piece := do
  let value ← self (.expression 0 true)
  let stop ← mark ";"
  return .node .expressionStatement [value, stop]

def ifStatement : Parser Piece := do
  let word ← keyword "if"
  let condition ← parenthesized self
  let consequence ← self (.statement false)
  let alternative ← optionalIf (·.isKeyword "else") do
    return [← keyword "else", (← self (.statement false)).as .alternative]
  return .node .ifStatement
    ([word, condition.as .condition, consequence.as .consequence] ++ alternative)

def whileStatement : Parser Piece := do
  let word ← keyword "while"
  let condition ← parenthesized self
  let body ← self (.statement false)
  return .node .whileStatement [word, condition.as .condition, body.as .body]

def doStatement : Parser Piece := do
  let word ← keyword "do"
  let body ← self (.statement false)
  let while_ ← keyword "while"
  let condition ← parenthesized self
  let stop ← mark ";"
  return .node .doStatement [word, body.as .body, while_, condition.as .condition, stop]

def enhancedForRest (parts : List Piece) : Parser Piece := do
  let modifiers ← modifiers self limit
  let type ← self .unannotatedType
  let id ← variableId self limit
  let colon ← mark ":"
  let value ← self (.expression 0 true)
  let closing ← mark ")"
  let body ← self (.statement false)
  return .node .enhancedForStatement
    (parts ++ modifiers ++ [type.as .type] ++ id ++ [colon, value.as .value, closing,
      body.as .body])

def expressionsAs (f : Field) (stop : String) : Parser (List Piece) := do
  if ← atMark stop then return []
  else commaSeparated limit (do return [(← self (.expression 0 true)).as f])

def forRest (parts : List Piece) : Parser Piece := do
  let isDeclaration ←
    if ← ahead atModifier then pure true
    else variableAhead self ["=", ",", ";", "[", "@"]
  let init ←
    if isDeclaration then
      let modifiers ← modifiers self limit
      pure [(← variablesRest self limit .localVariableDeclaration modifiers).as .init]
    else
      let init ← expressionsAs self limit .init ";"
      pure (init ++ [← mark ";"])
  let condition ←
    if ← atMark ";" then pure [] else pure [(← self (.expression 0 true)).as .condition]
  let stop ← mark ";"
  let update ← expressionsAs self limit .update ")"
  let closing ← mark ")"
  let body ← self (.statement false)
  return .node .forStatement
    (parts ++ init ++ condition ++ [stop] ++ update ++ [closing, body.as .body])

def forStatement : Parser Piece := do
  let word ← keyword "for"
  let opening ← mark "("
  let isEnhanced ← succeeds do
    let _ ← modifiers self limit
    let _ ← self .unannotatedType
    let _ ← variableId self limit
    mark ":"
  if isEnhanced then enhancedForRest self limit [word, opening]
  else forRest self limit [word, opening]

def jumpStatement (kind : Kind) (text : String) : Parser Piece := do
  let word ← keyword text
  let label ← optionalIf (·.isWord) do return [← identifier]
  let stop ← mark ";"
  return .node kind ([word] ++ label ++ [stop])

def returnStatement : Parser Piece := do
  let word ← keyword "return"
  let value ← if ← atMark ";" then pure [] else pure [← self (.expression 0 true)]
  let stop ← mark ";"
  return .node .returnStatement ([word] ++ value ++ [stop])

def valueStatement (kind : Kind) (text : String) : Parser Piece := do
  let word ← keyword text
  let value ← self (.expression 0 true)
  let stop ← mark ";"
  return .node kind [word, value, stop]

def assertStatement : Parser Piece := do
  let word ← keyword "assert"
  let condition ← self (.expression 0 true)
  let message ← optionalIf (·.isMark ":") do return [← mark ":", ← self (.expression 0 true)]
  let stop ← mark ";"
  return .node .assertStatement ([word, condition] ++ message ++ [stop])

def synchronizedStatement : Parser Piece := do
  let word ← keyword "synchronized"
  let lock ← parenthesized self
  let body ← self .block
  return .node .synchronizedStatement [word, lock, body.as .body]

def labeledStatement : Parser Piece := do
  let label ← identifier
  let colon ← mark ":"
  return .node .labeledStatement [label, colon, ← self (.statement false)]

def catchType : Parser Piece := do
  let first ← self .unannotatedType
  let more ← manyWhile (fun ls => (front ls).isMark "|")
    (do return [← mark "|", ← self .unannotatedType]) limit #[]
  return .node .catchType (first :: more)

def catchClause : Parser Piece := do
  let word ← keyword "catch"
  let opening ← mark "("
  let modifiers ← modifiers self limit
  let type ← catchType self limit
  let id ← variableId self limit
  let closing ← mark ")"
  let body ← self .block
  return .node .catchClause
    [word, opening, .node .catchFormalParameter (modifiers ++ [type] ++ id), closing,
      body.as .body]

def catchClauses : Parser (List Piece) :=
  manyWhile (fun ls => (front ls).isKeyword "catch") (do return [← catchClause self limit])
    limit #[]

def finallyClause : Parser (List Piece) :=
  optionalIf (·.isKeyword "finally") do
    let word ← keyword "finally"
    return [.node .finallyClause [word, ← self .block]]

def resource : Parser Piece := do
  let isDeclaration ←
    if ← ahead atModifier then pure true else variableAhead self ["=", "[", "@"]
  if isDeclaration then
    let modifiers ← modifiers self limit
    let type ← self .unannotatedType
    let id ← variableId self limit
    let equals ← mark "="
    let value ← self (.expression 0 true)
    return .node .resource (modifiers ++ [type.as .type] ++ id ++ [equals, value.as .value])
  else
    let value ← self (.expression 0 true)
    if value.kind matches .identifier | .fieldAccess then return .node .resource [value]
    else fail

def resources : Parser Piece := do
  let opening ← mark "("
  let first ← resource self limit
  let more ← manyWhile
    (fun ls => (front ls).isMark ";" && !(front ls.tail).isMark ")")
    (do return [← mark ";", ← resource self limit]) limit #[]
  let stop ← optionalIf (·.isMark ";") do return [← mark ";"]
  let closing ← mark ")"
  return .node .resourceSpecification ([opening, first] ++ more ++ stop ++ [closing])

def tryStatement : Parser Piece := do
  let word ← keyword "try"
  if ← atMark "(" then
    let resources ← resources self limit
    let body ← self .block
    let catches ← catchClauses self limit
    let finally_ ← finallyClause self
    return .node .tryWithResourcesStatement
      ([word, resources.as .resources, body.as .body] ++ catches ++ finally_)
  else
    let body ← self .block
    let catches ← catchClauses self limit
    let finally_ ← finallyClause self
    if catches.isEmpty && finally_.isEmpty then fail
    return .node .tryStatement ([word, body.as .body] ++ catches ++ finally_)

def typePattern : Parser Piece := do
  let type ← self .unannotatedType
  let name ← leafIf .identifier fun l => l.isWord && !l.isKeyword "when"
  return .node .typePattern [type, name]

/-- A record pattern that takes something apart: with nothing in the parentheses it is a call. -/
def labelRecordPattern : Parser Piece := do
  let pattern ← self .recordPattern
  if ← ahead fun ls => (front ls).isMarkIn ["->", ":"] || (front ls).isKeyword "when" then
    return pattern
  else fail

def labelPattern : Parser Piece := do
  if ← ahead fun ls => (front ls.tail).isMark "(" && (front ls.tail.tail).isMark ")" then fail
  match ← attempt (labelRecordPattern self) with
  | some pattern => return .node .pattern [pattern]
  | none => return .node .pattern [← typePattern self]

def switchLabel : Parser Piece := do
  if ← atKeyword "default" then return .node .switchLabel [← keyword "default"]
  else
    let word ← keyword "case"
    let values ←
      match ← attempt (labelPattern self) with
      | some pattern => pure [pattern]
      | none => commaSeparated limit (do return [← self (.expression 0 false)])
    let guard ← optionalIf (·.isKeyword "when") do
      let word ← keyword "when"
      return [.node .guard [word, ← self (.expression 0 false)]]
    return .node .switchLabel ([word] ++ values ++ guard)

def atLabelOrEnd (ls : List Lexeme) : Bool :=
  (front ls).isMark "\x7d" || (front ls).isKeyword "case" ||
    (front ls).isKeyword "default" && (front ls.tail).isMarkIn [":", "->"]

/-- A label with what it leads to. Each `case …:` makes a group of its own. -/
def switchEntry (arrow : Bool) : Parser Piece := do
  let label ← switchLabel self limit
  if arrow then
    let sign ← mark "->"
    let body ←
      if ← atMark "\x7b" then self .block
      else if ← atKeyword "throw" then valueStatement self .throwStatement "throw"
      else expressionStatement self
    return .node .switchRule [label, sign, body]
  else
    let colon ← mark ":"
    let statements ← manyWhile (fun ls => !atLabelOrEnd ls)
      (do return [← self (.statement false)]) limit #[]
    return .node .switchBlockStatementGroup ([label, colon] ++ statements)

def switchBody : Parser Piece := do
  let opening ← mark "\x7b"
  let usesArrows ← succeeds do
    let _ ← switchLabel self limit
    mark "->"
  let entries ← manyWhile (fun ls => !(front ls).isMark "\x7d")
    (do return [← switchEntry self limit usesArrows]) limit #[]
  let closing ← mark "\x7d"
  return .node .switchBlock ([opening] ++ entries ++ [closing])

/-- A switch that stands for itself; with a semicolon after it, it is an expression. -/
def switchStatement : Parser Piece := do
  let switch ← switchExpression self
  if ← atMark ";" then return .node .expressionStatement [switch, ← mark ";"]
  else return switch

/-- `yield` is a statement unless what follows can only go on with a name. -/
def atYield (ls : List Lexeme) : Bool :=
  (front ls).isKeyword "yield" &&
    let l := front ls.tail
    match l.kind with
    | .word => l.text ≠ "instanceof"
    | .literal _ | .quote => true
    | .punctuation => l.isMarkIn ["(", "!", "~", "+", "-", "@"] ||
        l.isMarkIn ["++", "--"] && startsOperand (front ls.tail.tail)
    | _ => false

def otherStatement (topLevel : Bool) : Parser Piece := do
  if ← ahead atModifier then
    let parts ← modifiers self limit
    if ← atKeyword "package" then packageRest limit (unwrapped parts)
    else if ← ahead atModule then moduleRest limit (unwrapped parts)
    else
      match ← typeDeclarationRest? self limit parts with
      | some declaration => return declaration
      | none =>
        if topLevel && (← atMark "<") then genericRest self limit false parts
        else if topLevel then methodOrVariables self limit .localVariableDeclaration parts
        else variablesRest self limit .localVariableDeclaration parts
  else
    match ← typeDeclarationRest? self limit [] with
    | some declaration => return declaration
    | none =>
      if ← ahead atModule then moduleRest limit []
      else if ← atMark "<" then
        if topLevel then genericRest self limit false [] else fail
      else if ← ahead fun ls => (front ls).isWord && (front ls.tail).isMark ":" then
        labeledStatement self
      else if topLevel && (← variableAhead self ["("]) then
        methodOrVariables self limit .localVariableDeclaration []
      else if ← variableAhead self ["=", ",", ";", "[", "@"] then
        variablesRest self limit .localVariableDeclaration []
      else expressionStatement self
where
  /-- Annotations in front of a package or module are no modifiers. -/
  unwrapped : List Piece → List Piece
    | [⟨leading, .node .modifiers _ _ _ (first :: rest)⟩] =>
      ⟨leading, first⟩ :: rest.map (⟨[], ·⟩)
    | parts => parts

def statement (topLevel : Bool) : Parser Piece := do
  let l ← peek
  if l.isMark ";" then mark ";"
  else if l.isMark "\x7b" then self .block
  else if !l.isWord then otherStatement self limit topLevel
  else
    match l.text with
    | "if" => ifStatement self
    | "while" => whileStatement self
    | "do" => doStatement self
    | "for" => forStatement self limit
    | "break" => jumpStatement .breakStatement "break"
    | "continue" => jumpStatement .continueStatement "continue"
    | "return" => returnStatement self
    | "throw" => valueStatement self .throwStatement "throw"
    | "assert" => assertStatement self
    | "try" => tryStatement self limit
    | "switch" => switchStatement self
    | "import" => importDeclaration limit
    | "package" => packageRest limit []
    | "synchronized" =>
      if ← ahead fun ls => (front ls.tail).isMark "(" then synchronizedStatement self
      else otherStatement self limit topLevel
    | "yield" =>
      if ← ahead atYield then valueStatement self .yieldStatement "yield"
      else otherStatement self limit topLevel
    | _ => otherStatement self limit topLevel

end ArchLint.Java.Parser
