import ArchLint.Java.Parser.Expressions

/-!
# Declarations

Types and their members, packages, imports and modules.
-/

namespace ArchLint.Java.Parser

variable (self : Goal → Parser Piece) (limit : Nat)

def throwsClause : Parser (List Piece) :=
  optionalIf (·.isKeyword "throws") do
    let word ← keyword "throws"
    return [.node .throws (word :: (← commaSeparated limit (do return [← self .type])))]

def methodRest (parts : List Piece) : Parser Piece := do
  let name ← identifier
  let parameters ← self .formalParameters
  let dimensions ← nameDimensions self limit
  let throws ← throwsClause self limit
  let body ← if ← atMark ";" then mark ";" else pure ((← self .block).as .body)
  return .node .methodDeclaration
    (parts ++ [name.as .name, parameters.as .parameters] ++ dimensions ++ throws ++ [body])

/-- A call to another constructor, at the start of a constructor. -/
def constructorCall : Parser Piece := do
  let leading ←
    if ← ahead fun ls => (front ls).isMark "<" || (front ls).isKeywordIn ["this", "super"] &&
        (front ls.tail).isMark "(" then pure []
    else
      let first ←
        match (← peek).kind with
        | .word => wordPrimary self limit
        | .quote => stringLiteral self limit
        | .literal kind => pure (.leaf kind (← next))
        | _ => parenthesized self
      let object ← primaryRest self limit limit first
      pure [object.as .object, ← mark "."]
  let typeArguments ← optionalIf (·.isMark "<") do
    return [(← self .typeArguments).as .typeArguments]
  let constructor ←
    if leading.isEmpty && (← atKeyword "this") then keywordLeaf .this "this"
    else keywordLeaf .super "super"
  let arguments ← self .arguments
  let stop ← mark ";"
  return .node .explicitConstructorInvocation
    (leading ++ typeArguments ++ [constructor.as .constructor, arguments.as .arguments, stop])

def statementsInBraces (kind : Kind) (first : Parser (List Piece)) : Parser Piece := do
  let opening ← mark "\x7b"
  let leading ← first
  let statements ← manyWhile (fun ls => !(front ls).isMark "\x7d")
    (do return [← self (.statement false)]) limit #[]
  let closing ← mark "\x7d"
  return .node kind ([opening] ++ leading ++ statements ++ [closing])

def constructorBody : Parser Piece :=
  statementsInBraces self limit .constructorBody do
    return (← attempt (constructorCall self limit)).toList

def constructorRest (parts : List Piece) : Parser Piece := do
  let name ← identifier
  let parameters ← self .formalParameters
  let throws ← throwsClause self limit
  let body ← constructorBody self limit
  return .node .constructorDeclaration
    (parts ++ [name.as .name, parameters.as .parameters] ++ throws ++ [body.as .body])

def genericRest (allowConstructor : Bool) (parts : List Piece) : Parser Piece := do
  let typeParameters ← typeParameters self limit
  let parts := parts ++ [typeParameters.as .typeParameters]
  if allowConstructor &&
      (← ahead fun ls => (front ls).isWord && (front ls.tail).isMark "(") then
    constructorRest self limit parts
  else
    let annotations ← annotations self limit
    let type ← self .unannotatedType
    methodRest self limit (parts ++ annotations ++ [type.as .type])

def variablesRest (kind : Kind) (parts : List Piece) : Parser Piece := do
  let type ← self .unannotatedType
  let declarators ← variableDeclarators self limit
  let stop ← mark ";"
  return .node kind (parts ++ [type.as .type] ++ declarators ++ [stop])

def methodOrVariables (kind : Kind) (parts : List Piece) : Parser Piece := do
  let isMethod ← succeeds do
    let _ ← self .unannotatedType
    let _ ← identifier
    mark "("
  if isMethod then
    let type ← self .unannotatedType
    methodRest self limit (parts ++ [type.as .type])
  else variablesRest self limit kind parts

def implementsClause : Parser (List Piece) :=
  optionalIf (·.isKeyword "implements") do
    let word ← keyword "implements"
    return [(Piece.node .superInterfaces [word, ← typeList self limit]).as .interfaces]

def permitsClause : Parser (List Piece) :=
  optionalIf (·.isKeyword "permits") do
    let word ← keyword "permits"
    return [(Piece.node .permits [word, ← typeList self limit]).as .permits]

def typeParametersIfAny : Parser (List Piece) :=
  optionalIf (·.isMark "<") do return [(← typeParameters self limit).as .typeParameters]

def classRest (parts : List Piece) : Parser Piece := do
  let word ← keyword "class"
  let name ← identifier
  let typeParameters ← typeParametersIfAny self limit
  let superclass ← optionalIf (·.isKeyword "extends") do
    let word ← keyword "extends"
    return [(Piece.node .superclass [word, ← self .type]).as .superclass]
  let interfaces ← implementsClause self limit
  let permits ← permitsClause self limit
  let body ← self .classBody
  return .node .classDeclaration
    (parts ++ [word, name.as .name] ++ typeParameters ++ superclass ++ interfaces ++ permits ++
      [body.as .body])

def interfaceRest (parts : List Piece) : Parser Piece := do
  let word ← keyword "interface"
  let name ← identifier
  let typeParameters ← typeParametersIfAny self limit
  let extended ← optionalIf (·.isKeyword "extends") do
    let word ← keyword "extends"
    return [.node .extendsInterfaces [word, ← typeList self limit]]
  let permits ← permitsClause self limit
  let body ← self .interfaceBody
  return .node .interfaceDeclaration
    (parts ++ [word, name.as .name] ++ typeParameters ++ extended ++ permits ++ [body.as .body])

def enumRest (parts : List Piece) : Parser Piece := do
  let word ← keyword "enum"
  let name ← identifier
  let interfaces ← implementsClause self limit
  let body ← self .enumBody
  return .node .enumDeclaration (parts ++ [word, name.as .name] ++ interfaces ++ [body.as .body])

def recordRest (parts : List Piece) : Parser Piece := do
  let word ← keyword "record"
  let name ← identifier
  let typeParameters ← typeParametersIfAny self limit
  let parameters ← self .formalParameters
  let interfaces ← implementsClause self limit
  let body ← self .classBody
  return .node .recordDeclaration
    (parts ++ [word, name.as .name] ++ typeParameters ++ [parameters.as .parameters] ++
      interfaces ++ [body.as .body])

def annotationTypeRest (parts : List Piece) : Parser Piece := do
  let word ← mark "@interface"
  let name ← identifier
  let body ← self .annotationBody
  return .node .annotationTypeDeclaration (parts ++ [word, name.as .name, body.as .body])

def atRecord (ls : List Lexeme) : Bool :=
  (front ls).isKeyword "record" && (front ls.tail).isWord &&
    (front ls.tail.tail).isMarkIn ["(", "<"]

/-- What follows the modifiers of a type, if a type is declared here. -/
def typeDeclarationRest? (parts : List Piece) : Parser (Option Piece) := do
  let ls ← get
  if (front ls).isKeyword "class" then return some (← classRest self limit parts)
  else if (front ls).isKeyword "interface" then return some (← interfaceRest self limit parts)
  else if (front ls).isKeyword "enum" then return some (← enumRest self limit parts)
  else if (front ls).isMark "@interface" then
    return some (← annotationTypeRest self parts)
  else if atRecord ls then return some (← recordRest self limit parts)
  else return none

/-- Members up to a closing brace. -/
def members (member : Parser Piece) : Parser (List Piece) :=
  manyWhile (fun ls => !(front ls).isMark "\x7d") (do return [← member]) limit #[]

def body (kind : Kind) (member : Parser Piece) : Parser Piece := do
  let opening ← mark "\x7b"
  let members ← members limit member
  let closing ← mark "\x7d"
  return .node kind ([opening] ++ members ++ [closing])

def classMember : Parser Piece := do
  if ← atMark ";" then mark ";"
  else if ← atMark "\x7b" then self .block
  else if ← ahead fun ls => (front ls).isKeyword "static" && (front ls.tail).isMark "\x7b" then
    let word ← keyword "static"
    return .node .staticInitializer [word, ← self .block]
  else
    let parts ← modifiers self limit
    match ← typeDeclarationRest? self limit parts with
    | some declaration => return declaration
    | none =>
      if ← atMark "<" then genericRest self limit true parts
      else if ← ahead fun ls => (front ls).isWord && (front ls.tail).isMark "(" then
        constructorRest self limit parts
      else if ← ahead fun ls => (front ls).isWord && (front ls.tail).isMark "\x7b" then
        let name ← identifier
        let body ← self .block
        return .node .compactConstructorDeclaration (parts ++ [name.as .name, body.as .body])
      else methodOrVariables self limit .fieldDeclaration parts

def interfaceMember : Parser Piece := do
  if ← atMark ";" then mark ";"
  else
    let parts ← modifiers self limit
    match ← typeDeclarationRest? self limit parts with
    | some declaration => return declaration
    | none =>
      if ← atMark "<" then genericRest self limit false parts
      else methodOrVariables self limit .constantDeclaration parts

def annotationElementRest (parts : List Piece) : Parser Piece := do
  let type ← self .unannotatedType
  let name ← identifier
  let opening ← mark "("
  let closing ← mark ")"
  let dimensions ← nameDimensions self limit
  let value ← optionalIf (·.isKeyword "default") do
    return [← keyword "default", (← self .elementValue).as .value]
  let stop ← mark ";"
  return .node .annotationTypeElementDeclaration
    (parts ++ [type.as .type, name.as .name, opening, closing] ++ dimensions ++ value ++ [stop])

def annotationMember : Parser Piece := do
  if ← atMark ";" then mark ";"
  else
    let parts ← modifiers self limit
    match ← typeDeclarationRest? self limit parts with
    | some declaration => return declaration
    | none =>
      let isElement ← succeeds do
        let _ ← self .unannotatedType
        let _ ← identifier
        mark "("
      if isElement then annotationElementRest self limit parts
      else variablesRest self limit .constantDeclaration parts

def enumConstant : Parser Piece := do
  let parts ← modifiers self limit
  let name ← identifier
  let arguments ← optionalIf (·.isMark "(") do return [(← self .arguments).as .arguments]
  let body ← optionalIf (·.isMark "\x7b") do return [(← self .classBody).as .body]
  return .node .enumConstant (parts ++ [name.as .name] ++ arguments ++ body)

def enumBody : Parser Piece := do
  let opening ← mark "\x7b"
  let constants ← manyWhile (fun ls => !(front ls).isMarkIn ["\x7d", ",", ";"])
    (do
      let constant ← enumConstant self limit
      if ← ahead fun ls => (front ls).isMark "," && !(front ls.tail).isMarkIn ["\x7d", ";"] then
        let comma ← mark ","
        if (← peek).isMark "," then fail
        return [constant, comma]
      else if (← peek).isMarkIn ["\x7d", ",", ";"] then return [constant]
      else fail)
    limit #[]
  let comma ← optionalIf (·.isMark ",") do return [← mark ","]
  let declarations ← optionalIf (·.isMark ";") do
    let stop ← mark ";"
    return [.node .enumBodyDeclarations (stop :: (← members limit (classMember self limit)))]
  let closing ← mark "\x7d"
  return .node .enumBody ([opening] ++ constants ++ comma ++ declarations ++ [closing])

def packageRest (parts : List Piece) : Parser Piece := do
  let word ← keyword "package"
  let name ← name limit
  let stop ← mark ";"
  return .node .packageDeclaration (parts ++ [word, name, stop])

def importDeclaration : Parser Piece := do
  let word ← keyword "import"
  let isStatic ← ahead fun ls => (front ls).isKeyword "static" && (front ls.tail).isWord
  let static_ ← if isStatic then pure [← keyword "static"] else pure []
  let name ← name limit
  let star ← optionalIf (·.isMark ".") do
    return [← mark ".", ← leafIf .asterisk (·.isMark "*")]
  let stop ← mark ";"
  return .node .importDeclaration ([word] ++ static_ ++ [name] ++ star ++ [stop])

def namesAs (f : Field) : Parser (List Piece) :=
  commaSeparated limit (do return [(← name limit).as f])

def requiresDirective : Parser Piece := do
  let word ← keyword "requires"
  let modifiers ← manyWhile
    (fun ls => (front ls).isKeywordIn ["transitive", "static"] && (front ls.tail).isWord)
    (do return [(Piece.node .requiresModifier [.leaf .token (← next)]).as .modifiers]) limit #[]
  let name ← name limit
  let stop ← mark ";"
  return .node .requiresModuleDirective ([word] ++ modifiers ++ [name.as .module, stop])

/-- `exports` or `opens` a package, perhaps to some modules only. -/
def openingDirective (kind : Kind) (text : String) : Parser Piece := do
  let word ← keyword text
  let name ← name limit
  let targets ← optionalIf (·.isKeyword "to") do
    return (← keyword "to") :: (← namesAs limit .modules)
  let stop ← mark ";"
  return .node kind ([word, name.as .package] ++ targets ++ [stop])

def usesDirective : Parser Piece := do
  let word ← keyword "uses"
  let name ← name limit
  let stop ← mark ";"
  return .node .usesModuleDirective [word, name.as .type, stop]

def providesDirective : Parser Piece := do
  let word ← keyword "provides"
  let provided ← name limit
  let with_ ← keyword "with"
  let first ← name limit
  let more ← manyWhile (fun ls => (front ls).isMark ",")
    (do return [← mark ",", (← name limit).as .provider]) limit #[]
  let stop ← mark ";"
  return .node .providesModuleDirective
    ([word, provided.as .provided, with_, first] ++ more ++ [stop])

def moduleDirective : Parser Piece := do
  let l ← peek
  if l.isKeyword "requires" then requiresDirective limit
  else if l.isKeyword "exports" then openingDirective limit .exportsModuleDirective "exports"
  else if l.isKeyword "opens" then openingDirective limit .opensModuleDirective "opens"
  else if l.isKeyword "uses" then usesDirective limit
  else providesDirective limit

def atModule (ls : List Lexeme) : Bool :=
  let rest := if (front ls).isKeyword "open" then ls.tail else ls
  (front rest).isKeyword "module" && (front rest.tail).isWord &&
    !(front rest.tail).isKeyword "instanceof"

def moduleRest (parts : List Piece) : Parser Piece := do
  let open_ ← optionalIf (·.isKeyword "open") do return [← keyword "open"]
  let word ← keyword "module"
  let name ← name limit
  let body ← body limit .moduleBody (moduleDirective limit)
  return .node .moduleDeclaration
    (parts ++ open_ ++ [word, name.as .name, body.as .body])

end ArchLint.Java.Parser
