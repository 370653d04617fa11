import ArchLint.Java.Grammar
import ArchLint.Java.Parser.Statements

/-!
# Parsing a file

The parsers of all constructs tied together. Every construct takes at least one lexeme before it
asks for one of its own kind, so the number of lexemes bounds how deep they go.
-/

namespace ArchLint.Java

namespace Parser

def construct (self : Goal → Parser Piece) (limit : Nat) : Goal → Parser Piece
  | .expression level arrow => expression self limit level arrow
  | .unary arrow => unary self limit arrow
  | .operand arrow => operand self limit arrow
  | .simpleType => simpleType self limit
  | .unannotatedType => unannotatedType self limit
  | .type => type self limit
  | .typeArguments => typeArguments self limit
  | .annotated => annotated self limit
  | .elementValue => elementValue self limit
  | .arguments => arguments self limit
  | .arrayInitializer => arrayInitializer self limit
  | .recordPattern => recordPattern self limit
  | .formalParameters => formalParameters self limit
  | .statement topLevel => statement self limit topLevel
  | .block => statementsInBraces self limit .block (pure [])
  | .classBody => body limit .classBody (classMember self limit)
  | .interfaceBody => body limit .interfaceBody (interfaceMember self limit)
  | .annotationBody => body limit .annotationTypeBody (annotationMember self limit)
  | .enumBody => enumBody self limit
  | .switchBody => switchBody self limit

def nested (limit : Nat) : Nat → Goal → Parser Piece
  | 0, _ => fail
  | depth + 1, goal => construct (nested limit depth) limit goal

/-- The constructs that can be entered between two lexemes. -/
def constructsPerLexeme : Nat := 16

def file (limit : Nat) : Parser Cst := do
  let parts ← manyWhile (fun ls => (front ls).kind ≠ .endOfFile)
    (do return [← nested limit (constructsPerLexeme * limit) (.statement true)]) limit #[]
  let trailing := (← peek).comments
  return .node .program none 1 "" (parts.flatMap (fun p => p.leading ++ [p.tree]) ++ trailing)

def faulty (line : Nat) : Cst :=
  .node .program none 1 "" [.node .error none line "" []]

/-- The concrete syntax tree of a file. If the source departs from the grammar, the tree consists
of a fault: at the lexeme that cannot be read, or where something was read that has no place there,
such as modifiers in front of a package. -/
def parse (source : String) : Cst :=
  let lexemes := lexemes source
  match file (lexemes.length + 4) lexemes with
  | .error failure => faulty failure.line
  | .ok (tree, _) =>
    match tree.misfit? with
    | some line => faulty line
    | none => tree

end Parser

end ArchLint.Java
