import ArchLint.Syntax.Tree

/-!
# Query errors

A query answers a question about a node and fails on nodes that the question makes no sense for.
That something is absent is an answer, not a failure.
-/

namespace ArchLint

open Syntax

inductive Query where
  | qualifiedName
  | superClassName
  | declaredName
  | assignmentTargetName
  | resolveDeclaration
  deriving DecidableEq, Repr

namespace Query

def name : Query → String
  | .qualifiedName => "qualified_name"
  | .superClassName => "super_class_name"
  | .declaredName => "declared_name"
  | .assignmentTargetName => "assignment_target_name"
  | .resolveDeclaration => "resolve_declaration"

def accepts : Query → List Kind
  | .qualifiedName => [.packageDef, .importDef, .staticImport]
  | .superClassName => [.classDef]
  | .declaredName => [.variableDef, .parameterDef]
  | .assignmentTargetName => [.assign]
  | .resolveDeclaration => [.ident]

def expected : Query → String
  | .qualifiedName => "PACKAGE_DEF or IMPORT"
  | .superClassName => "CLASS_DEF"
  | .declaredName => "VARIABLE_DEF or PARAMETER_DEF"
  | .assignmentTargetName => "ASSIGN"
  | .resolveDeclaration => "IDENT"

end Query

inductive QueryError where
  | unexpectedKind (query : Query) (found : Kind) (line : Nat)
  | missingChild (query : Query) (kind : Kind) (line : Nat) (missing : String)
  deriving DecidableEq, Repr

def QueryError.message : QueryError → String
  | .unexpectedKind q found line =>
    q.name ++ " expects " ++ q.expected ++ ", found " ++ found.tag ++ " at line " ++ toString line
  | .missingChild q kind line missing =>
    q.name ++ ": " ++ kind.tag ++ " at line " ++ toString line ++ " is missing its " ++ missing

/-- Fails unless `q` is about nodes like `i`. -/
def Query.check (q : Query) (t : Tree) (i : Nat) : Except QueryError Unit :=
  if q.accepts.contains (t.kind i) then .ok ()
  else .error (.unexpectedKind q (t.kind i) (t.line i))

def Query.require {α : Type} (q : Query) (t : Tree) (i : Nat) (missing : String) :
    Option α → Except QueryError α
  | some a => .ok a
  | none => .error (.missingChild q (t.kind i) (t.line i) missing)

end ArchLint
