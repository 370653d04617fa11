import ArchLint.Query.Name
import ArchLint.Rule

/-!
# Forbidden dependency

Files of one package tree must not import from another. The rule remembers whether the package
declared last in the file lies in the restricted tree.
-/

namespace ArchLint

open Syntax

structure DependencyRule where
  source : String := "com.sun.j2ee.blueprints.processmanager"
  target : String := "com.sun.j2ee.blueprints.opc"
  message : String := "Classes in processmanager should not call classes in opc."
  severity : Severity := .error
  deriving DecidableEq, Repr

namespace DependencyRule

def name : String := "forbidden-dependency"

def code : String := "AC002"

def visit (r : DependencyRule) (restricted : Bool) (t : Tree) (i : Nat) : Visit Bool :=
  match t.qualifiedName i with
  | .error e => { state := restricted, failure := some e }
  | .ok qualified =>
    if t.kind i = .packageDef then { state := packageMatches qualified r.source }
    else if restricted && packageMatches qualified r.target then
      { state := restricted, findings := [{ line := t.line i, message := r.message }] }
    else { state := restricted }

def toRule (r : DependencyRule) : Rule where
  State := Bool
  state := false
  name := name
  code := code
  description := "Forbids imports from one package tree into another"
  severity := r.severity
  interests := [.packageDef, .importDef, .staticImport]
  beginFile _ _ := false
  visit := r.visit

end DependencyRule

end ArchLint
