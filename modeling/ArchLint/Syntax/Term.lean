import ArchLint.Syntax.Builder

/-!
# Terms

An ordered tree of labelled nodes, written out: the same information as an arena, without
numbers. `Term.steps` is the sequence of steps that builds it.
-/

namespace ArchLint.Syntax

inductive Term where
  | node (kind : Kind) (text : Option String) (line : Nat) (children : List Term)
  deriving Repr, Inhabited

namespace Term

def leaf (kind : Kind) (line : Nat) : Term :=
  .node kind none line []

def token (kind : Kind) (text : String) (line : Nat) : Term :=
  .node kind (some text) line []

def segment (name : List Char) (line : Nat) : Term :=
  if name = ['*'] then token .star "*" line else token .ident (String.ofList name) line

def qualified (name : String) (line : Nat) : Term :=
  match Text.segments '.' name.toList with
  | [] => token .ident "" line
  | first :: rest =>
    rest.foldl (fun inner s => .node .dot none line [inner, segment s line]) (segment first line)

mutual

/-- The steps that build a term, in front of `rest`. -/
def stepsOnto : Term → List Step → List Step
  | .node kind text line children, rest =>
    .start kind text line :: stepsOntoAll children (.finish :: rest)

def stepsOntoAll : List Term → List Step → List Step
  | [], rest => rest
  | t :: ts, rest => stepsOnto t (stepsOntoAll ts rest)

end

def steps (t : Term) : List Step :=
  t.stepsOnto []

end Term

def Tree.ofTerm (t : Term) : Except BuildError Tree :=
  Tree.ofSteps t.steps

end ArchLint.Syntax
