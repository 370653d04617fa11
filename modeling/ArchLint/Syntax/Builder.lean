import ArchLint.Syntax.Tree
import ArchLint.Text.Segment

/-!
# Building trees

A tree is written down as a sequence of steps that open nodes, add leaves and close nodes. The
builder accepts any sequence; `finish` says whether it described one tree of legal shape.
-/

namespace ArchLint.Syntax

inductive Step where
  | start (kind : Kind) (text : Option String) (line : Nat)
  | finish
  | leaf (kind : Kind) (text : Option String) (line : Nat)
  | qualified (name : String) (line : Nat)
  /-- Opens a definition and adds its modifiers, type and name. -/
  | declaration (kind : Kind) (type : String) (name : String) (line : Nat)
  deriving DecidableEq, Repr

structure Builder where
  nodes : Array Node := #[]
  opened : List Nat := []
  roots : Nat := 0
  unbalanced : Bool := false
  deriving DecidableEq, Repr, Inhabited

inductive BuildError where
  | empty
  | unclosed (count : Nat)
  | unbalanced
  | multipleRoots (count : Nat)
  | malformed (kind : Kind) (line : Nat) (reason : String)
  deriving DecidableEq, Repr

def BuildError.message : BuildError → String
  | .empty => "tree has no nodes"
  | .unclosed n => toString n ++ " node(s) left open"
  | .unbalanced => "finish_node called without a matching start_node"
  | .multipleRoots n => "tree has " ++ toString n ++ " root nodes, expected one"
  | .malformed k line reason =>
    "malformed " ++ k.tag ++ " at line " ++ toString line ++ ": " ++ reason

namespace Builder

def empty : Builder := {}

def push (b : Builder) (kind : Kind) (text : Option String) (line : Nat) : Builder :=
  match b with
  | ⟨nodes, [], roots, unbalanced⟩ =>
    ⟨nodes.push ⟨kind, text, line, none, #[]⟩, [], roots + 1, unbalanced⟩
  | ⟨nodes, p :: opened, roots, unbalanced⟩ =>
    let id := nodes.size
    let nodes := nodes.modify p fun n => { n with children := n.children.push id }
    ⟨nodes.push ⟨kind, text, line, some p, #[]⟩, p :: opened, roots, unbalanced⟩

def start (b : Builder) (kind : Kind) (text : Option String) (line : Nat) : Builder :=
  let b := b.push kind text line
  { b with opened := (b.nodes.size - 1) :: b.opened }

def finishNode (b : Builder) : Builder :=
  match b.opened with
  | [] => { b with unbalanced := true }
  | _ :: opened => { b with opened }

/-- A segment of a dotted name: a star stands for all members. -/
def segment (b : Builder) (name : List Char) (line : Nat) : Builder :=
  if name = ['*'] then b.push .star (some "*") line
  else b.push .ident (some (String.ofList name)) line

def startDots (b : Builder) (line : Nat) : Nat → Builder
  | 0 => b
  | n + 1 => (b.start .dot none line).startDots line n

/-- `a.b.c` becomes `DOT(DOT(a, b), c)`. -/
def qualified (b : Builder) (name : String) (line : Nat) : Builder :=
  match Text.segments '.' name.toList with
  | [] => b
  | first :: rest =>
    rest.foldl (fun b s => (b.segment s line).finishNode)
      ((b.startDots line rest.length).segment first line)

def declaration (b : Builder) (kind : Kind) (type name : String) (line : Nat) : Builder :=
  let b := (b.start kind none line).push .modifiers none line
  let b := ((b.start .type none line).push .ident (some type) line).finishNode
  b.push .ident (some name) line

def step (b : Builder) : Step → Builder
  | .start kind text line => b.start kind text line
  | .finish => b.finishNode
  | .leaf kind text line => b.push kind text line
  | .qualified name line => b.qualified name line
  | .declaration kind type name line => b.declaration kind type name line

def run (steps : List Step) : Builder :=
  steps.foldl step empty

end Builder

namespace Tree

def hasNamedChild (t : Tree) (i : Nat) (kinds : List Kind) : Bool :=
  (t.children i).any fun c => kinds.contains (t.kind c) && (t.kind c = .dot || (t.text c).isSome)

/-- What is wrong with the shape of node `i`. -/
def shapeFault (t : Tree) (i : Nat) : Option String :=
  match t.kind i with
  | .variableDef | .parameterDef =>
    if ((t.children i).take 3).map t.kind = [.modifiers, .type, .ident] ∧
        ((t.child i 2).bind t.text).isSome then none
    else some "expected MODIFIERS, TYPE and a named IDENT as the first three children"
  | .classDef | .interfaceDef | .enumDef =>
    if t.hasNamedChild i [.ident] then none else some "type declaration has no name"
  | .packageDef | .importDef | .staticImport =>
    if t.hasNamedChild i [.ident, .dot] then none else some "declaration has no qualified name"
  | .dot =>
    if (t.children i).length = 2 then none
    else some "member access must have exactly two parts"
  | .ident => if (t.text i).isSome then none else some "identifier has no text"
  | _ => none

def firstFault (t : Tree) : Option BuildError :=
  (List.range t.size).findSome? fun i =>
    (t.shapeFault i).map fun reason => .malformed (t.kind i) (t.line i) reason

end Tree

namespace Builder

def finish (b : Builder) : Except BuildError Tree :=
  if b.nodes.isEmpty then .error .empty
  else if b.unbalanced then .error .unbalanced
  else if b.opened ≠ [] then .error (.unclosed b.opened.length)
  else if b.roots > 1 then .error (.multipleRoots b.roots)
  else
    let t : Tree := ⟨b.nodes⟩
    match t.firstFault with
    | some e => .error e
    | none => .ok t

end Builder

def Tree.ofSteps (steps : List Step) : Except BuildError Tree :=
  (Builder.run steps).finish

end ArchLint.Syntax
