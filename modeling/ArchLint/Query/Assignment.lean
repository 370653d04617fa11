import ArchLint.Query.Error

/-!
# Assignment targets

The identifier that an assignment writes to stands in one of several places:

* `int x = 10` and `int[] h = {1}`: in front of the assignment, under the definition;
* `@Bean(name = "dao")`: in front of the assignment, under the annotation member;
* `x = 10`, `result[0] = m` and `this.login = u`: on the left inside the assignment.
-/

namespace ArchLint.Syntax.Tree

/-- The node that an assignment writes to; the first shape that fits decides. -/
def targetIdent (t : Tree) (i : Nat) : Option Nat :=
  if t.kind i ≠ .assign then none
  else if (t.findChild i .expr).isSome then t.prevSibling i
  else if (t.parent i).any fun p => t.kind p = .annotationMemberValuePair then t.prevSibling i
  else
    match t.firstChild i with
    | none => none
    | some first =>
      match t.kind first with
      | .indexOp => (t.firstChild first).filter fun c => t.kind c = .ident
      | .dot =>
        match t.firstChild first with
        | some object => if t.kind object = .literalThis then t.findChild first .ident else none
        | none => none
      | .arrayInit | .lambda => t.prevSibling i
      | .ident => some first
      | _ => none

def assignmentTargetName (t : Tree) (i : Nat) : Except QueryError (Option String) := do
  Query.assignmentTargetName.check t i
  return (t.targetIdent i).bind t.text

end ArchLint.Syntax.Tree
