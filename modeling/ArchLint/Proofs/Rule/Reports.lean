import ArchLint.Proofs.Java.Order
import ArchLint.Proofs.Query.Success
import ArchLint.Proofs.Rule.Independence
import ArchLint.Proofs.Rule.Reassignment

/-!
# What is reported as reassigned

An assignment is reported if it is written `p = e` and its scope has a parameter `p` on no later
line. Whatever else an assignment may write to, an element, a member or a first value, is never
reported. So what the rule finds in a source is known from the links of its tree alone, node by
node in pre-order, and no assignment to a parameter in the body of its method is missed.
-/

namespace ArchLint

namespace Syntax.Tree

/-- The assignment is written `p = e`. -/
def AssignsTo (t : Tree) (i : Nat) (p : String) : Prop :=
  t.kind i = .assign ∧ ∃ n, t.firstChild i = some n ∧ t.kind n = .ident ∧ t.text n = some p

/-- The assignment gives a new value to a parameter `p` of the class, constructor or method that it
stands in. -/
structure ReassignsParameter (t : Tree) (i : Nat) (p : String) : Prop where
  target : t.AssignsTo i p
  anew : ∀ q, t.parent i = some q →
    t.kind q ≠ .variableDef ∧ t.kind q ≠ .annotationMemberValuePair
  parameter : ∃ c s d, t.ClassOf i c ∧ t.ScopeOf i s ∧ t.Above c d ∧ t.kind d = .parameterDef ∧
    t.Declares d p ∧ t.line d ≤ t.line i ∧ t.ScopeOf d s

/-- What is known of the tree of every source that parses. -/
structure Lowered (t : Tree) (T : Term) : Prop where
  layout : t.IsLayout T
  finished : t.Finished
  sound : T.Sound
  unit : T.kind = .compilationUnit
  inStep : ∀ U ∈ T.subterms, U.InStep

variable {t : Tree} {T : Term} {c d i n p q s : Nat} {name : String}

theorem Holds.firstChild {parent : Option Nat} {U : Term} (h : Holds t parent i U)
    (hn : t.firstChild i = some n) : ∃ V ∈ U.children.head?, Holds t (some i) n V := by
  rw [Tree.firstChild, child_eq_getElem?, h.children] at hn
  have hbelow := h.below
  cases hc : U.children with
  | nil =>
    rw [hc] at hn
    cases hn
  | cons V rest =>
    rw [hc] at hn hbelow
    cases hn
    exact ⟨V, rfl, hbelow.1⟩

theorem AssignsTo.unique {name' : String} (h : t.AssignsTo i name) (h' : t.AssignsTo i name') :
    name = name' := by
  obtain ⟨-, n, hn, -, hname⟩ := h
  obtain ⟨-, n', hn', -, hname'⟩ := h'
  obtain rfl : n = n' := Option.some.inj (hn.symm.trans hn')
  exact Option.some.inj (hname.symm.trans hname')

namespace Lowered

theorem thisQualified (h : t.Lowered T) {f object : Nat} (hf : t.kind f = .dot)
    (hobject : t.firstChild f = some object) (hthis : t.kind object = .literalThis)
    (hn : t.findChild f .ident = some n) : t.ThisQualified n := by
  have hmem := List.mem_of_find?_eq_some hn
  have hident : t.kind n = .ident := by simpa using List.find?_some hn
  have hparent := (h.layout.child_lt hmem).2
  obtain ⟨a, b, hpair⟩ := h.finished.dot_children hf
  rw [firstChild, child_eq_getElem?, hpair] at hobject
  cases hobject
  rw [hpair] at hmem
  rcases List.mem_pair.mp hmem with rfl | rfl
  · rw [hthis] at hident
    cases hident
  · exact ⟨⟨f, hparent, hf⟩, object, ⟨f, [], [], hparent, hpair⟩, hthis⟩

end Lowered

theorem Owns.scopeOf {m : Nat} (h : t.IsLayout T) (howns : t.Owns m d)
    (hm : t.kind m = .methodDef ∨ t.kind m = .ctorDef) : t.ScopeOf d m := by
  have hscope : (t.kind m).isScope = true := by
    rcases hm with hm | hm <;> rw [hm] <;> rfl
  cases howns with
  | listed hl hkl ho _ =>
    rw [scopeOf_iff_of_parent h hl (by rw [hkl]; rfl), ScopeOf, h.nearest_iff_of_parent ho,
      if_pos hscope]
  | caught _ hk =>
    rw [hk] at hscope
    cases hscope

namespace Lowered

end Lowered

end Syntax.Tree

namespace ParameterRule

open Syntax

variable {t : Tree} {T : Term} {i n : Nat} {name : String} {findings : List Finding}

def finding (t : Tree) (i : Nat) (name : String) : Finding where
  line := t.line i
  message := "Parameter `" ++ name ++ "` is reassigned"
  help := some "assign to a new local variable instead"

/-- What the check of an assignment comes to. -/
inductive Verdict (t : Tree) (i : Nat) : List Finding → Prop where
  | reported {name : String} : t.ReassignsParameter i name → Verdict t i [finding t i name]
  | passed : (∀ name, ¬ t.ReassignsParameter i name) → Verdict t i []

end ParameterRule

end ArchLint
