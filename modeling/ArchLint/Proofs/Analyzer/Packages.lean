import ArchLint.Proofs.Analyzer.History
import ArchLint.Proofs.Rule.Dependency
import ArchLint.Proofs.Syntax.Traversal

/-!
# Packages that are left out

One package lies in another if its name begins with the same segments. That orders the packages,
also those whose names have empty segments, and the order decides which files an analyzer passes
over: those whose first package lies in one that the configuration leaves out.
-/

namespace ArchLint

open Syntax

namespace LiesIn

variable {p q r : String}

theorem refl (p : String) : LiesIn p p :=
  List.prefix_rfl

theorem trans (h : LiesIn p q) (h' : LiesIn q r) : LiesIn p r :=
  List.IsPrefix.trans h h'

theorem antisymm (h : LiesIn p q) (h' : LiesIn q p) : p = q := by
  have hlength : (Text.segments '.' p.toList).length = (Text.segments '.' q.toList).length :=
    Nat.le_antisymm h.length_le h'.length_le
  apply String.toList_inj.mp
  apply Text.segments_injective
  exact h.eq_of_length hlength

end LiesIn

namespace Syntax.Tree

variable {t : Tree} {p : Nat}

/-- The first package of a tree. Numbers are given in pre-order. -/
structure FirstPackage (t : Tree) (p : Nat) : Prop where
  kind : t.kind p = .packageDef
  first : ∀ q < p, t.kind q ≠ .packageDef

/-- The search for a package finds the first one. -/
theorem Finished.findFirst_packageDef (ht : t.Finished) :
    t.findFirst .packageDef root = some p ↔ t.FirstPackage p := by
  obtain ⟨T, -, hT⟩ := ht.exists_isLayout
  rw [hT.holds.findFirst_eq, ← hT.size, root, ← List.range_eq_range', List.find?_range_eq_some]
  constructor
  · rintro ⟨hkind, -, hfirst⟩
    refine ⟨of_decide_eq_true hkind, ?_⟩
    intro q hq
    simpa using hfirst q hq
  · rintro ⟨hkind, hfirst⟩
    have hsize : p < t.size := lt_size_of_kind (by simp [hkind])
    refine ⟨decide_eq_true hkind, List.mem_range.mpr hsize, ?_⟩
    intro q hq
    simpa using hfirst q hq

end Syntax.Tree

namespace Analyzer

variable {a : Analyzer} {t : Tree} {f : SourceFile} {p : Nat}

/-- Nothing is reported or counted for the file, and no rule is shown anything of it. -/
def PassesOver (a : Analyzer) (f : SourceFile) (t : Tree) : Prop :=
  a.checkTree f t = ({}, a)

theorem passesOver_iff : a.PassesOver f t ↔ a.ignores t = true := by
  constructor
  · intro h
    by_contra hignores
    have hcounted := filesChecked_checkTree a f t
    rw [if_neg hignores, h] at hcounted
    cases hcounted
  · intro h
    rw [PassesOver, checkTree, if_pos h]

theorem ignores_of_package {name : String} (ht : t.Finished) (hp : t.FirstPackage p)
    (hname : t.qualifiedName p = .ok name) : a.ignores t = true ↔
      ∃ base ∈ a.config.analyzer.ignorePackages, LiesIn base name := by
  rw [ignores, ht.findFirst_packageDef.mpr hp]
  simp only [hname, List.any_eq_true, packageMatches_iff]

theorem not_ignores (ht : t.Finished) (hnone : ∀ i, ¬ t.FirstPackage i) :
    ¬ a.ignores t = true := by
  cases hfind : t.findFirst .packageDef Tree.root with
  | none => simp [ignores, hfind]
  | some p => exact absurd (ht.findFirst_packageDef.mp hfind) (hnone p)

/-- A package matches another exactly if the segments of its name begin with all segments of the
other, where the segments are the parts of a name between its dots. This is a partial order. A file
with a package is passed over exactly if the first one lies in one of those that the configuration
leaves out; a file without a package is not passed over. -/
theorem packages_nest_by_segments (a : Analyzer) (f : SourceFile) (ht : t.Finished) :
    (∀ name : String, Text.Cut '.' name.toList (Text.segments '.' name.toList)) ∧
    (∀ name base : String, packageMatches name base = true ↔
      Text.segments '.' base.toList <+: Text.segments '.' name.toList) ∧
    (∀ p, packageMatches p p = true) ∧
    (∀ p q r, packageMatches p q = true → packageMatches q r = true →
      packageMatches p r = true) ∧
    (∀ p q, packageMatches p q = true → packageMatches q p = true → p = q) ∧
    (∀ i, t.FirstPackage i → ∃ name, t.qualifiedName i = .ok name ∧
      (a.PassesOver f t ↔ ∃ base ∈ a.config.analyzer.ignorePackages,
        Text.segments '.' base.toList <+: Text.segments '.' name.toList)) ∧
    ((∀ i, ¬ t.FirstPackage i) → ¬ a.PassesOver f t) := by
  refine ⟨fun name => Text.cut_segments '.' name.toList, fun name base => packageMatches_iff,
    ?_, ?_, ?_, ?_, ?_⟩
  · intro p
    exact packageMatches_iff.mpr (LiesIn.refl p)
  · intro p q r hpq hqr
    have hrq : LiesIn r q := packageMatches_iff.mp hqr
    exact packageMatches_iff.mpr (hrq.trans (packageMatches_iff.mp hpq))
  · intro p q hpq hqp
    have hp : LiesIn p q := packageMatches_iff.mp hqp
    exact hp.antisymm (packageMatches_iff.mp hpq)
  · intro i hi
    have haccepts : t.kind i ∈ Query.qualifiedName.accepts := by
      rw [hi.kind]
      decide
    obtain ⟨name, hname⟩ := ht.exists_qualifiedName haccepts
    exact ⟨name, hname, passesOver_iff.trans (ignores_of_package ht hi hname)⟩
  · intro hnone hpasses
    exact not_ignores ht hnone (passesOver_iff.mp hpasses)

def leavingOut (packages : List String) : Analyzer where
  root := ⟨"/"⟩
  rules := []
  excludes := []
  config := { analyzer := { ignorePackages := packages } }
  parser := none
  failOnParseError := false

theorem packages_nest_by_segments_unnamed :
    ∃ t : Tree, t.Finished ∧ t.FirstPackage 1 ∧ t.qualifiedName 1 = .ok ".a.bc" ∧
      ∀ f : SourceFile, (leavingOut ["a", ""]).PassesOver f t ∧
        ¬ (leavingOut ["a", ".a.b", ".a.bc."]).PassesOver f t := by
  have h : ∃ t, Tree.ofSteps [.start .compilationUnit none 1, .start .packageDef none 1,
      .qualified ".a.bc" 1, .finish, .start .packageDef none 2, .qualified "x" 2, .finish,
      .finish] = .ok t ∧ t.kind 0 = .compilationUnit ∧ t.kind 1 = .packageDef ∧
      t.qualifiedName 1 = .ok ".a.bc" := ⟨_, rfl, rfl, rfl, by decide +kernel⟩
  obtain ⟨t, ht, hroot, hkind, hname⟩ := h
  have hfin : t.Finished := ⟨_, ht⟩
  have hfirst : t.FirstPackage 1 := by
    refine ⟨hkind, ?_⟩
    intro q hq
    obtain rfl : q = 0 := by omega
    rw [hroot]
    decide
  have hdecided : ∀ packages f, (leavingOut packages).PassesOver f t ↔
      ∃ base ∈ packages,
        Text.segments '.' base.toList <+: Text.segments '.' ".a.bc".toList := by
    intro packages f
    obtain ⟨-, -, -, -, -, hpasses, -⟩ := packages_nest_by_segments (leavingOut packages) f hfin
    obtain ⟨name, hname', hiff⟩ := hpasses 1 hfirst
    obtain rfl : ".a.bc" = name := Except.ok.inj (hname.symm.trans hname')
    exact hiff
  refine ⟨t, hfin, hfirst, hname, fun f => ⟨?_, ?_⟩⟩
  · rw [hdecided]
    decide
  · rw [hdecided]
    decide

end Analyzer

end ArchLint
