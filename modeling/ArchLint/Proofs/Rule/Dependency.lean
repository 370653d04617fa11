import ArchLint.Proofs.Query.Success
import ArchLint.Proofs.Rule.Exact
import ArchLint.Proofs.Text.Cutting

/-!
# Which imports are forbidden

The rule on forbidden dependencies carries along whether the package declared last is restricted.
So what becomes of an import is known from the tree alone: it is reported if the last package in
front of it lies in the one part and the import names something in the other. A name lies in a
part if it begins with the same segments.
-/

namespace ArchLint

open Syntax

/-- The name is `base`, or lies beneath it. -/
def LiesIn (base name : String) : Prop :=
  Text.segments '.' base.toList <+: Text.segments '.' name.toList

instance (base name : String) : Decidable (LiesIn base name) :=
  inferInstanceAs (Decidable (_ <+: _))

theorem packageMatches_iff {name base : String} :
    packageMatches name base = true ↔ LiesIn base name := by
  rw [LiesIn, Text.segments_prefix_iff, packageMatches, Bool.or_eq_true, decide_eq_true_iff,
    String.toList_inj]
  refine or_congr_right ?_
  constructor
  · intro h
    split at h
    · next more hmore =>
      exact ⟨more, (List.isPrefixOf?_eq_some_iff_append_eq.mp hmore).symm⟩
    · cases h
  · rintro ⟨more, hmore⟩
    rw [List.isPrefixOf?_eq_some_iff_append_eq.mpr hmore.symm]
    rfl

namespace Syntax.Tree

/-- The last package in front of number `n`. Numbers are given in pre-order. -/
structure LastPackage (t : Tree) (n p : Nat) : Prop where
  kind : t.kind p = .packageDef
  before : p < n
  last : ∀ q, t.kind q = .packageDef → q < n → q ≤ p

variable {t : Tree} {n p : Nat}

theorem lastPackage_succ_of_package (h : t.kind n = .packageDef) :
    t.LastPackage (n + 1) p ↔ p = n := by
  constructor
  · intro hp
    have hle := hp.last n h (Nat.lt_succ_self n)
    have hlt := hp.before
    omega
  · rintro rfl
    exact ⟨h, Nat.lt_succ_self p, fun q _ hq => Nat.le_of_lt_succ hq⟩

theorem lastPackage_succ (h : t.kind n ≠ .packageDef) :
    t.LastPackage (n + 1) p ↔ t.LastPackage n p := by
  constructor
  · rintro ⟨hkind, hbefore, hlast⟩
    have hne : p ≠ n := by
      rintro rfl
      exact h hkind
    exact ⟨hkind, by omega, fun q hq hlt => hlast q hq (Nat.lt_succ_of_lt hlt)⟩
  · rintro ⟨hkind, hbefore, hlast⟩
    refine ⟨hkind, Nat.lt_succ_of_lt hbefore, fun q hq hlt => ?_⟩
    have hne : q ≠ n := by
      rintro rfl
      exact h hq
    exact hlast q hq (by omega)

end Syntax.Tree

namespace DependencyRule

variable {r : DependencyRule} {t : Tree} {n i : Nat} {restricted : Bool}

def Restricts (r : DependencyRule) (t : Tree) (n : Nat) : Prop :=
  ∃ p name, t.LastPackage n p ∧ t.qualifiedName p = .ok name ∧ LiesIn r.source name

structure Forbids (r : DependencyRule) (t : Tree) (i : Nat) : Prop where
  kind : t.kind i = .importDef ∨ t.kind i = .staticImport
  package : r.Restricts t i
  target : ∃ name, t.qualifiedName i = .ok name ∧ LiesIn r.target name

def finding (r : DependencyRule) (t : Tree) (i : Nat) : Finding where
  line := t.line i
  message := r.message

theorem restricts_succ_of_package {name : String} (h : t.kind n = .packageDef)
    (hname : t.qualifiedName n = .ok name) :
    r.Restricts t (n + 1) ↔ LiesIn r.source name := by
  constructor
  · rintro ⟨p, name', hp, hname', hlies⟩
    obtain rfl := (Tree.lastPackage_succ_of_package h).mp hp
    rw [hname] at hname'
    cases hname'
    exact hlies
  · intro hlies
    exact ⟨n, name, (Tree.lastPackage_succ_of_package h).mpr rfl, hname, hlies⟩

theorem restricts_succ (h : t.kind n ≠ .packageDef) :
    r.Restricts t (n + 1) ↔ r.Restricts t n := by
  simp only [Restricts, Tree.lastPackage_succ h]

theorem visit_package {name : String} (h : t.kind n = .packageDef)
    (hname : t.qualifiedName n = .ok name) :
    r.visit restricted t n = { state := packageMatches name r.source } := by
  rw [visit, hname]
  exact if_pos h

theorem visit_import {name : String} (h : t.kind n ≠ .packageDef)
    (hname : t.qualifiedName n = .ok name) :
    r.visit restricted t n =
      if restricted = true ∧ LiesIn r.target name then
        { state := restricted, findings := [r.finding t n] }
      else { state := restricted } := by
  rw [visit, hname]
  simp only [if_neg h, Bool.and_eq_true, packageMatches_iff]
  rfl

theorem mem_interests {k : Kind} :
    k ∈ r.toRule.interests ↔ k = .packageDef ∨ k = .importDef ∨ k = .staticImport := by
  simp [toRule]

theorem keeps (ht : t.Finished) (r : DependencyRule) :
    r.toRule.Keeps t (r.finding t) (r.Forbids t)
      fun n restricted => restricted = true ↔ r.Restricts t n where
  visited := by
    intro n restricted hinterest hflag
    obtain ⟨name, hname⟩ := ht.exists_qualifiedName hinterest
    by_cases hpackage : t.kind n = .packageDef
    · have hvisit : r.toRule.visit restricted t n = _ := visit_package hpackage hname
      rw [hvisit]
      refine ⟨.passed _ fun h => ?_, ?_⟩
      · rcases h.kind with hk | hk <;> rw [hpackage] at hk <;> cases hk
      · rw [restricts_succ_of_package hpackage hname]
        exact packageMatches_iff
    · have hvisit : r.toRule.visit restricted t n = _ := visit_import hpackage hname
      have himport := (mem_interests.mp hinterest).resolve_left hpackage
      rw [hvisit, restricts_succ hpackage]
      split
      · next h =>
        exact ⟨.reported _ ⟨himport, hflag.mp h.1, name, hname, h.2⟩, hflag⟩
      · next h =>
        refine ⟨.passed _ fun hforbids => h ⟨hflag.mpr hforbids.package, ?_⟩, hflag⟩
        obtain ⟨name', hname', hlies⟩ := hforbids.target
        rw [hname] at hname'
        cases hname'
        exact hlies
  skipped := by
    intro n restricted hinterest hflag
    rw [mem_interests, not_or] at hinterest
    rw [restricts_succ hinterest.1]
    exact ⟨fun h => hinterest.2 h.kind, hflag⟩

/-- Whatever the rule has seen before, in a finished tree it reports the imports in the restricted
part that name something in the forbidden one, and no other node: each once, in pre-order, on its
line and with the message of the rule. No visit fails. Pre-order is the order of the numbers. -/
theorem forbidden_imports_exact (ht : t.Finished) (r : DependencyRule) (s : r.toRule.State)
    (f : SourceFile) :
    Tree.root :: t.descendants Tree.root = List.range t.size ∧
      ∃ reports, { r.toRule with state := s }.ReportsExactly t f (r.finding t) (r.Forbids t)
        reports := by
  refine ⟨ht.preorder, (keeps ht r).reportsExactly ht ?_ ?_⟩
  · intro i hi
    apply Tree.lt_size_of_kind
    rcases hi.kind with hk | hk <;> simp [hk]
  · constructor
    · exact nofun
    · rintro ⟨p, name, hp, -⟩
      exact absurd hp.before (Nat.not_lt_zero p)

theorem forbidden_imports_exact_packages :
    ∃ t : Tree, ∃ reports : List Nat, t.Finished ∧
      ({ source := "a", target := "b" } : DependencyRule).toRule.ReportsExactly t
        ⟨⟨"A"⟩, ⟨"A"⟩, ""⟩ (({ source := "a", target := "b" } : DependencyRule).finding t)
        (({ source := "a", target := "b" } : DependencyRule).Forbids t) reports ∧
      1 ∉ reports ∧ 9 ∈ reports ∧ 13 ∉ reports := by
  have h : ∃ t, Tree.ofSteps [.start .compilationUnit none 1, .start .importDef none 1,
      .qualified "b.c" 1, .finish, .start .packageDef none 2, .qualified "a.x" 2, .finish,
      .start .staticImport none 3, .qualified "b.c" 3, .finish, .start .importDef none 4,
      .qualified "bc.d" 4, .finish, .finish] = .ok t ∧ t.kind 9 = .staticImport ∧
      t.qualifiedName 5 = .ok "a.x" ∧ t.qualifiedName 9 = .ok "b.c" ∧
      t.qualifiedName 13 = .ok "bc.d" ∧ t.kind 5 = .packageDef ∧
      (∀ q < 5, t.kind q ≠ .packageDef) ∧ ∀ q < 9, t.kind q = .packageDef → q ≤ 5 := by
    exact ⟨_, rfl, rfl, by decide +kernel, by decide +kernel, by decide +kernel, rfl,
      by decide, by decide⟩
  obtain ⟨t, ht, hkind, hpackage, hname, hother, hp, hnone, hlast⟩ := h
  have hfin : t.Finished := ⟨_, ht⟩
  obtain ⟨-, reports, hreports⟩ := forbidden_imports_exact hfin
    { source := "a", target := "b" } false ⟨⟨"A"⟩, ⟨"A"⟩, ""⟩
  refine ⟨t, reports, hfin, hreports, ?_, ?_, ?_⟩
  · rw [hreports.exact]
    rintro ⟨-, ⟨p, -, hlp, -⟩, -⟩
    have hbefore := hlp.before
    exact hnone p (by omega) hlp.kind
  · rw [hreports.exact]
    exact ⟨.inr hkind, ⟨5, "a.x", ⟨hp, by decide, fun q hq hlt => hlast q hlt hq⟩, hpackage,
      by decide⟩, "b.c", hname, by decide⟩
  · rw [hreports.exact]
    rintro ⟨-, -, name, hname', hlies⟩
    rw [hother] at hname'
    cases hname'
    revert hlies
    decide

end DependencyRule

end ArchLint
