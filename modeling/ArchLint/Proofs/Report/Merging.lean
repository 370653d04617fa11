import Mathlib.Algebra.BigOperators.Group.List.Basic
import ArchLint.Proofs.Report.Order

/-!
# Merged reports

Sorting a report puts its violations into the one order in which their places do not go back and
violations at one place stand as they stood. So it does not matter in which order the reports on
different files were merged.
-/

namespace ArchLint

namespace Path

def Component.Precedes : Component → Component → Prop
  | .normal a, .normal b => a < b
  | a, b => a.rank < b.rank

theorem Component.eq_of_rank_of_label {a b : Component} (hrank : a.rank = b.rank)
    (hlabel : a.label = b.label) : a = b := by
  cases a <;> cases b <;> simp_all [rank, label]

instance : Std.LawfulEqCmp Component.compare where
  eq_of_compare := by
    intro a b h
    rw [Component.compare_eq, compareLex, Ordering.then_eq_eq] at h
    exact Component.eq_of_rank_of_label (Std.LawfulEqCmp.eq_of_compare h.1)
      (Std.LawfulEqCmp.eq_of_compare h.2)

theorem Component.compare_eq_lt_iff {a b : Component} : a.compare b = .lt ↔ a.Precedes b := by
  cases a with
  | normal a =>
    cases b with
    | normal b => exact compareOfLessAndEq_eq_lt
    | _ => exact Nat.compare_eq_lt
  | _ => cases b <;> exact Nat.compare_eq_lt

theorem compareComponents_eq_lt_iff {as bs : List Component} :
    compareComponents as bs = .lt ↔ List.Lex Component.Precedes as bs := by
  induction as generalizing bs with
  | nil => cases bs <;> simp [compareComponents]
  | cons a as ih =>
    cases bs with
    | nil => simp [compareComponents]
    | cons b bs =>
      rw [compareComponents, Ordering.then_eq_lt, Component.compare_eq_lt_iff, ih,
        Std.LawfulEqCmp.compare_eq_iff_eq, List.cons_lex_cons_iff]

theorem compare_eq_eq_iff {p q : Path} : p.compare q = .eq ↔ p.components = q.components := by
  rw [compare, compareComponents_eq, Std.LawfulEqCmp.compare_eq_iff_eq]

theorem compare_eq_lt_iff {p q : Path} :
    p.compare q = .lt ↔ List.Lex Component.Precedes p.components q.components :=
  compareComponents_eq_lt_iff

end Path

namespace Violation

def SamePlace (a b : Violation) : Prop :=
  a.location.file.components = b.location.file.components ∧ a.location.line = b.location.line ∧
    a.location.column = b.location.column

instance (a b : Violation) : Decidable (SamePlace a b) :=
  inferInstanceAs (Decidable (_ ∧ _ ∧ _))

/-- The place of the first does not come behind that of the second: files go by their components,
then lines, then columns. -/
inductive MayPrecede (a b : Violation) : Prop where
  | file : List.Lex Path.Component.Precedes a.location.file.components
      b.location.file.components → MayPrecede a b
  | line : a.location.file.components = b.location.file.components →
      a.location.line < b.location.line → MayPrecede a b
  | column : a.location.file.components = b.location.file.components →
      a.location.line = b.location.line → a.location.column ≤ b.location.column →
        MayPrecede a b

end Violation

namespace Report

open Violation

/-- The violations in order of their places; those at one place stand as they stood. -/
structure Arranges (vs sorted : List Violation) : Prop where
  perm : sorted.Perm vs
  ordered : sorted.Pairwise MayPrecede
  stable : ∀ v, (sorted.filter fun w => w.SamePlace v) = vs.filter fun w => w.SamePlace v

variable {a b : Violation} {r s : Report} {rs rs' : List Report}
  {vs vs' : List Violation}

theorem precedes_iff : precedes a b = true ↔ MayPrecede a b := by
  have hlt : comparePlaces a b = .lt ∨ comparePlaces a b = .eq ↔ MayPrecede a b := by
    simp only [comparePlaces, Ordering.then_eq_lt, Ordering.then_eq_eq, Nat.compare_eq_lt,
      Nat.compare_eq_eq, Path.compare_eq_eq_iff, Path.compare_eq_lt_iff]
    constructor
    · rintro ((hfile | ⟨hfile, hline | ⟨hline, hcolumn⟩⟩) | ⟨hfile, hline, hcolumn⟩)
      · exact .file hfile
      · exact .line hfile hline
      · exact .column hfile hline (Nat.le_of_lt hcolumn)
      · exact .column hfile hline (Nat.le_of_eq hcolumn)
    · rintro (hfile | ⟨hfile, hline⟩ | ⟨hfile, hline, hcolumn⟩)
      · exact .inl (.inl hfile)
      · exact .inl (.inr ⟨hfile, .inl hline⟩)
      · rcases Nat.lt_or_eq_of_le hcolumn with hcolumn | hcolumn
        · exact .inl (.inr ⟨hfile, .inr ⟨hline, hcolumn⟩⟩)
        · exact .inr ⟨hfile, hline, hcolumn⟩
  rw [← hlt, show precedes a b = (comparePlaces a b != .gt) from rfl]
  cases comparePlaces a b <;> decide

theorem precedes_both_iff : (precedes a b && precedes b a) = true ↔ a.SamePlace b := by
  have heq : comparePlaces a b = .eq ↔ a.SamePlace b := by
    simp only [comparePlaces, Ordering.then_eq_eq, Nat.compare_eq_eq, Path.compare_eq_eq_iff,
      SamePlace]
  have hswap : comparePlaces b a = (comparePlaces a b).swap := Std.OrientedCmp.eq_swap
  rw [← heq, show precedes a b = (comparePlaces a b != .gt) from rfl,
    show precedes b a = (comparePlaces b a != .gt) from rfl, hswap]
  cases comparePlaces a b <;> decide

theorem filter_samePlace (vs : List Violation) (v : Violation) :
    (vs.filter fun w => w.SamePlace v) = vs.filter fun w => precedes w v && precedes v w := by
  refine List.filter_congr fun w _ => ?_
  rw [Bool.eq_iff_iff, decide_eq_true_iff, precedes_both_iff]

theorem arranges_iff : Arranges vs vs' ↔ StablySorted precedes vs vs' := by
  constructor
  · rintro ⟨hperm, hordered, hstable⟩
    refine ⟨hperm, hordered.imp precedes_iff.mpr, fun v => ?_⟩
    rw [← filter_samePlace, ← filter_samePlace, hstable]
  · rintro ⟨hperm, hordered, hstable⟩
    refine ⟨hperm, hordered.imp precedes_iff.mp, fun v => ?_⟩
    rw [filter_samePlace, filter_samePlace, hstable]

theorem arranges_sort (r : Report) : Arranges r.violations r.sort.violations :=
  arranges_iff.mpr r.stablySorted_sort

theorem Arranges.eq_sort (h : Arranges r.violations vs) : vs = r.sort.violations :=
  (arranges_iff.mp h).unique (ne_gt_total comparePlaces) r.stablySorted_sort

theorem sort_sort (r : Report) : r.sort.sort = r.sort := by
  have hagain : Arranges r.sort.violations r.sort.violations :=
    ⟨.refl _, r.arranges_sort.ordered, fun _ => rfl⟩
  exact congrArg (fun vs => { r with violations := vs }) hagain.eq_sort.symm

/-- No file has violations in both. -/
def Apart (r s : Report) : Prop :=
  ∀ v ∈ r.violations, ∀ w ∈ s.violations,
    v.location.file.components ≠ w.location.file.components

instance (r s : Report) : Decidable (r.Apart s) :=
  inferInstanceAs (Decidable (∀ v ∈ r.violations, ∀ w ∈ s.violations, _ ≠ _))

theorem Apart.symm (h : r.Apart s) : s.Apart r :=
  fun v hv w hw => (h w hw v hv).symm

theorem Apart.filter_eq_nil (h : r.Apart s) (v : Violation) :
    (r.violations.filter fun w => w.SamePlace v) = [] ∨
      (s.violations.filter fun w => w.SamePlace v) = [] := by
  by_contra hboth
  rw [not_or] at hboth
  obtain ⟨w, hw⟩ := List.exists_mem_of_ne_nil _ hboth.1
  obtain ⟨x, hx⟩ := List.exists_mem_of_ne_nil _ hboth.2
  rw [List.mem_filter, decide_eq_true_iff] at hw hx
  exact h w hw.1 x hx.1 (hw.2.1.trans hx.2.1.symm)

/-- In whatever order reports on different files come, what they find at one place comes in one
order. -/
theorem filter_flatMap_of_perm (h : rs.Perm rs') (hrs : rs.Pairwise Apart) (v : Violation) :
    ((rs.flatMap violations).filter fun w => w.SamePlace v) =
      (rs'.flatMap violations).filter fun w => w.SamePlace v := by
  induction h with
  | nil => rfl
  | cons r h ih =>
    rw [List.flatMap_cons, List.flatMap_cons, List.filter_append, List.filter_append,
      ih (List.pairwise_cons.mp hrs).2]
  | swap r s rs =>
    have hapart : s.Apart r := (List.pairwise_cons.mp hrs).1 r List.mem_cons_self
    simp only [List.flatMap_cons, List.filter_append]
    rcases hapart.filter_eq_nil v with hnil | hnil
    · rw [hnil]
      rfl
    · rw [hnil]
      rfl
  | trans h h' ih ih' => exact (ih hrs).trans (ih' ((h.pairwise_iff Apart.symm).mp hrs))

theorem violations_foldl_append (rs : List Report) :
    (rs.foldl append empty).violations = rs.flatMap violations := by
  rw [foldl_append]
  exact List.nil_append _

theorem counters_foldl_append (rs : List Report) :
    (rs.foldl append empty).filesChecked = (rs.map filesChecked).sum ∧
      (rs.foldl append empty).ruleFailures = (rs.map ruleFailures).sum := by
  rw [foldl_append]
  exact ⟨Nat.zero_add _, Nat.zero_add _⟩

theorem arranges_of_perm (h : rs.Perm rs') (hrs : rs.Pairwise Apart) :
    Arranges (rs'.foldl append empty).violations (rs.foldl append empty).sort.violations := by
  obtain ⟨hperm, hordered, hstable⟩ := (rs.foldl append empty).arranges_sort
  rw [violations_foldl_append] at hperm hstable ⊢
  refine ⟨hperm.trans (h.flatMap_right violations), hordered, fun v => ?_⟩
  rw [hstable, filter_flatMap_of_perm h hrs]

theorem sort_foldl_append (h : rs.Perm rs') (hrs : rs.Pairwise Apart) :
    (rs.foldl append empty).sort = (rs'.foldl append empty).sort := by
  have hcounters := counters_foldl_append rs
  rw [(h.map filesChecked).sum_eq, (h.map ruleFailures).sum_eq,
    ← (counters_foldl_append rs').1, ← (counters_foldl_append rs').2] at hcounters
  calc (rs.foldl append empty).sort
      = { violations := (rs.foldl append empty).sort.violations
          filesChecked := (rs.foldl append empty).filesChecked
          ruleFailures := (rs.foldl append empty).ruleFailures } := rfl
    _ = { violations := (rs'.foldl append empty).sort.violations
          filesChecked := (rs'.foldl append empty).filesChecked
          ruleFailures := (rs'.foldl append empty).ruleFailures } := by
        rw [(arranges_of_perm h hrs).eq_sort, hcounters.1, hcounters.2]

/-- Sorting keeps the counters and puts the violations into the one order in which their places do
not go back and those at one place stand as they stood; sorting again changes nothing. Reports on
different files that are merged in any order give one sorted report, whose counters are sums. -/
theorem merged_and_sorted (r : Report) (h : rs.Perm rs') (hrs : rs.Pairwise Apart) :
    (r.sort.filesChecked = r.filesChecked ∧ r.sort.ruleFailures = r.ruleFailures ∧
      (∀ vs, Arranges r.violations vs ↔ vs = r.sort.violations) ∧ r.sort.sort = r.sort) ∧
    (rs.foldl append empty).sort = (rs'.foldl append empty).sort ∧
    (rs.foldl append empty).sort.filesChecked = (rs.map filesChecked).sum ∧
    (rs.foldl append empty).sort.ruleFailures = (rs.map ruleFailures).sum := by
  refine ⟨⟨rfl, rfl, fun vs => ⟨Arranges.eq_sort, ?_⟩, r.sort_sort⟩, sort_foldl_append h hrs,
    counters_foldl_append rs⟩
  rintro rfl
  exact r.arranges_sort

theorem merged_and_sorted_spellings :
    let violation (file message : String) (line : Nat) : Violation :=
      { code := "AC001", rule := "r", severity := .error, message
        location := { file := ⟨file⟩, line, column := 1 } }
    let inner : Report :=
      { violations := [violation "a//b" "x" 2, violation "a/b" "y" 2], filesChecked := 1 }
    let outer : Report :=
      { violations := [violation "a.b" "z" 1], filesChecked := 1, ruleFailures := 3 }
    [outer, inner].Perm [inner, outer] ∧ [outer, inner].Pairwise Apart ∧
      ([outer, inner].foldl append empty).sort = ([inner, outer].foldl append empty).sort ∧
      ([outer, inner].foldl append empty).sort.violations =
        inner.violations ++ outer.violations ∧
      ([outer, inner].foldl append empty).sort.filesChecked = 2 ∧
      ([outer, inner].foldl append empty).sort.ruleFailures = 3 := by
  intro violation inner outer
  have hperm : [outer, inner].Perm [inner, outer] := .swap inner outer []
  have happart : [outer, inner].Pairwise Apart := by decide
  have hordered : (inner.violations ++ outer.violations).Pairwise fun v w =>
      precedes v w = true := by decide
  obtain ⟨⟨-, -, harranges, -⟩, hsort, hfiles, hfailures⟩ :=
    merged_and_sorted ([inner, outer].foldl append empty) hperm happart
  refine ⟨hperm, happart, hsort, ?_, hfiles, hfailures⟩
  rw [hsort]
  exact ((harranges _).mp ⟨.refl _, hordered.imp precedes_iff.mp, fun _ => rfl⟩).symm

end Report

end ArchLint
