import Mathlib.Algebra.Ring.Nat
import ArchLint.Report

/-!
# The order of reports

Paths compare by their components and violations by their places. Both comparisons are
transitive and total, so that sorting a report is a stable sort in the usual sense.
-/

namespace ArchLint

/-- The elements of `l` in order, with those that neither precedes the other as they stood. -/
structure StablySorted {α : Type} (le : α → α → Bool) (l sorted : List α) : Prop where
  perm : sorted.Perm l
  ordered : sorted.Pairwise fun a b => le a b = true
  stable : ∀ k, (sorted.filter fun a => le a k && le k a) = l.filter fun a => le a k && le k a

theorem stablySorted_mergeSort {α : Type} {le : α → α → Bool}
    (trans : ∀ a b c, le a b = true → le b c = true → le a c = true)
    (total : ∀ a b, (le a b || le b a) = true) (l : List α) :
    StablySorted le l (l.mergeSort le) := by
  refine ⟨List.mergeSort_perm l le, List.pairwise_mergeSort trans total l, fun k => ?_⟩
  have hclass : (l.filter fun a => le a k && le k a).Pairwise fun a b => le a b = true := by
    refine List.pairwise_of_forall_mem_list fun a ha b hb => ?_
    obtain ⟨hak, -⟩ := Bool.and_eq_true_iff.mp (List.mem_filter.mp ha).2
    obtain ⟨-, hkb⟩ := Bool.and_eq_true_iff.mp (List.mem_filter.mp hb).2
    exact trans a k b hak hkb
  have hsub := (List.sublist_mergeSort trans total hclass List.filter_sublist).filter
    fun a => le a k && le k a
  rw [List.filter_filter] at hsub
  simp only [Bool.and_self] at hsub
  exact (hsub.eq_of_length ((List.mergeSort_perm l le).filter _).length_eq.symm).symm

/-- A list that is ordered is settled by its elements and their order within each class. -/
theorem eq_of_perm_of_classes {α : Type} {le : α → α → Bool}
    (total : ∀ a b, (le a b || le b a) = true) {s t : List α} (hperm : s.Perm t)
    (hs : s.Pairwise fun a b => le a b = true) (ht : t.Pairwise fun a b => le a b = true)
    (hclass : ∀ k, (s.filter fun a => le a k && le k a) = t.filter fun a => le a k && le k a) :
    s = t := by
  have hrefl : ∀ a, le a a = true := fun a => by simpa using total a a
  induction s generalizing t with
  | nil => exact hperm.nil_eq
  | cons a s ih =>
    cases t with
    | nil => exact hperm.eq_nil
    | cons b t =>
      rw [List.pairwise_cons] at hs ht
      have hab : le a b = true := by
        rcases List.mem_cons.mp (hperm.symm.subset List.mem_cons_self) with rfl | hb
        · exact hrefl b
        · exact hs.1 b hb
      have hba : le b a = true := by
        rcases List.mem_cons.mp (hperm.subset List.mem_cons_self) with rfl | ha
        · exact hrefl a
        · exact ht.1 a ha
      -- both heads belong to one class, which they lead
      obtain rfl : a = b := by
        have hhead := hclass a
        rw [List.filter_cons_of_pos (by simp [hrefl]), List.filter_cons_of_pos (by simp [hab, hba])]
          at hhead
        exact (List.cons.inj hhead).1
      refine congrArg (a :: ·) (ih hperm.cons_inv hs.2 ht.2 fun k => ?_)
      have hk := hclass k
      rw [List.filter_cons, List.filter_cons] at hk
      split at hk
      · exact (List.cons.inj hk).2
      · exact hk

theorem StablySorted.unique {α : Type} {le : α → α → Bool} {l s t : List α}
    (total : ∀ a b, (le a b || le b a) = true) (hs : StablySorted le l s)
    (ht : StablySorted le l t) : s = t :=
  eq_of_perm_of_classes total (hs.perm.trans ht.perm.symm) hs.ordered ht.ordered
    fun k => (hs.stable k).trans (ht.stable k).symm

theorem transCmp_comap {α β : Type} (f : α → β) (cmp : β → β → Ordering) [Std.TransCmp cmp] :
    Std.TransCmp fun a b => cmp (f a) (f b) where
  eq_swap := Std.OrientedCmp.eq_swap
  isLE_trans := Std.TransCmp.isLE_trans

namespace Path

def Component.label : Component → String
  | .normal name => name
  | _ => ""

theorem Component.compare_eq (a b : Component) :
    a.compare b = compareLex (compareOn rank) (compareOn label) a b := by
  cases a <;> cases b <;> rfl

instance : Std.TransCmp Component.compare := by
  rw [show Component.compare = compareLex (compareOn Component.rank) (compareOn Component.label)
    from funext fun a => funext fun b => Component.compare_eq a b]
  infer_instance

theorem compareComponents_eq (as bs : List Component) :
    compareComponents as bs = List.compareLex Component.compare as bs := by
  induction as generalizing bs with
  | nil => cases bs <;> rfl
  | cons a as ih =>
    cases bs with
    | nil => rfl
    | cons b bs =>
      rw [compareComponents, List.compareLex_cons_cons, ih]

instance : Std.TransCmp Path.compare := by
  rw [show Path.compare = fun p q => List.compareLex Component.compare p.components q.components
    from funext fun p => funext fun q => compareComponents_eq _ _]
  exact transCmp_comap components _

end Path

namespace Report

def comparePlaces (a b : Violation) : Ordering :=
  (a.location.file.compare b.location.file).then
    ((Ord.compare a.location.line b.location.line).then
      (Ord.compare a.location.column b.location.column))

instance : Std.TransCmp comparePlaces := by
  have hfile := transCmp_comap (fun v : Violation => v.location.file) Path.compare
  exact inferInstanceAs (Std.TransCmp (compareLex
    (fun a b : Violation => a.location.file.compare b.location.file)
    (compareLex (compareOn fun v : Violation => v.location.line)
      (compareOn fun v : Violation => v.location.column))))

end Report

section Ordering

variable {α : Type} (cmp : α → α → Ordering) [Std.TransCmp cmp]

theorem ne_gt_trans (a b c : α) (hab : (cmp a b != .gt) = true) (hbc : (cmp b c != .gt) = true) :
    (cmp a c != .gt) = true := by
  simp only [bne_iff_ne, ← Ordering.isLE_iff_ne_gt] at *
  exact Std.TransCmp.isLE_trans hab hbc

theorem ne_gt_total (a b : α) : (cmp a b != .gt || cmp b a != .gt) = true := by
  have hswap : cmp b a = (cmp a b).swap := Std.OrientedCmp.eq_swap
  rw [hswap]
  cases cmp a b <;> rfl

end Ordering

theorem Report.foldl_append (reports : List Report) (r : Report) :
    reports.foldl append r =
      { violations := r.violations ++ reports.flatMap violations
        filesChecked := r.filesChecked + (reports.map filesChecked).sum
        ruleFailures := r.ruleFailures + (reports.map ruleFailures).sum } := by
  induction reports generalizing r with
  | nil => simp
  | cons first reports ih =>
    rw [List.foldl_cons, ih]
    simp [append, Nat.add_assoc]

theorem Report.stablySorted_sort (r : Report) :
    StablySorted precedes r.violations r.sort.violations :=
  stablySorted_mergeSort (ne_gt_trans comparePlaces) (ne_gt_total comparePlaces) r.violations

end ArchLint
