import ArchLint.Proofs.Rule.Independence

/-!
# Rules that report a property of nodes

A rule may keep a state while it is shown one node after the other, though what it reports is a
property of each node alone. It is enough to know what the state says of the nodes that have been
shown, and to keep that from one node to the next.
-/

namespace ArchLint

open Syntax

namespace Rule

/-- On a file the rule reports these nodes and no other ones, by these findings: each node that has
the property once, in pre-order, and no visit fails. -/
structure ReportsExactly (r : Rule) (t : Tree) (f : SourceFile) (finding : Nat → Finding)
    (P : Nat → Prop) (reports : List Nat) : Prop where
  findings : (r.run t f).findings.toList = reports.map finding
  failures : (r.run t f).failures = 0
  violations : (walk t f [r]).violations = (reports.map finding).filterMap (r.violation? f)
  walked : (walk t f [r]).failures = 0
  preorder : reports.Sublist (Tree.root :: t.descendants Tree.root)
  nodup : reports.Nodup
  exact : ∀ i, i ∈ reports ↔ P i

inductive Decides {σ : Type} (finding : Finding) (p : Prop) : Visit σ → Prop where
  | reported (s : σ) : p → Decides finding p { state := s, findings := [finding] }
  | passed (s : σ) : ¬ p → Decides finding p { state := s }

/-- What the state says of the nodes with smaller numbers is kept, and decides about the next. -/
structure Keeps (r : Rule) (t : Tree) (finding : Nat → Finding) (P : Nat → Prop)
    (Inv : Nat → r.State → Prop) : Prop where
  visited : ∀ n s, t.kind n ∈ r.interests → Inv n s →
    Decides (finding n) (P n) (r.visit s t n) ∧ Inv (n + 1) (r.visit s t n).state
  skipped : ∀ n s, t.kind n ∉ r.interests → Inv n s → ¬ P n ∧ Inv (n + 1) s

variable {r : Rule} {t : Tree} {f : SourceFile} {finding : Nat → Finding} {P : Nat → Prop}
  {Inv : Nat → r.State → Prop}

theorem Keeps.step (h : r.Keeps t finding P Inv) {n : Nat} {s : r.State} (hs : Inv n s)
    (found : Array Finding) :
    ∃ s', ∃ reports : List Nat, Inv (n + 1) s' ∧ (∀ i, i ∈ reports ↔ i = n ∧ P i) ∧
      reports.Sublist [n] ∧ Run.step t ⟨{ r with state := s }, found, 0⟩ n =
        ⟨{ r with state := s' }, found ++ reports.map finding, 0⟩ := by
  by_cases hk : t.kind n ∈ r.interests
  · obtain ⟨hdecides, hinv⟩ := h.visited n s hk hs
    rw [step_of_interest (List.contains_iff_mem.mpr hk)]
    generalize r.visit s t n = v at hdecides hinv
    cases hdecides with
    | reported s' hP =>
      refine ⟨s', [n], hinv, fun i => ?_, List.Sublist.refl _, rfl⟩
      rw [List.mem_singleton]
      constructor
      · rintro rfl
        exact ⟨rfl, hP⟩
      · exact And.left
    | passed s' hP =>
      refine ⟨s', [], hinv, fun i => ?_, List.nil_sublist _, rfl⟩
      constructor
      · exact nofun
      · rintro ⟨rfl, hPi⟩
        exact absurd hPi hP
  · obtain ⟨hP, hinv⟩ := h.skipped n s hk hs
    refine ⟨s, [], hinv, fun i => ?_, List.nil_sublist _, ?_⟩
    · constructor
      · exact nofun
      · rintro ⟨rfl, hPi⟩
        exact absurd hPi hP
    · rw [step_of_no_interest (mt List.contains_iff_mem.mp hk)]
      simp

theorem Keeps.foldl_step (h : r.Keeps t finding P Inv) {s : r.State} (hs : Inv 0 s) (n : Nat) :
    ∃ s', ∃ reports : List Nat, Inv n s' ∧ (∀ i, i ∈ reports ↔ i < n ∧ P i) ∧
      reports.Sublist (List.range n) ∧
      (List.range n).foldl (Run.step t) ⟨{ r with state := s }, #[], 0⟩ =
        ⟨{ r with state := s' }, (reports.map finding).toArray, 0⟩ := by
  induction n with
  | zero => exact ⟨s, [], hs, by simp, List.Sublist.refl _, rfl⟩
  | succ n ih =>
    obtain ⟨s', reports, hs', hexact, hsublist, hrun⟩ := ih
    obtain ⟨s'', last, hs'', hlast, hlastSublist, hstep⟩ :=
      h.step hs' (reports.map finding).toArray
    refine ⟨s'', reports ++ last, hs'', fun i => ?_, ?_, ?_⟩
    · rw [List.mem_append, hexact, hlast, ← or_and_right, Nat.lt_succ_iff_lt_or_eq]
    · rw [List.range_succ]
      exact hsublist.append hlastSublist
    · rw [List.range_succ, List.foldl_append, hrun, List.foldl_cons, List.foldl_nil, hstep]
      simp

/-- A rule whose state is kept right from the start of a file reports exactly, whatever state the
files before have left it in. -/
theorem Keeps.reportsExactly (h : r.Keeps t finding P Inv) (ht : t.Finished)
    (hP : ∀ i, P i → i < t.size) {s : r.State} (hs : Inv 0 (r.beginFile s f)) :
    ∃ reports, { r with state := s }.ReportsExactly t f finding P reports := by
  obtain ⟨s', reports, -, hexact, hsublist, hrun⟩ := h.foldl_step hs t.size
  have hfile : Rule.run { r with state := s } t f =
      ⟨{ r with state := s' }, (reports.map finding).toArray, 0⟩ := by
    rw [Rule.run, ht.preorder]
    exact hrun
  have hfindings : (Rule.run { r with state := s } t f).findings.toList = reports.map finding := by
    rw [hfile]
  have hwalk : walk t f [{ r with state := s }] =
      .ofRuns f [Rule.run { r with state := s } t f] := by
    rw [walk_eq]
    rfl
  refine ⟨reports, hfindings, by rw [hfile], ?_, ?_, ?_, ?_, fun i => ?_⟩
  · rw [hwalk, hfile]
    exact List.append_nil _
  · rw [hwalk, hfile]
    rfl
  · rw [ht.preorder]
    exact hsublist
  · exact hsublist.nodup List.nodup_range
  · rw [hexact]
    constructor
    · exact And.right
    · exact fun hi => ⟨hP i hi, hi⟩

end Rule

end ArchLint
