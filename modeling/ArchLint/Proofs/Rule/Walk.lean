import Mathlib.Algebra.Ring.Nat
import Mathlib.Data.List.Forall2
import ArchLint.Rule.Registry

/-!
# Walking a file, rule by rule

Rules walk a file side by side without seeing each other, so a walk is made of one run for each
rule. Nothing but the state of a rule changes in a run, and a rule that resets forgets that state
when the next file begins.
-/

namespace ArchLint

open Syntax

namespace Rule

def run (r : Rule) (t : Tree) (f : SourceFile) : Run :=
  (Tree.root :: t.descendants Tree.root).foldl (Run.step t) { rule := r.start f }

/-- One rule at two moments: all but the state agrees. -/
def Same (r r' : Rule) : Prop :=
  ∃ s : r.State, r' = { r with state := s }

/-- When a file begins, what came before is forgotten. -/
def Resets (r : Rule) : Prop :=
  ∀ s s' f, r.beginFile s f = r.beginFile s' f

/-- The rules that come with the analyzer, with any parameters. -/
inductive BuiltIn : Rule → Prop where
  | baseClass (p : BaseClassRule) : BuiltIn p.toRule
  | dependency (p : DependencyRule) : BuiltIn p.toRule
  | parameter (p : ParameterRule) : BuiltIn p.toRule

theorem stateless_resets (name code description : String) (severity : Severity)
    (interests : List Kind) (check : Tree → Nat → Except QueryError (List Finding)) :
    (stateless name code description severity interests check).Resets :=
  fun _ _ _ => rfl

theorem BuiltIn.resets {r : Rule} (h : r.BuiltIn) : r.Resets := by
  cases h with
  | baseClass p => exact stateless_resets _ _ _ _ _ _
  | dependency p => exact fun _ _ _ => rfl
  | parameter p => exact stateless_resets _ _ _ _ _ _

theorem Same.refl (r : Rule) : r.Same r :=
  ⟨r.state, rfl⟩

theorem Same.trans {r r' r'' : Rule} (h : r.Same r') (h' : r'.Same r'') : r.Same r'' := by
  obtain ⟨s, rfl⟩ := h
  obtain ⟨s', rfl⟩ := h'
  exact ⟨s', rfl⟩

theorem Same.start_eq {r r' : Rule} (h : r.Same r') (hr : r.Resets) (f : SourceFile) :
    r'.start f = r.start f := by
  obtain ⟨s, rfl⟩ := h
  rw [start, start, hr s r.state f]

theorem same_step (r : Rule) (t : Tree) {run : Run} (h : r.Same run.rule) (i : Nat) :
    r.Same (run.step t i).rule := by
  rw [Run.step]
  split
  · exact h.trans ⟨_, rfl⟩
  · exact h

theorem same_foldl_step (r : Rule) (t : Tree) (nodes : List Nat) {run : Run}
    (h : r.Same run.rule) : r.Same (nodes.foldl (Run.step t) run).rule := by
  induction nodes generalizing run with
  | nil => exact h
  | cons i nodes ih => exact ih (r.same_step t h i)

theorem same_run (r : Rule) (t : Tree) (f : SourceFile) : r.Same (r.run t f).rule :=
  r.same_foldl_step t _ ⟨_, rfl⟩

theorem Same.run_eq {r r' : Rule} (h : r.Same r') (hr : r.Resets) (t : Tree) (f : SourceFile) :
    r'.run t f = r.run t f := by
  rw [run, run, h.start_eq hr f]

variable {r : Rule} {t : Tree} {f : SourceFile} {finding : Finding} {v : Violation}

/-- The violation that a finding stands for, whether or not a directive allows it. -/
def complaint (r : Rule) (f : SourceFile) (finding : Finding) : Violation where
  code := r.code
  rule := r.name
  severity := r.severity
  location :=
    { file := f.relativePath
      line := finding.line
      column := 1
      offset := f.offsetOf finding.line 1
      length := f.lineLength finding.line }
  message := finding.message
  suggestion := finding.help

theorem violation?_eq (r : Rule) (f : SourceFile) (finding : Finding) :
    r.violation? f finding =
      if (Allowance.find? f.content finding.line r.name).isSome then none
      else some (r.complaint f finding) := rfl

theorem violation?_eq_none_iff : r.violation? f finding = none ↔
    (Allowance.find? f.content finding.line r.name).isSome = true := by
  rw [violation?_eq]
  split
  · simp [*]
  · simp [*]

theorem eq_complaint (h : r.violation? f finding = some v) : v = r.complaint f finding := by
  rw [violation?_eq] at h
  split at h
  · cases h
  · exact (Option.some.inj h).symm

def complaints (r : Rule) (t : Tree) (f : SourceFile) : List Violation :=
  (r.run t f).violations f

theorem complaints_eq (r : Rule) (t : Tree) (f : SourceFile) :
    r.complaints t f = (r.run t f).findings.toList.filterMap (r.violation? f) := by
  obtain ⟨s, hs⟩ := r.same_run t f
  rw [complaints, Run.violations, hs]
  rfl

theorem mem_complaints : v ∈ r.complaints t f ↔
    ∃ finding ∈ (r.run t f).findings.toList, r.violation? f finding = some v := by
  rw [complaints_eq, List.mem_filterMap]

end Rule

/-- Showing nodes to runs side by side is showing them to one run after the other. -/
theorem foldl_map_step (t : Tree) (nodes : List Nat) (runs : List Run) :
    nodes.foldl (fun runs i => runs.map fun run => run.step t i) runs =
      runs.map fun run => nodes.foldl (Run.step t) run := by
  induction nodes generalizing runs with
  | nil => simp
  | cons i nodes ih =>
    rw [List.foldl_cons, ih, List.map_map]
    rfl

def Walk.ofRuns (f : SourceFile) (runs : List Run) : Walk where
  violations := runs.flatMap fun run => run.violations f
  failures := (runs.map Run.failures).sum
  rules := runs.map Run.rule

theorem walk_eq (t : Tree) (f : SourceFile) (rules : List Rule) :
    walk t f rules = .ofRuns f (rules.map fun r => r.run t f) := by
  rw [walk, foldl_map_step, List.map_map]
  simp only [Walk.ofRuns, List.sum_eq_foldl, List.foldl_map, Rule.run, Function.comp_def]

theorem violations_walk (t : Tree) (f : SourceFile) (rules : List Rule) :
    (walk t f rules).violations = rules.flatMap fun r => r.complaints t f := by
  rw [walk_eq, Walk.ofRuns, List.flatMap_map]
  rfl

theorem forall₂_same_walk (t : Tree) (f : SourceFile) (rules : List Rule) :
    List.Forall₂ Rule.Same rules (walk t f rules).rules := by
  rw [walk_eq, Walk.ofRuns, List.forall₂_map_right_iff, List.forall₂_map_right_iff,
    List.forall₂_same]
  exact fun r _ => r.same_run t f

/-- Rules that reset walk a file as they would have walked it first. -/
theorem walk_eq_of_same {rules rules' : List Rule} (h : List.Forall₂ Rule.Same rules rules')
    (hr : ∀ r ∈ rules, r.Resets) (t : Tree) (f : SourceFile) :
    walk t f rules' = walk t f rules := by
  have hruns : rules'.map (fun r => r.run t f) = rules.map fun r => r.run t f := by
    induction h with
    | nil => rfl
    | cons hsame _ ih =>
      rw [List.map_cons, List.map_cons, hsame.run_eq (hr _ List.mem_cons_self) t f,
        ih fun r hmem => hr r (List.mem_cons_of_mem _ hmem)]
  rw [walk_eq, walk_eq, hruns]

end ArchLint
