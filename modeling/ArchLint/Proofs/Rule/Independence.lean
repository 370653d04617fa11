import ArchLint.Proofs.Rule.Walk
import ArchLint.Proofs.Syntax.Navigation

/-!
# Rules side by side

A walk shows each node to all rules before it turns to the next node. What it gives is still what
the rules give alone, one after the other: no rule sees the state, the findings or the failures of
another. `Visits` says what a rule alone does with a list of nodes, and a walk over a finished tree
shows it every node of a kind it asks for, once and in the order of the numbers.
-/

namespace ArchLint

open Syntax

namespace Rule

/-- The rule is shown these nodes in turn: the state it ends in, all that it reports, and how many
of the visits fail. A visit that fails keeps what it reported before. -/
inductive Visits (r : Rule) (t : Tree) : r.State → List Nat → r.State → List Finding → Nat → Prop
    where
  | done (s : r.State) : Visits r t s [] s [] 0
  | next {s s' : r.State} {i : Nat} {nodes : List Nat} {findings : List Finding}
      {failures : Nat} : Visits r t (r.visit s t i).state nodes s' findings failures →
      Visits r t s (i :: nodes) s' ((r.visit s t i).findings ++ findings)
        ((if (r.visit s t i).failure.isSome then 1 else 0) + failures)

def watched (r : Rule) (t : Tree) : List Nat :=
  (List.range t.size).filter fun i => r.interests.contains (t.kind i)

theorem step_of_interest {r : Rule} {t : Tree} {i : Nat} (h : r.interests.contains (t.kind i))
    (s : r.State) (found : Array Finding) (failed : Nat) :
    Run.step t ⟨{ r with state := s }, found, failed⟩ i =
      ⟨{ r with state := (r.visit s t i).state }, found ++ (r.visit s t i).findings,
        failed + if (r.visit s t i).failure.isSome then 1 else 0⟩ :=
  if_pos h

theorem step_of_no_interest {r : Rule} {t : Tree} {i : Nat}
    (h : ¬ r.interests.contains (t.kind i)) (s : r.State) (found : Array Finding) (failed : Nat) :
    Run.step t ⟨{ r with state := s }, found, failed⟩ i = ⟨{ r with state := s }, found, failed⟩ :=
  if_neg h

theorem exists_visits_foldl_step (r : Rule) (t : Tree) (nodes : List Nat) (s : r.State)
    (found : Array Finding) (failed : Nat) :
    ∃ s' findings failures,
      r.Visits t s (nodes.filter fun i => r.interests.contains (t.kind i)) s' findings failures ∧
      nodes.foldl (Run.step t) ⟨{ r with state := s }, found, failed⟩ =
        ⟨{ r with state := s' }, found ++ findings, failed + failures⟩ := by
  induction nodes generalizing s found failed with
  | nil => exact ⟨s, [], 0, .done s, by simp⟩
  | cons i nodes ih =>
    by_cases h : r.interests.contains (t.kind i)
    · obtain ⟨s', findings, failures, hvisits, hrun⟩ :=
        ih (r.visit s t i).state (found ++ (r.visit s t i).findings)
          (failed + if (r.visit s t i).failure.isSome then 1 else 0)
      refine ⟨s', (r.visit s t i).findings ++ findings,
        (if (r.visit s t i).failure.isSome then 1 else 0) + failures, ?_, ?_⟩
      · rw [List.filter_cons, if_pos h]
        exact .next hvisits
      · have happend : found ++ (r.visit s t i).findings ++ findings =
            found ++ ((r.visit s t i).findings ++ findings) := Array.ext' (by simp)
        rw [List.foldl_cons, step_of_interest h, hrun, Nat.add_assoc, happend]
    · obtain ⟨s', findings, failures, hvisits, hrun⟩ := ih s found failed
      refine ⟨s', findings, failures, ?_, ?_⟩
      · rwa [List.filter_cons, if_neg h]
      · rw [List.foldl_cons, step_of_no_interest h, hrun]

end Rule

/-- One rule alone: it begins the file and then visits what it watches. -/
theorem exists_visits_walk {t : Tree} (ht : t.Finished) (f : SourceFile) (r : Rule) :
    ∃ s findings failures,
      r.Visits t (r.beginFile r.state f) (r.watched t) s findings failures ∧
      walk t f [r] = ⟨findings.filterMap (r.violation? f), failures, [{ r with state := s }]⟩ := by
  obtain ⟨s, findings, failures, hvisits, hrun⟩ :=
    r.exists_visits_foldl_step t (List.range t.size) (r.beginFile r.state f) #[] 0
  refine ⟨s, findings, failures, hvisits, ?_⟩
  have halone : r.run t f =
      ⟨{ r with state := s }, (#[] : Array Finding) ++ findings, 0 + failures⟩ := by
    rw [Rule.run, ht.preorder]
    exact hrun
  rw [walk_eq, List.map_singleton, halone]
  simp only [Walk.ofRuns, Run.violations, List.flatMap_cons, List.flatMap_nil, List.append_nil,
    List.map_cons, List.map_nil, List.sum_cons, List.sum_nil, Nat.zero_add, Nat.add_zero]
  rw [show ((#[] : Array Finding) ++ findings).toList = findings by simp]
  rfl

theorem walk_append (t : Tree) (f : SourceFile) (before after : List Rule) :
    walk t f (before ++ after) =
      { violations := (walk t f before).violations ++ (walk t f after).violations
        failures := (walk t f before).failures + (walk t f after).failures
        rules := (walk t f before).rules ++ (walk t f after).rules } := by
  simp only [walk_eq, Walk.ofRuns, List.map_append, List.flatMap_append, List.sum_append]

theorem walk_nil (t : Tree) (f : SourceFile) : walk t f [] = ⟨[], 0, []⟩ := by
  rw [walk_eq]
  rfl

/-- A walk with several rules gives what the rules give alone, in their order: the violations one
behind the other, the failures added up, every rule in the state it reaches alone. So whatever
stands before and behind a rule, and however its visits end, changes nothing about it. Alone, a
rule visits every node of a kind it asks for once and in pre-order, the root included. -/
theorem walk_rules_independent {t : Tree} (ht : t.Finished) (f : SourceFile) (rules : List Rule) :
    (walk t f rules).violations = rules.flatMap (fun r => (walk t f [r]).violations) ∧
    (walk t f rules).failures = (rules.map fun r => (walk t f [r]).failures).sum ∧
    (walk t f rules).rules = rules.flatMap (fun r => (walk t f [r]).rules) ∧
    (∀ before r after, rules = before ++ r :: after →
      (walk t f rules).violations =
        (walk t f before).violations ++ (walk t f [r]).violations ++ (walk t f after).violations ∧
      (walk t f rules).failures =
        (walk t f before).failures + (walk t f [r]).failures + (walk t f after).failures ∧
      (walk t f rules).rules =
        (walk t f before).rules ++ (walk t f [r]).rules ++ (walk t f after).rules) ∧
    (∀ r ∈ rules, ∃ s findings failures,
      r.Visits t (r.beginFile r.state f) (r.watched t) s findings failures ∧
      walk t f [r] =
        ⟨findings.filterMap (r.violation? f), failures, [{ r with state := s }]⟩) ∧
    (∀ r ∈ rules, (r.watched t).Pairwise (· < ·) ∧
      ∀ i, i ∈ r.watched t ↔
        (i = Tree.root ∨ i ∈ t.descendants Tree.root) ∧ t.kind i ∈ r.interests) := by
  have hsplit : ∀ rs : List Rule, walk t f rs =
      ⟨rs.flatMap (fun r => (walk t f [r]).violations),
        (rs.map fun r => (walk t f [r]).failures).sum,
        rs.flatMap (fun r => (walk t f [r]).rules)⟩ := by
    intro rs
    induction rs with
    | nil => exact walk_nil t f
    | cons r rs ih => rw [← List.singleton_append, walk_append, ih]; simp
  refine ⟨by rw [hsplit rules], by rw [hsplit rules], by rw [hsplit rules], ?_, ?_, ?_⟩
  · rintro before r after rfl
    rw [← List.singleton_append, walk_append, walk_append]
    simp [Nat.add_assoc]
  · intro r _
    exact exists_visits_walk ht f r
  · intro r _
    refine ⟨List.pairwise_lt_range.filter _, fun i => ?_⟩
    rw [Rule.watched, ← ht.preorder, List.mem_filter, List.mem_cons, List.contains_iff_mem]

def countingRule : Rule where
  State := Nat
  state := 7
  name := "count"
  code := "T1"
  interests := [.compilationUnit, .importDef]
  beginFile _ _ := 0
  visit seen t i :=
    { state := seen + 1
      findings := [⟨t.line i, "first", none⟩, ⟨t.line i, "second", none⟩]
      failure := if seen % 2 = 1 then some (.unexpectedKind .qualifiedName (t.kind i) 0) else none }

theorem walk_rules_independent_counting :
    ∃ t : Tree, t.Finished ∧ countingRule.watched t = [0, 1] ∧
      (walk t ⟨⟨"A"⟩, ⟨"A"⟩, ""⟩ [countingRule, countingRule]).failures = 2 := by
  have h : ∃ t, Tree.ofSteps [.start .compilationUnit none 1, .start .importDef none 2,
      .qualified "a.b" 2, .finish, .finish] = .ok t ∧ countingRule.watched t = [0, 1] :=
    ⟨_, rfl, by decide⟩
  obtain ⟨t, ht, hwatched⟩ := h
  have hfin : t.Finished := ⟨_, ht⟩
  obtain ⟨-, hsum, -, -, halone, -⟩ :=
    walk_rules_independent hfin ⟨⟨"A"⟩, ⟨"A"⟩, ""⟩ [countingRule, countingRule]
  obtain ⟨s, findings, failures, hvisits, hwalk⟩ := halone countingRule List.mem_cons_self
  rw [hwatched] at hvisits
  refine ⟨t, hfin, hwatched, ?_⟩
  rw [hsum, List.map_cons, List.map_singleton, hwalk]
  -- the visit to the root, the visit to the import, and no more
  cases hvisits with
  | next hrest =>
    cases hrest with
    | next hdone =>
      cases hdone
      rfl

end ArchLint
