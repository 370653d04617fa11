import Mathlib.Data.List.Nodup
import ArchLint.Proofs.Syntax.Acceptance

/-!
# Arenas

What every finished tree satisfies, whatever steps it was built by: the links between parents and
children agree, numbers grow away from the root, and the two iterators over a tree come to an
end. The iterators are given here by single moves that test nothing, so that `Yields` says both
what they produce and that they stop.
-/

namespace ArchLint.Syntax

/-- Moving on from `s` again and again produces these values and then stops. -/
inductive Yields {σ α : Type} (next : σ → Option (α × σ)) : σ → List α → Prop where
  | stop {s : σ} : next s = none → Yields next s []
  | move {s s' : σ} {a : α} {rest : List α} : next s = some (a, s') → Yields next s' rest →
      Yields next s (a :: rest)

namespace Tree

def climb (t : Tree) : Option Nat → Option (Nat × Option Nat)
  | none => none
  | some i => some (i, t.parent i)

def unstack (t : Tree) : List Nat → Option (Nat × List Nat)
  | [] => none
  | i :: stack => some (i, t.children i ++ stack)

structure IsArena (t : Tree) : Prop where
  root_lt : root < t.size
  orphan_iff : ∀ n < t.size, t.parent n = none ↔ n = root
  parent_lt : ∀ n < t.size, n ≠ root → ∃ p < n, t.parent n = some p ∧
    (t.children p).count n = 1 ∧ ∀ q, q ≠ p → n ∉ t.children q
  child_lt : ∀ p, ∀ c ∈ t.children p, c < t.size ∧ t.parent c = some p
  increasing : ∀ p, (t.children p).Pairwise (· < ·)
  preorder : t.descendants root = List.range' 1 (t.size - 1)
  climbs : ∀ n < t.size, Yields t.climb (t.parent n) (t.ancestors n)
  descends : ∀ n < t.size, Yields t.unstack (t.children n) (t.descendants n)

variable {t : Tree}

open Term (places sizeAll)

/-- The arena of a term, and nothing else. -/
structure IsLayout (t : Tree) (T : Term) : Prop where
  holds : Holds t none root T
  size : t.size = T.size

theorem isLayout_tree (T : Term) : IsLayout T.tree T :=
  ⟨holds_tree T, size_tree T⟩

theorem children_of_size_le {i : Nat} (h : t.size ≤ i) : t.children i = [] := by
  rw [children, node_of_size_le h]
  rfl

namespace IsLayout

variable {T : Term}

theorem inside (h : IsLayout t T) {n : Nat} (hn : n < t.size) :
    ∃ q U, Holds t q n U ∧
      ((n = root ∧ q = none) ∨ ∃ p, q = some p ∧ p < n ∧ n ∈ t.children p) := by
  rw [h.size] at hn
  obtain ⟨q, U, hU, -, hq⟩ := h.holds.inside (Nat.zero_le n) (by rw [root]; omega)
  refine ⟨q, U, hU, hq.imp_right ?_⟩
  rintro ⟨p, hp, -, hpn, hmem⟩
  exact ⟨p, hp, hpn, hmem⟩

theorem child_lt (h : IsLayout t T) {p c : Nat} (hc : c ∈ t.children p) :
    c < t.size ∧ t.parent c = some p := by
  by_cases hp : p < t.size
  · obtain ⟨q, U, hU, -⟩ := h.inside hp
    rw [hU.children] at hc
    obtain ⟨V, -, hV, -⟩ := hU.below.of_mem_places hc
    exact ⟨hV.lt_size, hV.parent_eq⟩
  · rw [children_of_size_le (Nat.le_of_not_lt hp)] at hc
    cases hc

theorem increasing (h : IsLayout t T) (p : Nat) : (t.children p).Pairwise (· < ·) := by
  by_cases hp : p < t.size
  · obtain ⟨q, U, hU, -⟩ := h.inside hp
    rw [hU.children]
    exact Term.pairwise_places _ _
  · rw [children_of_size_le (Nat.le_of_not_lt hp)]
    exact List.Pairwise.nil

theorem parent_lt (h : IsLayout t T) {n p : Nat} (hn : n < t.size) (hp : t.parent n = some p) :
    p < n ∧ n ∈ t.children p := by
  obtain ⟨q, U, hU, hq⟩ := h.inside hn
  rw [hU.parent_eq] at hp
  rcases hq with ⟨-, rfl⟩ | ⟨p', rfl, hlt, hmem⟩
  · cases hp
  · cases hp
    exact ⟨hlt, hmem⟩

theorem ancestors_eq (h : IsLayout t T) {n p : Nat} (hn : n < t.size) (hp : t.parent n = some p) :
    t.ancestors n = p :: t.ancestors p := by
  rw [ancestors, hp]
  exact if_pos (h.parent_lt hn hp).1

theorem climbs (h : IsLayout t T) {n : Nat} (hn : n < t.size) :
    Yields t.climb (t.parent n) (t.ancestors n) := by
  induction n using Nat.strongRecOn with
  | ind n ih =>
    cases hp : t.parent n with
    | none =>
      rw [ancestors, hp]
      exact .stop rfl
    | some p =>
      have hlt := (h.parent_lt hn hp).1
      rw [h.ancestors_eq hn hp]
      exact .move rfl (ih p hlt (Nat.lt_trans hlt hn))

end IsLayout

mutual

/-- The stack iterator takes a whole layout off the stack before it touches what lies beneath. -/
theorem Holds.yields : ∀ {T : Term} {parent : Option Nat} {i : Nat} {stack rest : List Nat},
    Holds t parent i T → Yields t.unstack stack rest →
    Yields t.unstack (i :: stack) (List.range' i T.size ++ rest)
  | .node _ _ _ _, _, i, stack, rest, h, hs => by
    rw [range'_size, List.cons_append]
    refine .move rfl ?_
    rw [h.children]
    exact h.2.yields hs

theorem HoldsAll.yields : ∀ {Ts : List Term} {parent : Option Nat} {i : Nat}
    {stack rest : List Nat}, HoldsAll t parent i Ts → Yields t.unstack stack rest →
    Yields t.unstack (places i Ts ++ stack) (List.range' i (sizeAll Ts) ++ rest)
  | [], _, _, _, _, _, hs => hs
  | _ :: _, _, i, stack, rest, h, hs => by
    rw [sizeAll, ← List.range'_append_1, List.append_assoc]
    exact h.1.yields (h.2.yields hs)

end

theorem IsLayout.descends {T : Term} (h : IsLayout t T) {n : Nat} (hn : n < t.size) :
    Yields t.unstack (t.children n) (t.descendants n) := by
  obtain ⟨q, U, hU, -⟩ := h.inside hn
  rw [hU.children, hU.descendants]
  have hnil : Yields t.unstack [] [] := .stop rfl
  simpa using hU.below.yields hnil

theorem IsLayout.isArena {T : Term} (h : IsLayout t T) : t.IsArena where
  root_lt := h.holds.lt_size
  orphan_iff := by
    intro n hn
    obtain ⟨q, U, hU, hq⟩ := h.inside hn
    rw [hU.parent_eq]
    rcases hq with ⟨rfl, rfl⟩ | ⟨p, rfl, hlt, -⟩
    · simp
    · simp only [reduceCtorEq, false_iff, root]
      omega
  parent_lt := by
    intro n hn hne
    obtain ⟨q, U, hU, hq⟩ := h.inside hn
    rcases hq with ⟨rfl, -⟩ | ⟨p, rfl, hlt, hmem⟩
    · exact absurd rfl hne
    · refine ⟨p, hlt, hU.parent_eq, ?_, ?_⟩
      · exact List.count_eq_one_of_mem (List.Pairwise.imp Nat.ne_of_lt (h.increasing p)) hmem
      · intro q' hq' hmem'
        have hparent := (h.child_lt hmem').2
        rw [hU.parent_eq] at hparent
        exact hq' (Option.some.inj hparent).symm
  child_lt := fun _ _ hc => h.child_lt hc
  increasing := h.increasing
  preorder := by
    rw [h.holds.descendants, h.size, size_eq_succ]
    rfl
  climbs := fun _ hn => h.climbs hn
  descends := fun _ hn => h.descends hn

theorem exists_isLayout {steps : List Step} (h : ofSteps steps = .ok t) :
    ∃ T : Term, T.WellShaped ∧ t.IsLayout T := by
  obtain ⟨T, hT, -, rfl⟩ := exists_term_of_ofSteps h
  exact ⟨T, hT, isLayout_tree T⟩

/-- Whatever the steps, a tree that the builder hands out is an arena. -/
theorem isArena_of_ofSteps {steps : List Step} (h : ofSteps steps = .ok t) : t.IsArena := by
  obtain ⟨T, -, hT⟩ := exists_isLayout h
  exact hT.isArena

theorem isArena_package :
    ∃ t, ofSteps [.start .compilationUnit (some "unit") 1, .start .packageDef none 1,
      .qualified "a.b" 1, .finish, .declaration .variableDef "int" "x" 2,
      .leaf .literal (some "1") 2, .finish, .finish] = .ok t ∧ t.size = 11 ∧ t.IsArena := by
  have h : ∃ t, ofSteps [.start .compilationUnit (some "unit") 1, .start .packageDef none 1,
      .qualified "a.b" 1, .finish, .declaration .variableDef "int" "x" 2,
      .leaf .literal (some "1") 2, .finish, .finish] = .ok t ∧ t.size = 11 := ⟨_, rfl, rfl⟩
  obtain ⟨t, ht, hsize⟩ := h
  exact ⟨t, ht, hsize, isArena_of_ofSteps ht⟩

end Tree

end ArchLint.Syntax
