import Mathlib.Data.Nat.Count
import Mathlib.Order.Interval.Finset.Nat
import ArchLint.Proofs.Syntax.Navigation

/-!
# Traversals

The nodes below a node can be met in three ways: from a stack of nodes still to be shown, by
recursion over the children, and from below, from parent to parent. In a finished tree they meet
the same nodes. A node and those below it have consecutive numbers, and the links between siblings
run along the children of a node in both directions.
-/

namespace ArchLint.Syntax.Tree

open Term (places sizeAll)

def subtreeSize (t : Tree) (n : Nat) : Nat :=
  Nat.count (fun m => m = n ∨ n ∈ t.ancestors m) t.size

def follow (link : Nat → Option Nat) : Option Nat → Option (Nat × Option Nat)
  | none => none
  | some i => some (i, link i)

/-- What the ways through a tree say of node `n`, all of them the same. -/
structure Navigable (t : Tree) (n : Nat) : Prop where
  contiguous : t.descendants n = List.range' (n + 1) (t.subtreeSize n - 1)
  bounded : 0 < t.subtreeSize n ∧ n + t.subtreeSize n ≤ t.size
  stacked : Yields t.unstack (t.children n) (t.descendants n)
  climbed : Yields t.climb (t.parent n) (t.ancestors n)
  below_iff_above : ∀ m, m ∈ t.descendants n ↔ n ∈ t.ancestors m
  findAll : ∀ k, (t.findAll k n).Sublist (t.descendants n) ∧
    ∀ m, m ∈ t.findAll k n ↔ m ∈ t.descendants n ∧ t.kind m = k
  findFirst : ∀ k, t.findFirst k n = (n :: t.descendants n).find? fun m => t.kind m = k
  onward : Yields (follow t.nextSibling) (t.firstChild n) (t.children n)
  backward : Yields (follow t.prevSibling) (t.children n).getLast? (t.children n).reverse
  inverse : ∀ m, t.nextSibling n = some m ↔ t.prevSibling m = some n
  leftmost : t.prevSibling n = none ↔ ∀ p, t.parent n = some p → t.firstChild p = some n
  rightmost : t.nextSibling n = none ↔
    ∀ p, t.parent n = some p → (t.children p).getLast? = some n

variable {t : Tree} {T : Term}

mutual

theorem Holds.findFirst_eq {k : Kind} : ∀ {T : Term} {parent : Option Nat} {i : Nat},
    Holds t parent i T →
    t.findFirst k i = (List.range' i T.size).find? fun m => t.kind m = k
  | .node _ _ _ children, parent, i, h => by
    rw [Tree.findFirst, range'_size, List.find?_cons, h.children]
    by_cases hk : t.kind i = k
    · simp [hk]
    · rw [if_neg hk, decide_eq_false hk]
      exact h.2.findSome?_eq (Nat.lt_succ_self i)

theorem HoldsAll.findSome?_eq {k : Kind} : ∀ {Ts : List Term} {parent : Option Nat} {i j : Nat},
    HoldsAll t parent i Ts → j < i →
    ((places i Ts).findSome? fun c => if j < c ∧ c < t.size then t.findFirst k c else none) =
      (List.range' i (sizeAll Ts)).find? fun m => t.kind m = k
  | [], _, _, _, _, _ => rfl
  | T :: Ts, parent, i, j, h, hj => by
    rw [places, List.findSome?_cons, if_pos ⟨hj, h.1.lt_size⟩, h.1.findFirst_eq,
      h.2.findSome?_eq (by omega), sizeAll, ← List.range'_append_1, List.find?_append]
    cases (List.range' i T.size).find? fun m => t.kind m = k with
    | none => rfl
    | some m => rfl

end

namespace IsLayout

variable {m n p : Nat} {before after : List Nat}

theorem exists_holds (h : t.IsLayout T) (hn : n < t.size) :
    ∃ q U, Holds t q n U ∧ n + U.size ≤ t.size := by
  obtain ⟨q, U, hU, hle, -⟩ :=
    h.holds.inside (Nat.zero_le n) (by rw [root, ← h.size]; omega)
  rw [root, ← h.size, Nat.zero_add] at hle
  exact ⟨q, U, hU, hle⟩

theorem subtreeSize_eq (h : t.IsLayout T) {q : Option Nat} {U : Term} (hU : Holds t q n U)
    (hle : n + U.size ≤ t.size) : t.subtreeSize n = U.size := by
  have hpos := U.size_pos
  have hnumbers : (Finset.range t.size).filter (fun m => m = n ∨ n ∈ t.ancestors m) =
      Finset.Ico n (n + U.size) := by
    ext m
    rw [Finset.mem_filter, Finset.mem_range, Finset.mem_Ico, h.mem_ancestors, h.above_iff_lt hU]
    omega
  rw [subtreeSize, Nat.count_eq_card_filter_range, hnumbers, Nat.card_Ico]
  omega

theorem nextSibling_eq_some (h : t.IsLayout T) : t.nextSibling m = some n ↔ t.Adjacent m n := by
  constructor
  · intro hn
    cases hp : t.parent m with
    | none => simp [nextSibling, place, hp] at hn
    | some p =>
      obtain ⟨before, after, hc⟩ := h.exists_siblings hp
      rw [h.nextSibling_eq hc] at hn
      obtain ⟨younger, rfl⟩ := List.head?_eq_some_iff.mp hn
      exact ⟨p, before, younger, (h.child_lt (by simp [hc])).2, hc⟩
  · rintro ⟨p, before, after, -, hc⟩
    rw [h.nextSibling_eq hc, List.head?_cons]

theorem yields_nextSibling (h : t.IsLayout T) (hc : t.children p = before ++ n :: after) :
    Yields (follow t.nextSibling) (some n) (n :: after) := by
  induction after generalizing before n with
  | nil => exact .move rfl (.stop (by rw [h.nextSibling_eq hc]; rfl))
  | cons m after ih =>
    refine .move rfl ?_
    rw [h.nextSibling_eq hc]
    rw [List.append_cons] at hc
    exact ih hc

theorem yields_prevSibling (h : t.IsLayout T) (hc : t.children p = before ++ n :: after) :
    Yields (follow t.prevSibling) (some n) (n :: before.reverse) := by
  induction before using List.reverseRecOn generalizing n after with
  | nil => exact .move rfl (.stop (by rw [h.prevSibling_eq hc]; rfl))
  | append_singleton before m ih =>
    refine .move rfl ?_
    rw [h.prevSibling_eq hc, List.getLast?_concat, List.reverse_append]
    rw [List.append_assoc] at hc
    exact ih hc

theorem prevSibling_eq_none (h : t.IsLayout T) : t.prevSibling n = none ↔
    ∀ p, t.parent n = some p → t.firstChild p = some n := by
  cases hp : t.parent n with
  | none => simp [prevSibling, place, hp]
  | some p =>
    obtain ⟨before, after, hc⟩ := h.exists_siblings hp
    rw [h.prevSibling_eq hc, List.getLast?_eq_none_iff]
    simp only [Option.some.injEq, forall_eq', firstChild, child_eq_getElem?, hc]
    cases before with
    | nil => simp
    | cons m before =>
      have hne : m ≠ n := Nat.ne_of_lt ((h.siblings_lt hc).1 m List.mem_cons_self)
      simp [hne]

theorem nextSibling_eq_none (h : t.IsLayout T) : t.nextSibling n = none ↔
    ∀ p, t.parent n = some p → (t.children p).getLast? = some n := by
  cases hp : t.parent n with
  | none => simp [nextSibling, place, hp]
  | some p =>
    obtain ⟨before, after, hc⟩ := h.exists_siblings hp
    rw [h.nextSibling_eq hc, List.head?_eq_none_iff]
    simp only [Option.some.injEq, forall_eq', hc]
    rcases List.eq_nil_or_concat after with rfl | ⟨after, m, rfl⟩
    · simp
    · have hne : n ≠ m := Nat.ne_of_lt ((h.siblings_lt hc).2 m (by simp))
      have hlast : (before ++ n :: after.concat m).getLast? = some m := by
        rw [List.concat_eq_append, ← List.cons_append, ← List.append_assoc, List.getLast?_concat]
      rw [hlast]
      simp [hne.symm]

end IsLayout

/-- On a finished tree the stack, the recursion over children and the way up from parent to parent
agree on what is below a node, the searches find the first and all nodes of a kind in that order,
and the links between siblings enumerate the children. -/
theorem navigation_agrees (ht : t.Finished) {n : Nat} (hn : n < t.size) : t.Navigable n := by
  obtain ⟨T, -, h⟩ := ht.exists_isLayout
  obtain ⟨q, U, hU, hle⟩ := h.exists_holds hn
  have hsize := h.subtreeSize_eq hU hle
  have hbelow : t.descendants n = List.range' (n + 1) (t.subtreeSize n - 1) := by
    rw [hU.descendants, hsize, size_eq_succ U, Nat.add_sub_cancel]
  have hpos := U.size_pos
  constructor
  · exact hbelow
  · omega
  · exact h.descends hn
  · exact h.climbs hn
  · intro m
    rw [h.mem_descendants hn, h.mem_ancestors]
  · intro k
    refine ⟨List.filter_sublist, fun m => ?_⟩
    rw [Tree.findAll, List.mem_filter, decide_eq_true_eq]
  · intro k
    rw [hU.findFirst_eq, range'_size, ← hU.descendants]
  · cases hc : t.children n with
    | nil => exact .stop (by rw [firstChild, child_eq_getElem?, hc]; rfl)
    | cons c rest =>
      have hsplit : t.children n = [] ++ c :: rest := hc
      rw [firstChild, child_eq_getElem?, hc]
      exact h.yields_nextSibling hsplit
  · rcases List.eq_nil_or_concat (t.children n) with hc | ⟨before, c, hc⟩
    · rw [hc]
      exact .stop rfl
    · rw [List.concat_eq_append] at hc
      rw [hc, List.getLast?_concat, List.reverse_append]
      exact h.yields_prevSibling hc
  · intro m
    rw [h.nextSibling_eq_some, h.prevSibling_eq_some]
  · exact h.prevSibling_eq_none
  · exact h.nextSibling_eq_none

theorem navigation_agrees_class :
    ∃ t : Tree, t.Finished ∧ t.Navigable 3 ∧ t.subtreeSize 3 = 3 ∧ t.descendants 3 = [4, 5] ∧
      t.findFirst .ident 0 = some 2 ∧ t.nextSibling 3 = some 6 ∧ t.prevSibling 6 = some 3 := by
  have h : ∃ t, ofSteps [.start .compilationUnit none 1, .start .importDef none 1,
      .leaf .ident (some "a") 1, .finish, .start .classDef none 2, .leaf .ident (some "A") 2,
      .leaf .objBlock none 2, .finish, .start .importDef none 3, .leaf .ident (some "b") 3,
      .finish, .finish] = .ok t ∧ t.size = 8 ∧ t.subtreeSize 3 = 3 ∧
      t.subtreeSize 0 = 8 ∧ t.nextSibling 3 = some 6 ∧
      (t.kind 0 = .compilationUnit ∧ t.kind 1 = .importDef ∧ t.kind 2 = .ident) :=
    ⟨_, rfl, rfl, by cbv, by cbv, rfl, rfl, rfl, rfl⟩
  obtain ⟨t, ht, hsize, hcount, hcountRoot, hnext, hkinds⟩ := h
  have hfin : t.Finished := ⟨_, ht⟩
  have hclass := navigation_agrees hfin (n := 3) (by omega)
  have hroot := navigation_agrees hfin (n := 0) (by omega)
  refine ⟨t, hfin, hclass, hcount, ?_, ?_, hnext, (hclass.inverse 6).mp hnext⟩
  · rw [hclass.contiguous, hcount]
    rfl
  · rw [hroot.findFirst, hroot.contiguous, hcountRoot]
    simp [List.range', hkinds]

end ArchLint.Syntax.Tree
