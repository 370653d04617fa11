import ArchLint.Syntax.Term

/-!
# Layouts

A term written into an arena in pre-order: the node of the term, then the layouts of its children
one behind the other. `Holds t parent i T` says that the part of the arena that starts at `i` is
the layout of `T`. From this alone follow the links between the nodes and the order in which the
nodes below `i` are met.
-/

namespace ArchLint.Syntax

namespace Term

def kind : Term → Kind
  | .node kind _ _ _ => kind

def text : Term → Option String
  | .node _ text _ _ => text

def line : Term → Nat
  | .node _ _ line _ => line

def children : Term → List Term
  | .node _ _ _ children => children

mutual

def size : Term → Nat
  | .node _ _ _ children => sizeAll children + 1

def sizeAll : List Term → Nat
  | [] => 0
  | t :: ts => size t + sizeAll ts

end

/-- The numbers of terms that are laid out one behind the other from `i` on. -/
def places (i : Nat) : List Term → List Nat
  | [] => []
  | t :: ts => i :: places (i + t.size) ts

mutual

/-- The nodes of a term in pre-order, numbered from `i` on. -/
def layout (parent : Option Nat) (i : Nat) : Term → List Node
  | .node kind text line children =>
    ⟨kind, text, line, parent, (places (i + 1) children).toArray⟩ ::
      layoutAll (some i) (i + 1) children

def layoutAll (parent : Option Nat) (i : Nat) : List Term → List Node
  | [] => []
  | t :: ts => layout parent i t ++ layoutAll parent (i + t.size) ts

end

def tree (t : Term) : Tree :=
  ⟨(t.layout none Tree.root).toArray⟩

theorem size_pos (t : Term) : 0 < t.size := by
  cases t
  simp [size]

theorem sizeAll_append (ts us : List Term) : sizeAll (ts ++ us) = sizeAll ts + sizeAll us := by
  induction ts with
  | nil => simp [sizeAll]
  | cons t ts ih => simp [sizeAll, ih, Nat.add_assoc]

theorem places_append (i : Nat) (ts us : List Term) :
    places i (ts ++ us) = places i ts ++ places (i + sizeAll ts) us := by
  induction ts generalizing i with
  | nil => simp [places, sizeAll]
  | cons t ts ih => simp [places, sizeAll, ih, Nat.add_assoc]

theorem layoutAll_append (parent : Option Nat) (i : Nat) (ts us : List Term) :
    layoutAll parent i (ts ++ us) =
      layoutAll parent i ts ++ layoutAll parent (i + sizeAll ts) us := by
  induction ts generalizing i with
  | nil => simp [layoutAll, sizeAll]
  | cons t ts ih => simp [layoutAll, sizeAll, ih, Nat.add_assoc]

mutual

theorem length_layout (parent : Option Nat) (i : Nat) :
    ∀ t : Term, (layout parent i t).length = t.size
  | .node kind text line children => by
    simp [layout, size, length_layoutAll (some i) (i + 1) children]

theorem length_layoutAll (parent : Option Nat) (i : Nat) :
    ∀ ts : List Term, (layoutAll parent i ts).length = sizeAll ts
  | [] => rfl
  | t :: ts => by
    simp [layoutAll, sizeAll, length_layout parent i t, length_layoutAll parent (i + t.size) ts]

end

/-- Places grow, since every term takes at least one number. -/
theorem lt_of_mem_places {i j : Nat} {t : Term} {ts : List Term}
    (h : j ∈ places (i + t.size) ts) : i < j := by
  induction ts generalizing i t with
  | nil => simp [places] at h
  | cons u us ih =>
    have ht := t.size_pos
    rcases List.mem_cons.mp h with rfl | h
    · omega
    · have := ih h
      omega

theorem pairwise_places (i : Nat) (ts : List Term) : (places i ts).Pairwise (· < ·) := by
  induction ts generalizing i with
  | nil => exact List.Pairwise.nil
  | cons t ts ih => exact List.Pairwise.cons (fun j hj => lt_of_mem_places hj) (ih _)

end Term

namespace Tree

open Term (places sizeAll layout layoutAll)

mutual

/-- The arena from `i` on is the layout of the term, whose root has the given parent. -/
def Holds (t : Tree) (parent : Option Nat) (i : Nat) : Term → Prop
  | .node kind text line children =>
    t.nodes[i]? = some ⟨kind, text, line, parent, (places (i + 1) children).toArray⟩ ∧
      HoldsAll t (some i) (i + 1) children

def HoldsAll (t : Tree) (parent : Option Nat) (i : Nat) : List Term → Prop
  | [] => True
  | c :: cs => Holds t parent i c ∧ HoldsAll t parent (i + c.size) cs

end

variable {t : Tree} {parent : Option Nat} {i : Nat}

theorem node_of_getElem? {n : Node} (h : t.nodes[i]? = some n) : t.node i = n := by
  simp [node, Array.getD_eq_getD_getElem?, h]

theorem node_of_size_le (h : t.size ≤ i) : t.node i = default := by
  rw [Tree.node, Array.getD_eq_getD_getElem?, Array.getElem?_eq_none h]
  rfl

theorem lt_size_of_getElem? {n : Node} (h : t.nodes[i]? = some n) : i < t.size := by
  obtain ⟨hi, _⟩ := Array.getElem?_eq_some_iff.mp h
  exact hi

mutual

theorem holds_of_layout (t : Tree) (parent : Option Nat) (i : Nat) :
    ∀ (T : Term) (before after : List Node), before.length = i →
      t.nodes.toList = before ++ (layout parent i T ++ after) → Holds t parent i T
  | .node kind text line children, before, after, hi, h => by
    rw [layout] at h
    refine ⟨?_, ?_⟩
    · rw [← Array.getElem?_toList, h, ← hi]
      simp
    · rw [List.cons_append, List.append_cons] at h
      exact holdsAll_of_layout t (some i) (i + 1) children _ after (by simp [hi]) h

theorem holdsAll_of_layout (t : Tree) (parent : Option Nat) (i : Nat) :
    ∀ (ts : List Term) (before after : List Node), before.length = i →
      t.nodes.toList = before ++ (layoutAll parent i ts ++ after) → HoldsAll t parent i ts
  | [], _, _, _, _ => trivial
  | c :: cs, before, after, hi, h => by
    rw [layoutAll, List.append_assoc] at h
    refine ⟨holds_of_layout t parent i c before _ hi h, ?_⟩
    apply holdsAll_of_layout t parent (i + c.size) cs (before ++ layout parent i c) after
    · simp [hi, Term.length_layout]
    · rw [h]
      simp

end

theorem holds_tree (T : Term) : Holds T.tree none root T :=
  holds_of_layout T.tree none root T [] [] rfl (by simp [Term.tree])

theorem size_tree (T : Term) : T.tree.size = T.size := by
  simp [size, Term.tree, Term.length_layout]

namespace Holds

variable {T : Term}

theorem node (h : Holds t parent i T) :
    t.node i = ⟨T.kind, T.text, T.line, parent, (places (i + 1) T.children).toArray⟩ := by
  obtain ⟨kind, text, line, children⟩ := T
  exact node_of_getElem? h.1

theorem kind (h : Holds t parent i T) : t.kind i = T.kind := by
  simp [Tree.kind, h.node]

theorem text (h : Holds t parent i T) : t.text i = T.text := by
  simp [Tree.text, h.node]

theorem line (h : Holds t parent i T) : t.line i = T.line := by
  simp [Tree.line, h.node]

theorem parent_eq (h : Holds t parent i T) : t.parent i = parent := by
  simp [Tree.parent, h.node]

theorem children (h : Holds t parent i T) : t.children i = places (i + 1) T.children := by
  simp [Tree.children, h.node]

theorem below (h : Holds t parent i T) : HoldsAll t (some i) (i + 1) T.children := by
  obtain ⟨kind, text, line, children⟩ := T
  exact h.2

theorem lt_size (h : Holds t parent i T) : i < t.size := by
  obtain ⟨kind, text, line, children⟩ := T
  exact lt_size_of_getElem? h.1

end Holds

theorem size_eq_succ (T : Term) : T.size = sizeAll T.children + 1 := by
  obtain ⟨kind, text, line, children⟩ := T
  rfl

theorem range'_size (i : Nat) (T : Term) :
    List.range' i T.size = i :: List.range' (i + 1) (sizeAll T.children) := by
  rw [size_eq_succ, List.range'_succ]

/-- A child is laid out at its place, within the layout of its siblings. -/
theorem HoldsAll.of_mem_places {ts : List Term} (h : HoldsAll t parent i ts) {c : Nat}
    (hc : c ∈ places i ts) :
    ∃ T ∈ ts, Holds t parent c T ∧ i ≤ c ∧ c + T.size ≤ i + sizeAll ts := by
  induction ts generalizing i with
  | nil => simp [places] at hc
  | cons u us ih =>
    rcases List.mem_cons.mp hc with rfl | hc
    · exact ⟨u, List.mem_cons_self, h.1, Nat.le_refl _, by simp [sizeAll]⟩
    · obtain ⟨T, hT, hold, hle, hsize⟩ := ih h.2 hc
      exact ⟨T, List.mem_cons_of_mem u hT, hold, by omega, by rw [sizeAll]; omega⟩

mutual

/-- Every number within a layout is the place of a term of its own. The parent of an inner one is
a smaller number of the layout that lists it among its children. -/
theorem Holds.inside : ∀ {T : Term} {parent : Option Nat} {i n : Nat}, Holds t parent i T →
    i ≤ n → n < i + T.size →
    ∃ q U, Holds t q n U ∧ n + U.size ≤ i + T.size ∧
      ((n = i ∧ q = parent) ∨ ∃ p, q = some p ∧ i ≤ p ∧ p < n ∧ n ∈ t.children p)
  | .node _ _ _ children, parent, i, n, h, hle, hlt => by
    by_cases hn : n = i
    · subst hn
      exact ⟨parent, _, h, Nat.le_refl _, Or.inl ⟨rfl, rfl⟩⟩
    · rw [Term.size] at hlt ⊢
      obtain ⟨q, U, hU, hsize, hq⟩ := h.2.inside (n := n) (by omega) (by omega)
      refine ⟨q, U, hU, by omega, Or.inr ?_⟩
      rcases hq with ⟨rfl, hmem⟩ | ⟨p, rfl, hip, hpn, hmem⟩
      · exact ⟨i, rfl, Nat.le_refl _, by omega, by rw [h.children]; exact hmem⟩
      · exact ⟨p, rfl, by omega, hpn, hmem⟩

theorem HoldsAll.inside : ∀ {ts : List Term} {parent : Option Nat} {i n : Nat},
    HoldsAll t parent i ts → i ≤ n → n < i + sizeAll ts →
    ∃ q U, Holds t q n U ∧ n + U.size ≤ i + sizeAll ts ∧
      ((q = parent ∧ n ∈ places i ts) ∨ ∃ p, q = some p ∧ i ≤ p ∧ p < n ∧ n ∈ t.children p)
  | [], _, _, _, _, _, hlt => by
    rw [sizeAll] at hlt
    omega
  | c :: cs, parent, i, n, h, hle, hlt => by
    rw [sizeAll] at hlt ⊢
    by_cases hn : n < i + c.size
    · obtain ⟨q, U, hU, hsize, hq⟩ := h.1.inside hle hn
      refine ⟨q, U, hU, by omega, ?_⟩
      rcases hq with ⟨rfl, rfl⟩ | hq
      · exact Or.inl ⟨rfl, List.mem_cons_self⟩
      · exact Or.inr hq
    · obtain ⟨q, U, hU, hsize, hq⟩ := h.2.inside (n := n) (by omega) (by omega)
      refine ⟨q, U, hU, by omega, ?_⟩
      rcases hq with ⟨rfl, hmem⟩ | ⟨p, rfl, hip, hpn, hmem⟩
      · exact Or.inl ⟨rfl, List.mem_cons_of_mem _ hmem⟩
      · exact Or.inr ⟨p, rfl, by omega, hpn, hmem⟩

end

mutual

theorem Holds.descendantsOnto : ∀ {T : Term} {parent : Option Nat} {i : Nat}, Holds t parent i T →
    ∀ rest, t.descendantsOnto i rest = List.range' (i + 1) (sizeAll T.children) ++ rest
  | .node _ _ _ children, parent, i, h, rest => by
    rw [Tree.descendantsOnto, h.children]
    exact h.2.descendantsOnto (Nat.lt_succ_self i) rest

theorem HoldsAll.descendantsOnto : ∀ {ts : List Term} {parent : Option Nat} {i j : Nat},
    HoldsAll t parent i ts → j < i → ∀ rest,
    (places i ts).foldr
      (fun c rest => if j < c ∧ c < t.size then c :: t.descendantsOnto c rest else rest) rest =
      List.range' i (sizeAll ts) ++ rest
  | [], _, _, _, _, _, _ => rfl
  | c :: cs, parent, i, j, h, hj, rest => by
    have hc := h.1.lt_size
    rw [places, List.foldr_cons, if_pos ⟨hj, hc⟩, h.2.descendantsOnto (by omega) rest,
      h.1.descendantsOnto, sizeAll, ← List.range'_append_1, range'_size, List.append_assoc,
      List.cons_append]

end

theorem Holds.descendants {T : Term} (h : Holds t parent i T) :
    t.descendants i = List.range' (i + 1) (sizeAll T.children) := by
  rw [Tree.descendants, h.descendantsOnto, List.append_nil]

end Tree

end ArchLint.Syntax
