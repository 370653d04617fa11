import ArchLint.Proofs.Syntax.Arena

/-!
# Navigation

Being above another node, being the nearest such node of some kind, and standing right behind a
sibling, each said through the links alone. In a finished tree the searches find what these
relations say.
-/

namespace ArchLint.Syntax.Tree

/-- A tree that the builder has handed out. -/
def Finished (t : Tree) : Prop :=
  ∃ steps, ofSteps steps = .ok t

/-- Some parents further up from `d` lies `a`. -/
inductive Above (t : Tree) : Nat → Nat → Prop where
  | parent {p d : Nat} : t.parent d = some p → Above t p d
  | further {a p d : Nat} : t.parent d = some p → Above t a p → Above t a d

/-- The lowest node above `d` whose kind is one of those asked for. -/
structure Nearest (t : Tree) (asked : Kind → Bool) (d a : Nat) : Prop where
  above : t.Above a d
  kind : asked (t.kind a) = true
  lowest : ∀ b, t.Above b d → asked (t.kind b) = true → b = a ∨ t.Above b a

def Adjacent (t : Tree) (m n : Nat) : Prop :=
  ∃ p before after, t.parent n = some p ∧ t.children p = before ++ m :: n :: after

variable {t : Tree}

theorem Finished.exists_isLayout (h : t.Finished) : ∃ T, T.WellShaped ∧ t.IsLayout T := by
  obtain ⟨steps, h⟩ := h
  exact Tree.exists_isLayout h

theorem Finished.shapeFault (h : t.Finished) {i : Nat} (hi : i < t.size) :
    t.shapeFault i = none := by
  obtain ⟨steps, h⟩ := h
  obtain ⟨T, hT, -, rfl⟩ := exists_term_of_ofSteps h
  have hf := firstFault_tree T
  rw [T.wellShaped_iff.mp hT, firstFault, List.findSome?_eq_none_iff] at hf
  simpa using hf i (List.mem_range.mpr hi)

/-- From the root on, pre-order is the order of the numbers. -/
theorem Finished.preorder (h : t.Finished) : root :: t.descendants root = List.range t.size := by
  obtain ⟨T, -, hT⟩ := h.exists_isLayout
  rw [hT.isArena.preorder, hT.size, size_eq_succ, List.range_eq_range', List.range'_succ]
  rfl

theorem lt_size_of_kind {i : Nat} (h : t.kind i ≠ .other) : i < t.size := by
  by_contra hi
  refine h ?_
  rw [kind, node_of_size_le (Nat.le_of_not_lt hi)]
  rfl

theorem child_eq_getElem? (t : Tree) (i n : Nat) : t.child i n = (t.children i)[n]? := by
  simp [child, children]

theorem Finished.definition_children (ht : t.Finished) {d : Nat}
    (hk : t.kind d = .variableDef ∨ t.kind d = .parameterDef) :
    ∃ m type i rest name, t.children d = m :: type :: i :: rest ∧ t.kind m = .modifiers ∧
      t.kind type = .type ∧ t.kind i = .ident ∧ t.text i = some name := by
  have hd : d < t.size := lt_size_of_kind (by rcases hk with hk | hk <;> simp [hk])
  have hshape : ((t.children d).take 3).map t.kind = [.modifiers, .type, .ident] ∧
      ((t.child d 2).bind t.text).isSome = true := by
    have hf := ht.shapeFault hd
    rw [Tree.shapeFault] at hf
    rcases hk with hk | hk <;>
    · rw [hk] at hf
      simpa only [ite_eq_left_iff, reduceCtorEq, imp_false, not_not] using hf
  obtain ⟨hkinds, htext⟩ := hshape
  rcases hc : t.children d with _ | ⟨m, _ | ⟨type, _ | ⟨i, rest⟩⟩⟩
  · simp [hc] at hkinds
  · simp [hc] at hkinds
  · simp [hc] at hkinds
  · have hchild : t.child d 2 = some i := by rw [child_eq_getElem?, hc]; rfl
    rw [hchild] at htext
    obtain ⟨name, hname⟩ := Option.isSome_iff_exists.mp htext
    simp [hc] at hkinds
    exact ⟨m, type, i, rest, name, rfl, hkinds.1, hkinds.2.1, hkinds.2.2, hname⟩

theorem Finished.dot_children (ht : t.Finished) {i : Nat} (hk : t.kind i = .dot) :
    ∃ a b, t.children i = [a, b] := by
  have hf := ht.shapeFault (lt_size_of_kind (by simp [hk] : t.kind i ≠ .other))
  rw [Tree.shapeFault, hk] at hf
  simp only [ite_eq_left_iff, reduceCtorEq, imp_false, not_not] at hf
  exact List.length_eq_two.mp hf

theorem lt_size_of_parent {d p : Nat} (h : t.parent d = some p) : d < t.size := by
  by_contra hd
  rw [parent, node_of_size_le (Nat.le_of_not_lt hd)] at h
  cases h

theorem Above.lt_size {a d : Nat} (h : t.Above a d) : d < t.size := by
  cases h with
  | parent hp => exact lt_size_of_parent hp
  | further hp _ => exact lt_size_of_parent hp

theorem Above.trans {a b d : Nat} (hab : t.Above a b) (hbd : t.Above b d) : t.Above a d := by
  induction hbd with
  | parent hp => exact .further hp hab
  | further hp _ ih => exact .further hp ih

theorem above_iff_of_parent {a d p : Nat} (hp : t.parent d = some p) :
    t.Above a d ↔ a = p ∨ t.Above a p := by
  constructor
  · rintro (h | ⟨h, ha⟩)
    · exact Or.inl (Option.some.inj (h.symm.trans hp))
    · rw [hp] at h
      cases h
      exact Or.inr ha
  · rintro (rfl | h)
    · exact .parent hp
    · exact .further hp h

theorem not_above_of_parent_none {a d : Nat} (hp : t.parent d = none) : ¬ t.Above a d := by
  rintro (h | ⟨h, -⟩) <;> rw [hp] at h <;> cases h

namespace IsLayout

variable {T : Term}

theorem above_lt (h : t.IsLayout T) {a d : Nat} (ha : t.Above a d) : a < d := by
  induction ha with
  | parent hp => exact (h.parent_lt (lt_size_of_parent hp) hp).1
  | further hp _ ih => exact Nat.lt_trans ih (h.parent_lt (lt_size_of_parent hp) hp).1

end IsLayout

theorem Nearest.unique {T : Term} (h : t.IsLayout T) {asked : Kind → Bool} {a b d : Nat}
    (ha : t.Nearest asked d a) (hb : t.Nearest asked d b) : a = b := by
  rcases ha.lowest b hb.above hb.kind with rfl | hba
  · rfl
  · rcases hb.lowest a ha.above ha.kind with rfl | hab
    · rfl
    · exact absurd (h.above_lt hba) (Nat.lt_asymm (h.above_lt hab))

theorem HoldsAll.exists_subterm {Ts : List Term} {q : Option Nat} {i n : Nat}
    (h : HoldsAll t q i Ts) (hle : i ≤ n) (hlt : n < i + Term.sizeAll Ts) :
    ∃ q', ∃ U ∈ Term.subtermsAll Ts, Holds t q' n U := by
  have hmem : n ∈ List.range' i (Term.sizeAll Ts) := List.mem_range'_1.mpr ⟨hle, hlt⟩
  obtain ⟨k, hk, hn⟩ := List.getElem_of_mem hmem
  have hk' : k < (Term.subtermsAll Ts).length := h.preorder.length_eq ▸ hk
  obtain ⟨q', hq⟩ := h.preorder.get hk hk'
  rw [List.get_eq_getElem, hn] at hq
  exact ⟨q', _, List.getElem_mem hk', hq⟩

namespace IsLayout

variable {T : Term}

theorem nearest_iff_of_parent (h : t.IsLayout T) {asked : Kind → Bool} {a d p : Nat}
    (hp : t.parent d = some p) :
    t.Nearest asked d a ↔
      if asked (t.kind p) = true then a = p else t.Nearest asked p a := by
  have hd := lt_size_of_parent hp
  split
  · next hk =>
    constructor
    · rintro ⟨ha, -, hl⟩
      rcases hl p (.parent hp) hk with rfl | hpa
      · rfl
      · rcases (above_iff_of_parent hp).mp ha with rfl | hap
        · rfl
        · have := h.above_lt hpa
          have := h.above_lt hap
          omega
    · rintro rfl
      exact ⟨.parent hp, hk, fun b hb _ => (above_iff_of_parent hp).mp hb⟩
  · next hk =>
    constructor
    · rintro ⟨ha, hka, hl⟩
      rcases (above_iff_of_parent hp).mp ha with rfl | hap
      · exact absurd hka hk
      · exact ⟨hap, hka, fun b hb hkb => hl b (.further hp hb) hkb⟩
    · rintro ⟨ha, hka, hl⟩
      refine ⟨.further hp ha, hka, fun b hb hkb => ?_⟩
      rcases (above_iff_of_parent hp).mp hb with rfl | hb
      · exact absurd hkb hk
      · exact hl b hb hkb

theorem find?_ancestors_eq_some (h : t.IsLayout T) {asked : Kind → Bool} {a d : Nat} :
    (t.ancestors d).find? (fun b => asked (t.kind b)) = some a ↔ t.Nearest asked d a := by
  induction d using Nat.strongRecOn with
  | ind d ih =>
    cases hp : t.parent d with
    | none =>
      rw [ancestors, hp]
      simp only [List.find?_nil, reduceCtorEq, false_iff]
      exact fun hn => not_above_of_parent_none hp hn.above
    | some p =>
      have hd := lt_size_of_parent hp
      rw [h.ancestors_eq hd hp, h.nearest_iff_of_parent hp, List.find?_cons]
      split
      · next hk => simp [hk, eq_comm]
      · next hk => simpa [hk] using ih p (h.parent_lt hd hp).1

theorem mem_ancestors (h : t.IsLayout T) {a d : Nat} : a ∈ t.ancestors d ↔ t.Above a d := by
  induction d using Nat.strongRecOn with
  | ind d ih =>
    cases hp : t.parent d with
    | none =>
      rw [ancestors, hp]
      simp [not_above_of_parent_none hp]
    | some p =>
      have hd := lt_size_of_parent hp
      rw [h.ancestors_eq hd hp, List.mem_cons, ih p (h.parent_lt hd hp).1,
        above_iff_of_parent hp]

theorem find?_ancestors_eq_none (h : t.IsLayout T) {asked : Kind → Bool} {d : Nat} :
    (t.ancestors d).find? (fun b => asked (t.kind b)) = none ↔
      ∀ a, t.Above a d → ¬ asked (t.kind a) = true := by
  simp only [List.find?_eq_none, h.mem_ancestors]

/-- The nodes below `c` are the numbers that follow it, up to the size of its term. -/
theorem above_iff_lt (h : t.IsLayout T) {q : Option Nat} {c d : Nat} {U : Term}
    (hU : Holds t q c U) : t.Above c d ↔ c < d ∧ d < c + U.size := by
  constructor
  · intro ha
    induction ha with
    | @parent d hp =>
      have hmem := (h.parent_lt (lt_size_of_parent hp) hp).2
      rw [hU.children] at hmem
      obtain ⟨V, -, -, hle, hsize⟩ := hU.below.of_mem_places hmem
      have := V.size_pos
      rw [size_eq_succ U]
      omega
    | @further p d hp _ ih =>
      obtain ⟨hcp, hpU⟩ := ih
      have hmem := (h.parent_lt (lt_size_of_parent hp) hp).2
      obtain ⟨q', V, hV, hVU, -⟩ := hU.inside (Nat.le_of_lt hcp) hpU
      rw [hV.children] at hmem
      obtain ⟨W, -, -, hle, hsize⟩ := hV.below.of_mem_places hmem
      have := W.size_pos
      rw [size_eq_succ V] at hVU
      omega
  · rintro ⟨hcd, hdU⟩
    induction d using Nat.strongRecOn with
    | ind d ih =>
      obtain ⟨q', V, hV, -, ⟨rfl, -⟩ | ⟨p, rfl, hcp, hpd, -⟩⟩ := hU.inside (Nat.le_of_lt hcd) hdU
      · omega
      · by_cases hp : p = c
        · subst hp
          exact .parent hV.parent_eq
        · exact .further hV.parent_eq (ih p hpd (by omega) (by omega))

theorem exists_subterm (h : t.IsLayout T) {n : Nat} (hn : n < t.size) :
    ∃ q, ∃ U ∈ T.subterms, Holds t q n U := by
  have hall : HoldsAll t none root [T] := ⟨h.holds, trivial⟩
  have hlt : n < root + Term.sizeAll [T] := by
    rw [h.size] at hn
    simp only [Term.sizeAll, root]
    omega
  obtain ⟨q, U, hU, hholds⟩ := hall.exists_subterm (Nat.zero_le n) hlt
  rw [Term.subtermsAll, Term.subtermsAll, List.append_nil] at hU
  exact ⟨q, U, hU, hholds⟩

theorem exists_placed (h : t.IsLayout T) {i p : Nat} (hp : t.parent i = some p) :
    ∃ q, ∃ U ∈ T.subterms, Holds t q p U ∧ ∃ V ∈ U.children, Holds t (some p) i V := by
  obtain ⟨hlt, hmem⟩ := h.parent_lt (lt_size_of_parent hp) hp
  obtain ⟨q, U, hU, hholds⟩ := h.exists_subterm (Nat.lt_trans hlt (lt_size_of_parent hp))
  rw [hholds.children] at hmem
  obtain ⟨V, hV, hi, -⟩ := hholds.below.of_mem_places hmem
  exact ⟨q, U, hU, hholds, V, hV, hi⟩

theorem mem_descendants (h : t.IsLayout T) {c d : Nat} (hc : c < t.size) :
    d ∈ t.descendants c ↔ t.Above c d := by
  obtain ⟨q, U, hU, -⟩ := h.inside hc
  rw [h.above_iff_lt hU, hU.descendants, List.mem_range'_1, size_eq_succ U]
  omega

theorem pairwise_descendants (h : t.IsLayout T) {c : Nat} (hc : c < t.size) :
    (t.descendants c).Pairwise (· < ·) := by
  obtain ⟨q, U, hU, -⟩ := h.inside hc
  rw [hU.descendants]
  exact List.pairwise_lt_range'

/-- A node other than the root stands between its elder and its younger siblings. -/
theorem exists_siblings (h : t.IsLayout T) {n p : Nat} (hp : t.parent n = some p) :
    ∃ before after, t.children p = before ++ n :: after :=
  List.append_of_mem (h.parent_lt (lt_size_of_parent hp) hp).2

theorem siblings_lt (h : t.IsLayout T) {p n : Nat} {before after : List Nat}
    (hc : t.children p = before ++ n :: after) : (∀ m ∈ before, m < n) ∧ ∀ m ∈ after, n < m := by
  have hsorted := h.increasing p
  rw [hc] at hsorted
  obtain ⟨-, hafter, hbefore⟩ := List.pairwise_append.mp hsorted
  exact ⟨fun m hm => hbefore m hm n List.mem_cons_self, (List.pairwise_cons.mp hafter).1⟩

theorem place_eq (h : t.IsLayout T) {p n : Nat} {before after : List Nat}
    (hc : t.children p = before ++ n :: after) : t.place n = some (p, before.length) := by
  have hmem : n ∈ t.children p := by simp [hc]
  have hbefore : before.findIdx? (· = n) = none := by
    rw [List.findIdx?_eq_none_iff]
    intro x hx
    exact decide_eq_false (Nat.ne_of_lt ((h.siblings_lt hc).1 x hx))
  have hi : (t.children p).findIdx? (· = n) = some before.length := by
    rw [hc, List.findIdx?_append, hbefore]
    simp [List.findIdx?_cons]
  simp only [place, (h.child_lt hmem).2, hi, Option.map_some]

theorem nextSibling_eq (h : t.IsLayout T) {p n : Nat} {before after : List Nat}
    (hc : t.children p = before ++ n :: after) : t.nextSibling n = after.head? := by
  simp only [nextSibling, h.place_eq hc, child_eq_getElem?]
  rw [hc, List.getElem?_append_right (Nat.le_succ _), List.head?_eq_getElem?]
  simp

theorem prevSibling_eq (h : t.IsLayout T) {p n : Nat} {before after : List Nat}
    (hc : t.children p = before ++ n :: after) : t.prevSibling n = before.getLast? := by
  rw [prevSibling, h.place_eq hc]
  rcases List.eq_nil_or_concat before with rfl | ⟨elder, m, rfl⟩
  · rfl
  · simp only [List.concat_eq_append, List.length_append, List.length_singleton,
      child_eq_getElem?, hc]
    simp

theorem prevSibling_eq_some (h : t.IsLayout T) {m n : Nat} :
    t.prevSibling n = some m ↔ t.Adjacent m n := by
  constructor
  · intro hm
    cases hp : t.parent n with
    | none => simp [prevSibling, place, hp] at hm
    | some p =>
      obtain ⟨before, after, hc⟩ := h.exists_siblings hp
      rw [h.prevSibling_eq hc] at hm
      obtain ⟨elder, rfl⟩ := List.getLast?_eq_some_iff.mp hm
      exact ⟨p, elder, after, hp, by simpa using hc⟩
  · rintro ⟨p, before, after, -, hc⟩
    rw [List.append_cons] at hc
    rw [h.prevSibling_eq hc, List.getLast?_concat]

end IsLayout

end ArchLint.Syntax.Tree
