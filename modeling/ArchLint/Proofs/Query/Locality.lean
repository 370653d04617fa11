import ArchLint.Proofs.Query.Resolution

/-!
# Bindings inside a class

What an identifier in a class refers to is decided inside the class. Two classes with the same
contents, in whatever files and around them whatever else, are compared node by node: the searches
towards the root stop at the class at the latest, and the search for definitions never leaves it.
-/

namespace ArchLint.Syntax.Tree

open Term (places sizeAll)

/-- Counting off the same children on the way down from `c` and from `c'` leads to these nodes. -/
inductive Matches (t u : Tree) (c c' : Nat) : Nat → Nat → Prop where
  | top : Matches t u c c' c c'
  | child {p p' d d' k : Nat} : Matches t u c c' p p' → t.child p k = some d →
      u.child p' k = some d' → Matches t u c c' d d'

variable {t u : Tree} {c c' : Nat} {U : Term}

mutual

theorem Unfolds.unique {i : Nat} : ∀ {T V : Term}, t.Unfolds i T → t.Unfolds i V → T = V
  | .node kind text line children, .node kind' text' line' children', h, h' => by
    obtain ⟨-, hk, ht, hl, hc⟩ := h
    obtain ⟨-, hk', ht', hl', hc'⟩ := h'
    rw [← hk, ← ht, ← hl, ← hk', ← ht', ← hl', UnfoldsAll.unique hc hc']

theorem UnfoldsAll.unique : ∀ {is : List Nat} {Ts Vs : List Term},
    t.UnfoldsAll is Ts → t.UnfoldsAll is Vs → Ts = Vs
  | [], [], [], _, _ => rfl
  | _ :: _, _ :: _, _ :: _, h, h' => by
    rw [Unfolds.unique h.1 h'.1, UnfoldsAll.unique h.2 h'.2]

end

theorem Finished.holds_of_unfolds (ht : t.Finished) (h : t.Unfolds c U) : ∃ q, Holds t q c U := by
  obtain ⟨T, -, hT⟩ := ht.exists_isLayout
  have hc : c < t.size := by
    obtain ⟨kind, text, line, children⟩ := U
    exact h.1
  obtain ⟨q, V, hV, -⟩ := hT.inside hc
  rw [h.unique hV.unfolds]
  exact ⟨q, hV⟩

mutual

/-- Numbers that lie equally far into two layouts of one term hold the same term, and their parents
lie equally far into the layouts. -/
theorem Holds.mirror : ∀ {U : Term} {q q' : Option Nat} {i i' k : Nat}, Holds t q i U →
    Holds u q' i' U → k < U.size →
    ∃ p p' V, Holds t p (i + k) V ∧ Holds u p' (i' + k) V ∧
      (k = 0 ∨ ∃ j < k, p = some (i + j) ∧ p' = some (i' + j))
  | .node kind text line children, q, q', i, i', 0, h, h', _ => ⟨q, q', _, h, h', .inl rfl⟩
  | .node _ _ _ children, q, q', i, i', k + 1, h, h', hk => by
    rw [Term.size] at hk
    obtain ⟨p, p', V, hV, hV', hp⟩ := h.2.mirror h'.2 (Nat.lt_of_succ_lt_succ hk)
    rw [show i + 1 + k = i + (k + 1) by omega] at hV
    rw [show i' + 1 + k = i' + (k + 1) by omega] at hV'
    refine ⟨p, p', V, hV, hV', .inr ?_⟩
    rcases hp with ⟨rfl, rfl⟩ | ⟨j, hj, rfl, rfl⟩
    · exact ⟨0, Nat.succ_pos k, rfl, rfl⟩
    · exact ⟨j + 1, Nat.succ_lt_succ hj, congrArg some (by omega), congrArg some (by omega)⟩

theorem HoldsAll.mirror : ∀ {Us : List Term} {q q' : Option Nat} {i i' k : Nat},
    HoldsAll t q i Us → HoldsAll u q' i' Us → k < sizeAll Us →
    ∃ p p' V, Holds t p (i + k) V ∧ Holds u p' (i' + k) V ∧
      ((p = q ∧ p' = q') ∨ ∃ j < k, p = some (i + j) ∧ p' = some (i' + j))
  | [], _, _, _, _, _, _, _, hk => absurd hk (Nat.not_lt_zero _)
  | U :: Us, q, q', i, i', k, h, h', hk => by
    by_cases hU : k < U.size
    · obtain ⟨p, p', V, hV, hV', rfl | hp⟩ := h.1.mirror h'.1 hU
      · exact ⟨q, q', U, h.1, h'.1, .inl ⟨rfl, rfl⟩⟩
      · exact ⟨p, p', V, hV, hV', .inr hp⟩
    · rw [sizeAll] at hk
      obtain ⟨p, p', V, hV, hV', hp⟩ := h.2.mirror h'.2 (k := k - U.size) (by omega)
      rw [show i + U.size + (k - U.size) = i + k by omega] at hV
      rw [show i' + U.size + (k - U.size) = i' + k by omega] at hV'
      refine ⟨p, p', V, hV, hV', hp.imp_right ?_⟩
      rintro ⟨j, hj, rfl, rfl⟩
      exact ⟨U.size + j, by omega, congrArg some (by omega), congrArg some (by omega)⟩

end

theorem places_add (i k : Nat) (Ts : List Term) :
    places (i + k) Ts = (places k Ts).map (i + ·) := by
  induction Ts generalizing k with
  | nil => rfl
  | cons T Ts ih => rw [places, places, List.map_cons, Nat.add_assoc, ih]

/-- Two finished trees, and in each a node with the same contents. -/
structure Mirrors (t u : Tree) (c c' : Nat) (U : Term) : Prop where
  left : t.Finished
  right : u.Finished
  holds : ∃ q, Holds t q c U
  holds' : ∃ q, Holds u q c' U

namespace Mirrors

variable {j k : Nat}

theorem symm (h : Mirrors t u c c' U) : Mirrors u t c' c U :=
  ⟨h.right, h.left, h.holds', h.holds⟩

theorem node (h : Mirrors t u c c' U) (hk : k < U.size) :
    ∃ q q' V, Holds t q (c + k) V ∧ Holds u q' (c' + k) V ∧
      (k = 0 ∨ ∃ j < k, q = some (c + j) ∧ q' = some (c' + j)) := by
  obtain ⟨q, hc⟩ := h.holds
  obtain ⟨q', hc'⟩ := h.holds'
  exact hc.mirror hc' hk

theorem kind (h : Mirrors t u c c' U) (hk : k < U.size) : t.kind (c + k) = u.kind (c' + k) := by
  obtain ⟨q, q', V, hV, hV', -⟩ := h.node hk
  rw [hV.kind, hV'.kind]

theorem text (h : Mirrors t u c c' U) (hk : k < U.size) : t.text (c + k) = u.text (c' + k) := by
  obtain ⟨q, q', V, hV, hV', -⟩ := h.node hk
  rw [hV.text, hV'.text]

theorem line (h : Mirrors t u c c' U) (hk : k < U.size) : t.line (c + k) = u.line (c' + k) := by
  obtain ⟨q, q', V, hV, hV', -⟩ := h.node hk
  rw [hV.line, hV'.line]

theorem parent (h : Mirrors t u c c' U) (hpos : 0 < k) (hk : k < U.size) :
    ∃ j < k, t.parent (c + k) = some (c + j) ∧ u.parent (c' + k) = some (c' + j) := by
  obtain ⟨q, q', V, hV, hV', rfl | ⟨j, hj, rfl, rfl⟩⟩ := h.node hk
  · exact absurd hpos (Nat.lt_irrefl 0)
  · exact ⟨j, hj, hV.parent_eq, hV'.parent_eq⟩

theorem above_top (h : Mirrors t u c c' U) (d : Nat) : t.Above c d ↔ c < d ∧ d < c + U.size := by
  obtain ⟨T, -, hT⟩ := h.left.exists_isLayout
  obtain ⟨q, hc⟩ := h.holds
  exact hT.above_iff_lt hc

theorem children (h : Mirrors t u c c' U) (hk : k < U.size) :
    ∃ ks : List Nat, t.children (c + k) = ks.map (c + ·) ∧
      u.children (c' + k) = ks.map (c' + ·) ∧ ∀ j ∈ ks, k < j ∧ j < U.size := by
  obtain ⟨T, -, hT⟩ := h.left.exists_isLayout
  obtain ⟨q, q', V, hV, hV', -⟩ := h.node hk
  refine ⟨places (k + 1) V.children, ?_, ?_, fun j hj => ?_⟩
  · rw [hV.children, Nat.add_assoc, places_add]
  · rw [hV'.children, Nat.add_assoc, places_add]
  · have hmem : c + j ∈ t.children (c + k) := by
      rw [hV.children, Nat.add_assoc, places_add]
      exact List.mem_map_of_mem hj
    have hparent := (hT.child_lt hmem).2
    have hlt := hT.above_lt (.parent hparent)
    have habove : t.Above c (c + j) := by
      by_cases hzero : k = 0
      · subst hzero
        exact .parent hparent
      · exact .further hparent ((h.above_top _).mpr ⟨by omega, by omega⟩)
    have hsize := ((h.above_top _).mp habove).2
    omega

theorem above (h : Mirrors t u c c' U) (hj : j < U.size)
    (habove : t.Above (c + j) (c + k)) : u.Above (c' + j) (c' + k) := by
  obtain ⟨T, -, hT⟩ := h.left.exists_isLayout
  obtain ⟨T', -, hT'⟩ := h.right.exists_isLayout
  obtain ⟨q, q', V, hV, hV', -⟩ := h.node hj
  have hrange := (hT.above_iff_lt hV).mp habove
  exact (hT'.above_iff_lt hV').mpr (by omega)

theorem matches_iff (h : Mirrors t u c c' U) {n n' : Nat} :
    Matches t u c c' n n' ↔ ∃ k < U.size, n = c + k ∧ n' = c' + k := by
  obtain ⟨T, -, hT⟩ := h.left.exists_isLayout
  constructor
  · intro hn
    induction hn with
    | top => exact ⟨0, U.size_pos, rfl, rfl⟩
    | @child p p' d d' m _ hd hd' ih =>
      obtain ⟨k, hk, rfl, rfl⟩ := ih
      obtain ⟨ks, hks, hks', hbound⟩ := h.children hk
      rw [child_eq_getElem?, hks, List.getElem?_map, Option.map_eq_some_iff] at hd
      rw [child_eq_getElem?, hks', List.getElem?_map, Option.map_eq_some_iff] at hd'
      obtain ⟨j, hj, rfl⟩ := hd
      obtain ⟨j', hj', rfl⟩ := hd'
      obtain rfl : j = j' := Option.some.inj (hj.symm.trans hj')
      exact ⟨j, (hbound j (List.mem_of_getElem? hj)).2, rfl, rfl⟩
  · rintro ⟨k, hk, rfl, rfl⟩
    induction k using Nat.strongRecOn with
    | ind k ih =>
      by_cases hzero : k = 0
      · subst hzero
        exact .top
      · obtain ⟨j, hj, hparent, -⟩ := h.parent (Nat.pos_of_ne_zero hzero) hk
        obtain ⟨ks, hks, hks', -⟩ := h.children (Nat.lt_trans hj hk)
        have hmem := (hT.parent_lt (lt_size_of_parent hparent) hparent).2
        rw [hks, List.mem_map] at hmem
        obtain ⟨i, hi, hik⟩ := hmem
        obtain rfl : i = k := Nat.add_left_cancel hik
        obtain ⟨m, hm⟩ := List.mem_iff_getElem?.mp hi
        refine .child (k := m) (ih j hj (Nat.lt_trans hj hk)) ?_ ?_
        · rw [child_eq_getElem?, hks, List.getElem?_map, hm]
          rfl
        · rw [child_eq_getElem?, hks', List.getElem?_map, hm]
          rfl

theorem exists_nearest (h : Mirrors t u c c' U) (asked : Kind → Bool)
    (hasked : asked U.kind = true) (hpos : 0 < k) (hk : k < U.size) :
    ∃ j < k, t.Nearest asked (c + k) (c + j) ∧ u.Nearest asked (c' + k) (c' + j) := by
  obtain ⟨T, -, hT⟩ := h.left.exists_isLayout
  obtain ⟨T', -, hT'⟩ := h.right.exists_isLayout
  induction k using Nat.strongRecOn with
  | ind k ih =>
    obtain ⟨j, hj, hparent, hparent'⟩ := h.parent hpos hk
    have hsize := Nat.lt_trans hj hk
    simp only [hT.nearest_iff_of_parent hparent, hT'.nearest_iff_of_parent hparent',
      ← h.kind hsize]
    by_cases hfound : asked (t.kind (c + j)) = true
    · exact ⟨j, hj, by rw [if_pos hfound], by rw [if_pos hfound]⟩
    · have hjpos : 0 < j := by
        refine Nat.pos_of_ne_zero ?_
        rintro rfl
        obtain ⟨q, hc⟩ := h.holds
        exact hfound (by rw [Nat.add_zero, hc.kind]; exact hasked)
      obtain ⟨i, hi, hnearest⟩ := ih j hj hjpos hsize
      refine ⟨i, Nat.lt_trans hi hj, ?_⟩
      simpa only [if_neg hfound] using hnearest

theorem nearest (h : Mirrors t u c c' U) {asked : Kind → Bool} (hasked : asked U.kind = true)
    (hpos : 0 < k) (hk : k < U.size) (hn : t.Nearest asked (c + k) (c + j)) :
    u.Nearest asked (c' + k) (c' + j) := by
  obtain ⟨T, -, hT⟩ := h.left.exists_isLayout
  obtain ⟨i, -, hi, hi'⟩ := h.exists_nearest asked hasked hpos hk
  obtain rfl : i = j := Nat.add_left_cancel (hi.unique hT hn)
  exact hi'

theorem thisQualified (h : Mirrors t u c c' U) (hpos : 0 < k) (hk : k < U.size)
    (hthis : t.ThisQualified (c + k)) : u.ThisQualified (c' + k) := by
  obtain ⟨⟨p, hp, hdot⟩, m, ⟨p', before, after, hp', hchildren⟩, hm⟩ := hthis
  obtain ⟨j, hj, hparent, hparent'⟩ := h.parent hpos hk
  have hsize := Nat.lt_trans hj hk
  obtain rfl : p = c + j := Option.some.inj (hp.symm.trans hparent)
  obtain rfl : p' = c + j := Option.some.inj (hp'.symm.trans hparent)
  obtain ⟨ks, hks, hks', hbound⟩ := h.children hsize
  rw [hks, List.map_eq_append_iff] at hchildren
  obtain ⟨ks₁, ks₂, rfl, rfl, hfrom⟩ := hchildren
  obtain ⟨i, ks₃, rfl, rfl, hrest⟩ := List.map_eq_cons_iff.mp hfrom
  obtain ⟨i', ks₄, rfl, hi', rfl⟩ := List.map_eq_cons_iff.mp hrest
  obtain rfl : i' = k := Nat.add_left_cancel hi'
  have hi : i < U.size := (hbound i (by simp)).2
  refine ⟨⟨c' + j, hparent', by rw [← h.kind hsize, hdot]⟩, c' + i,
    ⟨c' + j, ks₁.map (c' + ·), ks₄.map (c' + ·), hparent', ?_⟩, by rw [← h.kind hi, hm]⟩
  rw [hks', List.map_append, List.map_cons, List.map_cons]

theorem declares (h : Mirrors t u c c' U) (hk : k < U.size) {name : String}
    (hname : t.Declares (c + k) name) : u.Declares (c' + k) name := by
  obtain ⟨m, type, i, rest, hchildren, htext⟩ := hname
  obtain ⟨ks, hks, hks', hbound⟩ := h.children hk
  rw [hks] at hchildren
  obtain ⟨m, ks₁, rfl, rfl, hbehind⟩ := List.map_eq_cons_iff.mp hchildren
  obtain ⟨type, ks₂, rfl, rfl, hrest⟩ := List.map_eq_cons_iff.mp hbehind
  obtain ⟨i, ks₃, rfl, rfl, rfl⟩ := List.map_eq_cons_iff.mp hrest
  refine ⟨c' + m, c' + type, c' + i, ks₃.map (c' + ·), hks', ?_⟩
  rw [← h.text (hbound i (by simp)).2, htext]

variable {n s d : Nat} {kind : Kind}

theorem exists_of_candidate (h : Mirrors t u c c' U) (hj : j < U.size)
    (hd : t.Candidate (c + j) n kind d) : ∃ k, 0 < k ∧ k < U.size ∧ d = c + k := by
  obtain ⟨T, -, hT⟩ := h.left.exists_isLayout
  obtain ⟨q, q', V, hV, -, -⟩ := h.node hj
  have hlt := hT.above_lt hd.below
  have hd : t.Above c d := by
    by_cases hzero : j = 0
    · subst hzero
      exact hd.below
    · have htop : t.Above c (c + j) := (h.above_top _).mpr ⟨by omega, by omega⟩
      exact htop.trans hd.below
  have hrange := (h.above_top d).mp hd
  exact ⟨d - c, by omega, by omega, by omega⟩

theorem candidate (h : Mirrors t u c c' U) (hj : j < U.size) (hn : n < U.size) (hd : d < U.size)
    (hcand : t.Candidate (c + j) (c + n) kind (c + d)) :
    u.Candidate (c' + j) (c' + n) kind (c' + d) where
  below := h.above hj hcand.below
  kind := (h.kind hd).symm.trans hcand.kind
  name := by
    obtain ⟨name, htext, hdeclares⟩ := hcand.name
    exact ⟨name, (h.text hn).symm.trans htext, h.declares hd hdeclares⟩
  line := by
    rw [← h.line hd, ← h.line hn]
    exact hcand.line

/-- A definition in question in the one class has a match that is in question in the other, and it
stands in matching scopes. -/
theorem exists_candidate (h : Mirrors t u c c' U) (hclass : U.kind = .classDef) (hj : j < U.size)
    (hn : n < U.size) (hd : t.Candidate (c + j) (c + n) kind d) :
    ∃ k < U.size, d = c + k ∧ u.Candidate (c' + j) (c' + n) kind (c' + k) ∧
      ∀ s, t.ScopeOf (c + k) (c + s) → u.ScopeOf (c' + k) (c' + s) := by
  obtain ⟨k, hpos, hk, rfl⟩ := h.exists_of_candidate hj hd
  have hscope : U.kind.isScope = true := by
    rw [hclass]
    rfl
  exact ⟨k, hk, rfl, h.candidate hj hn hk hd, fun s => h.nearest hscope hpos hk⟩

theorem fieldFor (h : Mirrors t u c c' U) (hclass : U.kind = .classDef) (hj : j < U.size)
    (hn : n < U.size) (hd : t.FieldFor (c + j) (c + n) d) :
    ∃ k < U.size, d = c + k ∧ u.FieldFor (c' + j) (c' + n) (c' + k) := by
  obtain ⟨k, hk, rfl, hcand, hscope⟩ := h.exists_candidate hclass hj hn hd.1
  exact ⟨k, hk, rfl, hcand, hscope _ hd.2⟩

theorem parameterFor (h : Mirrors t u c c' U) (hclass : U.kind = .classDef) (hj : j < U.size)
    (hn : n < U.size) (hd : t.ParameterFor (c + j) (c + s) (c + n) d) :
    ∃ k < U.size, d = c + k ∧ u.ParameterFor (c' + j) (c' + s) (c' + n) (c' + k) := by
  obtain ⟨k, hk, rfl, hcand, hscope⟩ := h.exists_candidate hclass hj hn hd.1
  exact ⟨k, hk, rfl, hcand, hscope _ hd.2⟩

theorem variableFor (h : Mirrors t u c c' U) (hclass : U.kind = .classDef) (hj : j < U.size)
    (hn : n < U.size) (hd : t.VariableFor (c + j) (c + s) (c + n) d) :
    ∃ k < U.size, d = c + k ∧ u.VariableFor (c' + j) (c' + s) (c' + n) (c' + k) := by
  obtain ⟨k, hk, rfl, hcand, hscope⟩ := h.exists_candidate hclass hj hn hd.1
  exact ⟨k, hk, rfl, hcand, hd.2.imp (hscope _) (hscope _)⟩

theorem exists_isBest (h : Mirrors t u c c' U) {P Q : Nat → Prop}
    {better better' : Nat → Nat → Prop}
    (hPQ : ∀ d, P d → ∃ k < U.size, d = c + k ∧ Q (c' + k))
    (hQP : ∀ d, Q d → ∃ k < U.size, d = c' + k ∧ P (c + k))
    (hbetter : ∀ j < U.size, ∀ k < U.size, better (c + j) (c + k) → better' (c' + j) (c' + k))
    {r : Option Nat} (hbest : IsBest better P r) :
    ∃ r', IsBest better' Q r' ∧ Option.Rel (Matches t u c c') r r' := by
  cases r with
  | none =>
    refine ⟨none, fun d hd => ?_, .none⟩
    obtain ⟨k, -, -, hk⟩ := hQP d hd
    exact hbest _ hk
  | some d =>
    obtain ⟨j, hj, rfl, hQ⟩ := hPQ d hbest.1
    refine ⟨some (c' + j), ⟨hQ, fun e he => ?_⟩, .some (h.matches_iff.mpr ⟨j, hj, rfl, rfl⟩)⟩
    obtain ⟨k, hk, rfl, hP⟩ := hQP e he
    exact hbetter j hj k hk (hbest.2 _ hP)

theorem exists_isLowest (h : Mirrors t u c c' U) {P Q : Nat → Prop}
    (hPQ : ∀ d, P d → ∃ k < U.size, d = c + k ∧ Q (c' + k))
    (hQP : ∀ d, Q d → ∃ k < U.size, d = c' + k ∧ P (c + k)) {r : Option Nat}
    (hbest : IsLowest P r) : ∃ r', IsLowest Q r' ∧ Option.Rel (Matches t u c c') r r' := by
  refine h.exists_isBest hPQ hQP (fun j hj k hk hle => ?_) hbest
  omega

theorem exists_isLatest (h : Mirrors t u c c' U) {P Q : Nat → Prop}
    (hPQ : ∀ d, P d → ∃ k < U.size, d = c + k ∧ Q (c' + k))
    (hQP : ∀ d, Q d → ∃ k < U.size, d = c' + k ∧ P (c + k)) {r : Option Nat}
    (hbest : t.IsLatest P r) :
    ∃ r', u.IsLatest Q r' ∧ Option.Rel (Matches t u c c') r r' := by
  refine h.exists_isBest hPQ hQP (fun j hj k hk hlater => ?_) hbest
  rw [← h.line hj, ← h.line hk]
  omega

theorem exists_refers (h : Mirrors t u c c' U) (hclass : U.kind = .classDef) (hpos : 0 < n)
    (hn : n < U.size) {r : Option Nat} (hr : t.Refers (c + n) r) :
    ∃ r', u.Refers (c' + n) r' ∧ Option.Rel (Matches t u c c') r r' := by
  obtain ⟨T, -, hT⟩ := h.left.exists_isLayout
  obtain ⟨j, hj, hclassOf, hclassOf'⟩ :=
    h.exists_nearest (fun k => decide (k = .classDef)) (decide_eq_true hclass) hpos hn
  obtain ⟨s, hs, hscopeOf, hscopeOf'⟩ :=
    h.exists_nearest Kind.isScope (by rw [hclass]; rfl) hpos hn
  have hjsize := Nat.lt_trans hj hn
  have hthis : u.ThisQualified (c' + n) ↔ t.ThisQualified (c + n) :=
    ⟨h.symm.thisQualified hpos hn, h.thisQualified hpos hn⟩
  cases hr with
  | outside hno => exact absurd hclassOf (hno _)
  | field hc hq hbest =>
    obtain rfl := hc.unique hT hclassOf
    obtain ⟨r', hbest', hrel⟩ := h.exists_isLowest
      (fun d => h.fieldFor hclass hjsize hn) (fun d => h.symm.fieldFor hclass hjsize hn) hbest
    exact ⟨r', .field hclassOf' (hthis.mpr hq) hbest', hrel⟩
  | parameter hc hs hq hbest =>
    obtain rfl := hc.unique hT hclassOf
    obtain rfl := hs.unique hT hscopeOf
    obtain ⟨r', hbest', hrel⟩ := h.exists_isLatest
      (fun d => h.parameterFor hclass hjsize hn) (fun d => h.symm.parameterFor hclass hjsize hn)
      hbest
    cases hrel with
    | some hd => exact ⟨_, .parameter hclassOf' hscopeOf' (hthis.not.mpr hq) hbest', .some hd⟩
  | inScope hc hs hq hnone hbest =>
    obtain rfl := hc.unique hT hclassOf
    obtain rfl := hs.unique hT hscopeOf
    obtain ⟨r', hbest', hrel⟩ := h.exists_isLatest
      (fun d => h.variableFor hclass hjsize hn) (fun d => h.symm.variableFor hclass hjsize hn)
      hbest
    refine ⟨r', .inScope hclassOf' hscopeOf' (hthis.not.mpr hq) (fun d hd => ?_) hbest', hrel⟩
    obtain ⟨k, -, -, hk⟩ := h.symm.parameterFor hclass hjsize hn hd
    exact hnone _ hk

end Mirrors

/-- What surrounds a class decides nothing about the names in it. If two classes of finished trees
have the same contents, then an identifier in the one and its match in the other both refer to
nothing, or to definitions that match each other. -/
theorem resolveDeclaration_local (ht : t.Finished) (hu : u.Finished) (hc : t.Unfolds c U)
    (hc' : u.Unfolds c' U) (hclass : U.kind = .classDef) {n n' : Nat}
    (hn : Matches t u c c' n n') (hident : t.kind n = .ident) :
    ∃ r r', t.resolveDeclaration n = .ok r ∧ u.resolveDeclaration n' = .ok r' ∧
      Option.Rel (Matches t u c c') r r' := by
  obtain ⟨T, -, hT⟩ := hu.exists_isLayout
  have h : Mirrors t u c c' U := ⟨ht, hu, ht.holds_of_unfolds hc, hu.holds_of_unfolds hc'⟩
  obtain ⟨k, hk, rfl, rfl⟩ := h.matches_iff.mp hn
  have hpos : 0 < k := by
    refine Nat.pos_of_ne_zero ?_
    rintro rfl
    obtain ⟨q, hholds⟩ := h.holds
    have hkind := hholds.kind.symm.trans hident
    rw [hclass] at hkind
    cases hkind
  obtain ⟨r, hr, hrefers⟩ := ht.resolveDeclaration_refers hident
  obtain ⟨r', hr', hrefers'⟩ := hu.resolveDeclaration_refers ((h.kind hk).symm.trans hident)
  obtain ⟨r'', hrefers'', hrel⟩ := h.exists_refers hclass hpos hk hrefers
  obtain rfl : r' = r'' := hrefers'.unique hT hrefers''
  exact ⟨r, r', hr, hr', hrel⟩

/-- A class by itself, and inside another class with a field of the same name: the use in its method
refers to its own field. -/
theorem resolveDeclaration_local_nested :
    let defines := fun line => Term.node .variableDef none line [.leaf .modifiers line,
      .node .type none line [.token .ident "int" line], .token .ident "x" line]
    let inner := Term.node .classDef none 2 [.token .ident "A" 2, defines 2,
      .node .methodDef none 3 [.token .ident "x" 3]]
    let outer := Term.node .classDef none 1 [.token .ident "B" 1, defines 1, inner]
    inner.tree.Finished ∧ outer.tree.Finished ∧ inner.tree.Unfolds 0 inner ∧
      outer.tree.Unfolds 7 inner ∧ inner.tree.resolveDeclaration 8 = .ok (some 2) ∧
      ∃ d, outer.tree.resolveDeclaration 15 = .ok (some d) ∧
        Matches inner.tree outer.tree 0 7 2 d := by
  intro defines inner outer
  have hinner : inner.tree.Finished :=
    ⟨_, ofSteps_of_wellShaped inner.word_steps (by decide)⟩
  have houter : outer.tree.Finished :=
    ⟨_, ofSteps_of_wellShaped outer.word_steps (by decide)⟩
  have hholds : Holds outer.tree (some 0) 7 inner := (holds_tree outer).2.2.2.1
  have hmethod : Matches inner.tree outer.tree 0 7 7 14 :=
    .child (k := 2) .top (by decide) (by decide)
  have huse : Matches inner.tree outer.tree 0 7 8 15 :=
    .child (k := 0) hmethod (by decide) (by decide)
  have hfield : inner.tree.resolveDeclaration 8 = .ok (some 2) := by cbv
  obtain ⟨r, r', hr, hr', hrel⟩ := resolveDeclaration_local hinner houter
    (holds_tree inner).unfolds hholds.unfolds rfl huse (by decide)
  obtain rfl : r = some 2 := Except.ok.inj (hr.symm.trans hfield)
  cases hrel with
  | some hd =>
    exact ⟨hinner, houter, (holds_tree inner).unfolds, hholds.unfolds, hfield, _, hr', hd⟩

end ArchLint.Syntax.Tree
