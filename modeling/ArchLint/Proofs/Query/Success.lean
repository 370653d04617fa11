import ArchLint.Proofs.Query.Resolution
import ArchLint.Proofs.Syntax.Soundness
import ArchLint.Query.Assignment
import ArchLint.Query.Name

/-!
# Queries that succeed

On a node of a kind that it is about, a query on a finished tree has an answer, and on any other
node it complains about the kind: no query ever misses a part of a node. The target of an
assignment is an identifier wherever the assignment shows it on its left.
-/

namespace ArchLint.Syntax.Tree

variable {t : Tree} {i n : Nat}

theorem kind_of_findFirst {k : Kind} (h : t.findFirst k i = some n) : t.kind n = k := by
  fun_induction findFirst t k i generalizing n with
  | case1 i hk =>
    cases h
    exact hk
  | case2 i hk ih =>
    obtain ⟨c, -, hc⟩ := List.exists_of_findSome?_eq_some h
    split at hc
    · next hlt => exact ih c hlt hc
    · cases hc

theorem Finished.exists_findFirst (ht : t.Finished) {k : Kind} {c : Nat} (hc : c ∈ t.children i)
    (hk : t.kind c = k) : ∃ n, t.findFirst k i = some n := by
  obtain ⟨T, -, hT⟩ := ht.exists_isLayout
  obtain ⟨hsize, hparent⟩ := hT.child_lt hc
  have hlt := (hT.parent_lt hsize hparent).1
  have hfound : t.findFirst k c = some c := by rw [findFirst, if_pos hk]
  rw [findFirst]
  split
  · exact ⟨i, rfl⟩
  · rw [← Option.isSome_iff_exists, List.findSome?_isSome_iff]
    exact ⟨c, hc, by simp [hlt, hsize, hfound]⟩

theorem check_of_accepts {q : Query} (hk : t.kind i ∈ q.accepts) : q.check t i = .ok () := by
  rw [Query.check, if_pos (List.contains_iff_mem.mpr hk)]

theorem Finished.exists_qualifiedName (ht : t.Finished)
    (hk : t.kind i ∈ Query.qualifiedName.accepts) : ∃ name, t.qualifiedName i = .ok name := by
  have hnamed : t.hasNamedChild i [.ident, .dot] = true := by
    simp only [Query.accepts, List.mem_cons, List.not_mem_nil, or_false] at hk
    rcases hk with hk | hk | hk <;>
    · have hf := ht.shapeFault (lt_size_of_kind (by simp [hk] : t.kind i ≠ .other))
      rw [Tree.shapeFault, hk] at hf
      simpa only [ite_eq_left_iff, reduceCtorEq, imp_false, not_not] using hf
  obtain ⟨c, hc, hname⟩ := List.any_eq_true.mp hnamed
  simp only [List.contains_cons, List.contains_nil, Bool.or_false, Bool.and_eq_true,
    Bool.or_eq_true, beq_iff_eq] at hname
  rw [qualifiedName, check_of_accepts hk]
  cases hdot : t.findFirst .dot i with
  | some dot => exact ⟨_, rfl⟩
  | none =>
    have hident : t.kind c = .ident := by
      refine hname.1.resolve_right fun hk => ?_
      obtain ⟨j, hj⟩ := ht.exists_findFirst hc hk
      rw [hdot] at hj
      cases hj
    obtain ⟨j, hj⟩ := ht.exists_findFirst hc hident
    obtain ⟨name, hname⟩ := ht.exists_text (kind_of_findFirst hj)
    refine ⟨name, ?_⟩
    rw [hj, Option.bind_some, hname]
    rfl

theorem exists_superClassName (hk : t.kind i ∈ Query.superClassName.accepts) :
    ∃ name, t.superClassName i = .ok name := by
  rw [superClassName, check_of_accepts hk]
  exact ⟨_, rfl⟩

theorem HoldsAll.map_kind {q : Option Nat} {Us : List Term} (h : HoldsAll t q i Us) :
    (Term.places i Us).map t.kind = Us.map Term.kind := by
  have hl := congrArg (List.map Prod.fst) h.labels
  simpa [Function.comp_def] using hl

theorem Holds.map_kind_children {q : Option Nat} {U : Term} (h : Holds t q i U) :
    (t.children i).map t.kind = U.children.map Term.kind := by
  rw [h.children, h.below.map_kind]

theorem Holds.kind_targetIdent {q : Option Nat} {V : Term} (h : Holds t q i V)
    (hV : V.Reassigns) (hp : ∀ p, t.parent i = some p → t.kind p ≠ .annotationMemberValuePair)
    (hn : t.targetIdent i = some n) : t.kind n = .ident := by
  have hexpr : t.findChild i .expr = none := by
    rw [findChild, List.find?_eq_none]
    intro c hc hk
    have hmem := List.mem_map_of_mem (f := t.kind) hc
    rw [h.map_kind_children] at hmem
    obtain ⟨U, hU, hkU⟩ := List.mem_map.mp hmem
    exact hV.1 U hU (hkU.trans (of_decide_eq_true hk))
  have hmember : ¬ ((t.parent i).any fun p => t.kind p = .annotationMemberValuePair) = true := by
    rw [Option.any_eq_true]
    rintro ⟨p, hparent, hk⟩
    exact hp p hparent (of_decide_eq_true hk)
  have hhead : ∀ first, t.firstChild i = some first →
      t.kind first ≠ .arrayInit ∧ t.kind first ≠ .lambda := by
    intro first hfirst
    have hmap := congrArg List.head? h.map_kind_children
    rw [firstChild, child_eq_getElem?, ← List.head?_eq_getElem?] at hfirst
    rw [List.head?_map, List.head?_map, hfirst, Option.map_some] at hmap
    obtain ⟨U, hU, hkU⟩ := Option.map_eq_some_iff.mp hmap.symm
    rw [← hkU]
    exact hV.2 U hU
  by_cases hassign : t.kind i = .assign
  · rw [targetIdent, if_neg (not_not_intro hassign), if_neg (by simp [hexpr]), if_neg hmember] at hn
    split at hn
    · cases hn
    · next first hfirst =>
      split at hn
      · exact of_decide_eq_true (Option.filter_eq_some_iff.mp hn).2
      · split at hn
        · split at hn
          · simpa using List.find?_some hn
          · cases hn
        · cases hn
      · next hk => exact absurd hk (hhead first hfirst).1
      · next hk => exact absurd hk (hhead first hfirst).2
      · next hk =>
        cases hn
        exact hk
      · cases hn
  · rw [targetIdent, if_pos hassign] at hn
    cases hn

/-- In the tree of a sound term an assignment that gives nothing its first value writes to an
identifier, if to any node. -/
theorem IsLayout.kind_targetIdent {T : Term} (h : t.IsLayout T) (hT : T.Sound)
    (hroot : T.kind ≠ .assign) (hp : ∀ p, t.parent i = some p → (t.kind p).isInitial = false)
    (hn : t.targetIdent i = some n) : t.kind n = .ident := by
  have hassign : t.kind i = .assign := by
    by_contra hk
    rw [targetIdent, if_pos hk] at hn
    cases hn
  have hi : i < t.size := lt_size_of_kind (by simp [hassign])
  cases hparent : t.parent i with
  | none =>
    rw [(h.isArena.orphan_iff i hi).mp hparent, h.holds.kind] at hassign
    exact absurd hassign hroot
  | some p =>
    obtain ⟨q, U, hU, hholds, V, hV, hiV⟩ := h.exists_placed hparent
    have hinitial := hp p hparent
    rw [hholds.kind] at hinitial
    refine hiV.kind_targetIdent (hT.placed U hU hinitial V hV (hiV.kind ▸ hassign)) ?_ hn
    intro p' hp' hk
    have hnot := hp p' hp'
    rw [hk] at hnot
    cases hnot

/-- The query answers on the nodes it is about, and any other node it refuses by naming the kind
and the line of the node. -/
structure DecidedByKind {α : Type} (t : Tree) (i : Nat) (q : Query)
    (answer : Except QueryError α) : Prop where
  answered : (∃ a, answer = .ok a) ↔ t.kind i ∈ q.accepts
  refused : ∀ e, answer = .error e ↔
    t.kind i ∉ q.accepts ∧ e = .unexpectedKind q (t.kind i) (t.line i)
  never_missing : ∀ asked k line part, answer ≠ .error (.missingChild asked k line part)

theorem check_of_not_accepts {q : Query} (hk : t.kind i ∉ q.accepts) :
    q.check t i = .error (.unexpectedKind q (t.kind i) (t.line i)) := by
  rw [Query.check, if_neg (mt List.contains_iff_mem.mp hk)]

theorem decidedByKind_of_check {α : Type} {q : Query} {answer : Except QueryError α}
    {rest : Unit → Except QueryError α} (hcheck : answer = (q.check t i >>= rest))
    (hok : t.kind i ∈ q.accepts → ∃ a, answer = .ok a) : t.DecidedByKind i q answer := by
  by_cases hk : t.kind i ∈ q.accepts
  · obtain ⟨a, rfl⟩ := hok hk
    constructor
    · exact ⟨fun _ => hk, fun _ => ⟨a, rfl⟩⟩
    · intro e
      constructor
      · intro he
        cases he
      · rintro ⟨hnot, -⟩
        exact absurd hk hnot
    · intro asked k line part he
      cases he
  · rw [check_of_not_accepts hk] at hcheck
    subst hcheck
    constructor
    · constructor
      · rintro ⟨a, ha⟩
        cases ha
      · intro hmem
        exact absurd hmem hk
    · intro e
      constructor
      · intro he
        cases he
        exact ⟨hk, rfl⟩
      · rintro ⟨-, rfl⟩
        rfl
    · intro asked k line part he
      cases he

theorem exists_assignmentTargetName (hk : t.kind i ∈ Query.assignmentTargetName.accepts) :
    ∃ name, t.assignmentTargetName i = .ok name := by
  rw [assignmentTargetName, check_of_accepts hk]
  exact ⟨_, rfl⟩

theorem Finished.exists_declaredIdent (ht : t.Finished)
    (hk : t.kind i = .variableDef ∨ t.kind i = .parameterDef) :
    ∃ c name, t.declaredIdent i = some c ∧ t.child i 2 = some c ∧ t.kind c = .ident ∧
      t.text c = some name := by
  obtain ⟨m, y, c, rest, name, hc, -, -, hident, hname⟩ := ht.definition_children hk
  have hchild : t.child i 2 = some c := by
    rw [child_eq_getElem?, hc]
    rfl
  have hdeclaration : (t.kind i).isDeclaration = true := by
    rcases hk with hk | hk <;> rw [hk] <;> rfl
  refine ⟨c, name, ?_, hchild, hident, hname⟩
  rw [declaredIdent, if_pos hdeclaration, hchild, Option.filter_some, if_pos (by simp [hident])]

/-- On a finished tree the kind of a node alone decides whether a query answers: no query misses a
part of a node, and every definition has the identifier that it declares. -/
theorem queries_decided_by_kind (ht : t.Finished) (i : Nat) :
    t.DecidedByKind i .qualifiedName (t.qualifiedName i) ∧
    t.DecidedByKind i .declaredName (t.declaredName i) ∧
    t.DecidedByKind i .superClassName (t.superClassName i) ∧
    t.DecidedByKind i .assignmentTargetName (t.assignmentTargetName i) ∧
    t.DecidedByKind i .resolveDeclaration (t.resolveDeclaration i) ∧
    (t.kind i = .variableDef ∨ t.kind i = .parameterDef →
      ∃ c name, t.declaredIdent i = some c ∧ t.child i 2 = some c ∧ t.kind c = .ident ∧
        t.text c = some name) := by
  refine ⟨decidedByKind_of_check rfl ht.exists_qualifiedName, decidedByKind_of_check rfl ?_,
    decidedByKind_of_check rfl exists_superClassName,
    decidedByKind_of_check rfl exists_assignmentTargetName, decidedByKind_of_check rfl ?_,
    ht.exists_declaredIdent⟩
  · intro hk
    obtain ⟨name, hname, -⟩ := ht.exists_declaredName (List.mem_pair.mp hk)
    exact ⟨name, hname⟩
  · intro hk
    obtain ⟨r, hr, -⟩ := ht.resolveDeclaration_refers (List.mem_singleton.mp hk)
    exact ⟨r, hr⟩

theorem queries_decided_by_kind_annotated :
    ∃ t : Tree, t.Finished ∧ t.kind 1 = .packageDef ∧ t.findFirst .ident 1 = some 4 ∧
      (∃ name, t.qualifiedName 1 = .ok name) ∧
      t.qualifiedName 3 = .error (.unexpectedKind .qualifiedName .annotationUse 1) := by
  have h : ∃ t, ofSteps [.start .compilationUnit none 1, .start .packageDef none 2,
      .start .modifiers none 1, .start .annotationUse none 1, .leaf .ident (some "A") 1, .finish,
      .finish, .leaf .ident (some "p") 2, .finish, .finish] = .ok t ∧ t.kind 1 = .packageDef ∧
      t.kind 3 = .annotationUse ∧ t.line 3 = 1 ∧ t.findFirst .ident 1 = some 4 :=
    ⟨_, rfl, rfl, rfl, rfl, by cbv⟩
  obtain ⟨t, ht, hpackage, huse, hline, hfirst⟩ := h
  have hfin : t.Finished := ⟨_, ht⟩
  refine ⟨t, hfin, hpackage, hfirst, ?_, ?_⟩
  · exact (queries_decided_by_kind hfin 1).1.answered.mpr (by simp [hpackage, Query.accepts])
  · refine ((queries_decided_by_kind hfin 3).1.refused _).mpr ⟨?_, ?_⟩
    · simp [huse, Query.accepts]
    · rw [huse, hline]

end ArchLint.Syntax.Tree
