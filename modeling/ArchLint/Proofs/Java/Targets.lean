import ArchLint.Proofs.Java.Shape
import ArchLint.Proofs.Query.Success

/-!
# What a first value is given to

An assignment in a definition or in a member of an annotation gives something its first value, and
its target is sought right in front of it. In an annotation that is the name of the member. In a
definition it is the declared name, unless the name is marked as that of an array: then the mark
stands between the two and is taken for the target.
-/

namespace ArchLint

open Syntax

namespace Syntax.Tree

variable {t : Tree} {T : Term} {i n p : Nat}

theorem HoldsAll.exists_split {q : Option Nat} {ts : List Term} {c : Nat} {before after : List Nat}
    (h : HoldsAll t q i ts) (hc : Term.places i ts = before ++ c :: after) :
    ∃ front V rest, ts = front ++ V :: rest ∧ Holds t q c V ∧
      front.map Term.kind = before.map t.kind ∧ rest.map Term.kind = after.map t.kind := by
  induction ts generalizing i before with
  | nil => simp [Term.places] at hc
  | cons U us ih =>
    rw [Term.places] at hc
    cases before with
    | nil =>
      obtain ⟨rfl, rfl⟩ := List.cons.inj hc
      exact ⟨[], U, us, rfl, h.1, rfl, h.2.map_kind.symm⟩
    | cons b before =>
      obtain ⟨rfl, htail⟩ := List.cons.inj hc
      obtain ⟨front, V, rest, rfl, hV, hfront, hrest⟩ := ih h.2 htail
      refine ⟨U :: front, V, rest, rfl, hV, ?_, hrest⟩
      rw [List.map_cons, List.map_cons, hfront, h.1.kind]

theorem IsLayout.introduces (h : t.IsLayout T) (hT : T.Sound) (hi : t.kind i = .assign)
    (hp : t.parent i = some p) (hinitial : (t.kind p).isInitial = true) :
    ∃ before after, t.children p = before ++ i :: after ∧
      before.map t.kind ∈ (t.kind p).fronts ∧
      (t.kind p = .variableDef →
        after = [] ∧ (t.children i).map t.kind ∈ [[.expr], [.arrayInit]]) := by
  obtain ⟨q, U, hU, hholds, -⟩ := h.exists_placed hp
  obtain ⟨before, after, hc⟩ := h.exists_siblings hp
  obtain ⟨front, V, rest, hsplit, hV, hfront, hrest⟩ :=
    hholds.below.exists_split (hholds.children.symm.trans hc)
  rw [hholds.kind] at hinitial ⊢
  obtain ⟨hfronts, hlast⟩ := hT.introduces U hU hinitial front V rest hsplit (hV.kind ▸ hi)
  refine ⟨before, after, hc, hfront ▸ hfronts, fun hk => ?_⟩
  obtain ⟨rfl, hvalue⟩ := hlast hk
  rw [hV.map_kind_children]
  exact ⟨List.map_eq_nil_iff.mp hrest.symm, hvalue⟩

theorem targetIdent_of_expr (hi : t.kind i = .assign) (he : ∃ c ∈ t.children i, t.kind c = .expr) :
    t.targetIdent i = t.prevSibling i := by
  have hfound : (t.findChild i .expr).isSome = true := by
    rw [findChild, List.find?_isSome]
    obtain ⟨c, hc, hk⟩ := he
    exact ⟨c, hc, decide_eq_true hk⟩
  rw [targetIdent, if_neg (not_not_intro hi), if_pos hfound]

theorem targetIdent_of_member (hi : t.kind i = .assign) (hp : t.parent i = some p)
    (hk : t.kind p = .annotationMemberValuePair) : t.targetIdent i = t.prevSibling i := by
  rw [targetIdent, if_neg (not_not_intro hi)]
  split
  · rfl
  · rw [if_pos (by simp [hp, hk])]

theorem targetIdent_of_list (hi : t.kind i = .assign) {c : Nat} (hc : t.children i = [c])
    (hk : t.kind c = .arrayInit) : t.targetIdent i = t.prevSibling i := by
  have hfirst : t.firstChild i = some c := by rw [firstChild, child_eq_getElem?, hc]; rfl
  rw [targetIdent, if_neg (not_not_intro hi)]
  split
  · rfl
  · split
    · rfl
    · rw [hfirst]
      simp [hk]

theorem targetIdent_of_value (hi : t.kind i = .assign)
    (hvalue : (t.children i).map t.kind ∈ [[.expr], [.arrayInit]]) :
    t.targetIdent i = t.prevSibling i := by
  simp only [List.mem_cons, List.not_mem_nil, or_false, List.map_eq_singleton_iff] at hvalue
  rcases hvalue with ⟨c, hc, hk⟩ | ⟨c, hc, hk⟩
  · exact targetIdent_of_expr hi ⟨c, by rw [hc]; exact List.mem_singleton_self c, hk⟩
  · exact targetIdent_of_list hi hc hk

/-- How the target of an assignment is found that gives a variable its first value. -/
structure AimsAtName (t : Tree) (d i : Nat) : Prop where
  declared : ∃ c name, t.declaredIdent d = some c ∧ t.kind c = .ident ∧
    t.declaredName d = .ok name ∧
    ((∀ m ∈ t.children d, t.kind m ≠ .arrayDeclarator) →
      t.targetIdent i = some c ∧ t.assignmentTargetName i = .ok (some name))
  marked : ∀ m ∈ t.children d, t.kind m = .arrayDeclarator → t.targetIdent i = some m

variable {d : Nat}

theorem assignmentTargetName_eq (hi : t.kind i = .assign) {name : String}
    (hn : t.targetIdent i = some n) (hname : t.text n = some name) :
    t.assignmentTargetName i = .ok (some name) := by
  rw [assignmentTargetName, check_of_accepts (by simp [hi, Query.accepts]), hn]
  change Except.ok (t.text n) = _
  rw [hname]

theorem IsLayout.aimsAtName (h : t.IsLayout T) (hT : T.Sound) (ht : t.Finished)
    (hi : t.kind i = .assign) (hp : t.parent i = some d) (hk : t.kind d = .variableDef) :
    t.AimsAtName d i := by
  obtain ⟨before, after, hc, hfronts, hlast⟩ := h.introduces hT hi hp (by rw [hk]; rfl)
  obtain ⟨rfl, hvalue⟩ := hlast hk
  have htarget : t.targetIdent i = before.getLast? := by
    rw [targetIdent_of_value hi hvalue, h.prevSibling_eq hc]
  obtain ⟨c, name, hdeclared, hchild, hident, hname⟩ := ht.exists_declaredIdent (.inl hk)
  obtain ⟨name', hname', hdeclares⟩ := ht.exists_declaredName (.inl hk)
  rw [child_eq_getElem?, hc] at hchild
  rw [hk] at hfronts
  simp only [Kind.fronts, List.mem_cons, List.not_mem_nil, or_false, List.map_eq_cons_iff,
    List.map_eq_nil_iff] at hfronts
  rcases hfronts with ⟨m, _, rfl, hm, y, _, rfl, hy, c', _, rfl, hc', rfl⟩ |
    ⟨m, _, rfl, hm, y, _, rfl, hy, c', _, rfl, hc', a, _, rfl, ha, rfl⟩
  · obtain rfl : c' = c := Option.some.inj hchild
    obtain rfl : name = name' := (hdeclares name).mp ⟨m, y, c', _, hc, hname⟩
    have hnone : ∀ x ∈ t.children d, t.kind x ≠ .arrayDeclarator := by
      rw [hc]
      simp [hm, hy, hc', hi]
    constructor
    · exact ⟨c', name, hdeclared, hident, hname', fun _ =>
        ⟨htarget, assignmentTargetName_eq hi htarget hname⟩⟩
    · exact fun x hx hkind => absurd hkind (hnone x hx)
  · obtain rfl : c' = c := Option.some.inj hchild
    obtain rfl : name = name' := (hdeclares name).mp ⟨m, y, c', _, hc, hname⟩
    have honly : ∀ x ∈ t.children d, t.kind x = .arrayDeclarator → x = a := by
      rw [hc]
      simp [hm, hy, hc', hi]
    constructor
    · refine ⟨c', name, hdeclared, hident, hname', fun hnone => ?_⟩
      exact absurd ha (hnone a (by simp [hc]))
    · intro x hx hkind
      rw [honly x hx hkind]
      exact htarget

theorem IsLayout.targetIdent_member (h : t.IsLayout T) (hT : T.Sound) (hi : t.kind i = .assign)
    (hp : t.parent i = some p) (hk : t.kind p = .annotationMemberValuePair) :
    ∃ c, t.firstChild p = some c ∧ t.kind c = .ident ∧ t.targetIdent i = some c := by
  obtain ⟨before, after, hc, hfronts, -⟩ := h.introduces hT hi hp (by rw [hk]; rfl)
  rw [hk] at hfronts
  simp only [Kind.fronts, List.mem_cons, List.not_mem_nil, or_false, List.map_eq_singleton_iff]
    at hfronts
  obtain ⟨c, rfl, hident⟩ := hfronts
  refine ⟨c, ?_, hident, ?_⟩
  · rw [firstChild, child_eq_getElem?, hc]
    rfl
  · rw [targetIdent_of_member hi hp hk, h.prevSibling_eq hc]
    rfl

theorem IsLayout.kind_targetIdent_or (h : t.IsLayout T) (hT : T.Sound) (ht : t.Finished)
    (hroot : T.kind ≠ .assign) (hn : t.targetIdent i = some n) :
    t.kind n = .ident ∨ t.kind n = .arrayDeclarator ∧
      ∃ d, t.parent i = some d ∧ t.kind d = .variableDef ∧ n ∈ t.children d := by
  have hi : t.kind i = .assign := by
    by_contra hk
    rw [targetIdent, if_pos hk] at hn
    cases hn
  by_cases hinitial : ∃ p, t.parent i = some p ∧ (t.kind p).isInitial = true
  · obtain ⟨p, hp, hinitial⟩ := hinitial
    rw [Kind.isInitial_eq, Bool.or_eq_true, decide_eq_true_eq, decide_eq_true_eq] at hinitial
    rcases hinitial with hk | hk
    · have haims := h.aimsAtName hT ht hi hp hk
      by_cases hmark : ∃ m ∈ t.children p, t.kind m = .arrayDeclarator
      · obtain ⟨m, hm, hkind⟩ := hmark
        obtain rfl : n = m := Option.some.inj (hn.symm.trans (haims.marked m hm hkind))
        exact .inr ⟨hkind, p, hp, hk, hm⟩
      · obtain ⟨c, name, -, hident, -, htarget⟩ := haims.declared
        have hnone := htarget fun m hm hkind => hmark ⟨m, hm, hkind⟩
        obtain rfl : n = c := Option.some.inj (hn.symm.trans hnone.1)
        exact .inl hident
    · obtain ⟨c, -, hident, htarget⟩ := h.targetIdent_member hT hi hp hk
      obtain rfl : n = c := Option.some.inj (hn.symm.trans htarget)
      exact .inl hident
  · refine .inl (h.kind_targetIdent hT hroot (fun p hp => ?_) hn)
    exact Bool.eq_false_iff.mpr fun hkind => hinitial ⟨p, hp, hkind⟩

end Syntax.Tree

namespace Java

/-- In the tree of every source that parses, an assignment in a definition writes to the declared
name, or to the mark of an array if there is one behind the name. In a member of an annotation it
writes to the name of the member, and everywhere else to an identifier, if to any node. -/
theorem targetIdent_of_parse {source : String} {t : Tree} (h : parse source = .ok t) :
    (∀ d i, t.kind i = .assign → t.parent i = some d → t.kind d = .variableDef →
      t.AimsAtName d i) ∧
    (∀ p i, t.kind i = .assign → t.parent i = some p → t.kind p = .annotationMemberValuePair →
      ∃ c, t.firstChild p = some c ∧ t.kind c = .ident ∧ t.targetIdent i = some c) ∧
    ∀ i n, t.targetIdent i = some n → t.kind n = .ident ∨ t.kind n = .arrayDeclarator ∧
      ∃ d, t.parent i = some d ∧ t.kind d = .variableDef ∧ n ∈ t.children d := by
  obtain ⟨T, hsound, hunit, hlayout, hfinished⟩ := exists_sound_of_parse h
  refine ⟨?_, ?_, ?_⟩
  · intro d i hi hp hk
    exact hlayout.aimsAtName hsound hfinished hi hp hk
  · intro p i hi hp hk
    exact hlayout.targetIdent_member hsound hi hp hk
  · intro i n hn
    exact hlayout.kind_targetIdent_or hsound hfinished (by rw [hunit]; decide) hn

theorem targetIdent_of_parse_variables :
    ∃ t, parse "@A(n = 1) class B { int x = 1, y[] = {2}; }" = .ok t ∧
      t.firstChild 5 = some 6 ∧ t.targetIdent 7 = some 6 ∧ t.declaredIdent 12 = some 16 ∧
      t.targetIdent 17 = some 16 ∧ t.targetIdent 26 = some 25 := by
  obtain ⟨t, ht, hsign, hpair, hmember, hname, hfirst, hparent, hx, hdeclared, hplain, hlast,
    hsecond, hy, hmark, hkind⟩ := exists_tree_of_decide
    "@A(n = 1) class B { int x = 1, y[] = {2}; }"
    (fun t => t.kind 7 = .assign ∧ t.parent 7 = some 5 ∧ t.kind 5 = .annotationMemberValuePair ∧
      t.firstChild 5 = some 6 ∧ t.kind 17 = .assign ∧ t.parent 17 = some 12 ∧
      t.kind 12 = .variableDef ∧ t.declaredIdent 12 = some 16 ∧
      (∀ m ∈ t.children 12, t.kind m ≠ .arrayDeclarator) ∧ t.kind 26 = .assign ∧
      t.parent 26 = some 20 ∧ t.kind 20 = .variableDef ∧ 25 ∈ t.children 20 ∧
      t.kind 25 = .arrayDeclarator)
    (by decide +kernel)
  obtain ⟨hdefinitions, hmembers, -⟩ := targetIdent_of_parse ht
  obtain ⟨c, hc, -, htarget⟩ := hmembers 5 7 hsign hpair hmember
  obtain rfl : 6 = c := Option.some.inj (hname.symm.trans hc)
  obtain ⟨c, name, hc, -, -, hfound⟩ := (hdefinitions 12 17 hfirst hparent hx).declared
  obtain rfl : 16 = c := Option.some.inj (hdeclared.symm.trans hc)
  exact ⟨t, ht, hname, htarget, hdeclared, (hfound hplain).1,
    (hdefinitions 20 26 hlast hsecond hy).marked 25 hmark hkind⟩

/-- The mark of an array behind the name is taken for the target, and the target has no name. -/
theorem targetIdent_is_array_mark :
    ∃ t, parse "class A { int x[] = {1}; }" = .ok t ∧ t.kind 11 = .assign ∧
      t.parent 11 = some 5 ∧ t.kind 5 = .variableDef ∧ t.declaredIdent 5 = some 9 ∧
      t.declaredName 5 = .ok "x" ∧ t.targetIdent 11 = some 10 ∧ t.kind 10 = .arrayDeclarator ∧
      t.assignmentTargetName 11 = .ok none :=
  exists_tree_of_decide "class A { int x[] = {1}; }"
    (fun t => t.kind 11 = .assign ∧ t.parent 11 = some 5 ∧ t.kind 5 = .variableDef ∧
      t.declaredIdent 5 = some 9 ∧ t.declaredName 5 = .ok "x" ∧ t.targetIdent 11 = some 10 ∧
      t.kind 10 = .arrayDeclarator ∧ t.assignmentTargetName 11 = .ok none)
    (by decide +kernel)

end Java

end ArchLint
