import ArchLint.Proofs.Java.Arrangement
import ArchLint.Proofs.Query.Resolution
import ArchLint.Rule.Parameter

/-!
# Reassigned parameters

A parameter is in scope below its owner: the method, the constructor or the lambda that lists it,
or the clause that catches it. An assignment and the parameter that it is reported for share their
method, constructor or class. So the parameter of a method or of a constructor is always in scope,
and the parameter of a lambda or of a catch clause need not be.
-/

namespace ArchLint

namespace Syntax

def Kind.takesParameters (k : Kind) : Bool :=
  k matches .methodDef | .ctorDef | .lambda

namespace Tree

/-- The parameter `d` belongs to `o`, by its list or as what is caught. -/
inductive Owns (t : Tree) : Nat → Nat → Prop where
  | listed {o l d : Nat} : t.parent d = some l → t.kind l = .parameters → t.parent l = some o →
      (t.kind o).takesParameters = true → Owns t o d
  | caught {o d : Nat} : t.parent d = some o → t.kind o = .other → Owns t o d

variable {t : Tree} {T : Term} {d i n o p s : Nat}

theorem Above.exists_parent (h : t.Above s d) : ∃ p, t.parent d = some p := by
  cases h with
  | parent hp => exact ⟨_, hp⟩
  | further hp _ => exact ⟨_, hp⟩

theorem scopeOf_iff_of_parent (h : t.IsLayout T) (hp : t.parent d = some p)
    (hk : (t.kind p).isScope = false) : t.ScopeOf d s ↔ t.ScopeOf p s := by
  rw [ScopeOf, h.nearest_iff_of_parent hp, if_neg (Bool.eq_false_iff.mp hk), ScopeOf]

theorem Adjacent.scopeOf_iff (h : t.IsLayout T) (hadjacent : t.Adjacent n i) :
    t.ScopeOf n s ↔ t.ScopeOf i s := by
  obtain ⟨p, before, after, hi, hchildren⟩ := hadjacent
  have hn : t.parent n = some p := by
    refine (h.child_lt ?_).2
    rw [hchildren]
    exact List.mem_append_right before List.mem_cons_self
  rw [ScopeOf, ScopeOf, h.nearest_iff_of_parent hn, h.nearest_iff_of_parent hi]

theorem Owns.unique {o' : Nat} (h : t.Owns o d) (h' : t.Owns o' d) : o = o' := by
  cases h with
  | listed hl hk ho =>
    cases h' with
    | listed hl' _ ho' =>
      rw [hl] at hl'
      cases hl'
      exact Option.some.inj (ho.symm.trans ho')
    | caught ho' hk' =>
      rw [hl] at ho'
      cases ho'
      rw [hk] at hk'
      cases hk'
  | caught ho hk =>
    cases h' with
    | listed hl' hk' _ =>
      rw [ho] at hl'
      cases hl'
      rw [hk] at hk'
      cases hk'
    | caught ho' _ => exact Option.some.inj (ho.symm.trans ho')

theorem ScopeOf.exists_owner (h : t.IsLayout T) (hT : T.Arranged) (hs : t.ScopeOf d s)
    (hk : t.kind d = .parameterDef) :
    ∃ o, t.Owns o d ∧
      (o = s ∨ ((t.kind o = .lambda ∨ t.kind o = .other) ∧ t.Above s o)) := by
  obtain ⟨p, hp⟩ := hs.above.exists_parent
  have hadmits := h.admits_of_parent hT hp
  rw [hk] at hadmits
  cases hkp : t.kind p with
  | parameters =>
    have hsp := (scopeOf_iff_of_parent h hp (by rw [hkp]; rfl)).mp hs
    obtain ⟨o, ho⟩ := hsp.above.exists_parent
    have htakes : (t.kind o).takesParameters = true := by
      have hlist := h.admits_of_parent hT ho
      rw [hkp] at hlist
      revert hlist
      cases t.kind o <;> decide
    refine ⟨o, .listed hp hkp ho htakes, ?_⟩
    by_cases hscope : (t.kind o).isScope = true
    · rw [ScopeOf, h.nearest_iff_of_parent ho, if_pos hscope] at hsp
      exact .inl hsp.symm
    · have hlambda : t.kind o = .lambda := by
        revert htakes hscope
        cases t.kind o <;> decide
      have hso := (scopeOf_iff_of_parent h ho (Bool.eq_false_iff.mpr hscope)).mp hsp
      exact .inr ⟨.inl hlambda, hso.above⟩
  | other =>
    have hsp := (scopeOf_iff_of_parent h hp (by rw [hkp]; rfl)).mp hs
    exact ⟨p, .caught hp hkp, .inr ⟨.inr hkp, hsp.above⟩⟩
  | _ =>
    rw [hkp] at hadmits
    cases hadmits

theorem targetIdent_cases (hn : t.targetIdent i = some n) :
    t.kind i = .assign ∧ (t.prevSibling i = some n ∨ n ∈ t.children i ∨
      ∃ f ∈ t.children i, (t.kind f = .indexOp ∨ t.kind f = .dot) ∧ n ∈ t.children f) := by
  have hmem : ∀ {j f : Nat}, t.firstChild j = some f → f ∈ t.children j := by
    intro j f hf
    rw [firstChild, child_eq_getElem?] at hf
    exact List.mem_of_getElem? hf
  rw [targetIdent] at hn
  split at hn
  · cases hn
  · next hassign =>
    refine ⟨Decidable.not_not.mp hassign, ?_⟩
    split at hn
    · exact .inl hn
    · split at hn
      · exact .inl hn
      · split at hn
        · cases hn
        · next f hf =>
          split at hn
          · next hk =>
            exact .inr (.inr ⟨f, hmem hf, .inl hk, hmem (Option.filter_eq_some_iff.mp hn).1⟩)
          · next hk =>
            split at hn
            · split at hn
              · exact .inr (.inr ⟨f, hmem hf, .inr hk, List.mem_of_find?_eq_some hn⟩)
              · cases hn
            · cases hn
          · exact .inl hn
          · exact .inl hn
          · exact .inr (.inl (Option.some.inj hn ▸ hmem hf))
          · cases hn

theorem ScopeOf.of_targetIdent (h : t.IsLayout T) (hn : t.targetIdent i = some n)
    (hs : t.ScopeOf n s) : t.ScopeOf i s := by
  obtain ⟨hassign, hprev | hchild | ⟨f, hf, hkf, hchild⟩⟩ := targetIdent_cases hn
  · exact ((h.prevSibling_eq_some.mp hprev).scopeOf_iff h).mp hs
  · exact (scopeOf_iff_of_parent h (h.child_lt hchild).2 (by rw [hassign]; rfl)).mp hs
  · have hscope : (t.kind f).isScope = false := by
      rcases hkf with hk | hk <;> rw [hk] <;> rfl
    have hsf := (scopeOf_iff_of_parent h (h.child_lt hchild).2 hscope).mp hs
    exact (scopeOf_iff_of_parent h (h.child_lt hf).2 (by rw [hassign]; rfl)).mp hsf

theorem Refers.parameterFor (hr : t.Refers n (some d)) (hk : t.kind d = .parameterDef) :
    ∃ c s, t.ClassOf n c ∧ t.ScopeOf n s ∧ t.ParameterFor c s n d := by
  cases hr with
  | field _ _ hd =>
    have := hd.1.1.kind.symm.trans hk
    cases this
  | @parameter c s _ hc hs _ hd => exact ⟨c, s, hc, hs, hd.1⟩
  | inScope _ _ _ _ hd =>
    have := hd.1.1.kind.symm.trans hk
    cases this

end Tree

end Syntax

namespace ParameterRule

open Syntax

variable {t : Tree} {i : Nat} {findings : List Finding}

theorem exists_parameter_of_check (h : check t i = .ok findings) (hne : findings ≠ []) :
    ∃ target d, t.targetIdent i = some target ∧ t.resolveDeclaration target = .ok (some d) ∧
      t.kind d = .parameterDef := by
  have hsilent : ¬ (.ok [] : Except QueryError (List Finding)) = .ok findings := by
    intro hnil
    exact hne (Except.ok.inj hnil).symm
  rw [check] at h
  split at h
  · exact absurd h hsilent
  · split at h
    · exact absurd h hsilent
    · next target htarget =>
      split at h
      · exact absurd h hsilent
      · cases hr : t.resolveDeclaration target with
        | error e =>
          rw [hr] at h
          cases h
        | ok r =>
          rw [hr] at h
          cases r with
          | none => exact absurd h hsilent
          | some d =>
            refine ⟨target, d, htarget, hr, ?_⟩
            by_contra hk
            simp only [bind, Except.bind, if_neg hk] at h
            exact hsilent h

/-- An assignment is reported only for a parameter that is visible to its target and belongs to the
method, constructor or class around both. It is in scope at the assignment unless it belongs to a
lambda or to a catch clause; so where each of these with a parameter of that name is around the
assignment, it is in scope. -/
theorem owner_of_reported {source : String} (h : Java.parse source = .ok t)
    (hcheck : check t i = .ok findings) (hne : findings ≠ []) :
    ∃ target d c s o, t.targetIdent i = some target ∧
      t.resolveDeclaration target = .ok (some d) ∧ t.kind d = .parameterDef ∧
      t.ClassOf target c ∧ t.ParameterFor c s target d ∧ t.ScopeOf i s ∧ t.Owns o d ∧
      (t.Above o i ∨ ((t.kind o = .lambda ∨ t.kind o = .other) ∧ t.Above s o)) ∧
      ((∀ e q, t.ParameterFor c s target e → t.Owns q e →
        t.kind q = .lambda ∨ t.kind q = .other → t.Above q i) → t.Above o i) := by
  obtain ⟨T, hT, hlayout, hfinished⟩ := Java.exists_arranged_of_parse h
  obtain ⟨target, d, htarget, hd, hk⟩ := exists_parameter_of_check hcheck hne
  have hident : t.kind target = .ident := by
    by_contra hident
    rw [Tree.resolveDeclaration_of_kind hident] at hd
    cases hd
  obtain ⟨r, hr, hrefers⟩ := hfinished.resolveDeclaration_refers hident
  obtain rfl : r = some d := Except.ok.inj (hr.symm.trans hd)
  obtain ⟨c, s, hclass, hscope, hparameter⟩ := hrefers.parameterFor hk
  have hi := hscope.of_targetIdent hlayout htarget
  obtain ⟨o, howns, hplace⟩ := hparameter.2.exists_owner hlayout hT hk
  refine ⟨target, d, c, s, o, htarget, hd, hk, hclass, hparameter, hi, howns, ?_, fun haround => ?_⟩
  · rcases hplace with rfl | hplace
    · exact .inl hi.above
    · exact .inr hplace
  · rcases hplace with rfl | ⟨hkind, -⟩
    · exact hi.above
    · exact haround d o hparameter howns hkind

theorem owner_of_reported_lambda :
    ∃ t findings, Java.parse "class A { A(int y) { f(x -> x = y); } }" = .ok t ∧
      check t 26 = .ok findings ∧ findings ≠ [] ∧
      ∃ target d o, t.targetIdent 26 = some target ∧
        t.resolveDeclaration target = .ok (some d) ∧ t.Owns o d ∧ t.Above o 26 := by
  obtain ⟨t, ht, hcheck, htarget, hd, hlist, hkl, howner, hko, habove⟩ :=
    Java.exists_tree_of_decide
    "class A { A(int y) { f(x -> x = y); } }"
    (fun t => check t 26 = .ok [⟨1, "Parameter `x` is reassigned",
        some "assign to a new local variable instead"⟩] ∧
      t.targetIdent 26 = some 27 ∧ t.resolveDeclaration 27 = .ok (some 21) ∧
      t.parent 21 = some 20 ∧ t.kind 20 = .parameters ∧ t.parent 20 = some 19 ∧
      t.kind 19 = .lambda ∧ 19 ∈ t.ancestors 26)
    (by decide +kernel)
  obtain ⟨T, -, hlayout, -⟩ := Java.exists_arranged_of_parse ht
  obtain ⟨target, d, c, s, o, htarget', hd', -, -, -, -, howns, -⟩ :=
    owner_of_reported ht hcheck (List.cons_ne_nil _ _)
  obtain rfl : 27 = target := Option.some.inj (htarget.symm.trans htarget')
  obtain rfl : 21 = d := Option.some.inj (Except.ok.inj (hd.symm.trans hd'))
  have hlambda : t.Owns 19 21 := .listed hlist hkl howner (by rw [hko]; rfl)
  obtain rfl : o = 19 := howns.unique hlambda
  exact ⟨t, _, ht, hcheck, List.cons_ne_nil _ _, 27, 21, 19, htarget, hd, howns,
    hlayout.mem_ancestors.mp habove⟩

/-- Behind a lambda whose parameter has the name of a field, an assignment to the field is reported
for that parameter. -/
theorem reported_outside_lambda :
    ∃ t findings, Java.parse "class A { int x; void m() { f(x -> x); x = 1; } }" = .ok t ∧
      check t 30 = .ok findings ∧ findings ≠ [] ∧ t.targetIdent 30 = some 31 ∧
      t.resolveDeclaration 31 = .ok (some 23) ∧ t.kind 23 = .parameterDef ∧
      ¬ ∃ o, t.Owns o 23 ∧ t.Above o 30 := by
  obtain ⟨t, ht, hcheck, htarget, hd, hk, hlist, hkl, howner, hko, hout⟩ :=
    Java.exists_tree_of_decide
    "class A { int x; void m() { f(x -> x); x = 1; } }"
    (fun t => check t 30 = .ok [⟨1, "Parameter `x` is reassigned",
        some "assign to a new local variable instead"⟩] ∧
      t.targetIdent 30 = some 31 ∧ t.resolveDeclaration 31 = .ok (some 23) ∧
      t.kind 23 = .parameterDef ∧ t.parent 23 = some 22 ∧ t.kind 22 = .parameters ∧
      t.parent 22 = some 21 ∧ t.kind 21 = .lambda ∧ 21 ∉ t.ancestors 30)
    (by decide +kernel)
  obtain ⟨T, -, hlayout, -⟩ := Java.exists_arranged_of_parse ht
  refine ⟨t, _, ht, hcheck, List.cons_ne_nil _ _, htarget, hd, hk, ?_⟩
  rintro ⟨o, howns, habove⟩
  have hlambda : t.Owns 21 23 := .listed hlist hkl howner (by rw [hko]; rfl)
  obtain rfl : o = 21 := howns.unique hlambda
  exact hout (hlayout.mem_ancestors.mpr habove)

end ParameterRule

end ArchLint
