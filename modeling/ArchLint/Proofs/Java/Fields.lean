import ArchLint.Proofs.Java.Arrangement
import ArchLint.Proofs.Query.Resolution

/-!
# Fields

A use written `this.x` refers to the first variable whose scope is the class. Only classes,
constructors and methods are scopes, so besides the fields this can be a local variable of an
initializer block, a member of an anonymous or nested type, or whatever else is defined inside a
member that is no scope. Nothing but such a definition in front of the field hides it.
-/

namespace ArchLint

namespace Syntax

def Kind.sharesScope (k : Kind) : Bool :=
  k matches .variableDef | .interfaceDef | .enumDef | .slist | .other

theorem Kind.sharesScope_of_isMember {k : Kind} (hmember : k.isMember = true)
    (hscope : k.isScope = false) : k.sharesScope = true := by
  revert hmember hscope
  cases k <;> decide

namespace Tree

def IsField (t : Tree) (c d : Nat) : Prop :=
  ∃ b, t.parent b = some c ∧ t.kind b = .objBlock ∧ t.parent d = some b

/-- The definition stands deep inside the class: below a member that is no scope, or below an
annotation of the class. -/
def IsBuried (t : Tree) (c d : Nat) : Prop :=
  ∃ b, t.parent b = some c ∧
    ((t.kind b = .modifiers ∧ t.Above b d) ∨
      (t.kind b = .objBlock ∧
        ∃ m, t.parent m = some b ∧ (t.kind m).sharesScope = true ∧ t.Above m d))

variable {t : Tree} {T : Term} {c d n : Nat}

theorem IsLayout.not_above_ident (h : t.IsLayout T) (hT : T.Arranged) (hc : t.kind c = .ident) :
    ¬ t.Above c d := by
  intro hd
  obtain ⟨m, hm, -⟩ := hd.exists_child
  have hadmits := h.admits_of_parent hT hm
  rw [hc] at hadmits
  cases hadmits

theorem ScopeOf.sharesScope (h : t.IsLayout T) (hT : T.Arranged) (hs : t.ScopeOf d c) {b m : Nat}
    (hb : t.parent b = some c) (hk : t.kind b = .objBlock) (hm : t.parent m = some b)
    (hd : t.Above m d) : (t.kind m).sharesScope = true := by
  have hmember := h.admits_of_parent hT hm
  rw [hk] at hmember
  refine Kind.sharesScope_of_isMember hmember (Bool.eq_false_iff.mpr fun hscope => ?_)
  -- a scope so far down would be nearer than the class
  have hcm := h.above_lt (.further hm (.parent hb))
  rcases hs.lowest m hd hscope with rfl | habove
  · exact Nat.lt_irrefl _ hcm
  · exact Nat.lt_asymm hcm (h.above_lt habove)

theorem ScopeOf.isField_or_isBuried (h : t.IsLayout T) (hT : T.Arranged) (hs : t.ScopeOf d c)
    (hc : t.kind c = .classDef) (hd : t.kind d = .variableDef) :
    t.IsField c d ∨ t.IsBuried c d := by
  obtain ⟨b, hb, hbd⟩ := hs.above.exists_child
  have hheads := h.admits_of_parent hT hb
  rw [hc] at hheads
  have hbelow : t.Above b d := by
    refine hbd.resolve_left ?_
    rintro rfl
    rw [hd] at hheads
    cases hheads
  have hclause : (t.kind b).isClause = true → False := by
    intro hclause
    have hnaming := h.isNaming_of_above hT hclause hbelow
    rw [hd] at hnaming
    cases hnaming
  cases hk : t.kind b with
  | modifiers => exact .inr ⟨b, hb, .inl ⟨hk, hbelow⟩⟩
  | ident => exact absurd hbelow (h.not_above_ident hT hk)
  | extendsClause => exact (hclause (by rw [hk]; rfl)).elim
  | implementsClause => exact (hclause (by rw [hk]; rfl)).elim
  | objBlock =>
    obtain ⟨m, hm, rfl | hmd⟩ := hbelow.exists_child
    · exact .inl ⟨b, hb, hk, hm⟩
    · exact .inr ⟨b, hb, .inr ⟨hk, m, hm, hs.sharesScope h hT hb hk hm hmd, hmd⟩⟩
  | _ =>
    rw [hk] at hheads
    cases hheads

theorem Refers.isLowest_of_this (h : t.IsLayout T) {r : Option Nat} (hr : t.Refers n r)
    (hthis : t.ThisQualified n) (hc : t.ClassOf n c) : IsLowest (t.FieldFor c n) r := by
  cases hr with
  | outside hno => exact absurd hc (hno c)
  | field hc' _ hlowest => rwa [hc.unique h hc']
  | parameter _ _ hnot _ => exact absurd hthis hnot
  | inScope _ _ hnot _ _ => exact absurd hthis hnot

theorem IsField.scopeOf (h : t.IsLayout T) (hd : t.IsField c d) (hc : t.kind c = .classDef) :
    t.ScopeOf d c := by
  obtain ⟨b, hb, hk, hdb⟩ := hd
  rw [ScopeOf, h.nearest_iff_of_parent hdb, hk, if_neg (by decide), h.nearest_iff_of_parent hb, hc,
    if_pos (by decide)]

/-- A use `this.x` refers to a field of that name exactly if no other definition of the name, in
the scope of the class, comes first. -/
theorem IsField.resolveDeclaration_iff (ht : t.Finished) (hd : t.IsField c d)
    (hdk : t.kind d = .variableDef) {name : String} (hdeclares : t.Declares d name)
    (hk : t.kind n = .ident) (hthis : t.ThisQualified n) (hc : t.ClassOf n c)
    (hname : t.text n = some name) (hline : t.line d ≤ t.line n) :
    t.resolveDeclaration n = .ok (some d) ↔ ∀ e < d, ¬ t.FieldFor c n e := by
  obtain ⟨T, -, h⟩ := ht.exists_isLayout
  obtain ⟨r, hr, hrefers⟩ := ht.resolveDeclaration_refers hk
  have hlowest := hrefers.isLowest_of_this h hthis hc
  have hbelow : t.Above c d := by
    obtain ⟨b, hb, -, hdb⟩ := hd
    exact .further hdb (.parent hb)
  have hfield : t.FieldFor c n d :=
    ⟨⟨hbelow, hdk, ⟨name, hname, hdeclares⟩, hline⟩, hd.scopeOf h (of_decide_eq_true hc.kind)⟩
  rw [hr]
  constructor
  · rintro ⟨⟩ e he hef
    exact Nat.not_le_of_lt he (hlowest.2 e hef)
  · intro hfirst
    cases r with
    | none => exact absurd hfield (hlowest d)
    | some e =>
      have hle := hlowest.2 d hfield
      have hge : d ≤ e := Nat.le_of_not_lt fun hlt => hfirst e hlt hlowest.1
      rw [Nat.le_antisymm hle hge]

end Tree

end Syntax

namespace Java

open Syntax (Term Tree)

variable {source : String} {t : Tree} {c d n : Nat}

/-- In a file that parses, `this.x` refers to a variable whose scope is the class, the first one of
that name. It is a field, or it is buried in the class; so if a field of that name stands in front
of everything buried of that name, it is a field. -/
theorem this_refers_to_field (h : parse source = .ok t) (hk : t.kind n = .ident)
    (hthis : t.ThisQualified n) (hc : t.ClassOf n c)
    (hd : t.resolveDeclaration n = .ok (some d)) :
    t.kind d = .variableDef ∧ t.ScopeOf d c ∧ (∀ e, t.FieldFor c n e → d ≤ e) ∧
      (t.IsField c d ∨ t.IsBuried c d) ∧
      ((∀ e, t.FieldFor c n e → t.IsBuried c e →
        ∃ f, t.FieldFor c n f ∧ t.IsField c f ∧ f < e) → t.IsField c d) := by
  obtain ⟨T, hT, hlayout, hfinished⟩ := exists_arranged_of_parse h
  obtain ⟨r, hr, hrefers⟩ := hfinished.resolveDeclaration_refers hk
  obtain rfl : r = some d := Except.ok.inj (hr.symm.trans hd)
  obtain ⟨hfield, hlowest⟩ := hrefers.isLowest_of_this hlayout hthis hc
  have hplace := hfield.2.isField_or_isBuried hlayout hT (of_decide_eq_true hc.kind) hfield.1.kind
  refine ⟨hfield.1.kind, hfield.2, hlowest, hplace, fun hfirst => ?_⟩
  refine hplace.resolve_right fun hburied => ?_
  obtain ⟨f, hf, -, hlt⟩ := hfirst d hfield hburied
  exact Nat.not_le_of_lt hlt (hlowest f hf)

theorem this_refers_to_field_before_block :
    ∃ t, parse "class A { int x; { int x = 1; } void m() { this.x = 2; } }" = .ok t ∧
      t.kind 30 = .ident ∧ t.ThisQualified 30 ∧ t.ClassOf 30 1 ∧
      t.resolveDeclaration 30 = .ok (some 5) ∧ t.kind 5 = .variableDef ∧ t.IsField 1 5 ∧
      t.ScopeOf 5 1 ∧ ∀ e, t.FieldFor 1 30 e → 5 ≤ e := by
  obtain ⟨t, ht, hk, hthis, hc, hd, hparent, hbody, hclass⟩ := exists_tree_of_decide
    "class A { int x; { int x = 1; } void m() { this.x = 2; } }"
    (fun t => t.kind 30 = .ident ∧ t.isThisMember 30 = true ∧ t.enclosingClass 30 = some 1 ∧
      t.resolveDeclaration 30 = .ok (some 5) ∧ t.parent 5 = some 4 ∧ t.kind 4 = .objBlock ∧
      t.parent 4 = some 1)
    (by decide +kernel)
  obtain ⟨T, -, hlayout, -⟩ := exists_arranged_of_parse ht
  have hthis := (Tree.isThisMember_iff hlayout).mp hthis
  have hc := (Tree.enclosingClass_eq_some hlayout).mp hc
  obtain ⟨hkind, hscope, hlowest, -⟩ := this_refers_to_field ht hk hthis hc hd
  exact ⟨t, ht, hk, hthis, hc, hd, hkind, ⟨4, hclass, hbody, hparent⟩, hscope, hlowest⟩

/-- With the block in front of the field, `this.x` refers to the local variable. -/
theorem this_refers_to_local :
    ∃ t, parse "class A { { int x = 1; } int x; void m() { this.x = 2; } }" = .ok t ∧
      t.kind 30 = .ident ∧ t.ThisQualified 30 ∧ t.ClassOf 30 1 ∧
      t.resolveDeclaration 30 = .ok (some 6) ∧ t.IsField 1 14 ∧ ¬ t.IsField 1 6 := by
  obtain ⟨t, ht, hk, hthis, hc, hd, hparent, hbody, hclass, hlocal, hblock⟩ :=
    exists_tree_of_decide
    "class A { { int x = 1; } int x; void m() { this.x = 2; } }"
    (fun t => t.kind 30 = .ident ∧ t.isThisMember 30 = true ∧ t.enclosingClass 30 = some 1 ∧
      t.resolveDeclaration 30 = .ok (some 6) ∧ t.parent 14 = some 4 ∧ t.kind 4 = .objBlock ∧
      t.parent 4 = some 1 ∧ t.parent 6 = some 5 ∧ t.kind 5 = .slist)
    (by decide +kernel)
  obtain ⟨T, -, hlayout, -⟩ := exists_arranged_of_parse ht
  refine ⟨t, ht, hk, (Tree.isThisMember_iff hlayout).mp hthis,
    (Tree.enclosingClass_eq_some hlayout).mp hc, hd, ⟨4, hclass, hbody, hparent⟩, ?_⟩
  rintro ⟨b, -, hkind, hb⟩
  obtain rfl : 5 = b := Option.some.inj (hlocal.symm.trans hb)
  rw [hblock] at hkind
  cases hkind

end Java

end ArchLint
