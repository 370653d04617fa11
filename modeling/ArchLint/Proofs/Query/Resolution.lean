import ArchLint.Proofs.Syntax.Navigation
import ArchLint.Query.Binding

/-!
# What an identifier refers to

`Refers` says which definition a use of a name refers to in terms of the links of the tree: of
the definitions under the nearest class that carry the name and stand on no later line, a use
written `this.x` takes the first field, and any other use the latest parameter of its own scope
or, failing that, the latest variable of its own scope or of the class. The resolver answers
exactly this, and fails on nothing but a node that is no identifier.
-/

namespace ArchLint.Syntax.Tree

variable {t : Tree} {n c s d : Nat}

def ClassOf (t : Tree) (n c : Nat) : Prop :=
  t.Nearest (fun k => decide (k = .classDef)) n c

def ScopeOf (t : Tree) (n s : Nat) : Prop :=
  t.Nearest Kind.isScope n s

def ThisQualified (t : Tree) (n : Nat) : Prop :=
  (∃ p, t.parent n = some p ∧ t.kind p = .dot) ∧ ∃ m, t.Adjacent m n ∧ t.kind m = .literalThis

def Declares (t : Tree) (d : Nat) (name : String) : Prop :=
  ∃ modifiers type i rest, t.children d = modifiers :: type :: i :: rest ∧ t.text i = some name

/-- A definition below `c` of the name that `n` uses, on the line of `n` or before it. -/
structure Candidate (t : Tree) (c n : Nat) (kind : Kind) (d : Nat) : Prop where
  below : t.Above c d
  kind : t.kind d = kind
  name : ∃ name, t.text n = some name ∧ t.Declares d name
  line : t.line d ≤ t.line n

/-- The node with `P` that is at least as good as every other one, if there is any. -/
def IsBest (better : Nat → Nat → Prop) (P : Nat → Prop) : Option Nat → Prop
  | none => ∀ d, ¬ P d
  | some d => P d ∧ ∀ e, P e → better d e

/-- The node with the lowest number, if there is one. -/
def IsLowest (P : Nat → Prop) (r : Option Nat) : Prop :=
  IsBest (· ≤ ·) P r

/-- The node on the greatest line, on one line that with the greatest number, if there is one. -/
def IsLatest (t : Tree) (P : Nat → Prop) (r : Option Nat) : Prop :=
  IsBest (fun d e => t.line e < t.line d ∨ (t.line e = t.line d ∧ e ≤ d)) P r

def FieldFor (t : Tree) (c n d : Nat) : Prop :=
  t.Candidate c n .variableDef d ∧ t.ScopeOf d c

def ParameterFor (t : Tree) (c s n d : Nat) : Prop :=
  t.Candidate c n .parameterDef d ∧ t.ScopeOf d s

def VariableFor (t : Tree) (c s n d : Nat) : Prop :=
  t.Candidate c n .variableDef d ∧ (t.ScopeOf d s ∨ t.ScopeOf d c)

inductive Refers (t : Tree) (n : Nat) : Option Nat → Prop where
  | outside : (∀ c, ¬ t.ClassOf n c) → Refers t n none
  | field {c : Nat} {r : Option Nat} : t.ClassOf n c → t.ThisQualified n →
      IsLowest (t.FieldFor c n) r → Refers t n r
  | parameter {c s d : Nat} : t.ClassOf n c → t.ScopeOf n s → ¬ t.ThisQualified n →
      t.IsLatest (t.ParameterFor c s n) (some d) → Refers t n (some d)
  | inScope {c s : Nat} {r : Option Nat} : t.ClassOf n c → t.ScopeOf n s →
      ¬ t.ThisQualified n → (∀ d, ¬ t.ParameterFor c s n d) →
      t.IsLatest (t.VariableFor c s n) r → Refers t n r

/-- What a use could refer to at all. -/
def Visible (t : Tree) (n d : Nat) : Prop :=
  ∃ c s, t.ClassOf n c ∧ t.ScopeOf n s ∧
    ((t.ThisQualified n ∧ t.FieldFor c n d) ∨
      (¬ t.ThisQualified n ∧ (t.ParameterFor c s n d ∨ t.VariableFor c s n d)))

theorem IsBest.unique {better : Nat → Nat → Prop} {P : Nat → Prop} {r r' : Option Nat}
    (hanti : ∀ d e, better d e → better e d → d = e) (h : IsBest better P r)
    (h' : IsBest better P r') : r = r' := by
  cases r with
  | none =>
    cases r' with
    | none => rfl
    | some e => exact absurd h'.1 (h e)
  | some d =>
    cases r' with
    | none => exact absurd h.1 (h' d)
    | some e => rw [hanti d e (h.2 e h'.1) (h'.2 d h.1)]

theorem IsLowest.unique {P : Nat → Prop} {r r' : Option Nat} (h : IsLowest P r)
    (h' : IsLowest P r') : r = r' :=
  IsBest.unique (fun _ _ => Nat.le_antisymm) h h'

theorem IsLatest.unique {P : Nat → Prop} {r r' : Option Nat} (h : t.IsLatest P r)
    (h' : t.IsLatest P r') : r = r' :=
  IsBest.unique (by intro d e hde hed; omega) h h'

theorem Refers.unique {T : Term} (h : t.IsLayout T) {r r' : Option Nat} (hr : t.Refers n r)
    (hr' : t.Refers n r') : r = r' := by
  cases hr with
  | outside hc =>
    cases hr' with
    | outside _ => rfl
    | field hc' _ _ => exact absurd hc' (hc _)
    | parameter hc' _ _ _ => exact absurd hc' (hc _)
    | inScope hc' _ _ _ _ => exact absurd hc' (hc _)
  | field hc hq hd =>
    cases hr' with
    | outside hc' => exact absurd hc (hc' _)
    | field hc' _ hd' =>
      rw [hc.unique h hc'] at hd
      exact hd.unique hd'
    | parameter _ _ hq' _ => exact absurd hq hq'
    | inScope _ _ hq' _ _ => exact absurd hq hq'
  | parameter hc hs hq hd =>
    cases hr' with
    | outside hc' => exact absurd hc (hc' _)
    | field _ hq' _ => exact absurd hq' hq
    | parameter hc' hs' _ hd' =>
      rw [hc.unique h hc', hs.unique h hs'] at hd
      exact hd.unique hd'
    | inScope hc' hs' _ hnone _ =>
      rw [hc.unique h hc', hs.unique h hs'] at hd
      exact absurd hd.1 (hnone _)
  | inScope hc hs hq hnone hd =>
    cases hr' with
    | outside hc' => exact absurd hc (hc' _)
    | field _ hq' _ => exact absurd hq' hq
    | parameter hc' hs' _ hd' =>
      rw [hc.unique h hc', hs.unique h hs'] at hnone
      exact absurd hd'.1 (hnone _)
    | inScope hc' hs' _ _ hd' =>
      rw [hc.unique h hc', hs.unique h hs'] at hd
      exact hd.unique hd'

theorem filterAuxM_eq_ok {ε : Type} {f : Nat → Except ε Bool} {p : Nat → Bool} {l : List Nat}
    (h : ∀ a ∈ l, f a = .ok (p a)) (acc : List Nat) :
    l.filterAuxM f acc = .ok ((l.filter p).reverse ++ acc) := by
  induction l generalizing acc with
  | nil => rfl
  | cons a l ih =>
    have ha := h a List.mem_cons_self
    have hl := fun acc => ih (fun b hb => h b (List.mem_cons_of_mem a hb)) acc
    rw [List.filterAuxM, ha]
    cases hp : p a <;> simp [bind, Except.bind, hl, hp]

theorem filterM_eq_ok {ε : Type} {f : Nat → Except ε Bool} {p : Nat → Bool} {l : List Nat}
    (h : ∀ a ∈ l, f a = .ok (p a)) : l.filterM f = .ok (l.filter p) := by
  rw [List.filterM, filterAuxM_eq_ok h]
  simp [Functor.map, Except.map]

theorem IsBest.congr {better : Nat → Nat → Prop} {P Q : Nat → Prop} (hPQ : ∀ d, P d ↔ Q d)
    {r : Option Nat} (h : IsBest better P r) : IsBest better Q r := by
  rwa [show Q = P from funext fun d => propext (hPQ d).symm]

theorem isLowest_find? {p : Nat → Bool} {ds : List Nat} (h : ds.Pairwise (· < ·)) :
    IsLowest (fun d => d ∈ ds ∧ p d = true) (ds.find? p) := by
  cases hf : ds.find? p with
  | none =>
    rintro d ⟨hd, hp⟩
    exact List.find?_eq_none.mp hf d hd hp
  | some d =>
    obtain ⟨hp, before, after, rfl, hbefore⟩ := List.find?_eq_some_iff_append.mp hf
    refine ⟨⟨by simp, hp⟩, ?_⟩
    rintro e ⟨he, hpe⟩
    rcases List.mem_append.mp he with hb | ha
    · have := hbefore e hb
      simp [hpe] at this
    · rcases List.mem_cons.mp ha with rfl | ha
      · exact Nat.le_refl _
      · exact Nat.le_of_lt (List.rel_of_pairwise_cons (List.pairwise_append.mp h).2.1 ha)

theorem latest_concat (t : Tree) (ds : List Nat) (d : Nat) :
    t.latest (ds ++ [d]) =
      match t.latest ds with
      | some b => if t.line d < t.line b then some b else some d
      | none => some d := by
  rw [latest, List.foldl_append]
  rfl

/-- The fold keeps the greatest line seen so far; as the numbers grow, the last of one line has
the greatest number. -/
theorem isLatest_latest {ds : List Nat} (h : ds.Pairwise (· < ·)) :
    t.IsLatest (· ∈ ds) (t.latest ds) := by
  induction ds using List.reverseRecOn with
  | nil => exact fun d hd => List.not_mem_nil hd
  | append_singleton ds d ih =>
    obtain ⟨hds, -, hlt⟩ := List.pairwise_append.mp h
    have hd : ∀ e ∈ ds, e < d := fun e he => hlt e he d List.mem_cons_self
    have hbest := ih hds
    rw [latest_concat]
    cases hb : t.latest ds with
    | none =>
      rw [hb] at hbest
      refine ⟨by simp, fun e he => ?_⟩
      rcases List.mem_append.mp he with he | he
      · exact absurd he (hbest e)
      · rw [List.mem_singleton.mp he]
        omega
    | some b =>
      rw [hb] at hbest
      obtain ⟨hmem, hmax⟩ := hbest
      simp only
      split
      · next hline =>
        refine ⟨List.mem_append_left _ hmem, fun e he => ?_⟩
        rcases List.mem_append.mp he with he | he
        · exact hmax e he
        · rw [List.mem_singleton.mp he]
          omega
      · next hline =>
        refine ⟨by simp, fun e he => ?_⟩
        rcases List.mem_append.mp he with he | he
        · have := hmax e he
          have := hd e he
          omega
        · rw [List.mem_singleton.mp he]
          omega

theorem Finished.exists_text (ht : t.Finished) (hk : t.kind n = .ident) :
    ∃ name, t.text n = some name := by
  have hf := ht.shapeFault (lt_size_of_kind (by simp [hk] : t.kind n ≠ .other))
  rw [Tree.shapeFault, hk] at hf
  simp only [ite_eq_left_iff, reduceCtorEq, imp_false, not_not] at hf
  exact Option.isSome_iff_exists.mp hf

theorem Finished.exists_declaredName (ht : t.Finished)
    (hk : t.kind d = .variableDef ∨ t.kind d = .parameterDef) :
    ∃ name, t.declaredName d = .ok name ∧ ∀ other, t.Declares d other ↔ other = name := by
  obtain ⟨m, y, i, rest, name, hc, -, -, hi, hname⟩ := ht.definition_children hk
  have hchild : t.child d 2 = some i := by rw [child_eq_getElem?, hc]; rfl
  refine ⟨name, ?_, fun other => ⟨?_, ?_⟩⟩
  · have hident : t.declaredIdent d = some i := by
      rcases hk with hk | hk <;> simp [declaredIdent, hk, Kind.isDeclaration, hchild, hi]
    have hcheck : Query.declaredName.check t d = .ok () := by
      rcases hk with hk | hk <;> simp [Query.check, Query.accepts, hk]
    rw [declaredName, hcheck, hident, Option.bind_some, hname]
    rfl
  · rintro ⟨m', y', i', rest', hc', hother⟩
    rw [hc] at hc'
    cases hc'
    exact Option.some.inj (hother.symm.trans hname)
  · rintro rfl
    exact ⟨m, y, i, rest, hc, hname⟩

theorem Finished.exists_candidates (ht : t.Finished) {kind : Kind} {name : String}
    (hk : kind = .variableDef ∨ kind = .parameterDef) (hc : c < t.size)
    (hname : t.text n = some name) :
    ∃ ds, t.candidates c kind name (t.line n) = .ok ds ∧ ds.Pairwise (· < ·) ∧
      ∀ d, d ∈ ds ↔ t.Candidate c n kind d := by
  obtain ⟨T, -, hT⟩ := ht.exists_isLayout
  have hp : ∀ d ∈ t.findAll kind c,
      (if t.line d ≤ t.line n then return decide ((← t.declaredName d) = name)
        else return false : Except QueryError Bool) =
        .ok (decide (t.line d ≤ t.line n ∧ t.declaredName d = .ok name)) := by
    intro d hd
    have hkd : t.kind d = kind := of_decide_eq_true (List.mem_filter.mp hd).2
    obtain ⟨found, hfound, -⟩ := ht.exists_declaredName (d := d) (by rwa [hkd])
    by_cases hl : t.line d ≤ t.line n <;> simp [hl, hfound, bind, Except.bind, pure, Except.pure]
  refine ⟨_, filterM_eq_ok hp, ?_, fun d => ?_⟩
  · exact ((hT.pairwise_descendants hc).filter _).filter _
  · simp only [findAll, List.mem_filter, hT.mem_descendants hc, decide_eq_true_eq]
    -- the test reads the name with the query, `Candidate` off the children
    constructor
    · rintro ⟨⟨hb, hkd⟩, hl, hn⟩
      obtain ⟨found, hfound, hdecl⟩ := ht.exists_declaredName (d := d) (by rwa [hkd])
      rw [hn] at hfound
      cases hfound
      exact ⟨hb, hkd, ⟨name, hname, (hdecl name).mpr rfl⟩, hl⟩
    · rintro ⟨hb, hkd, ⟨name', hname', hd⟩, hl⟩
      obtain ⟨found, hfound, hdecl⟩ := ht.exists_declaredName (d := d) (by rwa [hkd])
      rw [hname] at hname'
      cases hname'
      rw [(hdecl name).mp hd]
      exact ⟨⟨hb, hkd⟩, hl, hfound⟩

section Layout

variable {T : Term}

theorem enclosingClass_eq_some (h : t.IsLayout T) :
    t.enclosingClass n = some c ↔ t.ClassOf n c := by
  rw [enclosingClass, ClassOf, ← h.find?_ancestors_eq_some]

theorem enclosingClass_eq_none (h : t.IsLayout T) (hc : t.enclosingClass n = none) :
    ¬ t.ClassOf n c := by
  intro hn
  rw [(enclosingClass_eq_some h).mpr hn] at hc
  cases hc

theorem enclosingScope_eq_some (h : t.IsLayout T) (hk : (t.kind d).isScope = false) :
    t.enclosingScope d = some s ↔ t.ScopeOf d s := by
  rw [enclosingScope, List.find?_cons_of_neg (by simp [hk])]
  exact h.find?_ancestors_eq_some

theorem ClassOf.exists_scopeOf (h : t.IsLayout T) (hc : t.ClassOf n c) : ∃ s, t.ScopeOf n s := by
  cases hs : (t.ancestors n).find? fun a => (t.kind a).isScope with
  | some s => exact ⟨s, h.find?_ancestors_eq_some.mp hs⟩
  | none =>
    have hkind : t.kind c = .classDef := of_decide_eq_true hc.kind
    exact absurd (by rw [hkind]; rfl) (h.find?_ancestors_eq_none.mp hs c hc.above)

theorem isThisMember_iff (h : t.IsLayout T) : t.isThisMember n = true ↔ t.ThisQualified n := by
  simp only [isThisMember, Bool.and_eq_true, Option.any_eq_true, decide_eq_true_eq,
    ThisQualified, h.prevSibling_eq_some]

theorem Candidate.enclosingScope_eq (h : t.IsLayout T) {kind : Kind} (hd : t.Candidate c n kind d)
    (hk : kind = .variableDef ∨ kind = .parameterDef) :
    t.enclosingScope d = some s ↔ t.ScopeOf d s := by
  refine enclosingScope_eq_some h ?_
  rw [hd.kind]
  rcases hk with rfl | rfl <;> rfl

end Layout

theorem resolveDeclaration_of_kind (hk : t.kind n ≠ .ident) :
    t.resolveDeclaration n =
      .error (.unexpectedKind .resolveDeclaration (t.kind n) (t.line n)) := by
  rw [resolveDeclaration, Query.check, if_neg (by simpa [Query.accepts] using hk)]
  rfl

theorem check_of_kind (hk : t.kind n = .ident) : Query.resolveDeclaration.check t n = .ok () := by
  rw [Query.check, if_pos (by simp [Query.accepts, hk])]

theorem resolveDeclaration_outside (hk : t.kind n = .ident) (hc : t.enclosingClass n = none) :
    t.resolveDeclaration n = .ok none := by
  rw [resolveDeclaration, check_of_kind hk, hc]
  cases t.text n <;> rfl

theorem resolveDeclaration_inside {name : String} {vars params : List Nat}
    (hk : t.kind n = .ident) (hname : t.text n = some name) (hc : t.enclosingClass n = some c)
    (hs : t.enclosingScope n = some s)
    (hv : t.candidates c .variableDef name (t.line n) = .ok vars)
    (hp : t.candidates c .parameterDef name (t.line n) = .ok params) :
    t.resolveDeclaration n = .ok
      (if t.isThisMember n then vars.find? fun d => t.enclosingScope d = some c
      else (t.latest (params.filter fun d => t.enclosingScope d = some s)).or
        (t.latest (vars.filter fun d =>
          t.enclosingScope d = some s || t.enclosingScope d = some c))) := by
  rw [resolveDeclaration, check_of_kind hk, hname, hc, hs]
  simp only [hv, hp, bind, Except.bind, pure, Except.pure]
  split <;> rfl

theorem isLowest_of_mem {P Q : Nat → Prop} {q : Nat → Bool} {ds : List Nat}
    (h : ds.Pairwise (· < ·)) (hmem : ∀ d, d ∈ ds ↔ P d) (hq : ∀ d, P d → (q d = true ↔ Q d)) :
    IsLowest (fun d => P d ∧ Q d) (ds.find? q) := by
  refine (isLowest_find? h).congr fun d => ?_
  rw [hmem]
  exact and_congr_right (hq d)

theorem isLatest_of_mem {P Q : Nat → Prop} {q : Nat → Bool} {ds : List Nat}
    (h : ds.Pairwise (· < ·)) (hmem : ∀ d, d ∈ ds ↔ P d) (hq : ∀ d, P d → (q d = true ↔ Q d)) :
    t.IsLatest (fun d => P d ∧ Q d) (t.latest (ds.filter q)) := by
  refine (isLatest_latest (h.filter q)).congr fun d => ?_
  rw [List.mem_filter, hmem]
  exact and_congr_right (hq d)

/-- The resolver answers for every identifier, and answers what the use refers to. -/
theorem Finished.resolveDeclaration_refers (ht : t.Finished) (hk : t.kind n = .ident) :
    ∃ r, t.resolveDeclaration n = .ok r ∧ t.Refers n r := by
  obtain ⟨T, -, hT⟩ := ht.exists_isLayout
  obtain ⟨name, hname⟩ := ht.exists_text hk
  cases hc : t.enclosingClass n with
  | none =>
    exact ⟨none, resolveDeclaration_outside hk hc, .outside fun c => enclosingClass_eq_none hT hc⟩
  | some c =>
    have hclass := (enclosingClass_eq_some hT).mp hc
    obtain ⟨s, hscope⟩ := hclass.exists_scopeOf hT
    have hs := (enclosingScope_eq_some hT (by rw [hk]; rfl)).mpr hscope
    have hcsize : c < t.size := Nat.lt_trans (hT.above_lt hclass.above) hclass.above.lt_size
    obtain ⟨vars, hv, hvsorted, hvmem⟩ := ht.exists_candidates (.inl rfl) hcsize hname
    obtain ⟨params, hp, hpsorted, hpmem⟩ := ht.exists_candidates (.inr rfl) hcsize hname
    refine ⟨_, resolveDeclaration_inside hk hname hc hs hv hp, ?_⟩
    split
    · next hthis =>
      refine .field hclass ((isThisMember_iff hT).mp hthis) ?_
      refine isLowest_of_mem hvsorted hvmem fun d hd => ?_
      rw [decide_eq_true_eq, hd.enclosingScope_eq hT (.inl rfl)]
    · next hthis =>
      rw [isThisMember_iff hT] at hthis
      have howner : t.IsLatest (t.ParameterFor c s n)
          (t.latest (params.filter fun d => t.enclosingScope d = some s)) := by
        refine isLatest_of_mem hpsorted hpmem fun d hd => ?_
        rw [decide_eq_true_eq, hd.enclosingScope_eq hT (.inr rfl)]
      have hvisible : t.IsLatest (t.VariableFor c s n)
          (t.latest (vars.filter fun d =>
            t.enclosingScope d = some s || t.enclosingScope d = some c)) := by
        refine isLatest_of_mem hvsorted hvmem fun d hd => ?_
        rw [Bool.or_eq_true, decide_eq_true_eq, decide_eq_true_eq,
          hd.enclosingScope_eq hT (.inl rfl), hd.enclosingScope_eq hT (.inl rfl)]
      cases hown : t.latest (params.filter fun d => t.enclosingScope d = some s) with
      | some d =>
        rw [hown] at howner
        exact .parameter hclass hscope hthis howner
      | none =>
        rw [hown] at howner
        exact .inScope hclass hscope hthis howner hvisible

theorem Visible.line_le (h : t.Visible n d) : t.line d ≤ t.line n := by
  obtain ⟨c, s, -, -, ⟨-, hd, -⟩ | ⟨-, ⟨hd, -⟩ | ⟨hd, -⟩⟩⟩ := h
  all_goals exact hd.line

section Layout

variable {T : Term}

theorem Refers.visible (h : t.IsLayout T) (hr : t.Refers n (some d)) : t.Visible n d := by
  cases hr with
  | field hc hq hd =>
    obtain ⟨s, hs⟩ := hc.exists_scopeOf h
    exact ⟨_, s, hc, hs, .inl ⟨hq, hd.1⟩⟩
  | parameter hc hs hq hd => exact ⟨_, _, hc, hs, .inr ⟨hq, .inl hd.1⟩⟩
  | inScope hc hs hq _ hd => exact ⟨_, _, hc, hs, .inr ⟨hq, .inr hd.1⟩⟩

theorem Refers.not_visible (h : t.IsLayout T) (hr : t.Refers n none) : ¬ t.Visible n d := by
  rintro ⟨c, s, hc, hs, hd⟩
  cases hr with
  | outside hno => exact hno c hc
  | field hc' hq hnone =>
    rw [hc.unique h hc'] at hd
    rcases hd with ⟨-, hd⟩ | ⟨hq', -⟩
    · exact hnone d hd
    · exact hq' hq
  | inScope hc' hs' hq hparam hnone =>
    rw [hc.unique h hc', hs.unique h hs'] at hd
    rcases hd with ⟨hq', -⟩ | ⟨-, hd | hd⟩
    · exact hq hq'
    · exact hparam d hd
    · exact hnone d hd

theorem Refers.parameter_of_visible (h : t.IsLayout T) {r : Option Nat} (hr : t.Refers n r)
    (hd : t.Visible n d) (hk : t.kind d = .parameterDef) :
    ∃ e, r = some e ∧ t.kind e = .parameterDef := by
  have hvar : ∀ {c : Nat}, ¬ t.Candidate c n .variableDef d := by
    intro c hcand
    have := hcand.kind.symm.trans hk
    cases this
  obtain ⟨c, s, hc, hs, ⟨-, hf, -⟩ | ⟨hq, hp | ⟨hv, -⟩⟩⟩ := hd
  · exact absurd hf hvar
  · cases hr with
    | outside hno => exact absurd hc (hno c)
    | field _ hq' _ => exact absurd hq' hq
    | parameter _ _ _ he => exact ⟨_, rfl, he.1.1.kind⟩
    | inScope hc' hs' _ hnone _ =>
      rw [hc.unique h hc', hs.unique h hs'] at hp
      exact absurd hp (hnone d)
  · exact absurd hv hvar

end Layout

/-- The resolver fails on what is no identifier and on nothing else. On an identifier it answers
what the use refers to: never a definition on a later line, a parameter where one is visible, and
nothing only where nothing is visible. -/
theorem resolveDeclaration_exact (ht : t.Finished) (n : Nat) :
    (∀ e, t.resolveDeclaration n = .error e ↔
      t.kind n ≠ .ident ∧
        e = .unexpectedKind .resolveDeclaration (t.kind n) (t.line n)) ∧
    (t.kind n = .ident →
      (∀ r, t.resolveDeclaration n = .ok r ↔ t.Refers n r) ∧
      (∀ d, t.resolveDeclaration n = .ok (some d) → t.Visible n d ∧ t.line d ≤ t.line n) ∧
      (∀ p, t.Visible n p → t.kind p = .parameterDef →
        ∃ d, t.resolveDeclaration n = .ok (some d) ∧ t.kind d = .parameterDef) ∧
      (t.resolveDeclaration n = .ok none ↔ ∀ d, ¬ t.Visible n d)) := by
  obtain ⟨T, -, hT⟩ := ht.exists_isLayout
  by_cases hk : t.kind n = .ident
  · obtain ⟨r, hr, href⟩ := ht.resolveDeclaration_refers hk
    refine ⟨fun e => by simp [hr, hk], fun _ => ⟨fun r' => ?_, fun d hd => ?_, ?_, ?_⟩⟩
    · rw [hr]
      exact ⟨fun h => Except.ok.inj h ▸ href, fun h => congrArg _ (href.unique hT h)⟩
    · rw [hr] at hd
      cases hd
      have hvis := href.visible hT
      exact ⟨hvis, hvis.line_le⟩
    · intro p hp hkp
      obtain ⟨d, rfl, hkd⟩ := href.parameter_of_visible hT hp hkp
      exact ⟨d, hr, hkd⟩
    · rw [hr]
      constructor
      · intro h d
        cases h
        exact href.not_visible hT
      · intro h
        cases r with
        | none => rfl
        | some d => exact absurd (href.visible hT) (h d)
  · refine ⟨fun e => ?_, fun h => absurd h hk⟩
    rw [resolveDeclaration_of_kind hk]
    constructor
    · intro h
      exact ⟨hk, (Except.error.inj h).symm⟩
    · rintro ⟨-, rfl⟩
      rfl

theorem resolveDeclaration_exact_hidden :
    ∃ t : Tree, t.Finished ∧ t.kind 13 = .ident ∧ t.Refers 13 (some 8) ∧ t.Refers 16 (some 2) ∧
      t.Refers 17 none := by
  have h : ∃ t, ofSteps [.start .classDef none 1, .leaf .ident (some "A") 1,
      .declaration .variableDef "int" "x" 2, .finish, .start .methodDef none 3,
      .declaration .parameterDef "int" "x" 3, .finish, .leaf .ident (some "x") 4,
      .start .dot none 4, .leaf .literalThis none 4, .leaf .ident (some "x") 4, .finish,
      .leaf .ident (some "y") 4, .declaration .variableDef "int" "y" 5, .finish, .finish,
      .finish] = .ok t ∧ t.kind 13 = .ident ∧ t.kind 16 = .ident ∧ t.kind 17 = .ident ∧
      t.resolveDeclaration 13 = .ok (some 8) ∧ t.resolveDeclaration 16 = .ok (some 2) ∧
      t.resolveDeclaration 17 = .ok none :=
    ⟨_, rfl, rfl, rfl, rfl, by cbv, by cbv, by cbv⟩
  obtain ⟨t, ht, hx, hthis, hy, hrx, hrthis, hry⟩ := h
  have hfin : t.Finished := ⟨_, ht⟩
  exact ⟨t, hfin, hx, (((resolveDeclaration_exact hfin 13).2 hx).1 _).mp hrx,
    (((resolveDeclaration_exact hfin 16).2 hthis).1 _).mp hrthis,
    (((resolveDeclaration_exact hfin 17).2 hy).1 _).mp hry⟩

end ArchLint.Syntax.Tree
