import Mathlib.Data.List.Basic
import ArchLint.Proofs.Syntax.Acceptance
import ArchLint.Proofs.Text.Cutting

/-!
# Sound terms

A term is sound if its nodes have legal shapes and every assignment stands where its target can be
told: behind the name that it gives a first value, in a definition or an annotation, and elsewhere
around its target. Dotted names are sound.
-/

namespace ArchLint

namespace Syntax

def Kind.isInitial (k : Kind) : Bool :=
  k matches .variableDef | .annotationMemberValuePair

theorem Kind.isInitial_eq (k : Kind) :
    k.isInitial = (decide (k = .variableDef) || decide (k = .annotationMemberValuePair)) := by
  cases k <;> rfl

def Kind.fronts : Kind → List (List Kind)
  | .variableDef => [[.modifiers, .type, .ident], [.modifiers, .type, .ident, .arrayDeclarator]]
  | .annotationMemberValuePair => [[.ident]]
  | _ => []

theorem Kind.assign_not_mem_fronts {k : Kind} {ks : List Kind} (h : ks ∈ k.fronts) :
    .assign ∉ ks := by
  have htable : ∀ k : Kind, ∀ ks ∈ k.fronts, .assign ∉ ks := by
    intro k
    cases k <;> decide
  exact htable k ks h

namespace Term

def Reassigns (T : Term) : Prop :=
  (∀ U ∈ T.children, U.kind ≠ .expr) ∧
    ∀ U, T.children.head? = some U → U.kind ≠ .arrayInit ∧ U.kind ≠ .lambda

/-- An assignment that gives a first value stands behind the name. In a definition it comes last
and holds an expression or a list. -/
def Introduces (T : Term) : Prop :=
  T.kind.isInitial = true → ∀ before V after, T.children = before ++ V :: after →
    V.kind = .assign → before.map kind ∈ T.kind.fronts ∧
      (T.kind = .variableDef → after = [] ∧ V.children.map kind ∈ [[.expr], [.arrayInit]])

/-- The shapes are legal, outside definitions and annotations every assignment shows its target,
and inside them it stands behind it. -/
structure Sound (T : Term) : Prop where
  shaped : T.WellShaped
  placed : ∀ U ∈ T.subterms, U.kind.isInitial = false →
    ∀ V ∈ U.children, V.kind = .assign → V.Reassigns
  introduces : ∀ U ∈ T.subterms, U.Introduces

theorem introduces_of_not_isInitial {T : Term} (h : T.kind.isInitial = false) : T.Introduces := by
  intro hinitial
  rw [h] at hinitial
  cases hinitial

theorem introduces_of_forall_ne {T : Term} (h : ∀ U ∈ T.children, U.kind ≠ .assign) :
    T.Introduces := by
  intro _ before V after hsplit hV
  refine absurd hV (h V ?_)
  rw [hsplit]
  exact List.mem_append_right _ List.mem_cons_self

/-- There is one assignment, and it stands where it may. -/
theorem introduces_of_split {T A : Term} {front rest : List Term}
    (hsplit : T.children = front ++ A :: rest) (hfronts : front.map kind ∈ T.kind.fronts)
    (hrest : ∀ U ∈ rest, U.kind ≠ .assign)
    (hA : T.kind = .variableDef → rest = [] ∧ A.children.map kind ∈ [[.expr], [.arrayInit]]) :
    T.Introduces := by
  have hfront : ∀ U ∈ front, U.kind ≠ .assign := fun U hU hk =>
    Kind.assign_not_mem_fronts hfronts (hk ▸ List.mem_map_of_mem hU)
  intro _ before V after hsplit' hV
  rw [hsplit, List.append_cons_inj_of_notMem (fun hmem => hfront V hmem hV)
    fun hmem => hrest V hmem hV] at hsplit'
  obtain ⟨rfl, rfl, rfl⟩ := hsplit'
  exact ⟨hfronts, hA⟩

theorem mem_subtermsAll {U : Term} {Ts : List Term} :
    U ∈ subtermsAll Ts ↔ ∃ T ∈ Ts, U ∈ T.subterms := by
  induction Ts with
  | nil => simp [subtermsAll]
  | cons T Ts ih => simp [subtermsAll, ih]

theorem sound_node {kind : Kind} {text : Option String} {line : Nat} {children : List Term}
    (hchildren : ∀ T ∈ children, T.Sound) (hfault : (node kind text line children).fault = none)
    (hplaced : kind.isInitial = false → ∀ T ∈ children, T.kind = .assign → T.Reassigns)
    (hintroduces : (node kind text line children).Introduces) :
    (node kind text line children).Sound := by
  constructor
  · intro U hU
    rw [subterms, List.mem_cons, mem_subtermsAll] at hU
    rcases hU with rfl | ⟨T, hT, hU⟩
    · exact hfault
    · exact (hchildren T hT).shaped U hU
  · intro U hU
    rw [subterms, List.mem_cons, mem_subtermsAll] at hU
    rcases hU with rfl | ⟨T, hT, hU⟩
    · exact hplaced
    · exact (hchildren T hT).placed U hU
  · intro U hU
    rw [subterms, List.mem_cons, mem_subtermsAll] at hU
    rcases hU with rfl | ⟨T, hT, hU⟩
    · exact hintroduces
    · exact (hchildren T hT).introduces U hU

theorem sound_childless {kind : Kind} {text : Option String} {line : Nat}
    (hfault : (node kind text line []).fault = none) : (node kind text line []).Sound :=
  sound_node (List.forall_mem_nil _) hfault (fun _ => List.forall_mem_nil _)
    (introduces_of_forall_ne (List.forall_mem_nil _))

theorem segment_eq (name : List Char) (line : Nat) :
    (name = ['*'] ∧ segment name line = token .star "*" line) ∨
      (name ≠ ['*'] ∧ segment name line = token .ident (String.ofList name) line) := by
  rw [segment]
  split
  · next h => exact .inl ⟨h, rfl⟩
  · next h => exact .inr ⟨h, rfl⟩

theorem sound_segment (name : List Char) (line : Nat) :
    (segment name line).Sound ∧ (segment name line).kind ≠ .assign := by
  rcases segment_eq name line with ⟨-, h⟩ | ⟨-, h⟩
  · rw [h]
    exact ⟨sound_childless rfl, nofun⟩
  · rw [h]
    exact ⟨sound_childless rfl, nofun⟩

theorem sound_foldl_dot {line : Nat} (rest : List (List Char)) {inner : Term}
    (h : inner.Sound ∧ inner.kind ≠ .assign) :
    let whole := rest.foldl (fun inner s => node .dot none line [inner, segment s line]) inner
    (whole.Sound ∧ whole.kind ≠ .assign) ∧ (rest ≠ [] → whole.kind = .dot) := by
  induction rest generalizing inner with
  | nil => exact ⟨h, fun hne => absurd rfl hne⟩
  | cons s rest ih =>
    have hs := sound_segment s line
    have hdot : (node .dot none line [inner, segment s line]).Sound := by
      refine sound_node ?_ rfl ?_ (introduces_of_not_isInitial rfl)
      · intro T hT
        rcases List.mem_pair.mp hT with rfl | rfl
        · exact h.1
        · exact hs.1
      · intro _ T hT hassign
        rcases List.mem_pair.mp hT with rfl | rfl
        · exact absurd hassign h.2
        · exact absurd hassign hs.2
    have hassign : (node .dot none line [inner, segment s line]).kind ≠ .assign := nofun
    obtain ⟨hwhole, hkind⟩ := ih ⟨hdot, hassign⟩
    refine ⟨hwhole, fun _ => ?_⟩
    cases rest with
    | nil => rfl
    | cons _ _ => exact hkind (List.cons_ne_nil _ _)

theorem sound_qualified (name : String) (line : Nat) :
    (qualified name line).Sound ∧ (qualified name line).kind ≠ .assign := by
  rw [qualified]
  split
  · exact ⟨sound_childless rfl, nofun⟩
  · next first rest _ => exact (sound_foldl_dot rest (sound_segment first line)).1

theorem qualified_reads {name : String} (hname : name ≠ "*") (line : Nat) :
    (qualified name line).kind = .dot ∨
      ((qualified name line).kind = .ident ∧ (qualified name line).text.isSome = true) := by
  rw [qualified]
  split
  · exact .inr ⟨rfl, rfl⟩
  · next first rest hsegments =>
    cases rest with
    | cons s rest =>
      exact .inl ((sound_foldl_dot (s :: rest) (sound_segment first line)).2 (List.cons_ne_nil _ _))
    | nil =>
      have hfirst : first ≠ ['*'] := by
        rw [Text.eq_of_segments_eq_singleton hsegments]
        intro h
        exact hname (String.toList_inj.mp h)
      rcases segment_eq first line with ⟨h, -⟩ | ⟨-, h⟩
      · exact absurd h hfirst
      · rw [List.foldl_nil, h]
        exact .inr ⟨rfl, rfl⟩

end Term

end Syntax

end ArchLint
