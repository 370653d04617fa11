import Mathlib.Data.List.Forall2
import ArchLint.Proofs.Syntax.Draft

/-!
# Accepted sequences of steps

A sequence of steps is accepted exactly if its brackets are those of one term of legal shape, and
the tree it gives unfolds to that term. Every other sequence is rejected with the error of
highest precedence; `Rejected` lists the errors in that order.
-/

namespace ArchLint.Syntax

namespace Term

def namesChild (kinds : List Kind) (T : Term) : Bool :=
  T.children.any fun c => kinds.contains c.kind && (c.kind = .dot || c.text.isSome)

def startsDefinition : List Term → Bool
  | m :: ty :: name :: _ =>
    m.kind = .modifiers && ty.kind = .type && name.kind = .ident && name.text.isSome
  | _ => false

/-- What is wrong with the root of a term. -/
def fault (T : Term) : Option String :=
  match T.kind with
  | .variableDef | .parameterDef =>
    if startsDefinition T.children then none
    else some "expected MODIFIERS, TYPE and a named IDENT as the first three children"
  | .classDef | .interfaceDef | .enumDef =>
    if T.namesChild [.ident] then none else some "type declaration has no name"
  | .packageDef | .importDef | .staticImport =>
    if T.namesChild [.ident, .dot] then none else some "declaration has no qualified name"
  | .dot =>
    if T.children.length = 2 then none else some "member access must have exactly two parts"
  | .ident => if T.text.isSome then none else some "identifier has no text"
  | _ => none

mutual

def subterms : Term → List Term
  | T@(.node _ _ _ children) => T :: subtermsAll children

def subtermsAll : List Term → List Term
  | [] => []
  | T :: Ts => subterms T ++ subtermsAll Ts

end

def WellShaped (T : Term) : Prop :=
  ∀ U ∈ T.subterms, U.fault = none

instance (T : Term) : Decidable T.WellShaped :=
  inferInstanceAs (Decidable (∀ U ∈ T.subterms, U.fault = none))

def rootError (T : Term) : Option BuildError :=
  T.fault.map (.malformed T.kind T.line)

theorem wellShaped_iff (T : Term) : T.WellShaped ↔ T.subterms.findSome? rootError = none := by
  simp [WellShaped, List.findSome?_eq_none_iff, rootError]

end Term

mutual

/-- Node `i` and what lies below it, written out, is the term. -/
def Tree.Unfolds (t : Tree) (i : Nat) : Term → Prop
  | .node kind text line children =>
    i < t.size ∧ t.kind i = kind ∧ t.text i = text ∧ t.line i = line ∧
      Tree.UnfoldsAll t (t.children i) children

def Tree.UnfoldsAll (t : Tree) : List Nat → List Term → Prop
  | [], [] => True
  | i :: is, T :: Ts => Tree.Unfolds t i T ∧ Tree.UnfoldsAll t is Ts
  | _, _ => False

end

/-- Why a word is no tree, the first reason that applies. -/
inductive Rejected (w : List Bracket) : BuildError → Prop where
  | empty : w.countP Bracket.isOpening = 0 → Rejected w .empty
  | unbalanced : 0 < w.countP Bracket.isOpening → Bracket.Overcloses w → Rejected w .unbalanced
  | unclosed : ¬ Bracket.Overcloses w → 0 < Bracket.depth w →
      Rejected w (.unclosed (Bracket.depth w))
  | multipleRoots : ¬ Bracket.Overcloses w → Bracket.depth w = 0 → 1 < Bracket.rootCount w →
      Rejected w (.multipleRoots (Bracket.rootCount w))
  | malformed (T U : Term) (before after : List Term) (reason : String) : w = T.word →
      T.subterms = before ++ U :: after → (∀ V ∈ before, V.fault = none) →
      U.fault = some reason → Rejected w (.malformed U.kind U.line reason)

namespace Tree

open Term (places sizeAll)

variable {t : Tree} {parent : Option Nat} {i : Nat}

mutual

theorem Holds.unfolds : ∀ {T : Term} {parent : Option Nat} {i : Nat},
    Holds t parent i T → t.Unfolds i T
  | .node _ _ _ _, _, _, h =>
    ⟨h.lt_size, h.kind, h.text, h.line, by rw [h.children]; exact h.2.unfolds⟩

theorem HoldsAll.unfolds : ∀ {Ts : List Term} {parent : Option Nat} {i : Nat},
    HoldsAll t parent i Ts → t.UnfoldsAll (places i Ts) Ts
  | [], _, _, _ => trivial
  | _ :: _, _, _, h => ⟨h.1.unfolds, h.2.unfolds⟩

end

theorem HoldsAll.labels {Ts : List Term} (h : HoldsAll t parent i Ts) :
    (places i Ts).map (fun c => (t.kind c, t.text c)) = Ts.map fun T => (T.kind, T.text) := by
  induction Ts generalizing i with
  | nil => rfl
  | cons T Ts ih => simp [places, h.1.kind, h.1.text, ih h.2]

theorem Holds.hasNamedChild {T : Term} (h : Holds t parent i T) (kinds : List Kind) :
    t.hasNamedChild i kinds = T.namesChild kinds := by
  have hl := congrArg
    (List.any · fun p => kinds.contains p.1 && (p.1 = .dot || p.2.isSome)) h.below.labels
  simpa [Tree.hasNamedChild, Term.namesChild, h.children, List.any_map, Function.comp_def] using hl

theorem Holds.startsDefinition_iff {T : Term} (h : Holds t parent i T) :
    (((t.children i).take 3).map t.kind = [.modifiers, .type, .ident] ∧
        ((t.child i 2).bind t.text).isSome) ↔ Term.startsDefinition T.children := by
  have hb := h.below
  have hchild : t.child i 2 = (t.children i)[2]? := by
    simp [Tree.child, Tree.children]
  rw [hchild, h.children]
  rcases hT : T.children with _ | ⟨m, _ | ⟨ty, _ | ⟨name, rest⟩⟩⟩
  · simp [places, Term.startsDefinition]
  · simp [places, Term.startsDefinition]
  · simp [places, Term.startsDefinition]
  · rw [hT] at hb
    simp [places, Term.startsDefinition, hb.1.kind, hb.2.1.kind, hb.2.2.1.kind, hb.2.2.1.text,
      and_assoc]

theorem Holds.length_children {T : Term} (h : Holds t parent i T) :
    (t.children i).length = T.children.length := by
  simpa [h.children] using congrArg List.length h.below.labels

theorem Holds.shapeFault {T : Term} (h : Holds t parent i T) : t.shapeFault i = T.fault := by
  rw [Tree.shapeFault, Term.fault, h.kind]
  cases T.kind <;>
    simp only [h.text, h.length_children, h.hasNamedChild, h.startsDefinition_iff]

mutual

theorem Holds.preorder : ∀ {T : Term} {parent : Option Nat} {i : Nat}, Holds t parent i T →
    List.Forall₂ (fun n U => ∃ q, Holds t q n U) (List.range' i T.size) T.subterms
  | .node kind text line children, parent, i, h => by
    rw [range'_size, Term.subterms]
    exact .cons ⟨parent, h⟩ h.2.preorder

theorem HoldsAll.preorder : ∀ {Ts : List Term} {parent : Option Nat} {i : Nat},
    HoldsAll t parent i Ts → List.Forall₂ (fun n U => ∃ q, Holds t q n U)
      (List.range' i (sizeAll Ts)) (Term.subtermsAll Ts)
  | [], _, _, _ => .nil
  | T :: Ts, _, i, h => by
    rw [sizeAll, ← List.range'_append_1, Term.subtermsAll]
    exact List.rel_append h.1.preorder h.2.preorder

end

theorem Holds.map_preorder {α : Type} {T : Term} (h : Holds t parent i T) {f : Nat → α}
    {g : Term → α} (hfg : ∀ q n U, Holds t q n U → f n = g U) :
    (List.range' i T.size).map f = T.subterms.map g := by
  rw [← List.forall₂_eq_eq_eq, List.forall₂_map_left_iff, List.forall₂_map_right_iff]
  refine h.preorder.imp ?_
  rintro n U ⟨q, hU⟩
  exact hfg q n U hU

/-- The first ill-shaped node by number is the first ill-shaped term in pre-order. -/
theorem firstFault_tree (T : Term) :
    T.tree.firstFault = T.subterms.findSome? Term.rootError := by
  have hmap : (List.range' root T.size).map
      (fun n => (T.tree.shapeFault n).map (.malformed (T.tree.kind n) (T.tree.line n))) =
        T.subterms.map Term.rootError :=
    (holds_tree T).map_preorder fun q n U hU => by
      rw [hU.shapeFault, hU.kind, hU.line, Term.rootError]
  have h := congrArg (List.findSome? id) hmap
  rw [List.findSome?_map, List.findSome?_map] at h
  rw [firstFault, size_tree, List.range_eq_range']
  exact h

end Tree

namespace Draft

theorem length_openedIds (fs : List Frame) : (openedIds fs).length = fs.length := by
  induction fs with
  | nil => rfl
  | cons f fs ih => simp [openedIds, ih]

end Draft

namespace Builder

variable (steps : List Step)

theorem isEmpty_nodes_run :
    (run steps).nodes.isEmpty = true ↔ (Bracket.word steps).countP Bracket.isOpening = 0 := by
  rw [Array.isEmpty_iff_size_eq_zero, ← Array.length_toList, (Represents.run steps).nodes,
    Draft.length_nodes_run]

theorem unbalanced_run :
    (run steps).unbalanced = true ↔ Bracket.Overcloses (Bracket.word steps) := by
  rw [(Represents.run steps).unbalanced, Draft.overclosed_run]

theorem length_opened_run : (run steps).opened.length = Bracket.depth (Bracket.word steps) := by
  rw [(Represents.run steps).opened, Draft.length_openedIds, Draft.length_frames_run]

theorem opened_run_eq_nil :
    (run steps).opened = [] ↔ Bracket.depth (Bracket.word steps) = 0 := by
  rw [← length_opened_run, List.length_eq_zero_iff]

theorem roots_run : (run steps).roots = Bracket.rootCount (Bracket.word steps) := by
  rw [(Represents.run steps).roots, Draft.topCount_run]

variable {steps}

theorem nodes_run_of_word {T : Term} (h : Bracket.word steps = T.word) :
    (⟨(run steps).nodes⟩ : Tree) = T.tree := by
  have hn := (Represents.run steps).nodes
  rw [h, Draft.run_word] at hn
  have hl : (run steps).nodes.toList = T.layout none Tree.root := by
    simpa [Draft.nodes, Draft.openNodes, Draft.openedIds, Draft.offset, Term.layoutAll,
      Tree.root] using hn
  rw [Term.tree, ← hl]

end Builder

namespace Term

/-- The word of a term is balanced and has one root. -/
theorem word_facts (T : Term) :
    0 < T.word.countP Bracket.isOpening ∧ ¬ Bracket.Overcloses T.word ∧
      Bracket.depth T.word = 0 ∧ Bracket.rootCount T.word = 1 := by
  refine ⟨?_, ?_, ?_, ?_⟩
  · rw [← Draft.length_nodes_run, Draft.run_word, Draft.length_nodes]
    have := T.size_pos
    simp [sizeAll]
    omega
  · rw [← Draft.overclosed_run, Draft.run_word]
    simp
  · rw [← Draft.length_frames_run, Draft.run_word]
    rfl
  · rw [← Draft.topCount_run, Draft.run_word]
    rfl

/-- Conversely a balanced word with one root is the word of a term. -/
theorem exists_word {w : List Bracket} (hne : 0 < w.countP Bracket.isOpening)
    (hb : ¬ Bracket.Overcloses w) (hd : Bracket.depth w = 0) (hr : Bracket.rootCount w ≤ 1) :
    ∃ T : Term, w = T.word := by
  have hf : (Draft.run w).frames = [] := by
    rw [← List.length_eq_zero_iff, Draft.length_frames_run, hd]
  have hlen := Draft.topCount_run w
  have hsize := Draft.length_nodes_run w
  have hword := Draft.word_run hb
  rw [Draft.length_nodes, hf] at hsize
  rw [hf] at hlen
  rw [Draft.word, hf] at hword
  rcases hT : (Draft.run w).terms with _ | ⟨T, _ | ⟨U, rest⟩⟩
  · rw [hT] at hsize
    simp [Draft.offset, sizeAll] at hsize
    omega
  · rw [hT] at hword
    exact ⟨T, by simpa [Draft.openWord, wordAll] using hword.symm⟩
  · rw [hT] at hlen
    simp [Draft.topCount] at hlen
    omega

theorem word_injective {T U : Term} (h : T.word = U.word) : T = U := by
  have hr := Draft.run_word T
  rw [h, Draft.run_word] at hr
  simpa using (congrArg Draft.terms hr).symm

end Term

namespace Tree

variable {steps : List Step}

/-- One term: only its shape is left to look at. -/
theorem ofSteps_of_word {T : Term} (h : Bracket.word steps = T.word) :
    ofSteps steps =
      match T.subterms.findSome? Term.rootError with
      | some e => .error e
      | none => .ok T.tree := by
  obtain ⟨hne, hb, hd, hr⟩ := T.word_facts
  rw [← h] at hne hb hd hr
  rw [ofSteps, Builder.finish, if_neg (mt (Builder.isEmpty_nodes_run steps).mp (by omega)),
    if_neg (mt (Builder.unbalanced_run steps).mp hb),
    if_neg (not_not_intro ((Builder.opened_run_eq_nil steps).mpr hd)),
    if_neg (by rw [Builder.roots_run]; omega), Builder.nodes_run_of_word h]
  cases hf : T.subterms.findSome? Term.rootError <;> simp only [firstFault_tree, hf]

theorem ofSteps_of_wellShaped {T : Term} (h : Bracket.word steps = T.word) (hT : T.WellShaped) :
    ofSteps steps = .ok T.tree := by
  rw [ofSteps_of_word h, T.wellShaped_iff.mp hT]

theorem ofSteps_of_rejected {e : BuildError} (h : Rejected (Bracket.word steps) e) :
    ofSteps steps = .error e := by
  cases h with
  | empty h0 => rw [ofSteps, Builder.finish, if_pos ((Builder.isEmpty_nodes_run steps).mpr h0)]
  | unbalanced hne hb =>
    rw [ofSteps, Builder.finish, if_neg (mt (Builder.isEmpty_nodes_run steps).mp (by omega)),
      if_pos ((Builder.unbalanced_run steps).mpr hb)]
  | unclosed hb hd =>
    have hne := Bracket.depth_le_countP (Bracket.word steps)
    rw [ofSteps, Builder.finish, if_neg (mt (Builder.isEmpty_nodes_run steps).mp (by omega)),
      if_neg (mt (Builder.unbalanced_run steps).mp hb),
      if_pos (mt (Builder.opened_run_eq_nil steps).mp (by omega)), Builder.length_opened_run]
  | multipleRoots hb hd hr =>
    have hne := Bracket.rootCount_le_countP (Bracket.word steps)
    rw [ofSteps, Builder.finish, if_neg (mt (Builder.isEmpty_nodes_run steps).mp (by omega)),
      if_neg (mt (Builder.unbalanced_run steps).mp hb),
      if_neg (not_not_intro ((Builder.opened_run_eq_nil steps).mpr hd)),
      if_pos (by rw [Builder.roots_run]; omega), Builder.roots_run]
  | malformed T U before after reason hw hsub hbefore hU =>
    have hfirst : T.subterms.findSome? Term.rootError =
        some (.malformed U.kind U.line reason) := by
      rw [List.findSome?_eq_some_iff]
      exact ⟨before, U, after, hsub, by simp [Term.rootError, hU],
        fun V hV => by simp [Term.rootError, hbefore V hV]⟩
    rw [ofSteps_of_word hw, hfirst]

/-- A word is rejected for some reason or is the word of a well-shaped term. -/
theorem rejected_or_wellShaped (w : List Bracket) :
    (∃ e, Rejected w e) ∨ ∃ T : Term, w = T.word ∧ T.WellShaped := by
  by_cases hne : w.countP Bracket.isOpening = 0
  · exact Or.inl ⟨_, .empty hne⟩
  by_cases hb : Bracket.Overcloses w
  · exact Or.inl ⟨_, .unbalanced (by omega) hb⟩
  by_cases hd : Bracket.depth w = 0
  case neg => exact Or.inl ⟨_, .unclosed hb (by omega)⟩
  by_cases hr : 1 < Bracket.rootCount w
  · exact Or.inl ⟨_, .multipleRoots hb hd hr⟩
  obtain ⟨T, hT⟩ := Term.exists_word (by omega) hb hd (by omega)
  cases hf : T.subterms.findSome? Term.rootError with
  | none => exact Or.inr ⟨T, hT, T.wellShaped_iff.mpr hf⟩
  | some e =>
    obtain ⟨before, U, after, hsub, hU, hbefore⟩ := List.findSome?_eq_some_iff.mp hf
    obtain ⟨reason, hreason, rfl⟩ := Option.map_eq_some_iff.mp hU
    refine Or.inl ⟨_, .malformed T U before after reason hT hsub ?_ hreason⟩
    intro V hV
    exact Option.map_eq_none_iff.mp (hbefore V hV)

theorem exists_term_of_ofSteps {t : Tree} (h : ofSteps steps = .ok t) :
    ∃ T : Term, T.WellShaped ∧ Bracket.word steps = T.word ∧ t = T.tree := by
  rcases rejected_or_wellShaped (Bracket.word steps) with ⟨e, he⟩ | ⟨T, hw, hT⟩
  · rw [ofSteps_of_rejected he] at h
    cases h
  · rw [ofSteps_of_wellShaped hw hT] at h
    exact ⟨T, hT, hw, (Except.ok.inj h).symm⟩

theorem rejected_of_ofSteps {e : BuildError} (h : ofSteps steps = .error e) :
    Rejected (Bracket.word steps) e := by
  rcases rejected_or_wellShaped (Bracket.word steps) with ⟨e', he⟩ | ⟨T, hw, hT⟩
  · rw [ofSteps_of_rejected he] at h
    exact Except.error.inj h ▸ he
  · rw [ofSteps_of_wellShaped hw hT] at h
    cases h

/-- The builder accepts the pre-order steps of a well-shaped term, in whatever spelling, and its
tree unfolds to the term; what it accepts is the word of exactly one such term; and what it
refuses it refuses for the first reason that applies. -/
theorem ofSteps_exact :
    (∀ T : Term, T.WellShaped → Bracket.word T.steps = T.word ∧
      ∀ steps, Bracket.word steps = T.word →
        ∃ t, ofSteps steps = .ok t ∧ t.Unfolds root T ∧ t.size = T.size) ∧
    (∀ steps t, ofSteps steps = .ok t →
      ∃! T : Term, T.WellShaped ∧ Bracket.word steps = T.word ∧ t.Unfolds root T ∧
        t.size = T.size) ∧
    (∀ steps e, ofSteps steps = .error e ↔ Rejected (Bracket.word steps) e) := by
  refine ⟨?_, ?_, ?_⟩
  · intro T hT
    refine ⟨T.word_steps, fun steps hw => ?_⟩
    exact ⟨T.tree, ofSteps_of_wellShaped hw hT, (holds_tree T).unfolds, size_tree T⟩
  · intro steps t h
    obtain ⟨T, hT, hw, rfl⟩ := exists_term_of_ofSteps h
    refine ⟨T, ⟨hT, hw, (holds_tree T).unfolds, size_tree T⟩, ?_⟩
    rintro U ⟨_, hU, _⟩
    exact Term.word_injective (hU.symm.trans hw)
  · intro steps e
    exact ⟨rejected_of_ofSteps, ofSteps_of_rejected⟩

theorem ofSteps_exact_examples :
    (∃ t, ofSteps [.declaration .variableDef "int" "x" 3, .finish] = .ok t ∧
      t.Unfolds root (.node .variableDef none 3 [.leaf .modifiers 3,
        .node .type none 3 [.token .ident "int" 3], .token .ident "x" 3]) ∧ t.size = 5) ∧
    ofSteps [.leaf .slist none 1, .leaf .slist none 2, .start .slist none 3] =
      .error (.unclosed 1) := by
  constructor
  · exact (ofSteps_exact.1 _ (by decide)).2 _ rfl
  · exact (ofSteps_exact.2.2 _ _).mpr (.unclosed (by decide) (by decide))

end Tree

end ArchLint.Syntax
