import ArchLint.Proofs.Syntax.Soundness

/-!
# Terms with a gap

A context is a term with a gap in it. If the brackets of a term stand somewhere in a word that one
term spells, then that term is a context around it, and any other term could stand there as well.
The rest of the word is the rest of the term in both cases, with the same faults.
-/

namespace ArchLint.Syntax

theorem Tree.holdsAll_append {t : Tree} {parent : Option Nat} {i : Nat} {before after : List Term} :
    HoldsAll t parent i (before ++ after) ↔
      HoldsAll t parent i before ∧ HoldsAll t parent (i + Term.sizeAll before) after := by
  induction before generalizing i with
  | nil => simp [HoldsAll, Term.sizeAll]
  | cons T before ih => simp [HoldsAll, Term.sizeAll, ih, Nat.add_assoc, and_assoc]

inductive Context where
  | gap
  | node (kind : Kind) (text : Option String) (line : Nat) (before : List Term) (inner : Context)
      (after : List Term)

namespace Context

/-- The context with a term in its gap. -/
def plug (T : Term) : Context → Term
  | .gap => T
  | .node kind text line before inner after =>
    .node kind text line (before ++ inner.plug T :: after)

/-- The number of nodes in front of the gap. -/
def place : Context → Nat
  | .gap => 0
  | .node _ _ _ before inner _ => 1 + Term.sizeAll before + inner.place

variable {T U V : Term}

theorem subterms_plug_node (T : Term) (kind : Kind) (text : Option String) (line : Nat)
    (before after : List Term) (C : Context) :
    V ∈ ((node kind text line before C after).plug T).subterms ↔
      V = (node kind text line before C after).plug T ∨
        V ∈ (C.plug T).subterms ∨ ∃ S, (S ∈ before ∨ S ∈ after) ∧ V ∈ S.subterms := by
  rw [plug, Term.subterms, List.mem_cons, Term.mem_subtermsAll]
  constructor
  · rintro (h | ⟨S, hS, hV⟩)
    · exact .inl h
    · rw [List.mem_append, List.mem_cons] at hS
      rcases hS with hS | rfl | hS
      · exact .inr (.inr ⟨S, .inl hS, hV⟩)
      · exact .inr (.inl hV)
      · exact .inr (.inr ⟨S, .inr hS, hV⟩)
  · rintro (h | h | ⟨S, hS, hV⟩)
    · exact .inl h
    · exact .inr ⟨C.plug T, by simp, h⟩
    · refine .inr ⟨S, ?_, hV⟩
      rw [List.mem_append, List.mem_cons]
      exact hS.imp_right .inr

theorem mem_subterms_plug (C : Context) (hV : V ∈ T.subterms) : V ∈ (C.plug T).subterms := by
  induction C with
  | gap => exact hV
  | node kind text line before inner after ih =>
    rw [subterms_plug_node]
    exact .inr (.inl ih)

/-- What stands in the gap is laid out behind the nodes in front of the gap. -/
theorem exists_holds_of_plug {t : Tree} {parent : Option Nat} {i : Nat} {C : Context}
    (h : Tree.Holds t parent i (C.plug T)) : ∃ q, Tree.Holds t q (i + C.place) T := by
  induction C generalizing parent i with
  | gap => exact ⟨parent, h⟩
  | node kind text line before inner after ih =>
    obtain ⟨q, hq⟩ := ih (Tree.holdsAll_append.mp h.below).2.1
    refine ⟨q, ?_⟩
    rwa [place, ← Nat.add_assoc, ← Nat.add_assoc]

theorem fault_congr {kind : Kind} {text : Option String} {line : Nat} {Ts Us : List Term}
    (h : Ts.map (fun T => (T.kind, T.text)) = Us.map fun U => (U.kind, U.text)) :
    (Term.node kind text line Ts).fault = (Term.node kind text line Us).fault := by
  have hlength : Ts.length = Us.length := by simpa using congrArg List.length h
  have hstarts : Term.startsDefinition Ts = Term.startsDefinition Us := by
    rcases Ts with _ | ⟨m, _ | ⟨ty, _ | ⟨name, rest⟩⟩⟩ <;>
      rcases Us with _ | ⟨m', _ | ⟨ty', _ | ⟨name', rest'⟩⟩⟩ <;>
      simp_all [Term.startsDefinition]
  have hnames : ∀ kinds, (Term.node kind text line Ts).namesChild kinds =
      (Term.node kind text line Us).namesChild kinds := by
    intro kinds
    have hany := congrArg
      (List.any · fun p => kinds.contains p.1 && (p.1 = .dot || p.2.isSome)) h
    simpa [Term.namesChild, Term.children, List.any_map, Function.comp_def] using hany
  rw [Term.fault, Term.fault]
  cases kind <;> simp only [Term.kind, Term.text, Term.children, hlength, hstarts, hnames] <;> congr

theorem label_plug (C : Context) (hkind : T.kind = U.kind) (htext : T.text = U.text) :
    (C.plug T).kind = (C.plug U).kind ∧ (C.plug T).text = (C.plug U).text := by
  cases C with
  | gap => exact ⟨hkind, htext⟩
  | node => exact ⟨rfl, rfl⟩

theorem rootError_of_mem_plug (C : Context) (hkind : T.kind = U.kind) (htext : T.text = U.text)
    (hV : V ∈ (C.plug U).subterms) :
    V ∈ U.subterms ∨ ∃ W ∈ (C.plug T).subterms, W.rootError = V.rootError := by
  induction C with
  | gap => exact .inl hV
  | node kind text line before inner after ih =>
    obtain ⟨hk, ht⟩ := label_plug inner hkind htext
    rw [subterms_plug_node] at hV
    rcases hV with rfl | hV | ⟨S, hS, hV⟩
    · refine .inr ⟨_, (subterms_plug_node T kind text line before after inner).mpr (.inl rfl), ?_⟩
      have hfault : ((node kind text line before inner after).plug T).fault =
          ((node kind text line before inner after).plug U).fault := by
        apply fault_congr
        simp [hk, ht]
      rw [Term.rootError, Term.rootError, hfault]
      rfl
    · rcases ih hV with hU | ⟨W, hW, herror⟩
      · exact .inl hU
      · exact .inr ⟨W, (subterms_plug_node T kind text line before after inner).mpr
          (.inr (.inl hW)), herror⟩
    · exact .inr ⟨V, (subterms_plug_node T kind text line before after inner).mpr
        (.inr (.inr ⟨S, hS, hV⟩)), rfl⟩

theorem wellShaped_plug {C : Context} (h : (C.plug T).WellShaped) (hkind : T.kind = U.kind)
    (htext : T.text = U.text) (hU : U.WellShaped) : (C.plug U).WellShaped := by
  intro V hV
  rcases rootError_of_mem_plug C hkind htext hV with hV | ⟨W, hW, herror⟩
  · exact hU V hV
  · rw [Term.rootError, Term.rootError, h W hW, Option.map_none] at herror
    exact Option.map_eq_none_iff.mp herror.symm

theorem findSome?_plug {C : Context} (h : (C.plug T).WellShaped) (hkind : T.kind = U.kind)
    (htext : T.text = U.text) {e : BuildError} (he : ∃ V ∈ U.subterms, V.rootError = some e)
    (hU : ∀ V ∈ U.subterms, V.rootError = none ∨ V.rootError = some e) :
    (C.plug U).subterms.findSome? Term.rootError = some e := by
  have hall : ∀ V ∈ (C.plug U).subterms, V.rootError = none ∨ V.rootError = some e := by
    intro V hV
    rcases rootError_of_mem_plug C hkind htext hV with hV | ⟨W, hW, herror⟩
    · exact hU V hV
    · left
      rw [← herror, Term.rootError, h W hW]
      rfl
  obtain ⟨V, hV, hVe⟩ := he
  cases hfind : (C.plug U).subterms.findSome? Term.rootError with
  | none =>
    rw [List.findSome?_eq_none_iff.mp hfind V (mem_subterms_plug C hV)] at hVe
    cases hVe
  | some e' =>
    obtain ⟨W, hW, hWe⟩ := List.exists_of_findSome?_eq_some hfind
    rcases hall W hW with hnone | hsome
    · rw [hnone] at hWe
      cases hWe
    · exact hWe.symm.trans hsome

end Context

open Draft (offset)

/-- What is drafted around a gap: the gap is below the innermost open node, or a node beside it or
around it is still open. There are `n` nodes in front of the gap. -/
inductive Gapped (n : Nat) : (Term → Draft) → Prop where
  | current (outer : List Frame) (before after : List Term) (C : Context) (overclosed : Bool) :
      offset outer + Term.sizeAll before + C.place = n →
      Gapped n fun T => ⟨outer, before ++ C.plug T :: after, overclosed⟩
  | beside (inner outer : List Frame) (kind : Kind) (text : Option String) (line : Nat)
      (before after terms : List Term) (C : Context) (overclosed : Bool) :
      offset outer + Term.sizeAll before + C.place = n →
      Gapped n fun T =>
        ⟨inner ++ ⟨kind, text, line, before ++ C.plug T :: after⟩ :: outer, terms, overclosed⟩

namespace Gapped

variable {n : Nat} {draft : Term → Draft}

theorem step (h : Gapped n draft) (b : Bracket) : Gapped n fun T => (draft T).step b := by
  cases h with
  | current outer before after C overclosed hn =>
    cases b with
    | opening kind text line =>
      exact .beside [] outer _ _ _ before after [] C overclosed hn
    | closing =>
      cases outer with
      | nil => exact .current [] before after C true hn
      | cons f outer =>
        refine .current outer f.before [] (.node f.kind f.text f.line before C after) _ ?_
        rw [Context.place, ← hn, offset]
        omega
  | beside inner outer kind text line before after terms C overclosed hn =>
    cases b with
    | opening kind' text' line' =>
      exact .beside (⟨kind', text', line', terms⟩ :: inner) outer _ _ _ before after [] C _ hn
    | closing =>
      cases inner with
      | nil =>
        have hgap := Gapped.current outer before (after ++ [.node kind text line terms]) C
          overclosed hn
        simpa [Draft.step] using hgap
      | cons f inner =>
        exact .beside inner outer _ _ _ before after _ C overclosed hn

theorem run (h : Gapped n draft) (w : List Bracket) :
    Gapped n fun T => w.foldl Draft.step (draft T) := by
  induction w generalizing draft with
  | nil => exact h
  | cons b w ih => exact ih (h.step b)

theorem exists_context (h : Gapped n draft) {D T : Term} (hD : draft D = ⟨[], [T], false⟩) :
    ∃ C : Context, C.place = n ∧ T = C.plug D ∧ ∀ D', draft D' = ⟨[], [C.plug D'], false⟩ := by
  cases h with
  | current outer before after C overclosed hn =>
    obtain ⟨rfl, hterms, rfl⟩ := Draft.mk.inj hD
    cases before with
    | nil =>
      obtain ⟨rfl, rfl⟩ := List.cons.inj hterms
      exact ⟨C, by simpa [offset, Term.sizeAll] using hn, rfl, fun D' => rfl⟩
    | cons S before => simp at hterms
  | beside inner outer kind text line before after terms C overclosed hn =>
    obtain ⟨hframes, -, -⟩ := Draft.mk.inj hD
    simp at hframes

end Gapped

/-- A term that is spelled within the word of another stands in that other one, at the number of
nodes opened in front of it, and could be exchanged for any term. -/
theorem Term.exists_context {u v : List Bracket} {D T : Term} (h : u ++ (D.word ++ v) = T.word) :
    ∃ C : Context, C.place = u.countP Bracket.isOpening ∧ T = C.plug D ∧
      ∀ D' : Term, u ++ (D'.word ++ v) = (C.plug D').word := by
  have hrun : ∀ D' : Term, Draft.run (u ++ (D'.word ++ v)) =
      v.foldl Draft.step
        ⟨(Draft.run u).frames, (Draft.run u).terms ++ [D'], (Draft.run u).overclosed⟩ := by
    intro D'
    rw [Draft.run, List.foldl_append, List.foldl_append, ← Draft.run, Draft.foldl_word]
  have hstart : Gapped (u.countP Bracket.isOpening) fun D' =>
      ⟨(Draft.run u).frames, (Draft.run u).terms ++ [D'], (Draft.run u).overclosed⟩ := by
    refine .current _ _ [] .gap _ ?_
    rw [← Draft.length_nodes_run, Draft.length_nodes]
    rfl
  obtain ⟨C, hplace, hT, hdraft⟩ := (hstart.run v).exists_context
    ((hrun D).symm.trans (h ▸ Draft.run_word T))
  refine ⟨C, hplace, hT, fun D' => ?_⟩
  have hword := (hrun D').trans (hdraft D')
  have hclosed : ¬ Bracket.Overcloses (u ++ (D'.word ++ v)) := by
    rw [← Draft.overclosed_run, hword]
    exact Bool.false_ne_true
  rw [← Draft.word_run hclosed, hword]
  simp [Draft.word, Draft.openWord, Term.wordAll]

end ArchLint.Syntax
