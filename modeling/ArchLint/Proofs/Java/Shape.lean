import ArchLint.Java
import ArchLint.Proofs.Java.Legality
import ArchLint.Proofs.Syntax.Navigation

/-!
# The shape of lowered trees

Filling a legal plan gives sound terms if lowering what stands in its holes does. By induction on
the depth every conforming concrete tree is lowered to sound terms, or it has more levels than are
lowered. So the builder never refuses the tree of a conforming program.
-/

namespace ArchLint.Java

open Syntax (Term Tree)

/-- What lowering promises about the terms that a node becomes. -/
structure Cst.Becomes (c : Cst) (ts : List Term) : Prop where
  sound : ∀ T ∈ ts, T.Sound
  reassigns : ∀ T ∈ ts, T.kind = .assign → T.Reassigns
  comment : c.isComment = true → ts = []
  value : c.isValue = true → ∃ T, ts = [T] ∧ T.kind ≠ .expr
  place : c.isPlace = true → ∀ T ∈ ts, T.kind ≠ .arrayInit ∧ T.kind ≠ .lambda
  list : c.kind = .arrayInitializer → ∃ T, ts = [T] ∧ T.kind = .arrayInit

namespace Plan

variable {R : Cst → List Term → Prop} {n : Nat} {p : Plan} {ps : List Plan} {ts : List Term}

theorem Filled.of_kind? {kind : Syntax.Kind} (hp : p.kind? = some kind) (h : Filled R p ts) :
    ∃ T, ts = [T] ∧ T.kind = kind := by
  cases p with
  | node k text line parts =>
    obtain ⟨us, -, rfl⟩ := h
    exact ⟨_, rfl, Option.some.inj hp⟩
  | done T => exact ⟨T, h, Option.some.inj hp⟩
  | hole c => cases hp

theorem FilledAll.mem_of_done {T : Term} (hT : done T ∈ ps) (h : FilledAll R ps ts) : T ∈ ts := by
  induction ps generalizing ts with
  | nil => cases hT
  | cons p ps ih =>
    obtain ⟨us, vs, hp, hps, rfl⟩ := h
    rcases List.mem_cons.mp hT with rfl | hT
    · rw [show us = [T] from hp]
      exact List.mem_append_left _ (List.mem_singleton_self T)
    · exact List.mem_append_right _ (ih hT hps)

theorem FilledAll.exists_of_mem {T : Term} (hT : T ∈ ts) (h : FilledAll R ps ts) :
    ∃ p ∈ ps, ∃ us, Filled R p us ∧ T ∈ us := by
  induction ps generalizing ts with
  | nil =>
    rw [show ts = [] from h] at hT
    cases hT
  | cons p ps ih =>
    obtain ⟨us, vs, hp, hps, rfl⟩ := h
    rcases List.mem_append.mp hT with hT | hT
    · exact ⟨p, List.mem_cons_self, us, hp, hT⟩
    · obtain ⟨q, hq, ws, hws, hT⟩ := ih hT hps
      exact ⟨q, List.mem_cons_of_mem p hq, ws, hws, hT⟩

theorem Legal.single (hR : ∀ c us, c.Within n → R c us → c.Becomes us) (hp : p.Legal n)
    (hsingle : p.IsSingle) (h : Filled R p ts) : ∃ T, ts = [T] := by
  cases p with
  | node k text line parts =>
    obtain ⟨us, -, rfl⟩ := h
    exact ⟨_, rfl⟩
  | done T => exact ⟨T, h⟩
  | hole c =>
    obtain ⟨T, hT, -⟩ := (hR c ts hp h).value hsingle
    exact ⟨T, hT⟩

theorem DefinitionHead.filled {rest : List Plan} (hhead : DefinitionHead ps rest)
    (h : FilledAll R ps ts) :
    ∃ M T name l us, ts = M :: T :: Term.token .ident name l :: us ∧ M.kind = .modifiers ∧
      T.kind = .type ∧ FilledAll R rest us := by
  obtain ⟨m, type, name, l, rfl, hm, htype⟩ := hhead
  obtain ⟨_, _, hfm, ⟨_, _, hftype, ⟨_, us, hfname, hus, rfl⟩, rfl⟩, rfl⟩ := h
  obtain ⟨M, rfl, hM⟩ := hfm.of_kind? hm
  obtain ⟨T, rfl, hT⟩ := hftype.of_kind? htype
  rw [show _ = [Term.token .ident name l] from hfname]
  exact ⟨M, T, name, l, us, rfl, hM, hT, hus⟩

theorem startsDefinition_of_head {rest : List Plan} (hhead : DefinitionHead ps rest)
    (h : FilledAll R ps ts) : Term.startsDefinition ts = true := by
  obtain ⟨M, T, name, l, us, rfl, hM, hT, -⟩ := hhead.filled h
  rw [Term.startsDefinition, hM, hT]
  rfl

theorem fault_eq_none (hR : ∀ c us, c.Within n → R c us → c.Becomes us) {kind : Syntax.Kind}
    {text : Option String} {line : Nat} (hsuits : Suits ps kind) (hps : LegalAll n ps)
    (h : FilledAll R ps ts) : (Term.node kind text line ts).fault = none := by
  cases kind with
  | variableDef =>
    obtain ⟨rest, hhead, -⟩ := hsuits
    exact if_pos (startsDefinition_of_head hhead h)
  | parameterDef =>
    obtain ⟨rest, hhead⟩ := hsuits
    exact if_pos (startsDefinition_of_head hhead h)
  | classDef | interfaceDef | enumDef =>
    obtain ⟨name, l, hname⟩ := hsuits
    have hmem := h.mem_of_done hname
    have hnames : (Term.node .classDef text line ts).namesChild [.ident] = true :=
      List.any_eq_true.mpr ⟨_, hmem, rfl⟩
    exact if_pos hnames
  | packageDef | importDef | staticImport =>
    obtain ⟨name, l, hstar, hname⟩ := hsuits
    have hmem := h.mem_of_done hname
    have hnames : (Term.node .packageDef text line ts).namesChild [.ident, .dot] = true := by
      refine List.any_eq_true.mpr ⟨_, hmem, ?_⟩
      rcases Term.qualified_reads hstar l with hdot | ⟨hident, htext⟩
      · simp [hdot]
      · simp [hident, htext]
    exact if_pos hnames
  | dot =>
    obtain ⟨p, q, rfl, hp, hq⟩ := hsuits
    obtain ⟨_, _, hfp, ⟨_, _, hfq, rfl, rfl⟩, rfl⟩ := h
    obtain ⟨P, rfl⟩ := hps.1.single hR hp hfp
    obtain ⟨Q, rfl⟩ := hps.2.1.single hR hq hfq
    rfl
  | ident => exact hsuits.elim
  | _ => rfl

theorem GivesValue.filled (hR : ∀ c us, c.Within n → R c us → c.Becomes us) (hp : p.Legal n)
    (hvalue : p.GivesValue) (h : Filled R p ts) :
    ∃ A, ts = [A] ∧ A.kind = .assign ∧ A.children.map Term.kind ∈ [[.expr], [.arrayInit]] := by
  cases hvalue with
  | expression line c =>
    obtain ⟨us, hus, rfl⟩ := h
    obtain ⟨vs, -, rfl⟩ := filledAll_singleton.mp hus
    exact ⟨_, rfl, rfl, List.mem_cons_self⟩
  | list line c hk =>
    obtain ⟨us, hus, rfl⟩ := h
    obtain ⟨U, rfl, hU⟩ := (hR c us hp.2.2.1 (filledAll_singleton.mp hus)).list hk
    refine ⟨_, rfl, rfl, ?_⟩
    rw [Term.children, List.map_singleton, hU]
    exact List.mem_cons_of_mem _ List.mem_cons_self

/-- What follows the name in a definition holds at most one assignment, which comes last. -/
theorem Trails.filled (hR : ∀ c us, c.Within n → R c us → c.Becomes us) (hps : LegalAll n ps)
    (htrails : Trails ps) (h : FilledAll R ps ts) :
    (∀ U ∈ ts, U.kind ≠ .assign) ∨ ∃ marks A, ts = marks ++ [A] ∧
      marks.map Term.kind ∈ [[], [.arrayDeclarator]] ∧
      A.children.map Term.kind ∈ [[.expr], [.arrayInit]] := by
  cases htrails with
  | nothing =>
    rw [show ts = [] from h]
    exact .inl (List.forall_mem_nil _)
  | mark line =>
    rw [show ts = [Term.leaf .arrayDeclarator line] from filledAll_singleton.mp h]
    have hmark : Syntax.Kind.arrayDeclarator ≠ .assign := by decide
    exact .inl (List.forall_mem_singleton.mpr hmark)
  | value hvalue =>
    obtain ⟨A, rfl, -, hA⟩ := hvalue.filled hR hps.1 (filledAll_singleton.mp h)
    exact .inr ⟨[], A, rfl, List.mem_cons_self, hA⟩
  | both line hvalue =>
    obtain ⟨us, vs, hmark, hvs, rfl⟩ := h
    obtain ⟨A, rfl, -, hA⟩ := hvalue.filled hR hps.2.1 (filledAll_singleton.mp hvs)
    rw [show us = [Term.leaf .arrayDeclarator line] from hmark]
    exact .inr ⟨_, A, rfl, List.mem_cons_of_mem _ List.mem_cons_self, hA⟩

theorem introduces_of_suits (hR : ∀ c us, c.Within n → R c us → c.Becomes us) {kind : Syntax.Kind}
    {text : Option String} {line : Nat} (hsuits : Suits ps kind) (hps : LegalAll n ps)
    (h : FilledAll R ps ts) : (Term.node kind text line ts).Introduces := by
  cases kind with
  | variableDef =>
    obtain ⟨rest, hhead, htrails⟩ := hsuits
    have hrest : LegalAll n rest := by
      obtain ⟨m, type, name, l, rfl, -⟩ := hhead
      exact hps.2.2.2
    obtain ⟨M, T, name, l, us, rfl, hM, hT, hus⟩ := hhead.filled h
    rcases htrails.filled hR hrest hus with hnone | ⟨marks, A, rfl, hmarks, hA⟩
    · apply Term.introduces_of_forall_ne
      have hname : (Term.token .ident name l).kind ≠ .assign :=
        show Syntax.Kind.ident ≠ .assign by decide
      simp only [Term.children, List.forall_mem_cons, hM, hT]
      exact ⟨by decide, by decide, hname, hnone⟩
    · have hfronts : ∀ ks ∈ [[], [Syntax.Kind.arrayDeclarator]],
          .modifiers :: .type :: .ident :: ks ∈ Syntax.Kind.fronts .variableDef := by decide
      have hfront : (M :: T :: Term.token .ident name l :: marks).map Term.kind ∈
          Syntax.Kind.fronts .variableDef := by
        rw [List.map_cons, List.map_cons, hM, hT]
        exact hfronts _ hmarks
      exact Term.introduces_of_split rfl hfront (List.forall_mem_nil _) fun _ => ⟨rfl, hA⟩
  | annotationMemberValuePair =>
    obtain ⟨name, l, l', values, rfl, hvalues⟩ := hsuits
    obtain ⟨_, _, hname, ⟨_, us, hsign, hus, rfl⟩, rfl⟩ := h
    rw [show _ = [Term.token .ident name l] from hname,
      show _ = [Term.leaf .assign l'] from hsign]
    have hfront : [Term.token .ident name l].map Term.kind ∈
        Syntax.Kind.fronts .annotationMemberValuePair := List.mem_cons_self
    apply Term.introduces_of_split rfl hfront
    · intro U hU hk
      obtain ⟨p, hp, vs, hvs, hU⟩ := hus.exists_of_mem hU
      obtain ⟨V, rfl, hV⟩ := hvs.of_kind? (hvalues p hp)
      rw [List.mem_singleton.mp hU, hV] at hk
      cases hk
    · intro hk
      cases hk
  | _ => exact Term.introduces_of_not_isInitial rfl

theorem Legal.reassigns (hR : ∀ c us, c.Within n → R c us → c.Becomes us) (hp : p.Legal n)
    (hre : p.Reassigns) (h : Filled R p ts) : ∀ T ∈ ts, T.kind = .assign → T.Reassigns := by
  intro T hT hassign
  cases p with
  | node kind text line parts =>
    obtain ⟨us, hus, rfl⟩ := h
    rw [List.mem_singleton] at hT
    subst hT
    obtain rfl : kind = .assign := hassign
    obtain ⟨left, right, rfl, hplace, hvalue⟩ := hre
    obtain ⟨hleft, hright, -⟩ := hp.2.2
    obtain ⟨_, _, hl, ⟨_, _, hr, rfl, rfl⟩, rfl⟩ := hus
    have hvalueLeft : left.isValue = true := by
      cases hk : left.kind with
      | identifier | fieldAccess | arrayAccess => simp only [Cst.isValue, hk]; decide
      | _ => simp [Cst.isPlace, hk] at hplace
    obtain ⟨L, rfl, hL⟩ := (hR left _ hleft hl).value hvalueLeft
    obtain ⟨Q, rfl, hQ⟩ := (hR right _ hright hr).value hvalue
    constructor
    · intro U hU
      rcases List.mem_pair.mp hU with rfl | rfl
      · exact hL
      · exact hQ
    · intro U hU
      cases hU
      exact (hR left _ hleft hl).place hplace L (List.mem_singleton_self L)
  | done U =>
    rw [show ts = [U] from h, List.mem_singleton] at hT
    exact absurd (hT ▸ hassign) hre
  | hole c => exact (hR c ts hp h).reassigns T hT hassign

mutual

theorem Legal.sound (hR : ∀ c us, c.Within n → R c us → c.Becomes us) :
    ∀ {p : Plan} {ts : List Term}, p.Legal n → Filled R p ts → ∀ T ∈ ts, T.Sound
  | .node kind text line parts, ts, hp, h => by
    obtain ⟨us, hus, rfl⟩ := h
    rw [List.forall_mem_singleton]
    refine Term.sound_node (LegalAll.sound hR hp.2.2 hus) (fault_eq_none hR hp.1 hp.2.2 hus) ?_
      (introduces_of_suits hR hp.1 hp.2.2 hus)
    intro hinitial T hT
    obtain ⟨q, hq, vs, hvs, hT⟩ := hus.exists_of_mem hT
    exact (legalAll_iff.mp hp.2.2 q hq).reassigns hR (hp.2.1 hinitial q hq) hvs T hT
  | .done U, ts, hp, h => by
    rw [show ts = [U] from h, List.forall_mem_singleton]
    exact hp
  | .hole c, ts, hp, h => (hR c ts hp h).sound

theorem LegalAll.sound (hR : ∀ c us, c.Within n → R c us → c.Becomes us) :
    ∀ {ps : List Plan} {ts : List Term}, LegalAll n ps → FilledAll R ps ts → ∀ T ∈ ts, T.Sound
  | [], ts, _, h => by
    rw [show ts = [] from h]
    exact List.forall_mem_nil _
  | p :: ps, ts, hps, h => by
    obtain ⟨us, vs, hp, hvs, rfl⟩ := h
    rw [List.forall_mem_append]
    exact ⟨Legal.sound hR hps.1 hp, LegalAll.sound hR hps.2 hvs⟩

end

variable {c : Cst} {plans : List Plan}

theorem ofCst_of_isComment (hc : c.isComment = true) : ofCst c = [] := by
  rcases Kind.isComment_iff.mp hc with hk | hk
  · rw [ofCst, hk]
    rfl
  · rw [ofCst, hk]
    rfl

theorem kind?_chain (c : Cst) : (chain c).kind? = some .operator :=
  chain_induction (motive := fun _ p => p.kind? = some .operator) (fun _ _ => rfl)
    (fun _ _ _ _ _ _ => rfl) c

theorem not_isValue {ks : List Kind} (hk : c.kind ∈ ks)
    (hks : (ks.all fun k => !(.super :: Grammar.expressions).contains k) = true) :
    ¬ c.isValue = true := by
  have h := List.all_eq_true.mp hks _ hk
  rw [Cst.isValue]
  simpa using h

theorem Form.value (h : Form c plans) (hc : c.isValue = true) :
    (c.kind = .parenthesizedExpression ∧ plans = holes c.named) ∨
      ∃ p kind, plans = [p] ∧ p.kind? = some kind ∧ kind ≠ .expr := by
  cases h with
  | literal _ => exact .inr ⟨_, .literal, rfl, rfl, by decide⟩
  | package hk | import_ hk =>
    exact absurd hc (not_isValue (List.mem_singleton.mpr hk) (by decide))
  | typeDeclaration kind hkind hk => exact absurd hc (not_isValue hk (by decide))
  | comment hk | body hk | variableDefs hk | method hk | constructor_ hk | parameter hk =>
    exact absurd hc (not_isValue hk (by decide))
  | resource hk | forEach hk | modifierList hk =>
    exact absurd hc (not_isValue (List.mem_singleton.mpr hk) (by decide))
  | annotated _ => exact .inr ⟨_, _, rfl, rfl, by decide⟩
  | group kind hkind =>
    exact absurd hc (not_isValue (List.mem_map_of_mem (f := Prod.fst) hkind) (by decide))
  | parentheses hk => exact .inl ⟨hk, rfl⟩
  | assignment _ =>
    rw [Plan.assignment]
    split
    · exact .inr ⟨_, _, rfl, rfl, by decide⟩
    · exact .inr ⟨_, _, rfl, rfl, by decide⟩
  | chain _ => exact .inr ⟨_, _, rfl, kind?_chain c, by decide⟩
  | lambda _ => exact .inr ⟨_, _, rfl, rfl, by decide⟩
  | operator _ => exact .inr ⟨_, _, rfl, rfl, by decide⟩
  | fieldAccess _ =>
    rw [Plan.fieldAccess]
    split
    · exact .inr ⟨_, _, rfl, rfl, by decide⟩
    · exact .inr ⟨_, _, rfl, rfl, by decide⟩
  | methodCall _ => exact .inr ⟨_, _, rfl, rfl, by decide⟩
  | arrayAccess _ =>
    rw [Plan.arrayAccess]
    split
    · exact .inr ⟨_, _, rfl, rfl, by decide⟩
    · exact .inr ⟨_, _, rfl, rfl, by decide⟩
  | creation _ => exact .inr ⟨_, _, rfl, rfl, by decide⟩
  | self kind hkind =>
    simp only [List.mem_cons, Prod.mk.injEq, List.not_mem_nil, or_false] at hkind
    rcases hkind with ⟨-, rfl⟩ | ⟨-, rfl⟩
    · exact .inr ⟨_, .literalThis, rfl, rfl, by decide⟩
    · exact .inr ⟨_, .literalSuper, rfl, rfl, by decide⟩
  | word _ => exact .inr ⟨_, .ident, rfl, rfl, by decide⟩
  | dotted hk => exact absurd hc (not_isValue (List.mem_singleton.mpr hk) (by decide))
  | type hk => exact absurd hc (not_isValue hk (by decide))
  | other _ => exact .inr ⟨_, _, rfl, rfl, by decide⟩

theorem place_ofCst (hc : c.isPlace = true) :
    ∃ p kind, ofCst c = [p] ∧ p.kind? = some kind ∧ kind ∈ [.ident, .dot, .indexOp, .other] := by
  cases hk : c.kind with
  | identifier => exact ⟨ident c.text c.line, .ident, by rw [ofCst, hk]; rfl, rfl, by simp⟩
  | fieldAccess =>
    have hplan : ofCst c = [fieldAccess c] := by
      rw [ofCst, hk]
      rfl
    rw [fieldAccess] at hplan
    split at hplan
    · exact ⟨_, _, hplan, rfl, by simp⟩
    · exact ⟨_, _, hplan, rfl, by simp⟩
  | arrayAccess =>
    have hplan : ofCst c = [arrayAccess c] := by
      rw [ofCst, hk]
      rfl
    rw [arrayAccess] at hplan
    split at hplan
    · exact ⟨_, _, hplan, rfl, by simp⟩
    · exact ⟨_, _, hplan, rfl, by simp⟩
  | _ => simp [Cst.isPlace, hk] at hc

open Content in
theorem parentheses_named (hc : c.conforms = true) (hk : c.kind = .parenthesizedExpression) :
    ∃ e ∈ c.children, e.isValue = true ∧ c.named.filter (fun d => !d.isComment) = [e] := by
  have hfits := Cst.fits_parts hc
  rw [hk] at hfits
  replace hfits : Fits (.seq (Content.token "(") (.seq Grammar.expression (Content.token ")")))
    c.parts := hfits
  simp only [Content.token, Grammar.expression, Content.node, fits_seq, fits_child,
    Slot.admits_iff] at hfits
  obtain ⟨_, _, hparts, ⟨opening, rfl, -, hopening, -⟩, _, _, rfl, ⟨e, rfl, -, he, -⟩, closing,
    rfl, -, hclosing, -⟩ := hfits
  have hmark : ∀ d : Cst, d.kind ∈ [Kind.token] → d.isNamed = false := by
    intro d hd
    simp [Cst.isNamed, List.mem_singleton.mp hd]
  have hmem : e ∈ c.parts := by rw [hparts]; simp
  have hnamed : e.isNamed = true := by
    have hall : ∀ k ∈ Grammar.expressions, decide (k ≠ .token) = true := by decide
    exact hall _ he
  refine ⟨e, (List.mem_filter.mp hmem).1, ?_, ?_⟩
  · exact List.contains_iff_mem.mpr (List.mem_cons_of_mem _ he)
  · have hswap : c.named.filter (fun d => !d.isComment) = c.parts.filter Cst.isNamed := by
      rw [Cst.named, Cst.parts, List.filter_filter, List.filter_filter]
      exact List.filter_congr fun d _ => Bool.and_comm _ _
    rw [hswap, hparts]
    simp [hnamed, hmark opening hopening, hmark closing hclosing]

theorem FilledAll.drop_comments {cs : List Cst}
    (hR : ∀ c ∈ cs, ∀ us, R c us → c.isComment = true → us = [])
    (h : FilledAll R (holes cs) ts) : FilledAll R (holes (cs.filter fun c => !c.isComment)) ts := by
  induction cs generalizing ts with
  | nil => exact h
  | cons c cs ih =>
    obtain ⟨us, vs, hc, hcs, rfl⟩ := h
    have hrest := ih (fun d hd => hR d (List.mem_cons_of_mem c hd)) hcs
    cases hcomment : c.isComment with
    | true =>
      rw [hR c List.mem_cons_self us hc hcomment]
      simpa [hcomment] using hrest
    | false =>
      rw [List.filter_cons_of_pos (by simp [hcomment])]
      exact ⟨us, vs, hc, hrest, rfl⟩

/-- What lowering promises holds after one more level. -/
theorem becomes_ofCst (hR : ∀ c us, c.Within n → R c us → c.Becomes us)
    (hc : c.Within (n + 1)) (h : FilledAll R (ofCst c) ts) : c.Becomes ts where
  sound := LegalAll.sound hR (legalAll_iff.mpr fun p hp => (apt_ofCst hc p hp).legal) h
  reassigns := by
    intro T hT
    obtain ⟨p, hp, us, hus, hT⟩ := h.exists_of_mem hT
    have hapt := apt_ofCst hc p hp
    exact hapt.legal.reassigns hR hapt.reassigns hus T hT
  comment := by
    intro hcomment
    rw [ofCst_of_isComment hcomment] at h
    exact h
  value := by
    intro hvalue
    rcases (form_ofCst c).value hvalue with ⟨hk, hplans⟩ | ⟨p, kind, hplan, hkind, hexpr⟩
    · obtain ⟨e, he, hvalue, hnamed⟩ := parentheses_named hc.conforms hk
      rw [hplans] at h
      have hone := h.drop_comments fun d hd us hus => (hR d us (hc.named d hd) hus).comment
      rw [hnamed] at hone
      exact (hR e ts (hc.child he) (filledAll_singleton.mp hone)).value hvalue
    · rw [hplan, filledAll_singleton] at h
      obtain ⟨T, rfl, hT⟩ := h.of_kind? hkind
      exact ⟨T, rfl, hT ▸ hexpr⟩
  place := by
    intro hplace T hT
    obtain ⟨p, kind, hplan, hkind, hmem⟩ := place_ofCst hplace
    rw [hplan, filledAll_singleton] at h
    obtain ⟨U, rfl, rfl⟩ := h.of_kind? hkind
    rw [List.mem_singleton.mp hT]
    constructor
    · rintro hU
      simp [hU] at hmem
    · rintro hU
      simp [hU] at hmem
  list := by
    intro hk
    rw [ofCst, hk] at h
    exact (filledAll_singleton.mp h).of_kind? rfl

end Plan

theorem Cst.becomes_of_lower {depth : Nat} {c : Cst} {ts : List Term} (hc : c.conforms = true)
    (h : c.lower depth = .ok ts) : c.Becomes ts := by
  induction depth generalizing c ts with
  | zero => cases h
  | succ depth ih =>
    have hwithin : c.Within (c.height + 1) := ⟨hc, Nat.le_succ _⟩
    exact Plan.becomes_ofCst (fun d us hd => ih hd.conforms) hwithin
      (Plan.filledAll_of_fillAll h)

mutual

theorem Plan.Legal.exists_fill {ε : Type} {n : Nat} {lower : Cst → Except ε (List Term)}
    (hlower : ∀ c : Cst, c.Within n → ∃ us, lower c = .ok us) :
    ∀ {p : Plan}, p.Legal n → ∃ ts, fill lower p = .ok ts
  | .node _ _ _ _, hp => by
    obtain ⟨us, hus⟩ := Plan.LegalAll.exists_fillAll hlower hp.2.2
    simp [fill, hus]
  | .done T, _ => ⟨[T], rfl⟩
  | .hole c, hp => hlower c hp

theorem Plan.LegalAll.exists_fillAll {ε : Type} {n : Nat} {lower : Cst → Except ε (List Term)}
    (hlower : ∀ c : Cst, c.Within n → ∃ us, lower c = .ok us) :
    ∀ {ps : List Plan}, LegalAll n ps → ∃ ts, fillAll lower ps = .ok ts
  | [], _ => ⟨[], rfl⟩
  | _ :: _, hps => by
    obtain ⟨us, hus⟩ := Plan.Legal.exists_fill hlower hps.1
    obtain ⟨vs, hvs⟩ := Plan.LegalAll.exists_fillAll hlower hps.2
    simp [fillAll, hus, hvs]

end

/-- A tree with no more levels than are lowered is lowered. -/
theorem Cst.exists_lower {depth : Nat} {c : Cst} (hc : c.Within depth) :
    ∃ ts, c.lower depth = .ok ts := by
  induction depth generalizing c with
  | zero =>
    obtain ⟨kind, field, line, text, children⟩ := c
    exact absurd hc.height_le (Nat.not_succ_le_zero _)
  | succ depth ih =>
    exact Plan.LegalAll.exists_fillAll (fun d hd => ih hd)
      (Plan.legalAll_iff.mpr fun p hp => (Plan.apt_ofCst hc p hp).legal)

theorem Cst.exists_toTerm {program : Cst} (hc : program.Within (maxDepth + 1)) :
    ∃ T, program.toTerm = .ok T := by
  obtain ⟨ts, hts⟩ := Plan.LegalAll.exists_fillAll (fun d hd => Cst.exists_lower hd)
    (Plan.legalAll_iff.mpr fun p hp => (Plan.apt_holes hc.named p hp).legal)
  exact ⟨_, by rw [toTerm, hts]⟩

theorem Cst.sound_of_toTerm {program : Cst} {T : Term} (hc : program.conforms = true)
    (h : program.toTerm = .ok T) : T.Sound ∧ T.kind = .compilationUnit := by
  rw [toTerm] at h
  split at h
  · next ts hts =>
    cases h
    have hwithin : program.Within (program.height + 1) := ⟨hc, Nat.le_succ _⟩
    have hapt : (Plan.node .compilationUnit none 1 (Plan.holes program.named)).Apt
        program.height := Plan.apt_node (by decide) trivial (Plan.apt_holes hwithin.named)
    have hsound := hapt.legal.sound (fun c us hc => Cst.becomes_of_lower hc.conforms)
      ⟨ts, Plan.filledAll_of_fillAll hts, rfl⟩
    exact ⟨hsound _ (List.mem_singleton_self _), rfl⟩
  · cases h

theorem Cst.toTree_of_toTerm {program : Cst} {T : Term} (hc : program.conforms = true)
    (h : program.toTerm = .ok T) : program.toTree = .ok T.tree := by
  have hT : Tree.ofTerm T = .ok T.tree :=
    Tree.ofSteps_of_wellShaped T.word_steps (sound_of_toTerm hc h).1.shaped
  rw [toTree, h]
  simp only [hT]

/-- A conforming program has a tree unless it has more levels than are lowered, and then that is
what is reported. The steps that build the tree are balanced around one compilation unit, every
definition in it starts with modifiers, a type and a name, and every member access has two
parts. -/
theorem Cst.toTree_accepted {program : Cst} (hc : program.conforms = true) :
    (maxDepth + 1 < program.height ∧
      ∃ line, program.toTree = .error (.nestingTooDeep line maxDepth)) ∨
    ∃ T t, program.toTerm = .ok T ∧ program.toTree = .ok t ∧ T.kind = .compilationUnit ∧
      (¬ Syntax.Bracket.Overcloses (Syntax.Bracket.word T.steps) ∧
        Syntax.Bracket.depth (Syntax.Bracket.word T.steps) = 0 ∧
        Syntax.Bracket.rootCount (Syntax.Bracket.word T.steps) = 1) ∧
      t.Unfolds Tree.root T ∧ t.size = T.size ∧
      (∀ d, t.kind d = .variableDef ∨ t.kind d = .parameterDef →
        ∃ m type i rest name, t.children d = m :: type :: i :: rest ∧ t.kind m = .modifiers ∧
          t.kind type = .type ∧ t.kind i = .ident ∧ t.text i = some name) ∧
      ∀ i, t.kind i = .dot → ∃ a b, t.children i = [a, b] := by
  cases h : program.toTerm with
  | error e =>
    refine .inl ⟨?_, e.line, by rw [toTree, h]⟩
    by_contra hheight
    obtain ⟨T, hT⟩ := exists_toTerm ⟨hc, Nat.le_of_not_lt hheight⟩
    rw [h] at hT
    cases hT
  | ok T =>
    obtain ⟨-, hbalanced, hdepth, hroots⟩ := T.word_facts
    have htree := toTree_of_toTerm hc h
    have hfinished : T.tree.Finished :=
      ⟨T.steps, Tree.ofSteps_of_wellShaped T.word_steps (sound_of_toTerm hc h).1.shaped⟩
    rw [← T.word_steps] at hbalanced hdepth hroots
    exact .inr ⟨T, T.tree, rfl, htree, (sound_of_toTerm hc h).2, ⟨hbalanced, hdepth, hroots⟩,
      (Tree.holds_tree T).unfolds, Tree.size_tree T, fun d => hfinished.definition_children,
      fun i => hfinished.dot_children⟩

theorem Cst.toTree_accepted_parentheses :
    let program := Parser.parse "class A { int x = (/**/ a).b; }"
    program.conforms = true ∧ ∃ t, program.toTree = .ok t ∧
      ∀ i, t.kind i = .dot → ∃ a b, t.children i = [a, b] := by
  have hc : (Parser.parse "class A { int x = (/**/ a).b; }").conforms = true := by decide +kernel
  refine ⟨hc, ?_⟩
  rcases toTree_accepted hc with ⟨hheight, -⟩ | ⟨T, t, -, htree, -, -, -, -, -, hdot⟩
  · exact absurd hheight (by decide +kernel)
  · exact ⟨t, htree, hdot⟩

/-- A source file that parses has the tree of the term that its concrete tree becomes. -/
theorem exists_term_of_parse {source : String} {t : Tree} (h : parse source = .ok t) :
    ∃ T, (Parser.parse source).conforms = true ∧ (Parser.parse source).toTerm = .ok T ∧
      t = T.tree := by
  simp only [parse] at h
  split at h
  · cases h
  · next hfault =>
    have hc := Parser.conforms_parse hfault
    cases hT : (Parser.parse source).toTerm with
    | error e =>
      rw [Cst.toTree, hT] at h
      cases h
    | ok T =>
      rw [Cst.toTree_of_toTerm hc hT] at h
      exact ⟨T, hc, rfl, (Except.ok.inj h).symm⟩

theorem exists_sound_of_parse {source : String} {t : Tree} (h : parse source = .ok t) :
    ∃ T : Term, T.Sound ∧ T.kind = .compilationUnit ∧ t.IsLayout T ∧ t.Finished := by
  obtain ⟨T, hc, hT, rfl⟩ := exists_term_of_parse h
  obtain ⟨hsound, hkind⟩ := Cst.sound_of_toTerm hc hT
  exact ⟨T, hsound, hkind, Tree.isLayout_tree T, T.steps,
    Tree.ofSteps_of_wellShaped T.word_steps hsound.shaped⟩

theorem exists_tree_of_decide (source : String) (P : Tree → Prop) [DecidablePred P]
    (h : (parse source).toOption.any (fun t => decide (P t)) = true) :
    ∃ t, parse source = .ok t ∧ P t := by
  cases hparse : parse source with
  | error e =>
    rw [hparse] at h
    cases h
  | ok t =>
    rw [hparse] at h
    exact ⟨t, rfl, of_decide_eq_true h⟩

end ArchLint.Java
