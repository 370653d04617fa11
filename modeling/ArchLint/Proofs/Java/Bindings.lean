import ArchLint.Java.Parser
import ArchLint.Proofs.Java.Declarations

/-!
# What lowering keeps of bindings

The definitions of a lowered tree, in pre-order, are the binding sites of the source, in the order
of the source. Each construct binds what its sites say, and so, by induction on the depth, does the
whole tree. What stands inside a spread parameter is not lowered, so a site there is lost.
-/

namespace ArchLint.Java

open Syntax (Term Tree)
open Syntax.Term (bindingsAll)

namespace Plan

variable {ps : List Plan} {kind : Syntax.Kind} {c d : Cst}

theorem binds_forEach (hc : c.Loose) (hk : c.kind = .enhancedForStatement) :
    (forEach c).Binds c.properSites := by
  have hsites : c.properSites =
      [(.variableDef, textOf (c.get? .name))] ++ c.sitesIn .value ++ c.sitesIn .body := by
    rw [Cst.properSites, Cst.sites_of_confines [.value, .body] hc.simple
      (Cst.fits_parts hc.simple.conforms) (by rw [hk]; decide), Cst.binding?, hk]
    simp [textOf, Cst.declaredText]
  rw [hsites]
  refine binds_node rfl (BindsAll.append (BindsAll.append (Binds.singleton ?_) ?_) ?_)
  · exact binds_declaration hc.simple rfl rfl
  · exact bindsAll_role hc.simple (by rw [hk]; decide) fun _ => binds_expr
  · exact bindsAll_holes_role hc.simple (by rw [hk]; decide)

theorem binds_inferredParameter (c : Cst) :
    (inferredParameter c).Binds [(.parameterDef, textOf (some c))] :=
  binds_definition rfl rfl rfl (binds_leaf _ _) (binds_leaf _ _) rfl

theorem binds_lambdaParameters (hc : c.Simple) (hk : c.kind = .lambdaExpression) :
    (lambdaParameters c).Binds (c.sitesIn .parameters) := by
  rw [lambdaParameters, Cst.sitesIn]
  cases hd : c.get? .parameters with
  | none => exact binds_leaf _ _
  | some list =>
    have hlist := hc.get? hd
    have hkinds := Cst.kind_of_get? hc.conforms hd
    have hfield := (Cst.mem_of_get? hd).2
    rw [hk] at hkinds
    have hall : ∀ k ∈ Grammar.kindsIn .lambdaExpression (some .parameters),
        k ∈ [Kind.identifier, .formalParameters, .inferredParameters] := by decide
    simp only [Option.toList_some, List.flatMap_singleton, hk]
    split
    · next hword =>
      rw [Cst.sites_identifier hlist hword (by simp [Cst.namesParameter, hfield])]
      exact binds_node rfl (binds_inferredParameter list).singleton
    · next hinferred =>
      rw [Cst.sites_inferredParameters hlist hinferred]
      refine binds_node rfl (bindsAll_map fun d hd => ?_)
      obtain ⟨hnamed, hword⟩ := List.mem_filter.mp hd
      rw [Cst.sites_identifier (hlist.named hnamed) (of_decide_eq_true hword) rfl]
      exact binds_inferredParameter d
    · next hword hinferred =>
      have hformal : list.kind = .formalParameters := by
        have hcase := hall _ hkinds
        simp only [List.mem_cons, List.not_mem_nil, or_false] at hcase
        exact hcase.resolve_left hword |>.resolve_right hinferred
      exact binds_parameters hlist hformal rfl c.line

theorem binds_lambda (hc : c.Loose) (hk : c.kind = .lambdaExpression) :
    (lambda c).Binds c.properSites := by
  have hsites : c.properSites = c.sitesIn .parameters ++ c.sitesIn .body := by
    rw [properSites_of_confines [.parameters, .body] hc (by rw [hk]; decide)
      (by rw [hk]; rfl)]
    simp
  have hbody : BindsAll (((c.get? .body).map fun b =>
      if b.kind = .block then hole b else expr b).toList) (c.sitesIn .body) := by
    refine bindsAll_role hc.simple (by rw [hk]; decide) fun b hb => ?_
    split
    · exact binds_hole hb
    · exact binds_expr hb
  rw [hsites]
  refine binds_node rfl ((binds_lambdaParameters hc.simple hk).cons ?_)
  cases hb : c.get? .body with
  | none => simpa [hb] using hbody
  | some b => simpa [hb] using hbody

theorem bindsAll_roles (f g : Field) (hc : c.Loose)
    (h : (Grammar.confines (Grammar.content c.kind) c.kind [f, g] && !c.kind.bindsItself &&
      Grammar.frees c.kind f && Grammar.frees c.kind g) = true)
    {first second : Cst → Plan} (hfirst : ∀ d : Cst, d.Loose → (first d).Binds d.properSites)
    (hsecond : ∀ d : Cst, d.Loose → (second d).Binds d.properSites) :
    BindsAll (((c.get? f).map first).toList ++ ((c.get? g).map second).toList) c.properSites := by
  simp only [Bool.and_eq_true, Bool.not_eq_true'] at h
  obtain ⟨⟨⟨hconfines, hbinding⟩, hf⟩, hg⟩ := h
  have hsites : c.properSites = c.sitesIn f ++ c.sitesIn g := by
    rw [properSites_of_confines [f, g] hc hconfines hbinding]
    simp
  rw [hsites]
  exact (bindsAll_role hc.simple hf hfirst).append (bindsAll_role hc.simple hg hsecond)

theorem binds_assignment (hc : c.Loose) (hk : c.kind = .assignmentExpression) :
    (assignment c).Binds c.properSites := by
  have hparts := bindsAll_roles .left .right hc (by rw [hk]; decide)
    (fun _ => binds_hole) fun _ => binds_hole
  rw [Option.toList_map, Option.toList_map] at hparts
  rw [assignment]
  split
  · exact binds_node rfl hparts
  · exact binds_node rfl hparts

theorem binds_operator (hc : c.Loose) (hn : Grammar.nests c.kind = true)
    (hk : c.kind.bindsItself = false) : (operator c).Binds c.properSites :=
  binds_node rfl (bindsAll_named hc hn hk)

/-- Besides the operand on the left, a level of a chain has sites only on the right. -/
theorem bindsAll_right (hc : c.Loose) (hk : c.kind = .binaryExpression) :
    BindsAll (holes (c.named.filter (·.field ≠ some .left))) (c.sitesIn .right) := by
  have hloose := (Cst.properSites_of_nests hc.simple (by rw [hk]; decide)
    (Cst.binding?_program (by rw [hk]; rfl))).2
  have hright : (c.named.filter (·.field ≠ some .left)).filter (·.field = some .right) =
      (c.get? .right).toList := by
    rw [← Cst.getAll_eq hc.simple.conforms (by rw [hk]; decide), Cst.getAll, Cst.named,
      List.filter_filter, List.filter_filter]
    refine List.filter_congr fun d hd => ?_
    by_cases hfield : d.field = some .right
    · have hkind := Cst.kind_of_field hc.simple.conforms hd hfield
      rw [hk] at hkind
      have hnamed : ∀ k ∈ Grammar.kindsIn .binaryExpression (some .right), k ≠ .token := by decide
      simp [hfield, Cst.isNamed, hnamed _ hkind]
    · simp [hfield]
  have hrest : ∀ d ∈ c.named.filter (·.field ≠ some .left),
      decide (d.field = some .right) = false → d.properSites = [] := by
    intro d hd hout
    obtain ⟨hnamed, hleft⟩ := List.mem_filter.mp hd
    have hplays : d.playsOneOf [.left, .right] = false := by
      simpa [Cst.playsOneOf] using ⟨of_decide_eq_true hleft, of_decide_eq_false hout⟩
    have hquiet := Cst.kind_mem_quiet hc.simple (Cst.fits_parts hc.simple.conforms)
      (by rw [hk]; decide) (List.mem_filter.mp hnamed).1 hplays
    exact properSites_of_quiet (hloose d hnamed) hquiet
  have hsites : (c.named.filter (·.field ≠ some .left)).flatMap Cst.properSites =
      c.sitesIn .right := by
    rw [Cst.flatMap_eq_flatMap_filter (fun _ _ _ => rfl) hrest, hright]
    cases hd : c.get? .right with
    | none => simp [Cst.sitesIn, hd]
    | some d =>
      rw [(Cst.loose_of_get? hc.simple (by rw [hk]; decide) hd).2]
      simp
  rw [← hsites]
  exact bindsAll_holes fun d hd => hloose d (List.mem_filter.mp hd).1

theorem binds_chain (hc : c.Loose) (hk : c.kind = .binaryExpression) :
    (chain c).Binds c.properSites := by
  revert hc hk
  refine chain_induction
    (motive := fun c p => c.Loose → c.kind = .binaryExpression → p.Binds c.properSites) ?_ ?_ c
  · intro c _ hc hk
    exact binds_operator hc (by rw [hk]; decide) (by rw [hk]; rfl)
  · intro c left inner hleft hbinary ih hc hk
    obtain ⟨hloose, hsites⟩ := Cst.loose_of_get? hc.simple (by rw [hk]; decide) hleft
    have hall : c.properSites = left.properSites ++ c.sitesIn .right := by
      rw [properSites_of_confines [.left, .right] hc (by rw [hk]; decide) (by rw [hk]; rfl),
        ← hsites]
      simp
    rw [hall]
    exact binds_node rfl ((ih hloose hbinary).cons (bindsAll_right hc hk))

theorem binds_fieldAccess (hc : c.Loose) (hk : c.kind = .fieldAccess) :
    (fieldAccess c).Binds c.properSites := by
  have hparts := bindsAll_roles .object .field hc (by rw [hk]; decide)
    (fun _ => binds_hole) fun _ => binds_hole
  rw [fieldAccess]
  split
  · next object field hobject hfield =>
    rw [hobject, hfield] at hparts
    exact binds_node rfl hparts
  · exact binds_nest hc (by rw [hk]; decide) (by rw [hk]; rfl) rfl

theorem binds_arrayAccess (hc : c.Loose) (hk : c.kind = .arrayAccess) :
    (arrayAccess c).Binds c.properSites := by
  have hparts := bindsAll_roles .array .index hc (by rw [hk]; decide)
    (fun _ => binds_hole) fun _ => binds_expr
  rw [arrayAccess]
  split
  · next array index harray hindex =>
    rw [harray, hindex] at hparts
    exact binds_node rfl hparts
  · exact binds_nest hc (by rw [hk]; decide) (by rw [hk]; rfl) rfl

theorem binds_methodCall (hc : c.Loose) (hk : c.kind = .methodInvocation) :
    (methodCall c).Binds c.properSites := by
  have hsites : c.properSites = c.sitesIn .object ++ (c.sitesIn .arguments ++ []) := by
    rw [properSites_of_confines [.object, .arguments] hc (by rw [hk]; decide)
      (by rw [hk]; rfl)]
    simp
  obtain ⟨name, hname⟩ : ∃ name, c.get? .name = some name :=
    Cst.exists_get? hc.simple.conforms (by rw [hk]; decide)
  rw [hsites]
  refine binds_node rfl (Binds.cons ?_ (Binds.cons ?_ rfl))
  · split
    · next object hobject =>
      obtain ⟨hloose, hsites⟩ := Cst.loose_of_get? hc.simple (by rw [hk]; decide) hobject
      rw [hname, hsites, ← List.append_nil object.properSites]
      exact binds_node rfl ((binds_hole hloose).cons (binds_nameOf _ _).singleton)
    · next hobject =>
      rw [Cst.sitesIn, hobject]
      exact binds_nameOf _ _
  · split
    · next arguments harguments =>
      obtain ⟨hloose, hsites⟩ :=
        Cst.loose_of_get? hc.simple (by rw [hk]; decide) harguments
      rw [hsites]
      exact binds_hole hloose
    · next harguments =>
      rw [Cst.sitesIn, harguments]
      exact binds_leaf _ _

theorem binds_creation (hc : c.Loose)
    (hk : c.kind ∈ [.objectCreationExpression, .arrayCreationExpression]) :
    (creation c).Binds c.properSites := by
  have hkinds : ∀ k ∈ ([.objectCreationExpression, .arrayCreationExpression] : List Kind),
      Grammar.nests k = true ∧ k.bindsItself = false ∧
        ∀ k' ∈ Grammar.kindsIn k (some .type), k' ∈ Grammar.quiet := by
    decide
  obtain ⟨hnests, hbinding, htypes⟩ := hkinds c.kind hk
  obtain ⟨hsites, hloose⟩ :=
    Cst.properSites_of_nests hc.simple hnests (Cst.binding?_program hbinding)
  rw [hsites, Cst.flatMap_eq_flatMap_filter
    (p := fun d => d.field ≠ some .type && !d.isComment) (fun _ _ _ => rfl) ?_]
  · refine binds_node rfl ((binds_typeRef _ _).cons (bindsAll_holes fun d hd => ?_))
    exact hloose d (List.mem_filter.mp hd).1
  · -- what is left out is the type, which is written out, and the comments
    intro d hd hout
    refine properSites_of_quiet (hloose d hd) ?_
    by_cases hfield : d.field = some .type
    · exact htypes d.kind
        (Cst.kind_of_field hc.simple.conforms (List.mem_filter.mp hd).1 hfield)
    · have hcomment : d.kind.isComment = true := by simpa [hfield, Cst.isComment] using hout
      exact Grammar.mem_quiet_of_isComment hcomment

theorem bindsAll_package (c : Cst) : BindsAll (package c) [] := by
  rw [package]
  split
  · rfl
  · exact (binds_node rfl (binds_qualified _ _).singleton).singleton

theorem bindsAll_import (c : Cst) : BindsAll (import_ c) [] := by
  rw [import_]
  split
  · rfl
  · refine (binds_node ?_ (binds_qualified _ _).singleton).singleton
    split
    · rfl
    · rfl

theorem nests_of_not_formed {k : Kind} (hk : k ∉ formed) (hd : k.isDependent = false) :
    Grammar.nests k = true ∧ k.bindsItself = false := by
  have hcases : ∀ k : Kind, k ∈ formed ∨ k.isDependent = true ∨
      (Grammar.nests k = true ∧ k.bindsItself = false) := by
    intro k
    cases k <;> decide
  rcases hcases k with hformed | hdependent | hnests
  · exact absurd hformed hk
  · rw [hd] at hdependent
    cases hdependent
  · exact hnests

theorem mem_quiet_of_isLiteral {k : Kind} (hk : k.isLiteral = true) : k ∈ Grammar.quiet := by
  unfold Kind.isLiteral at hk
  split at hk <;> first | decide | cases hk

/-- Every plan binds what its node binds, one case for each form. -/
theorem Form.binds {plans : List Plan} (h : Form c plans) (hc : c.Loose) :
    BindsAll plans c.properSites := by
  have hquiet {ks : List Kind} (hk : c.kind ∈ ks) (hks : ∀ k ∈ ks, k ∈ Grammar.quiet) :
      c.properSites = [] := properSites_of_quiet hc (hks c.kind hk)
  have hdependent {k : Kind} (hk : c.kind = k) (h : k.isDependent = true) : False := by
    have := hc.independent
    rw [hk, h] at this
    cases this
  cases h with
  | comment hk =>
    rw [hquiet hk (by decide)]
    rfl
  | literal hk =>
    rw [properSites_of_quiet hc (mem_quiet_of_isLiteral hk)]
    exact (binds_token _ _ _).singleton
  | package hk =>
    rw [hquiet (List.mem_singleton.mpr hk) (by decide)]
    exact bindsAll_package c
  | import_ hk =>
    rw [hquiet (List.mem_singleton.mpr hk) (by decide)]
    exact bindsAll_import c
  | typeDeclaration kind hkind hk => exact (binds_typeDeclaration hc hkind hk).singleton
  | body hk => exact (binds_body hc hk none nofun).singleton
  | variableDefs hk => exact bindsAll_variableDefs hc.simple hk
  | method hk => exact (binds_method hc hk).singleton
  | constructor_ hk => exact (binds_constructor hc hk).singleton
  | parameter hk =>
    simp only [List.mem_cons, List.not_mem_nil, or_false] at hk
    rcases hk with hk | hk | hk
    · exact (hdependent hk rfl).elim
    · exact (hdependent hk rfl).elim
    · exact (binds_catchParameter hc hk).singleton
  | resource hk => exact (binds_resource hc hk).singleton
  | forEach hk => exact (binds_forEach hc hk).singleton
  | lambda hk => exact (binds_lambda hc hk).singleton
  | modifierList hk =>
    rw [hquiet (List.mem_singleton.mpr hk) (by decide)]
    exact (binds_modifierList hc.simple).singleton
  | annotated hk =>
    have hornate : ∀ k ∈ ([.annotationUse, .plainAnnotationUse] : List Kind),
        k.isOrnate = true := by decide
    have hplain := hc.simple.not_isOrnate
    rw [hornate c.kind hk] at hplain
    cases hplain
  | group kind hkind =>
    have hkinds : ∀ p ∈ ([(.block, .slist), (.constructorBody, .slist),
        (.expressionStatement, .expr), (.argumentList, .elist), (.arrayInitializer, .arrayInit),
        (.explicitConstructorInvocation, .methodCall)] : List (Kind × Syntax.Kind)),
        Grammar.nests p.1 = true ∧ p.1.bindsItself = false ∧ p.2.isDeclaration = false := by
      decide
    obtain ⟨hnests, hbinding, hdeclaration⟩ := hkinds _ hkind
    exact (binds_nest hc hnests hbinding hdeclaration).singleton
  | parentheses hk => exact bindsAll_named hc (by rw [hk]; decide) (by rw [hk]; rfl)
  | assignment hk => exact (binds_assignment hc hk).singleton
  | chain hk => exact (binds_chain hc hk).singleton
  | operator hk =>
    have hkinds : ∀ k ∈ ([.unaryExpression, .updateExpression] : List Kind),
        Grammar.nests k = true ∧ k.bindsItself = false := by decide
    obtain ⟨hnests, hbinding⟩ := hkinds c.kind hk
    exact (binds_operator hc hnests hbinding).singleton
  | fieldAccess hk => exact (binds_fieldAccess hc hk).singleton
  | methodCall hk => exact (binds_methodCall hc hk).singleton
  | arrayAccess hk => exact (binds_arrayAccess hc hk).singleton
  | creation hk => exact (binds_creation hc hk).singleton
  | self kind hkind =>
    rw [hquiet (List.mem_map_of_mem (f := Prod.fst) hkind) (by decide)]
    exact (binds_leaf _ _).singleton
  | word hk =>
    rw [hquiet hk (by decide)]
    exact (binds_token _ _ _).singleton
  | dotted hk =>
    rw [hquiet (List.mem_singleton.mpr hk) (by decide)]
    exact (binds_qualified _ _).singleton
  | type hk =>
    rw [hquiet hk (by decide)]
    exact (binds_typeRef _ _).singleton
  | other hk =>
    obtain ⟨hnests, hbinding⟩ := nests_of_not_formed hk hc.independent
    exact (binds_nest hc hnests hbinding rfl).singleton

end Plan

theorem Cst.bindingsAll_of_lower {depth : Nat} {c : Cst} {ts : List Term} (hc : c.Loose)
    (h : c.lower depth = .ok ts) : bindingsAll ts = c.properSites := by
  induction depth generalizing c ts with
  | zero => cases h
  | succ depth ih =>
    exact ((Plan.form_ofCst c).binds hc).filled (fun d us hd hus => ih hd hus)
      (Plan.filledAll_of_fillAll h)

theorem Cst.bindingsAll_of_toTerm {program : Cst} {T : Term} (hc : program.Simple)
    (hk : program.kind = .program) (h : program.toTerm = .ok T) :
    bindingsAll [T] = program.properSites := by
  rw [toTerm] at h
  split at h
  · next ts hts =>
    cases h
    have hloose : program.Loose := ⟨hc, by rw [hk]; rfl⟩
    have hnamed := Plan.bindsAll_named hloose (by rw [hk]; decide) (by rw [hk]; rfl)
    rw [Term.bindingsAll_node, Term.definition?_of_not_isDeclaration rfl,
      hnamed.filled (fun d us hd hus => bindingsAll_of_lower hd hus)
        (Plan.filledAll_of_fillAll hts)]
    rfl
  · cases h

theorem Cst.definitions_eq_properSites {program : Cst} {t : Tree} (hc : program.Simple)
    (hk : program.kind = .program) (h : program.toTree = .ok t) :
    t.definitions = program.properSites.map fun b => (b.1, .ok b.2) := by
  cases hterm : program.toTerm with
  | error e =>
    rw [toTree, hterm] at h
    cases h
  | ok T =>
    rw [toTree_of_toTerm hc.conforms hterm] at h
    cases h
    rw [Tree.definitions_tree (sound_of_toTerm hc.conforms hterm).1.shaped,
      bindingsAll_of_toTerm hc hk hterm]

/-- Lowering loses, adds and reorders no binding: the definitions of the tree, in pre-order, are
the binding sites of the source, in the order of the source. Only what stands inside a spread
parameter is not lowered, so that where no spread parameter is given a value there is nothing to
leave out. -/
theorem Cst.definitions_of_toTree {program : Cst} {t : Tree} (hc : program.conforms = true)
    (hplain : program.isPlain = true) (hk : program.kind = .program)
    (h : program.toTree = .ok t) :
    (t.definitions = program.properSites.map fun b => (b.1, .ok b.2)) ∧
      (program.sparesSpreads = true →
        t.definitions = program.bindingSites.map fun b => (b.1, .ok b.2)) := by
  have hdefinitions := definitions_eq_properSites ⟨hc, hplain⟩ hk h
  refine ⟨hdefinitions, fun hs => ?_⟩
  rw [hdefinitions, properSites_eq_bindingSites ⟨hc, hplain⟩ hs]

theorem Cst.definitions_of_toTree_members :
    ∃ t, (Parser.parse "class A { B[] x; void m(int y) { for (B z : x) f(w -> w); } }").toTree =
      .ok t ∧ t.definitions = [(.variableDef, .ok "x"), (.parameterDef, .ok "y"),
        (.variableDef, .ok "z"), (.parameterDef, .ok "w")] := by
  generalize hprogram :
    Parser.parse "class A { B[] x; void m(int y) { for (B z : x) f(w -> w); } }" = program
  have hfacts : program.conforms = true ∧ program.isPlain = true ∧ program.kind = .program ∧
      program.sparesSpreads = true ∧ program.height ≤ maxDepth + 1 ∧
        program.bindingSites = [(.variableDef, "x"), (.parameterDef, "y"), (.variableDef, "z"),
          (.parameterDef, "w")] := by
    subst hprogram
    decide +kernel
  obtain ⟨hc, hplain, hk, hspreads, hheight, hsites⟩ := hfacts
  obtain ⟨T, hT⟩ := exists_toTerm ⟨hc, hheight⟩
  have htree := toTree_of_toTerm hc hT
  refine ⟨T.tree, htree, ?_⟩
  rw [(definitions_of_toTree hc hplain hk htree).2 hspreads, hsites]
  rfl

/-- What is bound in the value of a spread parameter is lost. -/
theorem Cst.definitions_ne_bindingSites :
    let program := Parser.parse "class A { void m(int... x = y -> y) {} }"
    program.conforms = true ∧ program.isPlain = true ∧ program.kind = .program ∧
      ∃ t, program.toTree = .ok t ∧
        t.definitions ≠ program.bindingSites.map fun b => (b.1, .ok b.2) := by
  intro program
  have hfacts : program.conforms = true ∧ program.isPlain = true ∧ program.kind = .program ∧
      program.height ≤ maxDepth + 1 ∧
        program.properSites.length ≠ program.bindingSites.length := by decide +kernel
  obtain ⟨hc, hplain, hk, hheight, hlost⟩ := hfacts
  obtain ⟨T, hT⟩ := exists_toTerm ⟨hc, hheight⟩
  have htree := toTree_of_toTerm hc hT
  refine ⟨hc, hplain, hk, T.tree, htree, ?_⟩
  rw [definitions_eq_properSites ⟨hc, hplain⟩ hk htree]
  intro hall
  have hlength := congrArg List.length hall
  rw [List.length_map, List.length_map] at hlength
  exact hlost hlength

end ArchLint.Java
