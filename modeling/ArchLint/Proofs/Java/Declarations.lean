import ArchLint.Proofs.Java.Shape
import ArchLint.Proofs.Java.Sites
import ArchLint.Proofs.Query.Definitions

/-!
# What declarations bind

`Binds p bs` says that the definitions of a plan are `bs` if every hole gives the sites of the node
that stands there. Variables, parameters, types and their members bind what their sites say.
-/

namespace ArchLint.Java

open Syntax (Term Tree)
open Syntax.Term (bindingsAll)

namespace Plan

/-- What a node of this kind with these parts binds itself. -/
def Heads (kind : Syntax.Kind) (parts : List Plan) (own : List (Syntax.Kind × String)) : Prop :=
  if kind.isDeclaration then
    ∃ m type name line rest, parts = m :: type :: ident name line :: rest ∧
      m.kind?.isSome = true ∧ type.kind?.isSome = true ∧ own = [(kind, name)]
  else own = []

mutual

/-- The plan makes these definitions, in pre-order, if every hole makes those of the node that
stands there. -/
def Binds : Plan → List (Syntax.Kind × String) → Prop
  | .node kind _ _ parts, bs =>
    ∃ own inner, Heads kind parts own ∧ BindsAll parts inner ∧ bs = own ++ inner
  | .done T, bs => bs = bindingsAll [T]
  | .hole c, bs => c.Loose ∧ bs = c.properSites

def BindsAll : List Plan → List (Syntax.Kind × String) → Prop
  | [], bs => bs = []
  | p :: ps, bs => ∃ first rest, Binds p first ∧ BindsAll ps rest ∧ bs = first ++ rest

end

variable {R : Cst → List Term → Prop} {p : Plan} {ps qs : List Plan}
  {bs cs : List (Syntax.Kind × String)} {kind : Syntax.Kind} {text : Option String} {line : Nat}

theorem Heads.filled {own : List (Syntax.Kind × String)} {ts : List Term}
    (h : Heads kind ps own) (hts : FilledAll R ps ts) :
    (Term.definition? (.node kind text line ts)).toList = own := by
  rw [Heads] at h
  split at h
  · next hkind =>
    obtain ⟨m, type, name, l, rest, rfl, hm, htype, rfl⟩ := h
    obtain ⟨k, hk⟩ := Option.isSome_iff_exists.mp hm
    obtain ⟨k', hk'⟩ := Option.isSome_iff_exists.mp htype
    obtain ⟨_, _, hfm, ⟨_, _, hftype, ⟨_, _, hfname, -, rfl⟩, rfl⟩, rfl⟩ := hts
    obtain ⟨M, rfl, -⟩ := hfm.of_kind? hk
    obtain ⟨T, rfl, -⟩ := hftype.of_kind? hk'
    obtain rfl : _ = [Term.token .ident name l] := hfname
    simp [Term.definition?, hkind, Term.token, Term.text]
  · next hkind =>
    rw [Term.definition?_of_not_isDeclaration (Bool.eq_false_iff.mpr hkind), h]
    rfl

mutual

theorem Binds.filled (hR : ∀ c us, c.Loose → R c us → bindingsAll us = c.properSites) :
    ∀ {p : Plan} {bs : List (Syntax.Kind × String)} {ts : List Term}, p.Binds bs →
      Filled R p ts → bindingsAll ts = bs
  | .node kind text line parts, bs, ts, h, hts => by
    obtain ⟨own, inner, hown, hinner, rfl⟩ := h
    obtain ⟨us, hus, rfl⟩ := hts
    rw [Term.bindingsAll_node, hown.filled hus, BindsAll.filled hR hinner hus]
  | .done T, bs, ts, h, hts => by
    rw [show ts = [T] from hts]
    exact h.symm
  | .hole c, bs, ts, h, hts => (hR c ts h.1 hts).trans h.2.symm

theorem BindsAll.filled (hR : ∀ c us, c.Loose → R c us → bindingsAll us = c.properSites) :
    ∀ {ps : List Plan} {bs : List (Syntax.Kind × String)} {ts : List Term}, BindsAll ps bs →
      FilledAll R ps ts → bindingsAll ts = bs
  | [], bs, ts, h, hts => by
    rw [show ts = [] from hts]
    exact h.symm
  | p :: ps, bs, ts, h, hts => by
    obtain ⟨first, rest, hfirst, hrest, rfl⟩ := h
    obtain ⟨us, vs, hus, hvs, rfl⟩ := hts
    rw [Term.bindingsAll_append, Binds.filled hR hfirst hus, BindsAll.filled hR hrest hvs]

end

theorem BindsAll.append (hps : BindsAll ps bs) (hqs : BindsAll qs cs) :
    BindsAll (ps ++ qs) (bs ++ cs) := by
  induction ps generalizing bs with
  | nil =>
    obtain rfl : bs = [] := hps
    exact hqs
  | cons p ps ih =>
    obtain ⟨first, rest, hp, hrest, rfl⟩ := hps
    exact ⟨first, rest ++ cs, hp, ih hrest, List.append_assoc _ _ _⟩

theorem Binds.cons (hp : p.Binds bs) (hps : BindsAll ps cs) : BindsAll (p :: ps) (bs ++ cs) :=
  ⟨bs, cs, hp, hps, rfl⟩

theorem Binds.singleton (hp : p.Binds bs) : BindsAll [p] bs :=
  ⟨bs, [], hp, rfl, (List.append_nil bs).symm⟩

theorem bindsAll_flatMap {α : Type} {xs : List α} {f : α → List Plan}
    {g : α → List (Syntax.Kind × String)} (h : ∀ x ∈ xs, BindsAll (f x) (g x)) :
    BindsAll (xs.flatMap f) (xs.flatMap g) := by
  induction xs with
  | nil => rfl
  | cons x xs ih =>
    rw [List.flatMap_cons, List.flatMap_cons]
    exact (h x List.mem_cons_self).append (ih fun y hy => h y (List.mem_cons_of_mem x hy))

theorem bindsAll_map {α : Type} {xs : List α} {f : α → Plan}
    {g : α → List (Syntax.Kind × String)} (h : ∀ x ∈ xs, (f x).Binds (g x)) :
    BindsAll (xs.map f) (xs.flatMap g) := by
  rw [List.map_eq_flatMap]
  exact bindsAll_flatMap fun x hx => (h x hx).singleton

theorem bindsAll_nil_of_forall (h : ∀ p ∈ ps, p.Binds []) : BindsAll ps [] := by
  induction ps with
  | nil => rfl
  | cons p ps ih =>
    exact (h p List.mem_cons_self).cons (ih fun q hq => h q (List.mem_cons_of_mem p hq))

theorem binds_node (hkind : kind.isDeclaration = false) (hps : BindsAll ps bs) :
    (node kind text line ps).Binds bs := by
  have hown : Heads kind ps [] := by
    rw [Heads, hkind]
    exact rfl
  exact ⟨[], bs, hown, hps, rfl⟩

theorem binds_leaf (kind : Syntax.Kind) (line : Nat) : (leaf kind line).Binds [] :=
  (Term.bindingsAll_childless kind none line).symm

theorem binds_token (kind : Syntax.Kind) (text : String) (line : Nat) :
    (token kind text line).Binds [] :=
  (Term.bindingsAll_childless kind (some text) line).symm

theorem binds_qualified (name : String) (line : Nat) : (qualified name line).Binds [] :=
  (Term.bindingsAll_qualified name line).symm

theorem binds_nameOf (name : Option Cst) (line : Nat) : (nameOf name line).Binds [] := by
  obtain ⟨line', h⟩ := nameOf_eq name line
  rw [h]
  exact binds_token _ _ _

theorem binds_typeRef (type : Option Cst) (line : Nat) : (typeRef type line).Binds [] := by
  cases type with
  | none => exact binds_leaf _ _
  | some type =>
    refine binds_node rfl (bindsAll_nil_of_forall (List.forall_mem_cons.mpr ⟨?_, ?_⟩))
    · exact binds_qualified _ _
    · split
      · exact List.forall_mem_singleton.mpr (binds_leaf _ _)
      · exact List.forall_mem_nil _

/-- Modifiers, a type and a name make a definition of the name. -/
theorem binds_definition (hkind : kind.isDeclaration = true) {m type : Plan} {name : Option Cst}
    {line' : Nat} (hmk : m.kind?.isSome = true) (htk : type.kind?.isSome = true)
    (hm : m.Binds []) (ht : type.Binds []) (hps : BindsAll ps bs) :
    (node kind text line (m :: type :: nameOf name line' :: ps)).Binds
      ((kind, textOf name) :: bs) := by
  obtain ⟨l, hname⟩ := nameOf_eq name line'
  have hown : Heads kind (m :: type :: nameOf name line' :: ps) [(kind, textOf name)] := by
    rw [Heads, if_pos hkind, hname]
    exact ⟨m, type, _, l, ps, rfl, hmk, htk, rfl⟩
  exact ⟨_, bs, hown, hm.cons (ht.cons ((binds_nameOf name line').cons hps)), rfl⟩

variable {c d : Cst}

theorem binds_hole (hc : c.Loose) : (hole c).Binds c.properSites :=
  ⟨hc, rfl⟩

theorem bindsAll_holes {ds : List Cst} (hds : ∀ d ∈ ds, d.Loose) :
    BindsAll (holes ds) (ds.flatMap Cst.properSites) :=
  bindsAll_map fun d hd => binds_hole (hds d hd)

theorem binds_expr (hc : c.Loose) : (expr c).Binds c.properSites :=
  binds_node rfl (binds_hole hc).singleton

theorem binds_initializer (hd : d.Loose) : (initializer c d).Binds d.properSites := by
  refine binds_node rfl (Binds.singleton ?_)
  split
  · exact binds_hole hd
  · exact binds_expr hd

theorem bindsAll_role (hc : c.Simple) {f : Field} (hf : Grammar.frees c.kind f = true)
    {plan : Cst → Plan} (hplan : ∀ d : Cst, d.Loose → (plan d).Binds d.properSites) :
    BindsAll ((c.get? f).map plan).toList (c.sitesIn f) := by
  cases hd : c.get? f with
  | none =>
    rw [Cst.sitesIn, hd]
    rfl
  | some d =>
    obtain ⟨hloose, hsites⟩ := Cst.loose_of_get? hc hf hd
    rw [hsites]
    exact (hplan d hloose).singleton

theorem bindsAll_holes_role (hc : c.Simple) {f : Field} (hf : Grammar.frees c.kind f = true) :
    BindsAll (holes (c.get? f).toList) (c.sitesIn f) := by
  have h := bindsAll_role hc hf fun d hd => binds_hole hd
  rwa [Option.toList_map] at h

theorem binds_modifierList (hc : c.Simple) : (modifierList c).Binds [] := by
  refine binds_node rfl (bindsAll_nil_of_forall fun p hp => ?_)
  obtain ⟨d, hd, hp⟩ := List.mem_filterMap.mp hp
  have hplain := (hc.child hd).not_isOrnate
  rw [modifier] at hp
  split at hp
  · next hannotating =>
    rw [Kind.isOrnate_of_isAnnotating hannotating] at hplain
    cases hplain
  · split at hp
    · cases hp
    · cases hp
      exact binds_token _ _ _

theorem binds_modifiers (hc : c.Simple) : (modifiers c).Binds [] := by
  rw [modifiers]
  split
  · next list hlist => exact binds_modifierList (hc.named (List.mem_of_find?_eq_some hlist))
  · exact binds_leaf _ _

theorem binds_arrayMark (c : Cst) (line : Nat) : BindsAll (arrayMark c line) [] := by
  rw [arrayMark]
  split
  · exact (binds_leaf _ _).singleton
  · rfl

theorem binds_declaration (hc : c.Simple) (hkind : kind.isDeclaration = true)
    {type name : Option Cst} {line' line'' : Nat} (hps : BindsAll ps bs) :
    (node kind text line (modifiers c :: typeRef type line' :: nameOf name line'' :: ps)).Binds
      ((kind, textOf name) :: bs) := by
  refine binds_definition hkind ?_ ?_ (binds_modifiers hc) (binds_typeRef type line') hps
  · rw [kind?_modifiers]
    rfl
  · rw [kind?_typeRef]
    rfl

theorem binds_variable (hc : c.Simple) (hd : d.Simple) (hk : d.kind = .variableDeclarator)
    {owner : Kind} (howner : owner.declaresVariables = true) :
    (variable_ c d).Binds (d.sites Kind.isProper owner) := by
  have hsites : d.sites Kind.isProper owner =
      (.variableDef, textOf (d.get? .name)) :: ([] ++ d.sitesIn .value) := by
    rw [Cst.sites_of_confines [.value] hd (Cst.fits_parts hd.conforms)
      (by rw [hk]; decide), Cst.binding?, hk]
    simp [howner, Cst.declaredText, textOf]
  rw [hsites]
  refine binds_declaration hc rfl ((binds_arrayMark d d.line).append ?_)
  exact bindsAll_role hd (by rw [hk]; decide) fun _ => binds_initializer

theorem bindsAll_variableDefs (hc : c.Simple)
    (hk : c.kind ∈ [.fieldDeclaration, .constantDeclaration, .localVariableDeclaration]) :
    BindsAll (variableDefs c) c.properSites := by
  have hkinds : ∀ k ∈ ([.fieldDeclaration, .constantDeclaration, .localVariableDeclaration] :
      List Kind), Grammar.gathers (Grammar.content k) k [.declarator] = true ∧
        k.bindsItself = false ∧
        k.declaresVariables = true ∧
        ∀ k' ∈ Grammar.kindsIn k (some .declarator), k' = .variableDeclarator := by
    decide
  obtain ⟨hgathers, hbinding, hdeclares, hdeclarator⟩ := hkinds c.kind hk
  have hsites : c.properSites =
      (c.getAll .declarator).flatMap (Cst.sites Kind.isProper c.kind) := by
    rw [Cst.properSites, Cst.sites_of_gathers [.declarator] hc (Cst.fits_parts hc.conforms)
      hgathers, Cst.binding?_program hbinding, Cst.filter_playsOneOf_singleton]
    rfl
  rw [hsites, variableDefs]
  refine bindsAll_map fun d hd => ?_
  obtain ⟨hd, hfield⟩ := List.mem_filter.mp hd
  have hkind := hdeclarator d.kind (Cst.kind_of_field hc.conforms hd (of_decide_eq_true hfield))
  exact binds_variable hc (hc.child hd) hkind hdeclares

theorem binds_parameter (hc : c.Simple) :
    (parameter c).Binds [(.parameterDef, textOf (parameterName c))] :=
  binds_declaration hc rfl rfl

theorem textOf_parameterName_spread (hk : c.kind = .spreadParameter) :
    textOf (parameterName c) =
      ((c.children.find? (·.kind = .variableDeclarator)).map Cst.declaredText).getD "" := by
  have hnamed : c.named.find? (fun d => d.kind = .variableDeclarator) =
      c.children.find? fun d => d.kind = .variableDeclarator := by
    rw [Cst.named, List.find?_filter]
    congr 1
    funext d
    by_cases hd : d.kind = .variableDeclarator
    · simp [hd, Cst.isNamed]
    · simp [hd]
  simp only [parameterName, hk, hnamed]
  cases c.children.find? fun d => d.kind = .variableDeclarator with
  | none => rfl
  | some d => rfl

/-- A parameter of a method, a constructor or a lambda binds its name. -/
theorem binding?_parameter (hk : isParameter c = true) {owner : Kind}
    (howner : owner.isCallable = true) :
    Cst.binding? owner c = some (.parameterDef, textOf (parameterName c)) := by
  have hrecord : owner ≠ .recordDeclaration := by
    rintro rfl
    cases howner
  cases hkind : c.kind with
  | formalParameter =>
    simp [Cst.binding?, hkind, howner, hrecord, parameterName, textOf, Cst.declaredText]
  | spreadParameter =>
    rw [textOf_parameterName_spread hkind]
    simp [Cst.binding?, hkind, howner]
  | _ => simp [isParameter, hkind] at hk

theorem binds_parameters (hc : c.Simple) (hk : c.kind = .formalParameters) {owner : Kind}
    (howner : owner.isCallable = true) (line : Nat) :
    (parameters (some c) line).Binds (c.sites Kind.isProper owner) := by
  rw [Cst.sites_formalParameters hc hk]
  refine binds_node rfl (bindsAll_map fun d hd => ?_)
  obtain ⟨hnamed, hparameter⟩ := List.mem_filter.mp hd
  rw [Cst.sites_of_isParameter (hc.named hnamed) hparameter,
    binding?_parameter hparameter howner]
  exact binds_parameter (hc.named hnamed)

theorem binds_parameters_role (hc : c.Simple)
    (hkinds : ∀ k ∈ Grammar.kindsIn c.kind (some .parameters),
      k = .formalParameters ∧ c.kind.isCallable = true) (line : Nat) :
    (parameters (c.get? .parameters) line).Binds (c.sitesIn .parameters) := by
  rw [Cst.sitesIn]
  cases hd : c.get? .parameters with
  | none => exact binds_leaf _ _
  | some d =>
    obtain ⟨hk, hcallable⟩ := hkinds d.kind (Cst.kind_of_get? hc.conforms hd)
    simpa using binds_parameters (hc.get? hd) hk hcallable line

/-- The components of a record bind variables; a spread component is none. -/
theorem bindsAll_components (hc : c.Simple) (hk : c.kind = .formalParameters) :
    BindsAll ((c.named.filter (·.kind = .formalParameter)).map component)
      (c.sites Kind.isProper .recordDeclaration) := by
  have hsites : c.sites Kind.isProper .recordDeclaration =
      (c.named.filter (·.kind = .formalParameter)).flatMap
        (Cst.sites Kind.isProper .recordDeclaration) := by
    rw [Cst.sites_formalParameters hc hk,
      Cst.flatMap_eq_flatMap_filter (p := (·.kind = .formalParameter)) (fun _ _ _ => rfl) ?_,
      List.filter_filter]
    · refine congrArg _ (List.filter_congr fun d _ => ?_)
      by_cases hd : d.kind = .formalParameter
      · simp [hd, isParameter]
      · simp [hd]
    · intro d hd hout
      obtain ⟨hnamed, hparameter⟩ := List.mem_filter.mp hd
      rw [Cst.sites_of_isParameter (hc.named hnamed) hparameter]
      cases hkind : d.kind with
      | formalParameter => simp [hkind] at hout
      | spreadParameter => simp [Cst.binding?, hkind, Kind.isCallable]
      | _ => simp [isParameter, hkind] at hparameter
  rw [hsites]
  refine bindsAll_map fun d hd => ?_
  obtain ⟨hnamed, hkind⟩ := List.mem_filter.mp hd
  have hkind := of_decide_eq_true hkind
  have hown : d.sites Kind.isProper .recordDeclaration =
      [(.variableDef, textOf (d.get? .name))] := by
    rw [Cst.sites_of_isParameter (hc.named hnamed) (by simp [isParameter, hkind])]
    simp [Cst.binding?, hkind, Cst.declaredText, textOf]
  rw [hown]
  exact binds_declaration (hc.named hnamed) rfl (binds_arrayMark d d.line)

theorem properSites_of_quiet (hc : c.Loose) (hk : c.kind ∈ Grammar.quiet) : c.properSites = [] :=
  Cst.sites_of_quiet hc.simple hk fun _ => rfl

theorem bindsAll_named (hc : c.Loose) (hn : Grammar.nests c.kind = true)
    (hk : c.kind.bindsItself = false) :
    BindsAll (holes c.named) c.properSites := by
  obtain ⟨hsites, hloose⟩ := Cst.properSites_of_nests hc.simple hn (Cst.binding?_program hk)
  rw [hsites]
  exact bindsAll_holes hloose

theorem binds_nest (hc : c.Loose) (hn : Grammar.nests c.kind = true)
    (hk : c.kind.bindsItself = false)
    (hkind : kind.isDeclaration = false) : (nest kind c).Binds c.properSites :=
  binds_node hkind (bindsAll_named hc hn hk)

theorem binds_resource (hc : c.Loose) (hk : c.kind = .resource) :
    (resource c).Binds c.properSites := by
  have hfits := Cst.fits_parts hc.simple.conforms
  rw [hk] at hfits
  rw [resource]
  split
  · next hname =>
    have hbinding : Cst.binding? .program c = none := by simp [Cst.binding?, hk, hname]
    obtain ⟨hsites, hloose⟩ :=
      Cst.properSites_of_nests hc.simple (by rw [hk]; decide) hbinding
    rw [hsites]
    exact binds_node rfl (bindsAll_holes hloose)
  · next name hname =>
    rcases Content.fits_alt.mp hfits with hvariable | hexisting
    · have hsites : c.properSites = (.variableDef, textOf (some name)) :: c.sitesIn .value := by
        rw [Cst.properSites, Cst.sites_of_confines [.value] hc.simple hvariable
          (by rw [hk]; decide), Cst.binding?, hk]
        simp [hname, textOf]
      rw [hsites]
      refine binds_declaration hc.simple rfl ?_
      exact bindsAll_role hc.simple (by rw [hk]; decide) fun _ => binds_initializer
    · -- a resource that exists already is a node without a role
      obtain ⟨hmem, hfield⟩ := Cst.mem_of_get? hname
      rcases Cst.exists_slot_of_mem hexisting hmem with hcomment | ⟨s, hs, hslot, -⟩
      · rw [Cst.isComment_of_field hc.simple.conforms hmem hfield] at hcomment
        cases hcomment
      · rw [List.mem_singleton.mp hs, hfield] at hslot
        cases hslot

theorem binds_catchParameter (hc : c.Loose) (hk : c.kind = .catchFormalParameter) :
    (parameter c).Binds c.properSites := by
  have hsites : c.properSites = [(.parameterDef, textOf (parameterName c))] := by
    rw [Cst.properSites, Cst.sites_of_confines [] hc.simple (Cst.fits_parts hc.simple.conforms)
      (by rw [hk]; decide), Cst.binding?, hk]
    simp [parameterName, hk, textOf, Cst.declaredText]
  rw [hsites]
  exact binds_parameter hc.simple

theorem binds_clause (hkind : kind.isDeclaration = false) (c : Cst) : (clause kind c).Binds [] := by
  refine binds_node hkind (bindsAll_nil_of_forall ?_)
  rw [List.forall_mem_map]
  exact fun type _ => binds_qualified _ _

theorem bindsAll_clauses (c : Cst) : BindsAll (c.named.filterMap clause?) [] := by
  refine bindsAll_nil_of_forall fun p hp => ?_
  obtain ⟨d, -, hd⟩ := List.mem_filterMap.mp hp
  rw [clause?] at hd
  split at hd
  · cases hd
    exact binds_clause rfl d
  · cases hd
    exact binds_clause rfl d
  · cases hd
    exact binds_clause rfl d
  · cases hd

/-- The members of a type bind after its components. -/
theorem binds_body (hc : c.Loose)
    (hk : c.kind ∈ [.classBody, .interfaceBody, .enumBody, .annotationTypeBody])
    (components : Option Cst)
    (hcomponents : ∀ list, components = some list → list.Simple ∧ list.kind = .formalParameters) :
    (body c components).Binds
      (components.toList.flatMap (Cst.sites Kind.isProper .recordDeclaration) ++
        c.properSites) := by
  have hkinds : ∀ k ∈ ([.classBody, .interfaceBody, .enumBody, .annotationTypeBody] : List Kind),
      Grammar.nests k = true ∧ k.bindsItself = false := by decide
  obtain ⟨hnests, hbinding⟩ := hkinds c.kind hk
  obtain ⟨hsites, hloose⟩ :=
    Cst.properSites_of_nests hc.simple hnests (Cst.binding?_program hbinding)
  rw [hsites]
  refine binds_node rfl (BindsAll.append ?_ (bindsAll_flatMap fun d hd => ?_))
  · cases components with
    | none => rfl
    | some list =>
      obtain ⟨hlist, hformal⟩ := hcomponents list rfl
      simpa using bindsAll_components hlist hformal
  · rw [member]
    split
    · next hdeclarations =>
      exact bindsAll_named (hloose d hd) (by rw [hdeclarations]; decide)
        (by rw [hdeclarations]; rfl)
    · exact (binds_hole (hloose d hd)).singleton

theorem properSites_of_confines (roles : List Field) (hc : c.Loose)
    (h : Grammar.confines (Grammar.content c.kind) c.kind roles = true)
    (hk : c.kind.bindsItself = false) : c.properSites = roles.flatMap c.sitesIn := by
  rw [Cst.properSites, Cst.sites_of_confines roles hc.simple (Cst.fits_parts hc.simple.conforms) h,
    Cst.binding?_program hk]
  rfl

theorem components_of_typeDeclaration (hc : c.Simple)
    (hlists : ∀ k ∈ Grammar.kindsIn c.kind (some .parameters),
      c.kind = .recordDeclaration ∧ k = .formalParameters) :
    (if c.kind = .recordDeclaration then c.get? .parameters else none) = c.get? .parameters ∧
      c.sitesIn .parameters =
        (c.get? .parameters).toList.flatMap (Cst.sites Kind.isProper .recordDeclaration) ∧
      ∀ list, c.get? .parameters = some list → list.Simple ∧ list.kind = .formalParameters := by
  cases hget : c.get? .parameters with
  | none =>
    refine ⟨ite_self none, ?_, nofun⟩
    rw [Cst.sitesIn, hget]
    rfl
  | some list =>
    obtain ⟨hrecord, hformal⟩ := hlists list.kind (Cst.kind_of_get? hc.conforms hget)
    refine ⟨if_pos hrecord, ?_, ?_⟩
    · rw [Cst.sitesIn, hget, hrecord]
    · rintro _ ⟨⟩
      exact ⟨hc.get? hget, hformal⟩

theorem binds_typeDeclaration (hc : c.Loose) (hkind : kind ∈ [.classDef, .interfaceDef, .enumDef])
    (hk : c.kind ∈ [.classDeclaration, .recordDeclaration, .interfaceDeclaration,
      .annotationTypeDeclaration, .enumDeclaration]) :
    (typeDeclaration kind c).Binds c.properSites := by
  have hkinds : ∀ k ∈ ([.classDeclaration, .recordDeclaration, .interfaceDeclaration,
      .annotationTypeDeclaration, .enumDeclaration] : List Kind),
      Grammar.confines (Grammar.content k) k [.parameters, .body] = true ∧
        k.bindsItself = false ∧ Grammar.frees k .body = true ∧ Grammar.requires k .body = true ∧
        (∀ k' ∈ Grammar.kindsIn k (some .body),
          k' ∈ ([.classBody, .interfaceBody, .enumBody, .annotationTypeBody] : List Kind)) ∧
        ∀ k' ∈ Grammar.kindsIn k (some .parameters),
          k = .recordDeclaration ∧ k' = .formalParameters := by
    decide
  obtain ⟨hconfines, hbinding, hfrees, hrequires, hbodies, hlists⟩ := hkinds c.kind hk
  have hdeclaration : ∀ k ∈ ([.classDef, .interfaceDef, .enumDef] : List Syntax.Kind),
      k.isDeclaration = false := by decide
  obtain ⟨b, hb⟩ := Cst.exists_get? hc.simple.conforms hrequires
  obtain ⟨hloose, hsites⟩ := Cst.loose_of_get? hc.simple hfrees hb
  obtain ⟨hcomponents, hfields, hlist⟩ := components_of_typeDeclaration hc.simple hlists
  have hbody := binds_body hloose (hbodies b.kind (Cst.kind_of_get? hc.simple.conforms hb))
    (c.get? .parameters) hlist
  have hall : c.properSites =
      (c.get? .parameters).toList.flatMap (Cst.sites Kind.isProper .recordDeclaration) ++
        b.properSites := by
    rw [properSites_of_confines _ hc hconfines hbinding, ← hfields, ← hsites]
    simp
  rw [hall]
  refine binds_node (hdeclaration kind hkind) ?_
  rw [hb]
  simp only [hcomponents]
  have hhead : BindsAll ([modifiers c, nameOf (c.get? .name) c.line] ++ c.named.filterMap clause?)
      ([] ++ []) :=
    ((binds_modifiers hc.simple).cons (binds_nameOf _ _).singleton).append (bindsAll_clauses c)
  exact hhead.append hbody.singleton

theorem binds_method (hc : c.Loose)
    (hk : c.kind ∈ [.methodDeclaration, .annotationTypeElementDeclaration]) :
    (method c).Binds c.properSites := by
  have hkinds : ∀ k ∈ ([.methodDeclaration, .annotationTypeElementDeclaration] : List Kind),
      Grammar.confines (Grammar.content k) k [.parameters, .body, .value] = true ∧
        k.bindsItself = false ∧ Grammar.frees k .body = true ∧
        (k = .annotationTypeElementDeclaration ∨ Grammar.kindsIn k (some .value) = []) ∧
        ∀ k' ∈ Grammar.kindsIn k (some .parameters),
          k' = .formalParameters ∧ k.isCallable = true := by
    decide
  obtain ⟨hconfines, hbinding, hfrees, hvalue, hparameters⟩ := hkinds c.kind hk
  have hsites : c.properSites = [] ++ ([] ++ ([] ++ c.sitesIn .parameters)) ++ c.sitesIn .body := by
    rw [properSites_of_confines _ hc hconfines hbinding]
    have hnone : c.get? .value = none := by
      rcases hvalue with hannotation | hnone
      · exact hc.simple.get?_value hannotation
      · exact Cst.get?_eq_none hc.simple.conforms hnone
    simp [Cst.sitesIn, hnone]
  rw [hsites]
  refine binds_node rfl (BindsAll.append ?_ (bindsAll_holes_role hc.simple hfrees))
  exact (binds_modifiers hc.simple).cons ((binds_typeRef _ _).cons ((binds_nameOf _ _).cons
    (binds_parameters_role hc.simple hparameters c.line).singleton))

theorem binds_constructor (hc : c.Loose)
    (hk : c.kind ∈ [.constructorDeclaration, .compactConstructorDeclaration]) :
    (constructor_ c).Binds c.properSites := by
  have hkinds : ∀ k ∈ ([.constructorDeclaration, .compactConstructorDeclaration] : List Kind),
      Grammar.confines (Grammar.content k) k [.parameters, .body] = true ∧
        k.bindsItself = false ∧ Grammar.frees k .body = true ∧
        ∀ k' ∈ Grammar.kindsIn k (some .parameters),
          k' = .formalParameters ∧ k.isCallable = true := by
    decide
  obtain ⟨hconfines, hbinding, hfrees, hparameters⟩ := hkinds c.kind hk
  have hsites : c.properSites = [] ++ ([] ++ c.sitesIn .parameters) ++ c.sitesIn .body := by
    rw [properSites_of_confines _ hc hconfines hbinding]
    simp
  rw [hsites]
  refine binds_node rfl (BindsAll.append ?_ (bindsAll_holes_role hc.simple hfrees))
  exact (binds_modifiers hc.simple).cons ((binds_nameOf _ _).cons
    (binds_parameters_role hc.simple hparameters c.line).singleton)

end Plan

end ArchLint.Java
