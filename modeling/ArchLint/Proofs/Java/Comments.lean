import ArchLint.Java.Parser
import ArchLint.Proofs.Java.Bare
import ArchLint.Proofs.Java.Shape

/-!
# Comments and lowering

Each builder of plans, asked about the bare form of a node, makes the plan that it makes for the
node itself, without the comments that are left in it. So a tree and its bare form are lowered to
the same terms, and trees that differ only in comments cannot be told apart afterwards.
-/

namespace ArchLint.Java

open Syntax (Term Tree)

namespace Plan

open Cst (Tidy)

mutual

def bare : Plan → List Plan
  | .node kind text line parts => [.node kind text line (bareAll parts)]
  | .done T => [.done T]
  | .hole c => if c.isComment then [] else [.hole c.bare]

def bareAll : List Plan → List Plan
  | [] => []
  | p :: ps => bare p ++ bareAll ps

end

variable {c d : Cst} {f : Field} {ps qs : List Plan}

theorem bare_node (kind : Syntax.Kind) (text : Option String) (line : Nat) (h : bareAll ps = qs) :
    (node kind text line ps).bare = [node kind text line qs] := by
  rw [bare, h]

theorem bareAll_cons {p q : Plan} (hp : p.bare = [q]) (hps : bareAll ps = qs) :
    bareAll (p :: ps) = q :: qs := by
  rw [bareAll, hp, hps]
  rfl

theorem bareAll_append (ps qs : List Plan) : bareAll (ps ++ qs) = bareAll ps ++ bareAll qs := by
  induction ps with
  | nil => rfl
  | cons p ps ih => rw [List.cons_append, bareAll, bareAll, ih, List.append_assoc]

theorem bareAll_singleton {p q : Plan} (h : p.bare = [q]) : bareAll [p] = [q] :=
  bareAll_cons h rfl

theorem bareAll_map {ds : List Cst} {g g' : Cst → Plan}
    (h : ∀ d ∈ ds, (g d).bare = [g' d.bare]) :
    bareAll (ds.map g) = (ds.map Cst.bare).map g' := by
  induction ds with
  | nil => rfl
  | cons d ds ih =>
    refine bareAll_cons (h d List.mem_cons_self) (ih fun e he => h e (List.mem_cons_of_mem _ he))

theorem bareAll_flatMap {ds : List Cst} {g : Cst → List Plan}
    (h : ∀ d ∈ ds, bareAll (g d) = if d.isComment then [] else g d.bare) :
    bareAll (ds.flatMap g) = ((ds.filter fun d => !d.isComment).map Cst.bare).flatMap g := by
  induction ds with
  | nil => rfl
  | cons d ds ih =>
    rw [List.flatMap_cons, bareAll_append, h d List.mem_cons_self,
      ih fun e he => h e (List.mem_cons_of_mem _ he), List.filter_cons]
    cases d.isComment <;> rfl

theorem bare_hole (h : d.isComment = false) : (hole d).bare = [hole d.bare] := by
  rw [bare, h]
  rfl

theorem bareAll_holes (ds : List Cst) :
    bareAll (holes ds) = holes ((ds.filter fun d => !d.isComment).map Cst.bare) := by
  induction ds with
  | nil => rfl
  | cons d ds ih =>
    rw [holes, List.map_cons, bareAll, ← holes, ih, List.filter_cons, bare]
    cases d.isComment <;> rfl

theorem bare_nest (kind : Syntax.Kind) (c : Cst) : (nest kind c).bare = [nest kind c.bare] := by
  rw [nest, nest, Cst.named_bare, Cst.line_bare]
  exact bare_node _ _ _ (bareAll_holes _)

theorem bare_expr (h : d.isComment = false) : (expr d).bare = [expr d.bare] := by
  rw [expr, expr, Cst.line_bare]
  exact bare_node _ _ _ (bareAll_singleton (bare_hole h))

/-- What the child in a role, if there is one, is lowered to. -/
theorem bareAll_role (hc : c.Tidy) (f : Field) {g g' : Cst → Plan}
    (h : ∀ d, c.get? f = some d → d.Tidy → d.isComment = false → (g d).bare = [g' d.bare]) :
    bareAll ((c.get? f).map g).toList = ((c.bare.get? f).map g').toList := by
  rw [Cst.get?_bare hc.conforms]
  cases hd : c.get? f with
  | none => rfl
  | some d =>
    exact bareAll_singleton (h d hd (hc.get? hd) (Cst.isComment_of_get? hc.conforms hd))

theorem bareAll_holes_role (hc : c.Tidy) (f : Field) :
    bareAll (holes (c.get? f).toList) = holes (c.bare.get? f).toList := by
  rw [Cst.get?_bare hc.conforms]
  cases hd : c.get? f with
  | none => rfl
  | some d => exact bareAll_singleton (bare_hole (Cst.isComment_of_get? hc.conforms hd))

theorem bare_nameOf {o : Option Cst} (line : Nat)
    (h : ∀ d, o = some d → d.kind.isWritten = true) :
    (nameOf o line).bare = [nameOf (o.map Cst.bare) line] := by
  cases o with
  | none => rfl
  | some d =>
    rw [Option.map_some, nameOf, nameOf, Cst.text_bare (h d rfl), Cst.line_bare]
    rfl

theorem bare_typeRef {o : Option Cst} (line : Nat)
    (h : ∀ d, o = some d → d.Tidy ∧ d.kind ∈ Cst.nameable) :
    (typeRef o line).bare = [typeRef (o.map Cst.bare) line] := by
  cases o with
  | none => rfl
  | some d =>
    obtain ⟨hd, hk⟩ := h d rfl
    rw [Option.map_some, typeRef, typeRef, Cst.typeName_bare hd hk, Cst.line_bare, Cst.kind_bare]
    refine bare_node _ _ _ (bareAll_cons rfl ?_)
    split <;> rfl

theorem isWritten_of_name (hc : c.Tidy)
    (hk : c.kind ∉ [.moduleDeclaration, .annotationUse, .plainAnnotationUse])
    (hd : c.get? .name = some d) : d.kind.isWritten = true := by
  have htable : ∀ k, k ∉ [Kind.moduleDeclaration, .annotationUse, .plainAnnotationUse] →
      ∀ k' ∈ Grammar.kindsIn k (some .name), k'.isWritten = true := by
    intro k
    cases k <;> decide
  exact htable c.kind hk d.kind (Cst.kind_of_get? hc.conforms hd)

theorem kind_of_type (hc : c.Tidy) (hd : c.get? .type = some d) : d.kind ∈ Cst.nameable := by
  have htable : ∀ k, ∀ k' ∈ Grammar.kindsIn k (some .type), k' ∈ Cst.nameable := by
    intro k
    cases k <;> decide
  exact htable c.kind d.kind (Cst.kind_of_get? hc.conforms hd)

theorem bare_name {ks : List Kind} (hc : c.Tidy) (hk : c.kind ∈ ks)
    (hks : ∀ k ∈ ks, k ∉ [.moduleDeclaration, .annotationUse, .plainAnnotationUse]) (line : Nat) :
    (nameOf (c.get? .name) line).bare = [nameOf (c.bare.get? .name) line] := by
  rw [Cst.get?_bare hc.conforms]
  exact bare_nameOf line fun d hd => isWritten_of_name hc (hks c.kind hk) hd

theorem bare_type (hc : c.Tidy) (line : Nat) :
    (typeRef (c.get? .type) line).bare = [typeRef (c.bare.get? .type) line] := by
  rw [Cst.get?_bare hc.conforms]
  exact bare_typeRef line fun d hd => ⟨hc.get? hd, kind_of_type hc hd⟩

theorem filter_named_bare_bare (c : Cst) :
    (c.bare.named.filter fun d => !d.isComment) =
      (c.named.filter fun d => !d.isComment).map Cst.bare := by
  rw [Cst.named_bare, List.filter_eq_self]
  simp only [List.forall_mem_map, Cst.isComment_bare]
  exact fun d hd => (List.mem_filter.mp hd).2

theorem bareAll_filterMap {ds : List Cst} {g : Cst → Option Plan}
    (hcomment : ∀ d ∈ ds, d.isComment = true → g d = none)
    (h : ∀ d ∈ ds, d.isComment = false → bareAll (g d).toList = (g d.bare).toList) :
    bareAll (ds.filterMap g) = ((ds.filter fun d => !d.isComment).map Cst.bare).filterMap g := by
  induction ds with
  | nil => rfl
  | cons d ds ih =>
    have hrest := ih (fun e he => hcomment e (List.mem_cons_of_mem _ he))
      fun e he => h e (List.mem_cons_of_mem _ he)
    have hcons (o : Option Plan) (e : Cst) (es : List Cst) (ho : g e = o) :
        (e :: es).filterMap g = o.toList ++ es.filterMap g := by
      subst ho
      rw [List.filterMap_cons]
      cases g e <;> rfl
    rw [hcons _ d ds rfl, bareAll_append, hrest, List.filter_cons]
    cases hd : d.isComment with
    | true =>
      rw [hcomment d List.mem_cons_self hd]
      rfl
    | false =>
      rw [h d List.mem_cons_self hd]
      exact (hcons _ d.bare _ rfl).symm

theorem bare_annotationArgument (hd : d.Tidy) (hcomment : d.isComment = false) :
    (annotationArgument d).bare = [annotationArgument d.bare] := by
  rw [annotationArgument, annotationArgument, Cst.kind_bare]
  split
  · next hk =>
    rw [Cst.line_bare]
    refine bare_node _ _ _ ?_
    rw [bareAll_append, bareAll_role hd .value fun value _ _ => bare_expr]
    refine congrArg (· ++ _) (bareAll_cons ?_ rfl)
    rw [Cst.get?_bare hd.conforms]
    refine bare_nameOf _ fun key hkey => ?_
    have hkind := Cst.kind_of_get? hd.conforms hkey
    rw [hk] at hkind
    have htable : ∀ k ∈ Grammar.kindsIn .elementValuePair (some .key), k.isWritten = true := by
      decide
    exact htable _ hkind
  · exact bare_expr hcomment

theorem bare_annotated (hc : c.Tidy) (hk : c.isAnnotating = true) :
    (annotated c).bare = [annotated c.bare] := by
  have hname : ∀ d, c.get? .name = some d → d.kind ∈ Cst.nameable := by
    intro d hd
    have htable : ∀ k : Kind, k.isAnnotating = true →
        ∀ k' ∈ Grammar.kindsIn k (some .name), k' ∈ Cst.nameable := by
      intro k
      cases k <;> decide
    exact htable c.kind hk d.kind (Cst.kind_of_get? hc.conforms hd)
  rw [annotated, annotated, Cst.line_bare]
  refine bare_node _ _ _ ?_
  rw [bareAll_append, bareAll_role hc .name fun d hd hd' _ => ?_]
  · refine congrArg _ ?_
    rw [Cst.get?_bare hc.conforms]
    cases hargs : c.get? .arguments with
    | none => rfl
    | some arguments =>
      simp only [Option.map_some]
      rw [filter_named_bare_bare]
      refine bareAll_map fun e he => ?_
      obtain ⟨hmem, hcomment⟩ := List.mem_filter.mp he
      exact bare_annotationArgument ((hc.get? hargs).named hmem) (by simpa using hcomment)
  · rw [Cst.typeName_bare hd' (hname d hd)]
    rfl

theorem bare_modifierList (hc : c.Tidy) : (modifierList c).bare = [modifierList c.bare] := by
  rw [modifierList, modifierList, Cst.line_bare, Cst.children_bare]
  refine bare_node _ _ _ (bareAll_filterMap ?_ ?_)
  · intro d _ hcomment
    rcases Kind.isComment_iff.mp hcomment with hk | hk <;>
      simp [modifier, Cst.isAnnotating, Cst.isNamed, hk, Kind.isAnnotating]
  · intro d hd _
    rw [modifier, modifier, Cst.isAnnotating_bare, Cst.isNamed_bare]
    split
    · next hann => exact bareAll_singleton (bare_annotated (hc.child hd) hann)
    · split
      · rfl
      · next htoken =>
        have hk : d.kind = .token := by simpa [Cst.isNamed] using htoken
        rw [Cst.text_bare (by rw [hk]; rfl), Cst.line_bare]
        rfl

theorem bare_modifiers (hc : c.Tidy) : (modifiers c).bare = [modifiers c.bare] := by
  have hfind := Cst.find?_named_bare c (q := fun k => k = .modifiers) rfl rfl
  rw [modifiers, modifiers, hfind, Cst.line_bare]
  cases hlist : c.named.find? fun d => d.kind = .modifiers with
  | none => rfl
  | some list => exact bare_modifierList (hc.named (List.mem_of_find?_eq_some hlist))

def namesTop (k : Kind) : Bool :=
  k matches .identifier | .scopedIdentifier

theorem kind_of_isName (h : isName d = true) : d.kind ∈ Cst.nameable := by
  revert h
  unfold isName
  cases d.kind <;> decide

theorem bareAll_package (hc : c.Tidy) : bareAll (package c) = package c.bare := by
  have hfind : c.bare.named.find? isName = (c.named.find? isName).map Cst.bare :=
    Cst.find?_named_bare c (q := namesTop) rfl rfl
  rw [package, package, hfind, Cst.line_bare]
  cases hname : c.named.find? isName with
  | none => rfl
  | some name =>
    have hd := hc.named (List.mem_of_find?_eq_some hname)
    simp only [Option.map_some]
    rw [Cst.typeName_bare hd (kind_of_isName (List.find?_some hname))]
    rfl

theorem bareAll_import (hc : c.Tidy) : bareAll (import_ c) = import_ c.bare := by
  have hfilter : c.bare.children.filter isName = (c.children.filter isName).map Cst.bare :=
    (c.overlooks_kind (q := namesTop) rfl rfl).filter_children
  have hstatic := (c.overlooks_token "static").any_children
  have hstar : (c.bare.children.any fun d => d.kind = .asterisk) =
      c.children.any fun d => d.kind = .asterisk :=
    (c.overlooks_kind (q := fun k => k = .asterisk) rfl rfl).any_children
  rw [import_, import_, hfilter, List.getLast?_map]
  cases hname : (c.children.filter isName).getLast? with
  | none => rfl
  | some name =>
    obtain ⟨hmem, hk⟩ := List.mem_filter.mp (List.mem_of_getLast? hname)
    simp only [Option.map_some]
    rw [hstatic, hstar, Cst.line_bare, Cst.typeName_bare (hc.child hmem) (kind_of_isName hk)]
    rfl

theorem bare_initializer (c : Cst) (hd : d.isComment = false) :
    (initializer c d).bare = [initializer c.bare d.bare] := by
  have hsign := (c.overlooks_token "=").find?_children
  rw [initializer, initializer, hsign, Option.map_map, Cst.kind_bare, Cst.line_bare]
  have hline : (Cst.line ∘ Cst.bare) = Cst.line := funext Cst.line_bare
  rw [hline]
  refine bare_node _ _ _ (bareAll_singleton ?_)
  split
  · exact bare_hole hd
  · exact bare_expr hd

theorem bareAll_arrayMark (hc : c.Tidy) (line : Nat) :
    bareAll (arrayMark c line) = arrayMark c.bare line := by
  rw [arrayMark, arrayMark, Cst.get?_bare hc.conforms, Option.isSome_map]
  split <;> rfl

theorem bare_definition (kind : Syntax.Kind) (line : Nat) {type type' name name' : Plan}
    (hc : c.Tidy) (htype : type.bare = [type']) (hname : name.bare = [name'])
    (hps : bareAll ps = qs) :
    (node kind none line (modifiers c :: type :: name :: ps)).bare =
      [node kind none line (modifiers c.bare :: type' :: name' :: qs)] :=
  bare_node _ _ _ (bareAll_cons (bare_modifiers hc) (bareAll_cons htype (bareAll_cons hname hps)))

theorem bare_variable (hc : c.Tidy) (hd : d.Tidy) (hk : d.kind = .variableDeclarator) :
    (variable_ c d).bare = [variable_ c.bare d.bare] := by
  have hrest : bareAll (arrayMark d d.line ++ ((d.get? .value).map (initializer d)).toList) =
      arrayMark d.bare d.line ++ ((d.bare.get? .value).map (initializer d.bare)).toList := by
    rw [bareAll_append, bareAll_arrayMark hd,
      bareAll_role hd .value fun _ _ _ => bare_initializer d]
  have hname := bare_name hd (List.mem_singleton.mpr hk) (by decide)
  rw [variable_, variable_, Cst.line_bare]
  exact bare_definition _ _ hc (bare_type hc _) (hname _) hrest

theorem bareAll_variableDefs (hc : c.Tidy)
    (hk : c.kind ∈ [.fieldDeclaration, .constantDeclaration, .localVariableDeclaration]) :
    bareAll (variableDefs c) = variableDefs c.bare := by
  rw [variableDefs, variableDefs, Cst.getAll_bare hc.conforms]
  have htable : ∀ k ∈ [Kind.fieldDeclaration, .constantDeclaration, .localVariableDeclaration],
      ∀ k' ∈ Grammar.kindsIn k (some .declarator), k' = .variableDeclarator := by decide
  have hdefs : ∀ d ∈ c.getAll .declarator, (variable_ c d).bare = [variable_ c.bare d.bare] := by
    intro d hd
    obtain ⟨hmem, hfield⟩ := List.mem_filter.mp hd
    have hkind := Cst.kind_of_field hc.conforms hmem (of_decide_eq_true hfield)
    exact bare_variable hc (hc.child hmem) (htable c.kind hk d.kind hkind)
  exact bareAll_map hdefs

theorem bare_component (hc : c.Tidy) (hk : c.kind = .formalParameter) :
    (component c).bare = [component c.bare] := by
  have hname := bare_name hc (List.mem_singleton.mpr hk) (by decide)
  rw [component, component, Cst.line_bare]
  exact bare_definition _ _ hc (bare_type hc _) (hname _) (bareAll_arrayMark hc _)

theorem parameterType_bare (hc : c.Tidy)
    (hk : c.kind ∈ [.formalParameter, .spreadParameter, .catchFormalParameter]) :
    parameterType c.bare = (parameterType c).map Cst.bare ∧
      ∀ d, parameterType c = some d → d.Tidy ∧ d.kind ∈ Cst.nameable := by
  cases hkind : c.kind with
  | formalParameter =>
    simp only [parameterType, Cst.kind_bare, hkind]
    exact ⟨Cst.get?_bare hc.conforms .type, fun d hd => ⟨hc.get? hd, kind_of_type hc hd⟩⟩
  | catchFormalParameter =>
    simp only [parameterType, Cst.kind_bare, hkind]
    refine ⟨Cst.find?_named_bare c (q := fun k => k = .catchType) rfl rfl, fun d hd => ?_⟩
    have hcatch : d.kind = .catchType := by simpa using List.find?_some hd
    exact ⟨hc.named (List.mem_of_find?_eq_some hd), by rw [hcatch]; decide⟩
  | spreadParameter =>
    obtain ⟨type, htype, hplain, hbare⟩ := Cst.exists_type_of_spread hc hkind
    refine ⟨by rw [htype, hbare]; rfl, fun d hd => ?_⟩
    cases htype.symm.trans hd
    simp only [parameterType, hkind] at htype
    have hnameable : ∀ k ∈ Grammar.plainTypes, k ∈ Cst.nameable := by decide
    exact ⟨hc.named (List.mem_of_find?_eq_some htype), hnameable type.kind hplain⟩
  | _ =>
    rw [hkind] at hk
    exact absurd hk (by decide)

theorem parameterName_bare (hc : c.Tidy)
    (hk : c.kind ∈ [.formalParameter, .spreadParameter, .catchFormalParameter]) :
    parameterName c.bare = (parameterName c).map Cst.bare ∧
      ∀ d, parameterName c = some d → d.kind.isWritten = true := by
  by_cases hspread : c.kind = .spreadParameter
  · have hfind := Cst.find?_named_bare c (q := fun k => k = .variableDeclarator) rfl rfl
    simp only [parameterName, Cst.kind_bare, hspread, hfind]
    cases hd : c.named.find? fun d => d.kind = .variableDeclarator with
    | none => exact ⟨rfl, nofun⟩
    | some d =>
      have htidy := hc.named (List.mem_of_find?_eq_some hd)
      have hdeclarator : d.kind = .variableDeclarator := by simpa using List.find?_some hd
      exact ⟨Cst.get?_bare htidy.conforms .name, fun name hname =>
        isWritten_of_name htidy (by rw [hdeclarator]; decide) hname⟩
  · have hname (e : Cst) (he : e.kind = c.kind) : parameterName e = e.get? .name := by
      unfold parameterName
      split
      · next h => exact absurd (he.symm.trans h) hspread
      · rfl
    rw [hname c rfl, hname c.bare c.kind_bare]
    refine ⟨Cst.get?_bare hc.conforms .name, fun name hname => isWritten_of_name hc ?_ hname⟩
    revert hk
    cases c.kind <;> decide

theorem bare_parameter (hc : c.Tidy)
    (hk : c.kind ∈ [.formalParameter, .spreadParameter, .catchFormalParameter]) :
    (parameter c).bare = [parameter c.bare] := by
  obtain ⟨htype, htypes⟩ := parameterType_bare hc hk
  obtain ⟨hname, hnames⟩ := parameterName_bare hc hk
  rw [parameter, parameter, Cst.line_bare, htype, hname]
  exact bare_definition _ _ hc (bare_typeRef _ htypes) (bare_nameOf _ hnames) rfl

/-- The kinds of parameters that a method lists. -/
def isListed (k : Kind) : Bool :=
  k matches .formalParameter | .spreadParameter

theorem bare_parameters {list : Option Cst} (line : Nat) (h : ∀ l, list = some l → l.Tidy) :
    (parameters list line).bare = [parameters (list.map Cst.bare) line] := by
  cases list with
  | none => rfl
  | some list =>
    have hfilter : list.bare.named.filter isParameter =
        (list.named.filter isParameter).map Cst.bare :=
      Cst.filter_named_bare list (q := isListed) rfl rfl
    rw [Option.map_some, parameters, parameters, hfilter, Cst.line_bare]
    refine bare_node _ _ _ (bareAll_map fun d hd => ?_)
    obtain ⟨hmem, hk⟩ := List.mem_filter.mp hd
    refine bare_parameter ((h list rfl).named hmem) ?_
    revert hk
    unfold isParameter
    cases d.kind <;> decide

theorem bare_parameters_role (hc : c.Tidy) (line : Nat) :
    (parameters (c.get? .parameters) line).bare = [parameters (c.bare.get? .parameters) line] := by
  rw [Cst.get?_bare hc.conforms]
  exact bare_parameters line fun l hl => hc.get? hl

theorem bare_inferredParameter (hk : d.kind = .identifier) :
    (inferredParameter d).bare = [inferredParameter d.bare] := by
  rw [inferredParameter, inferredParameter, Cst.line_bare]
  refine bare_node _ _ _ (bareAll_cons rfl (bareAll_cons rfl (bareAll_singleton ?_)))
  exact bare_nameOf (o := some d) d.line fun e he => by cases he; rw [hk]; rfl

theorem bare_resource (hc : c.Tidy) (hk : c.kind = .resource) :
    (resource c).bare = [resource c.bare] := by
  rw [resource, resource, Cst.get?_bare hc.conforms]
  cases hname : c.get? .name with
  | none => exact bare_nest _ c
  | some name =>
    have hwritten := isWritten_of_name hc (by rw [hk]; decide) hname
    simp only [Option.map_some]
    rw [Cst.line_bare]
    refine bare_definition _ _ hc (bare_type hc _) ?_
      (bareAll_role hc .value fun _ _ _ => bare_initializer c)
    exact bare_nameOf (o := some name) c.line fun e he => by cases he; exact hwritten

/-- The types of a clause, in a list or by themselves. -/
def clauseTypes (ds : List Cst) : List Cst :=
  (ds.flatMap fun d => if d.kind = .typeList then d.named else [d]).filter fun d => !d.isComment

theorem clauseTypes_bare (ds : List Cst) :
    clauseTypes ((ds.filter fun d => !d.isComment).map Cst.bare) =
      (clauseTypes ds).map Cst.bare := by
  have hcons (d : Cst) (ds : List Cst) : clauseTypes (d :: ds) =
      (if d.kind = .typeList then d.named else [d]).filter (fun d => !d.isComment) ++
        clauseTypes ds := by
    rw [clauseTypes, List.flatMap_cons, List.filter_append]
    rfl
  induction ds with
  | nil => rfl
  | cons d ds ih =>
    rw [hcons, List.map_append, ← ih, List.filter_cons]
    cases hcomment : d.isComment with
    | true =>
      have hk : d.kind ≠ .typeList := by
        intro hk
        rw [Cst.isComment, hk] at hcomment
        cases hcomment
      simp [hk, hcomment]
    | false =>
      simp only [Bool.not_false, if_true, List.map_cons, hcons, Cst.kind_bare]
      split
      · rw [filter_named_bare_bare]
      · simp [hcomment]

theorem kind_of_clauseType (hc : c.Tidy)
    (hk : c.kind ∈ [.superclass, .extendsInterfaces, .superInterfaces])
    (hd : d ∈ clauseTypes c.named) : d.Tidy ∧ d.kind ∈ Cst.nameable := by
  obtain ⟨hmem, hcomment⟩ := List.mem_filter.mp hd
  obtain ⟨e, he, hd⟩ := List.mem_flatMap.mp hmem
  have hslots : ∀ k ∈ [Kind.superclass, .extendsInterfaces, .superInterfaces],
      ((Grammar.content k).slots.all fun s => s.kinds.all fun k =>
        k = .token || k = .typeList || Cst.nameable.contains k) = true := by decide
  obtain ⟨hchild, hnamed⟩ := List.mem_filter.mp he
  have htidy := hc.child hchild
  split at hd
  · next hlist =>
    obtain ⟨hd, hnamed⟩ := List.mem_filter.mp hd
    have hlistSlots : ((Grammar.content e.kind).slots.all fun s => s.kinds.all fun k =>
        k = .token || Cst.nameable.contains k) = true := by
      rw [hlist]
      decide
    refine ⟨htidy.child hd, ?_⟩
    rcases Cst.isComment_or_of_slots htidy.conforms hlistSlots hd with hout | hcase
    · simp [hout] at hcomment
    · simpa [of_decide_eq_true hnamed] using hcase
  · next hlist =>
    cases List.mem_singleton.mp hd
    refine ⟨htidy, ?_⟩
    rcases Cst.isComment_or_of_slots hc.conforms (hslots c.kind hk) hchild with hout | hcase
    · simp [hout] at hcomment
    · simpa [of_decide_eq_true hnamed, hlist] using hcase

theorem bare_clause (kind : Syntax.Kind) (hc : c.Tidy)
    (hk : c.kind ∈ [.superclass, .extendsInterfaces, .superInterfaces]) :
    (clause kind c).bare = [clause kind c.bare] := by
  have htypes : clauseTypes c.bare.named = (clauseTypes c.named).map Cst.bare := by
    rw [Cst.named_bare, clauseTypes_bare]
  rw [clause, clause, Cst.line_bare]
  refine bare_node _ _ _ ((bareAll_map fun d hd => ?_).trans (congrArg _ htypes.symm))
  obtain ⟨htidy, hkind⟩ := kind_of_clauseType hc hk hd
  rw [Cst.typeName_bare htidy hkind, Cst.line_bare]
  rfl

theorem bareAll_clauses (hc : c.Tidy) :
    bareAll (c.named.filterMap clause?) = c.bare.named.filterMap clause? := by
  rw [Cst.named_bare]
  refine bareAll_filterMap ?_ ?_
  · intro d _ hcomment
    rcases Kind.isComment_iff.mp hcomment with hk | hk <;> simp [clause?, hk]
  · intro d hd _
    have htidy := hc.named hd
    simp only [clause?, Cst.kind_bare]
    split
    · next hk => exact bareAll_singleton (bare_clause _ htidy (by simp [hk]))
    · next hk => exact bareAll_singleton (bare_clause _ htidy (by simp [hk]))
    · next hk => exact bareAll_singleton (bare_clause _ htidy (by simp [hk]))
    · rfl

theorem bareAll_member (d : Cst) :
    bareAll (member d) = if d.isComment then [] else member d.bare := by
  rw [member, member, Cst.kind_bare]
  split
  · next hk =>
    have hcomment : d.isComment = false := by
      rw [Cst.isComment, hk]
      rfl
    rw [hcomment, bareAll_holes, Cst.named_bare]
    rfl
  · rw [bareAll, bare]
    cases d.isComment <;> rfl

theorem bare_body {components : Option Cst} (hlist : ∀ l, components = some l → l.Tidy) (c : Cst) :
    (body c components).bare = [body c.bare (components.map Cst.bare)] := by
  unfold body
  rw [Cst.line_bare, Cst.named_bare]
  refine bare_node _ _ _ ?_
  rw [bareAll_append, bareAll_flatMap fun d _ => bareAll_member d]
  refine congrArg (· ++ _) ?_
  cases components with
  | none => rfl
  | some list =>
    have hfilter := Cst.filter_named_bare list (q := fun k => k = .formalParameter) rfl rfl
    simp only [Option.map_some, hfilter]
    refine bareAll_map fun d hd => ?_
    obtain ⟨hmem, hk⟩ := List.mem_filter.mp hd
    exact bare_component ((hlist list rfl).named hmem) (of_decide_eq_true hk)

theorem bare_typeDeclaration (kind : Syntax.Kind) (hc : c.Tidy)
    (hk : c.kind ∈ [.classDeclaration, .recordDeclaration, .interfaceDeclaration,
      .annotationTypeDeclaration, .enumDeclaration]) :
    (typeDeclaration kind c).bare = [typeDeclaration kind c.bare] := by
  rw [typeDeclaration, typeDeclaration, Cst.kind_bare, Cst.line_bare]
  refine bare_node _ _ _ ?_
  rw [bareAll_append, bareAll_append, bareAll_clauses hc,
    bareAll_cons (bare_modifiers hc) (bareAll_singleton (bare_name hc hk (by decide) _))]
  refine congrArg _ (bareAll_singleton ?_)
  rw [Cst.get?_bare hc.conforms, Cst.get?_bare hc.conforms]
  cases hbody : c.get? .body with
  | none => rfl
  | some b =>
    simp only [Option.map_some]
    split
    · exact bare_body (fun l hl => hc.get? hl) b
    · exact bare_body (fun l hl => by cases hl) b

theorem bare_method (hc : c.Tidy)
    (hk : c.kind ∈ [.methodDeclaration, .annotationTypeElementDeclaration]) :
    (method c).bare = [method c.bare] := by
  rw [method, method, Cst.line_bare]
  exact bare_definition _ _ hc (bare_type hc _) (bare_name hc hk (by decide) _)
    (bareAll_cons (bare_parameters_role hc _) (bareAll_holes_role hc .body))

theorem bare_constructor (hc : c.Tidy)
    (hk : c.kind ∈ [.constructorDeclaration, .compactConstructorDeclaration]) :
    (constructor_ c).bare = [constructor_ c.bare] := by
  rw [constructor_, constructor_, Cst.line_bare]
  exact bare_definition _ _ hc (bare_name hc hk (by decide) _) (bare_parameters_role hc _)
    (bareAll_holes_role hc .body)

theorem bare_forEach (hc : c.Tidy) (hk : c.kind = .enhancedForStatement) :
    (forEach c).bare = [forEach c.bare] := by
  have hname := bare_name hc (List.mem_singleton.mpr hk) (by decide)
  rw [forEach, forEach, Cst.line_bare]
  refine bare_node _ _ _ ?_
  rw [bareAll_append, bareAll_append, bareAll_holes_role hc,
    bareAll_role hc .value fun _ _ _ => bare_expr]
  refine congrArg (· ++ _) (congrArg (· ++ _) (bareAll_singleton ?_))
  exact bare_definition _ _ hc (bare_type hc _) (hname _) rfl

theorem bare_lambdaParameters (hc : c.Tidy) :
    (lambdaParameters c).bare = [lambdaParameters c.bare] := by
  rw [lambdaParameters, lambdaParameters, Cst.get?_bare hc.conforms, Cst.line_bare]
  cases hlist : c.get? .parameters with
  | none => rfl
  | some list =>
    simp only [Option.map_some, Cst.kind_bare]
    split
    · next hk => exact bare_node _ _ _ (bareAll_singleton (bare_inferredParameter hk))
    · have hfilter := Cst.filter_named_bare list (q := fun k => k = .identifier) rfl rfl
      rw [hfilter]
      refine bare_node _ _ _ (bareAll_map fun d hd => bare_inferredParameter ?_)
      exact of_decide_eq_true (List.mem_filter.mp hd).2
    · refine bare_parameters _ fun l hl => ?_
      cases hl
      exact hc.get? hlist

theorem bare_lambda (hc : c.Tidy) : (lambda c).bare = [lambda c.bare] := by
  rw [lambda, lambda, Cst.line_bare]
  refine bare_node _ _ _ (bareAll_cons (bare_lambdaParameters hc) ?_)
  rw [Cst.get?_bare hc.conforms]
  cases hbody : c.get? .body with
  | none => rfl
  | some b =>
    have hcomment := Cst.isComment_of_get? hc.conforms hbody
    simp only [Option.map_some, Cst.kind_bare]
    refine bareAll_singleton ?_
    split
    · exact bare_hole hcomment
    · exact bare_expr hcomment

theorem text_operator (hc : c.Tidy) :
    (c.bare.get? .operator).map Cst.text = (c.get? .operator).map Cst.text := by
  have htable : ∀ k, ∀ k' ∈ Grammar.kindsIn k (some .operator), k'.isWritten = true := by
    intro k
    cases k <;> decide
  rw [Cst.get?_bare hc.conforms, Option.map_map]
  refine Option.map_congr fun d hd => ?_
  exact Cst.text_bare (htable c.kind d.kind (Cst.kind_of_get? hc.conforms hd))

theorem operatorText_bare (hc : c.Tidy) : c.bare.operatorText = c.operatorText := by
  have htext := text_operator hc
  have htoken := (c.overlooks_kind (q := fun k => !decide (k ≠ .token)) rfl rfl).find?_children
  replace htoken : (c.bare.children.find? fun d => !d.isNamed) =
    (c.children.find? fun d => !d.isNamed).map Cst.bare := htoken
  rw [Cst.operatorText, Cst.operatorText, htoken, Option.map_map]
  cases hget : c.get? .operator with
  | some operator =>
    rw [hget, Cst.get?_bare hc.conforms, hget] at htext
    rw [Cst.get?_bare hc.conforms, hget]
    exact Option.some.inj htext
  | none =>
    rw [Cst.get?_bare hc.conforms, hget]
    refine congrArg (Option.getD · "") (Option.map_congr fun d hd => ?_)
    have hk : d.kind = .token := by simpa [Cst.isNamed] using List.find?_some hd
    exact Cst.text_bare (by rw [hk]; rfl)

theorem bare_assignment (hc : c.Tidy) : (assignment c).bare = [assignment c.bare] := by
  have hparts : bareAll (holes (c.get? .left).toList ++ holes (c.get? .right).toList) =
      holes (c.bare.get? .left).toList ++ holes (c.bare.get? .right).toList := by
    rw [bareAll_append, bareAll_holes_role hc, bareAll_holes_role hc]
  rw [assignment, assignment, text_operator hc, Cst.line_bare]
  split
  · exact bare_node _ _ _ hparts
  · exact bare_node _ _ _ hparts

theorem bare_operator (hc : c.Tidy) : (operator c).bare = [operator c.bare] := by
  rw [operator, operator, operatorText_bare hc, Cst.line_bare, Cst.named_bare]
  exact bare_node _ _ _ (bareAll_holes _)

theorem bare_enclose {inner inner' : Plan} (hinner : inner.bare = [inner']) (hc : c.Tidy) :
    (enclose inner c).bare = [enclose inner' c.bare] := by
  rw [enclose, enclose, operatorText_bare hc, Cst.line_bare]
  refine bare_node _ _ _ (bareAll_cons hinner ?_)
  rw [bareAll_holes, Cst.named_bare, List.filter_map, List.filter_filter, List.filter_filter]
  refine congrArg (fun ds => holes (ds.map Cst.bare)) (List.filter_congr fun d _ => ?_)
  simp [Bool.and_comm]

theorem bare_chain {c : Cst} (hc : c.Tidy) : (chain c).bare = [chain c.bare] := by
  by_cases hleft : ∃ left, c.get? .left = some left ∧ left.kind = .binaryExpression
  · obtain ⟨left, hget, hbinary⟩ := hleft
    have hbare : c.bare.get? .left = some left.bare := by
      rw [Cst.get?_bare hc.conforms, hget]
      rfl
    rw [chain_around hget hbinary, chain_around hbare (left.kind_bare.trans hbinary)]
    exact bare_enclose (bare_chain (hc.get? hget)) hc
  · have hsingle : ∀ left, c.bare.get? .left = some left → left.kind ≠ .binaryExpression := by
      intro left hget hbinary
      rw [Cst.get?_bare hc.conforms] at hget
      obtain ⟨left', hget', rfl⟩ := Option.map_eq_some_iff.mp hget
      exact hleft ⟨left', hget', left'.kind_bare.symm.trans hbinary⟩
    rw [chain_single hsingle, chain_single fun left hget hbinary => hleft ⟨left, hget, hbinary⟩]
    exact bare_operator hc
termination_by c.weight
decreasing_by exact Cst.weight_lt_of_get? hget

theorem bare_fieldAccess (hc : c.Tidy) : (fieldAccess c).bare = [fieldAccess c.bare] := by
  rw [fieldAccess, fieldAccess, Cst.get?_bare hc.conforms, Cst.get?_bare hc.conforms, Cst.line_bare]
  cases hobject : c.get? .object with
  | none => exact bare_nest _ c
  | some object =>
    cases hfield : c.get? .field with
    | none => exact bare_nest _ c
    | some field =>
      refine bare_node _ _ _ (bareAll_cons (bare_hole ?_) (bareAll_singleton (bare_hole ?_)))
      · exact Cst.isComment_of_get? hc.conforms hobject
      · exact Cst.isComment_of_get? hc.conforms hfield

theorem bare_arrayAccess (hc : c.Tidy) : (arrayAccess c).bare = [arrayAccess c.bare] := by
  rw [arrayAccess, arrayAccess, Cst.get?_bare hc.conforms, Cst.get?_bare hc.conforms, Cst.line_bare]
  cases harray : c.get? .array with
  | none => exact bare_nest _ c
  | some array =>
    cases hindex : c.get? .index with
    | none => exact bare_nest _ c
    | some index =>
      refine bare_node _ _ _ (bareAll_cons (bare_hole ?_) (bareAll_singleton (bare_expr ?_)))
      · exact Cst.isComment_of_get? hc.conforms harray
      · exact Cst.isComment_of_get? hc.conforms hindex

theorem bare_methodCall (hc : c.Tidy) (hk : c.kind = .methodInvocation) :
    (methodCall c).bare = [methodCall c.bare] := by
  have hname := bare_name hc (List.mem_singleton.mpr hk) (by decide) c.line
  rw [Cst.get?_bare hc.conforms] at hname
  simp only [methodCall, Cst.get?_bare hc.conforms, Cst.line_bare, Option.isSome_map]
  refine bare_node _ _ _ (bareAll_cons ?_ (bareAll_singleton ?_))
  · cases hobject : c.get? .object with
    | none => exact hname
    | some object =>
      have hcomment := Cst.isComment_of_get? hc.conforms hobject
      simp only [Option.map_some]
      split
      · exact bare_node _ _ _ (bareAll_cons (bare_hole hcomment) (bareAll_singleton hname))
      · exact hname
  · cases hlist : c.get? .arguments with
    | none => rfl
    | some list => exact bare_hole (Cst.isComment_of_get? hc.conforms hlist)

theorem bare_creation (hc : c.Tidy) : (creation c).bare = [creation c.bare] := by
  rw [creation, creation, Cst.line_bare]
  refine bare_node _ _ _ (bareAll_cons (bare_type hc _) ?_)
  rw [bareAll_holes, Cst.named_bare, List.filter_map, List.filter_filter, List.filter_filter]
  refine congrArg (fun ds => holes (ds.map Cst.bare)) (List.filter_congr fun d _ => ?_)
  cases hcomment : d.isComment <;> simp [hcomment]

/-- The plan for the bare form of a node is the plan for the node without comments. -/
theorem bareAll_ofCst (hc : c.Tidy) : bareAll (ofCst c) = ofCst c.bare := by
  have htoken (kind : Syntax.Kind) (hk : c.kind.isWritten = true) :
      bareAll [token kind c.text c.line] = [token kind c.bare.text c.bare.line] := by
    rw [Cst.text_bare hk, Cst.line_bare]
    rfl
  have hleaf (kind : Syntax.Kind) : bareAll [leaf kind c.line] = [leaf kind c.bare.line] := by
    rw [Cst.line_bare]
    rfl
  rw [ofCst, ofCst, Cst.kind_bare]
  cases hkind : c.kind with
  | lineComment | blockComment => rfl
  | decimalIntegerLiteral | hexIntegerLiteral | octalIntegerLiteral | binaryIntegerLiteral
  | decimalFloatingPointLiteral | hexFloatingPointLiteral | trueLiteral | falseLiteral
  | characterLiteral | stringLiteral | nullLiteral | classLiteral =>
    exact htoken .literal (by rw [hkind]; rfl)
  | packageDeclaration => exact bareAll_package hc
  | importDeclaration => exact bareAll_import hc
  | classDeclaration | recordDeclaration | interfaceDeclaration | annotationTypeDeclaration
  | enumDeclaration => exact bareAll_singleton (bare_typeDeclaration _ hc (by simp [hkind]))
  | classBody | interfaceBody | enumBody | annotationTypeBody =>
    exact bareAll_singleton (bare_body (fun l hl => by cases hl) c)
  | fieldDeclaration | constantDeclaration | localVariableDeclaration =>
    exact bareAll_variableDefs hc (by simp [hkind])
  | methodDeclaration | annotationTypeElementDeclaration =>
    exact bareAll_singleton (bare_method hc (by simp [hkind]))
  | constructorDeclaration | compactConstructorDeclaration =>
    exact bareAll_singleton (bare_constructor hc (by simp [hkind]))
  | formalParameter | spreadParameter | catchFormalParameter =>
    exact bareAll_singleton (bare_parameter hc (by simp [hkind]))
  | resource => exact bareAll_singleton (bare_resource hc hkind)
  | enhancedForStatement => exact bareAll_singleton (bare_forEach hc hkind)
  | lambdaExpression => exact bareAll_singleton (bare_lambda hc)
  | modifiers => exact bareAll_singleton (bare_modifierList hc)
  | annotationUse | plainAnnotationUse =>
    exact bareAll_singleton (bare_annotated hc (by rw [Cst.isAnnotating, hkind]; rfl))
  | parenthesizedExpression => exact (bareAll_holes _).trans (by rw [Cst.named_bare]; rfl)
  | assignmentExpression => exact bareAll_singleton (bare_assignment hc)
  | binaryExpression => exact bareAll_singleton (bare_chain hc)
  | unaryExpression | updateExpression => exact bareAll_singleton (bare_operator hc)
  | fieldAccess => exact bareAll_singleton (bare_fieldAccess hc)
  | methodInvocation => exact bareAll_singleton (bare_methodCall hc hkind)
  | arrayAccess => exact bareAll_singleton (bare_arrayAccess hc)
  | objectCreationExpression | arrayCreationExpression =>
    exact bareAll_singleton (bare_creation hc)
  | this => exact hleaf .literalThis
  | super => exact hleaf .literalSuper
  | identifier | typeIdentifier => exact htoken .ident (by rw [hkind]; rfl)
  | scopedIdentifier =>
    have hname : bareAll [qualified c.typeName c.line] =
        [qualified c.bare.typeName c.bare.line] := by
      rw [Cst.typeName_bare hc (by rw [hkind]; decide), Cst.line_bare]
      rfl
    exact hname
  | integralType | floatingPointType | booleanType | voidType | genericType
  | scopedTypeIdentifier | arrayType =>
    have htype : bareAll [typeRef (some c) c.line] = [typeRef (some c.bare) c.bare.line] := by
      rw [Cst.line_bare]
      refine bareAll_singleton (bare_typeRef _ fun d hd => ?_)
      cases hd
      exact ⟨hc, by rw [hkind]; decide⟩
    exact htype
  | _ => exact bareAll_singleton (bare_nest _ c)

section Filling

variable {lower : Cst → Except TooDeep (List Term)}

theorem fillAll_append {ts us : List Term} (hps : fillAll lower ps = .ok ts)
    (hqs : fillAll lower qs = .ok us) : fillAll lower (ps ++ qs) = .ok (ts ++ us) := by
  induction ps generalizing ts with
  | nil =>
    cases hps
    exact hqs
  | cons p ps ih =>
    rw [fillAll] at hps
    cases hp : fill lower p with
    | error e => simp [hp] at hps
    | ok vs =>
      cases hrest : fillAll lower ps with
      | error e => simp [hp, hrest] at hps
      | ok ws =>
        simp only [hp, hrest, Except.ok.injEq] at hps
        rw [List.cons_append, fillAll, hp, ih hrest, ← hps, List.append_assoc]

theorem fillAll_singleton (p : Plan) : fillAll lower [p] = fill lower p := by
  rw [fillAll]
  cases fill lower p with
  | error e => rfl
  | ok ts => simp [fillAll]

/-- The comments are lowered to nothing, and all else as it is without comments. -/
def Spares (lower : Cst → Except TooDeep (List Term)) (d : Cst) : Prop :=
  ∀ ts, lower d = .ok ts → if d.isComment then ts = [] else lower d.bare = .ok ts

mutual

theorem fill_bare : ∀ {p : Plan} {ts : List Term}, p.Leaves (Spares lower) →
    fill lower p = .ok ts → fillAll lower p.bare = .ok ts
  | .node kind text line parts, ts, h, hts => by
    rw [fill] at hts
    cases hparts : fillAll lower parts with
    | error e => simp [hparts] at hts
    | ok us =>
      simp only [hparts, Except.ok.injEq] at hts
      rw [bare, fillAll_singleton, fill, fillAll_bare (forall_mem_pendingAll.mp h) hparts, ← hts]
  | .done T, ts, _, hts => by
    rw [bare, fillAll_singleton]
    exact hts
  | .hole c, ts, h, hts => by
    have hc := h c (List.mem_singleton_self c) ts hts
    rw [bare]
    cases hcomment : c.isComment with
    | true =>
      rw [hcomment, if_pos rfl] at hc
      rw [hc]
      rfl
    | false =>
      rw [hcomment] at hc
      exact (fillAll_singleton _).trans hc

theorem fillAll_bare : ∀ {ps : List Plan} {ts : List Term}, (∀ p ∈ ps, p.Leaves (Spares lower)) →
    fillAll lower ps = .ok ts → fillAll lower (bareAll ps) = .ok ts
  | [], ts, _, hts => hts
  | p :: ps, ts, h, hts => by
    rw [fillAll] at hts
    cases hp : fill lower p with
    | error e => simp [hp] at hts
    | ok us =>
      cases hps : fillAll lower ps with
      | error e => simp [hp, hps] at hts
      | ok vs =>
        simp only [hp, hps, Except.ok.injEq] at hts
        have hfirst := fill_bare (h p List.mem_cons_self) hp
        have hrest := fillAll_bare (fun q hq => h q (List.mem_cons_of_mem _ hq)) hps
        rw [bareAll, ← hts]
        exact fillAll_append hfirst hrest

end

end Filling

end Plan

theorem Cst.Tidy.inside {c d : Cst} (hc : c.Tidy) (h : c.Inside d) : d.Tidy := by
  induction h with
  | child hd => exact hc.child hd
  | deeper _ hd ih => exact ih.child hd

theorem Cst.lower_of_isComment {depth : Nat} {c : Cst} {ts : List Term} (hc : c.isComment = true)
    (h : c.lower depth = .ok ts) : ts = [] := by
  cases depth with
  | zero => cases h
  | succ depth =>
    rw [lower, Plan.ofCst_of_isComment hc] at h
    exact (Except.ok.inj h).symm

/-- A tree is lowered as it is without its comments. -/
theorem Cst.lower_bare {depth : Nat} {c : Cst} {ts : List Term} (hc : c.Tidy)
    (h : c.lower depth = .ok ts) : c.bare.lower depth = .ok ts := by
  induction depth generalizing c ts with
  | zero => cases h
  | succ depth ih =>
    rw [lower, ← Plan.bareAll_ofCst hc]
    refine Plan.fillAll_bare (fun p hp d hd us hus => ?_) h
    have htidy : d.Tidy := hc.inside ((Plan.form_ofCst c).leaves p hp d hd)
    cases hcomment : d.isComment with
    | true => exact lower_of_isComment hcomment hus
    | false => exact ih htidy hus

theorem Cst.toTerm_bare {c : Cst} {T : Term} (hc : c.Tidy) (h : c.toTerm = .ok T) :
    c.bare.toTerm = .ok T := by
  rw [toTerm] at h
  split at h
  · next ts hts =>
    cases h
    have hfill : Plan.fillAll (lower maxDepth) (Plan.bareAll (Plan.holes c.named)) = .ok ts := by
      refine Plan.fillAll_bare (Plan.leaves_holes fun d hd us hus => ?_) hts
      cases hcomment : d.isComment with
      | true => exact lower_of_isComment hcomment hus
      | false => exact lower_bare (hc.named hd) hus
    rw [Plan.bareAll_holes, ← named_bare] at hfill
    rw [toTerm, hfill]
  · cases h

theorem Cst.toTree_bare {c : Cst} {t : Tree} (hc : c.Tidy) (h : c.toTree = .ok t) :
    c.bare.toTree = .ok t := by
  cases hterm : c.toTerm with
  | error e =>
    rw [toTree, hterm] at h
    cases h
  | ok T =>
    rw [toTree, hterm] at h
    rw [toTree, toTerm_bare hc hterm]
    exact h

/-- Trees that differ only in comments are lowered to the same syntax tree, wherever the comments
stand, except in front of the type of a spread parameter or in front of all of a generic type. -/
theorem Cst.toTree_of_bare_eq {c d : Cst} {t u : Tree} (hc : c.conforms = true)
    (hd : d.conforms = true) (hcClear : c.clearsTypes = true) (hdClear : d.clearsTypes = true)
    (hsame : c.bare = d.bare) (ht : c.toTree = .ok t) (hu : d.toTree = .ok u) : t = u := by
  have hct := toTree_bare ⟨hc, hcClear⟩ ht
  have hdu := toTree_bare ⟨hd, hdClear⟩ hu
  rw [hsame, hdu] at hct
  exact (Except.ok.inj hct).symm

theorem Cst.toTree_of_bare_eq_members :
    let c := Parser.parse "class A { final /* 1 */ int m(B /* 2 */ ... y) { x = a /* 3 */ + b; } }"
    let d := Parser.parse "class A { final int m(B ... y) { x = a + b; } }"
    c.bare = d.bare ∧ c ≠ d ∧ ∃ t, c.toTree = .ok t ∧ d.toTree = .ok t := by
  intro c d
  have hfacts : c.conforms = true ∧ d.conforms = true ∧ c.clearsTypes = true ∧
      d.clearsTypes = true ∧ c.height ≤ maxDepth + 1 ∧ d.height ≤ maxDepth + 1 ∧
        c.bare = d.bare ∧ c ≠ d := by decide +kernel
  clear_value c d
  obtain ⟨hc, hd, hcClear, hdClear, hcHeight, hdHeight, hsame, hne⟩ := hfacts
  obtain ⟨T, hT⟩ := exists_toTerm ⟨hc, hcHeight⟩
  obtain ⟨U, hU⟩ := exists_toTerm ⟨hd, hdHeight⟩
  have ht := toTree_of_toTerm hc hT
  have hu := toTree_of_toTerm hd hU
  have heq := toTree_of_bare_eq hc hd hcClear hdClear hsame ht hu
  exact ⟨hsame, hne, T.tree, ht, heq ▸ hu⟩

/-- A comment between the modifiers and the type of a spread parameter is taken for its type. -/
theorem Cst.toTree_ne_of_comment_in_spread :
    let c := Parser.parse "class A { void m(final /* c */ int... x) {} }"
    let d := Parser.parse "class A { void m(final int... x) {} }"
    c.conforms = true ∧ d.conforms = true ∧ c.bare = d.bare ∧
      (c.everywhere fun e => e.children.head?.all fun f => !f.isComment) = true ∧
      ∃ t u, c.toTree = .ok t ∧ d.toTree = .ok u ∧ t ≠ u ∧ t.text 15 = some "/* c */" := by
  intro c d
  have hfacts : c.conforms = true ∧ d.conforms = true ∧ c.bare = d.bare ∧
      (c.everywhere fun e => e.children.head?.all fun f => !f.isComment) = true ∧
      c.height ≤ maxDepth + 1 ∧ d.height ≤ maxDepth + 1 ∧
      (c.toTerm.toOption.map fun T => T.tree.text 15) = some (some "/* c */") ∧
      (d.toTerm.toOption.map fun T => T.tree.text 15) = some (some "int") := by
    decide +kernel
  clear_value c d
  obtain ⟨hc, hd, hsame, hfirst, hcHeight, hdHeight, htext, hutext⟩ := hfacts
  obtain ⟨T, hT⟩ := exists_toTerm ⟨hc, hcHeight⟩
  obtain ⟨U, hU⟩ := exists_toTerm ⟨hd, hdHeight⟩
  rw [hT] at htext
  rw [hU] at hutext
  replace htext : T.tree.text 15 = some "/* c */" := Option.some.inj htext
  replace hutext : U.tree.text 15 = some "int" := Option.some.inj hutext
  refine ⟨hc, hd, hsame, hfirst, T.tree, U.tree, toTree_of_toTerm hc hT, toTree_of_toTerm hd hU, ?_,
    htext⟩
  intro heq
  rw [heq, hutext] at htext
  exact absurd htext (by decide)

end ArchLint.Java
