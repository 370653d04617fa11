import Mathlib.Data.List.Forall2
import ArchLint.Proofs.Java.Comments
import ArchLint.Proofs.Java.Depth
import ArchLint.Proofs.Java.Parser.Source
import ArchLint.Proofs.Java.Shape
import ArchLint.Proofs.Query.Definitions
import ArchLint.Proofs.Query.Names

/-!
# Names through the lowering

The words of a package, an import or a superclass, in the order of the source, are what the
declaration is asked for in the end: the lowering joins them, the builder cuts the name again into
a chain, and the query joins the chain. Annotations, type arguments and comments are passed over
at every level of a type.
-/

namespace ArchLint.Java

open Syntax (Term Tree)

/-- Marks, comments, annotations and type arguments: what gives a name no words. -/
def Kind.isSilent (k : Kind) : Bool :=
  k = .token || k.isComment || k.isAnnotating || k = .typeArguments

namespace Cst

mutual

/-- The words of a name or a type in the order of the source, without those in its annotations and
type arguments. -/
def words : Cst → List String
  | .node kind _ _ text children =>
    if kind ∈ [.identifier, .typeIdentifier] then [text]
    else if kind.isSilent then []
    else wordsAll children

def wordsAll : List Cst → List String
  | [] => []
  | c :: cs => words c ++ wordsAll cs

end

def classTypes : List Kind :=
  [.typeIdentifier, .scopedTypeIdentifier, .genericType]

/-- The type names a class, perhaps after annotations. -/
def isClassType (c : Cst) : Bool :=
  classTypes.contains c.kind ||
    (c.kind = .annotatedType && c.children.any fun d => classTypes.contains d.kind)

/-- The name of the node consists of its words. -/
structure Spelt (c : Cst) : Prop where
  nonempty : c.words ≠ []
  name : c.typeName = ".".intercalate c.words

variable {c d : Cst}

theorem wordsAll_eq (cs : List Cst) : wordsAll cs = cs.flatMap words := by
  induction cs with
  | nil => rfl
  | cons c cs ih => rw [wordsAll, ih, List.flatMap_cons]

theorem words_eq (c : Cst) :
    c.words = if c.kind ∈ [.identifier, .typeIdentifier] then [c.text]
      else if c.kind.isSilent then [] else c.children.flatMap words := by
  obtain ⟨kind, field, line, text, children⟩ := c
  rw [words, wordsAll_eq]
  rfl

theorem words_leaf (hk : c.kind ∈ [.identifier, .typeIdentifier]) : c.words = [c.text] := by
  rw [words_eq, if_pos hk]

theorem words_silent (hk : c.kind.isSilent = true) : c.words = [] := by
  have hword : c.kind ∉ [.identifier, .typeIdentifier] := by
    revert hk
    cases c.kind <;> decide
  rw [words_eq, if_neg hword, if_pos hk]

theorem words_parts (hsilent : c.kind.isSilent = false)
    (hword : c.kind ∉ [.identifier, .typeIdentifier]) : c.words = c.parts.flatMap words := by
  rw [words_eq, if_neg hword, hsilent]
  refine flatMap_eq_flatMap_filter (fun _ _ _ => rfl) fun d _ hd => words_silent ?_
  rw [Bool.not_eq_false'] at hd
  rw [isComment] at hd
  simp [Kind.isSilent, hd]

theorem words_segments (cs : List Cst) :
    cs.flatMap words = (cs.filter fun d => isSegment d.kind).flatMap words := by
  refine flatMap_eq_flatMap_filter (fun _ _ _ => rfl) fun d _ hd => words_silent ?_
  revert hd
  cases d.kind <;> decide

theorem intercalate_flatMap {cs : List Cst} (hcs : ∀ d ∈ cs, d.Spelt) :
    ".".intercalate (cs.map typeName) = ".".intercalate (cs.flatMap words) := by
  induction cs with
  | nil => rfl
  | cons d cs ih =>
    obtain ⟨hd, hrest⟩ := List.forall_mem_cons.mp hcs
    rw [List.map_cons, List.flatMap_cons, hd.name]
    cases cs with
    | nil => simp
    | cons e es =>
      have hwords : (e :: es).flatMap words ≠ [] := by
        rw [List.flatMap_cons]
        exact List.append_ne_nil_of_left_ne_nil (hrest e List.mem_cons_self).nonempty _
      rw [String.intercalate_cons_of_ne_nil (by simp),
        String.intercalate_append_of_ne_nil hd.nonempty hwords, ih hrest]

theorem kind_of_fits {m : Content} {cs : List Cst} {q : Kind → Bool} (h : m.Fits cs)
    (hq : (m.slots.all fun s => s.kinds.all q) = true) (hd : d ∈ cs) : q d.kind = true := by
  obtain ⟨s, hs, hadmits⟩ := h.exists_slot hd
  exact List.all_eq_true.mp (List.all_eq_true.mp hq s hs) d.kind (Slot.admits_iff.mp hadmits).2.1

open Content in
theorem fits_cons {s : Slot} {m : Content} {cs : List Cst} (h : Fits (.seq (.child s) m) cs) :
    ∃ d ds, cs = d :: ds ∧ d.kind ∈ s.kinds ∧ Fits m ds := by
  obtain ⟨xs, ds, rfl, hfirst, hrest⟩ := fits_seq.mp h
  obtain ⟨d, rfl, hadmits⟩ := fits_child.mp hfirst
  exact ⟨d, ds, rfl, (Slot.admits_iff.mp hadmits).2.1, hrest⟩

theorem fits_single {kinds : List Kind} {cs : List Cst} (h : (Content.node kinds).Fits cs) :
    ∃ d, cs = [d] ∧ d.kind ∈ kinds := by
  obtain ⟨d, rfl, hadmits⟩ := Content.fits_child.mp h
  exact ⟨d, rfl, (Slot.admits_iff.mp hadmits).2.1⟩

theorem spelt_leaf (hk : c.kind ∈ [.identifier, .typeIdentifier]) : c.Spelt := by
  have hname : c.typeName = c.text := by
    rw [typeName_eq]
    rcases List.mem_pair.mp hk with hk | hk <;> rw [hk]
  constructor
  · rw [words_leaf hk]
    exact List.cons_ne_nil _ _
  · rw [words_leaf hk, hname, String.intercalate_singleton]

theorem spelt_scoped (hc : c.conforms = true)
    (hk : c.kind ∈ [.scopedIdentifier, .scopedTypeIdentifier])
    (hsegments : ∀ d ∈ c.parts, isSegment d.kind = true → d.Spelt) : c.Spelt := by
  have hscoped : c.kind.isSilent = false ∧ c.kind ∉ [.identifier, .typeIdentifier] := by
    revert hk
    cases c.kind <;> decide
  have hname : c.typeName = ".".intercalate (segmentNames c.parts) := by
    rw [typeName_eq, ← segmentNames_children]
    rcases List.mem_pair.mp hk with hk | hk <;> rw [hk]
  have hwords : c.words = (c.parts.filter fun d => isSegment d.kind).flatMap words := by
    rw [words_parts hscoped.1 hscoped.2, words_segments]
  have hspelt : ∀ d ∈ c.parts.filter fun d => isSegment d.kind, d.Spelt := by
    intro d hd
    obtain ⟨hmem, hsegment⟩ := List.mem_filter.mp hd
    exact hsegments d hmem hsegment
  obtain ⟨first, hfirst⟩ : ∃ d, d ∈ c.parts.filter fun d => isSegment d.kind := by
    have hfits := fits_parts hc
    rcases List.mem_pair.mp hk with hk | hk <;> rw [hk] at hfits
    all_goals
      obtain ⟨d, ds, hparts, hd, -⟩ := fits_cons hfits
      refine ⟨d, List.mem_filter.mpr ⟨by simp [hparts], ?_⟩⟩
      revert hd
      cases d.kind <;> decide
  constructor
  · rw [hwords]
    exact fun hnil => (hspelt first hfirst).nonempty (List.flatMap_eq_nil_iff.mp hnil first hfirst)
  · rw [hname, hwords, segmentNames_eq]
    exact intercalate_flatMap hspelt

theorem spelt_name {c : Cst} (hc : c.conforms = true) (hk : c.kind ∈ Grammar.names) :
    c.Spelt := by
  rcases List.mem_pair.mp hk with hk | hk
  · exact spelt_leaf (by simp [hk])
  · refine spelt_scoped hc (by simp [hk]) fun d hd hsegment => ?_
    have hslots : ((Grammar.content .scopedIdentifier).slots.all fun s => s.kinds.all fun k =>
        !isSegment k || Grammar.names.contains k) = true := by decide
    have hcase := kind_of_fits (fits_parts hc) (by rw [hk]; exact hslots) hd
    rw [hsegment] at hcase
    have hmem := (List.mem_filter.mp hd).1
    exact spelt_name (conforms_child hc hmem) (List.contains_iff_mem.mp hcase)
termination_by c.weight
decreasing_by exact weight_lt_of_mem_children hmem

/-- Where no comment stands in front of it, the type before the type arguments is found. -/
theorem typeName_generic (hc : c.conforms = true) (hk : c.kind = .genericType)
    (hopens : c.opensWithType = true) :
    ∃ base ∈ c.children, base.kind ∈ classTypes ∧ c.typeName = base.typeName ∧
      c.words = base.words := by
  have hfits := fits_parts hc
  rw [hk] at hfits
  obtain ⟨base, rest, hparts, hbase, hrest⟩ := fits_cons hfits
  obtain ⟨arguments, rfl, harguments⟩ := fits_single hrest
  have hstops : ∀ d : Cst, d.kind ∈ Grammar.plainTypes →
      (d.isNamed && d.kind ≠ .typeArguments) = true := by
    intro d
    unfold isNamed
    cases d.kind <;> decide
  have hplain : base.kind ∈ Grammar.plainTypes := by
    revert hbase
    cases base.kind <;> decide
  have hfind := (find?_children_of_opensWithType hopens hstops fun d => by simp).1
  rw [hparts, List.find?_cons, hstops base hplain] at hfind
  refine ⟨base, List.mem_of_find?_eq_some hfind, ?_, ?_, ?_⟩
  · revert hbase
    cases base.kind <;> decide
  · rw [typeName_eq, hk]
    simp only [firstTypeName_eq, hfind]
    rfl
  · have hsilent : arguments.kind.isSilent = true := by
      rw [List.mem_singleton.mp harguments]
      rfl
    rw [words_parts (by rw [hk]; rfl) (by rw [hk]; decide), hparts]
    simp [words_silent hsilent]

theorem spelt_plainType {c : Cst} (hc : c.conforms = true) (hclear : c.clearsGenerics = true)
    (hk : c.kind ∈ classTypes) : c.Spelt := by
  have hinner : ∀ d ∈ c.children, d.kind ∈ classTypes → d.Spelt := fun d hd =>
    spelt_plainType (conforms_child hc hd) ((everywhere_iff.mp hclear).2 d hd)
  simp only [classTypes, List.mem_cons, List.not_mem_nil, or_false] at hk
  rcases hk with hk | hk | hk
  · exact spelt_leaf (by simp [hk])
  · refine spelt_scoped hc (by simp [hk]) fun d hd hsegment => ?_
    have hslots : ((Grammar.content .scopedTypeIdentifier).slots.all fun s => s.kinds.all fun k =>
        !isSegment k || classTypes.contains k) = true := by decide
    have hcase := kind_of_fits (fits_parts hc) (by rw [hk]; exact hslots) hd
    rw [hsegment] at hcase
    exact hinner d (List.mem_filter.mp hd).1 (List.contains_iff_mem.mp hcase)
  · have hopens : c.opensWithType = true := by
      have hhere := (everywhere_iff.mp hclear).1
      simpa [hk] using hhere
    obtain ⟨base, hmem, hbase, hname, hwords⟩ := typeName_generic hc hk hopens
    have hspelt := hinner base hmem hbase
    exact ⟨hwords ▸ hspelt.nonempty, by rw [hname, hwords, hspelt.name]⟩
termination_by c.weight
decreasing_by exact weight_lt_of_mem_children hd

open Content in
theorem typeName_annotated (hc : c.conforms = true) (hk : c.kind = .annotatedType) :
    ∃ type ∈ c.children, c.typeName = type.typeName ∧ c.words = type.words ∧
      ∀ d ∈ c.children, d.kind ∈ classTypes → d = type := by
  have hfits := fits_parts hc
  rw [hk] at hfits
  obtain ⟨annotations, rest, hparts, hannotations, htype⟩ := fits_seq.mp hfits
  obtain ⟨type, rfl, hplain⟩ := fits_single htype
  have hannotating : ∀ d ∈ annotations, d.isAnnotating = true := fun d hd =>
    kind_of_fits (q := Kind.isAnnotating) hannotations (by decide) hd
  have hsegments : (c.children.filter fun d => isSegment d.kind) = [type] := by
    have hnone : (annotations.filter fun d => isSegment d.kind) = [] := by
      rw [List.filter_eq_nil_iff]
      intro d hd
      have hannotation := hannotating d hd
      rw [isAnnotating] at hannotation
      simp [isSegment, hannotation]
    have hsegment : isSegment type.kind = true := by
      revert hplain
      cases type.kind <;> decide
    rw [← (c.overlooks_kind (q := isSegment) rfl rfl).filter_parts, hparts, List.filter_append,
      hnone, List.filter_cons, hsegment]
    rfl
  have hmem : type ∈ c.children.filter fun d => isSegment d.kind := by
    rw [hsegments]
    exact List.mem_singleton_self type
  refine ⟨type, (List.mem_filter.mp hmem).1, ?_, ?_, fun d hd hclass => ?_⟩
  · rw [typeName_eq, hk]
    simp only [lastTypeName_eq, hsegments]
    rfl
  · rw [words_parts (by rw [hk]; rfl) (by rw [hk]; decide), words_segments,
      (c.overlooks_kind (q := isSegment) rfl rfl).filter_parts, hsegments]
    exact List.append_nil _
  · have hsegment : isSegment d.kind = true := by
      revert hclass
      cases d.kind <;> decide
    have hfound : d ∈ c.children.filter fun d => isSegment d.kind :=
      List.mem_filter.mpr ⟨hd, hsegment⟩
    rw [hsegments] at hfound
    exact List.mem_singleton.mp hfound

theorem spelt_classType (hc : c.conforms = true) (hclear : c.clearsGenerics = true)
    (hk : c.isClassType = true) : c.Spelt := by
  rw [isClassType, Bool.or_eq_true, Bool.and_eq_true, List.contains_iff_mem,
    decide_eq_true_iff, List.any_eq_true] at hk
  rcases hk with hk | ⟨hk, d, hd, hclass⟩
  · exact spelt_plainType hc hclear hk
  · obtain ⟨type, -, hname, hwords, honly⟩ := typeName_annotated hc hk
    rw [List.contains_iff_mem] at hclass
    have hspelt := spelt_plainType (conforms_child hc hd) ((everywhere_iff.mp hclear).2 d hd) hclass
    rw [honly d hd hclass] at hspelt
    exact ⟨hwords ▸ hspelt.nonempty, by rw [hname, hwords, hspelt.name]⟩

theorem words_asterisk (hc : c.conforms = true) (hk : c.kind = .asterisk) : c.words = [] := by
  have hfits := fits_parts hc
  rw [hk] at hfits
  rw [words_parts (by rw [hk]; rfl) (by rw [hk]; decide), Content.fits_empty.mp hfits]
  rfl

/-- The node stands beside a name without being a part of it. -/
def isBeside (k : Kind) : Bool :=
  k.isSilent || k = .asterisk

theorem words_beside (hc : c.conforms = true) (hk : isBeside c.kind = true) : c.words = [] := by
  rw [isBeside, Bool.or_eq_true, decide_eq_true_iff] at hk
  rcases hk with hk | hk
  · exact words_silent hk
  · exact words_asterisk hc hk

/-- A declaration has one name, and no words but those of the name. -/
theorem name_of_parts {before after : List Cst} {name : Cst} (hc : c.conforms = true)
    (hk : c.kind ∈ [.packageDeclaration, .importDeclaration])
    (hparts : c.parts = before ++ name :: after) (hname : name.kind ∈ Grammar.names)
    (hbefore : ∀ d ∈ before, isBeside d.kind = true)
    (hafter : ∀ d ∈ after, isBeside d.kind = true) :
    c.children.filter Plan.isName = [name] ∧ c.words = name.words := by
  have hconforms : ∀ d ∈ c.parts, d.conforms = true := fun d hd =>
    conforms_child hc (List.mem_filter.mp hd).1
  rw [hparts, List.forall_mem_append, List.forall_mem_cons] at hconforms
  obtain ⟨hcbefore, -, hcafter⟩ := hconforms
  constructor
  · have hnone : ∀ ds : List Cst, (∀ d ∈ ds, isBeside d.kind = true) →
        ds.filter Plan.isName = [] := by
      intro ds hds
      rw [List.filter_eq_nil_iff]
      intro d hd
      have hbeside := hds d hd
      revert hbeside
      unfold Plan.isName
      cases d.kind <;> decide
    have hisName : Plan.isName name = true := by
      revert hname
      unfold Plan.isName
      cases name.kind <;> decide
    have hall : c.parts.filter Plan.isName = c.children.filter Plan.isName :=
      (c.overlooks_kind (q := Plan.namesTop) rfl rfl).filter_parts
    rw [← hall, hparts, List.filter_append, List.filter_cons_of_pos hisName, hnone before hbefore,
      hnone after hafter]
    rfl
  · have hsilent : c.kind.isSilent = false ∧ c.kind ∉ [.identifier, .typeIdentifier] := by
      revert hk
      cases c.kind <;> decide
    have hnone : ∀ ds : List Cst, (∀ d ∈ ds, d.conforms = true) →
        (∀ d ∈ ds, isBeside d.kind = true) → ds.flatMap words = [] := by
      intro ds hcs hds
      rw [List.flatMap_eq_nil_iff]
      exact fun d hd => words_beside (hcs d hd) (hds d hd)
    rw [words_parts hsilent.1 hsilent.2, hparts, List.flatMap_append, List.flatMap_cons,
      hnone before hcbefore hbefore, hnone after hcafter hafter, List.nil_append, List.append_nil]

open Content in
theorem exists_name (hc : c.conforms = true)
    (hk : c.kind ∈ [.packageDeclaration, .importDeclaration]) :
    ∃ name, c.children.filter Plan.isName = [name] ∧ c.words = name.words ∧ name.Spelt := by
  obtain ⟨before, name, after, hparts, hname, hbefore, hafter⟩ : ∃ before name after,
      c.parts = before ++ name :: after ∧ name.kind ∈ Grammar.names ∧
        (∀ d ∈ before, isBeside d.kind = true) ∧ ∀ d ∈ after, isBeside d.kind = true := by
    have hfits := fits_parts hc
    rcases List.mem_pair.mp hk with hk | hk
    · rw [hk] at hfits
      obtain ⟨xs, rest, hparts, hannotations, hrest⟩ := fits_seq.mp hfits
      obtain ⟨mark, ds, rfl, hmark, hds⟩ := fits_cons hrest
      obtain ⟨name, after, rfl, hname, hafter⟩ := fits_cons hds
      refine ⟨xs ++ [mark], name, after, by simp [hparts], hname, ?_, ?_⟩
      · rw [List.forall_mem_append, List.forall_mem_singleton, List.mem_singleton.mp hmark]
        exact ⟨fun d => kind_of_fits hannotations (by decide), rfl⟩
      · exact fun d => kind_of_fits hafter (by decide)
    · rw [hk] at hfits
      obtain ⟨mark, rest, hparts, hmark, hrest⟩ := fits_cons hfits
      obtain ⟨xs, ds, rfl, hstatic, hds⟩ := fits_seq.mp hrest
      obtain ⟨name, after, rfl, hname, hafter⟩ := fits_cons hds
      refine ⟨mark :: xs, name, after, by simp [hparts], hname, ?_, ?_⟩
      · rw [List.forall_mem_cons, List.mem_singleton.mp hmark]
        exact ⟨rfl, fun d => kind_of_fits hstatic (by decide)⟩
      · exact fun d => kind_of_fits hafter (by decide)
  obtain ⟨hfilter, hwords⟩ := name_of_parts hc hk hparts hname hbefore hafter
  have hmem : name ∈ c.parts := by
    rw [hparts]
    exact List.mem_append_right _ List.mem_cons_self
  exact ⟨name, hfilter, hwords,
    spelt_name (conforms_child hc (List.mem_filter.mp hmem).1) hname⟩

def dotted (c : Cst) : String :=
  ".".intercalate c.words

def isStatic (c : Cst) : Bool :=
  c.children.any fun d => d.kind = .token && d.text == "static"

def hasAsterisk (c : Cst) : Bool :=
  c.children.any (·.kind = .asterisk)

theorem package_eq (hc : c.conforms = true) (hk : c.kind = .packageDeclaration) :
    Plan.ofCst c = [.node .packageDef none c.line [.qualified c.dotted c.line]] := by
  obtain ⟨name, hfilter, hwords, hspelt⟩ := exists_name hc (by simp [hk])
  have hfind : c.named.find? Plan.isName = some name := by
    have hnamed : c.named.filter Plan.isName = c.children.filter Plan.isName := by
      rw [named, List.filter_filter]
      refine List.filter_congr fun d _ => ?_
      unfold Plan.isName isNamed
      cases d.kind <;> decide
    rw [← List.head?_filter, hnamed, hfilter]
    rfl
  have hofCst : Plan.ofCst c = Plan.package c := by
    rw [Plan.ofCst, hk]
    rfl
  rw [hofCst, Plan.package, hfind, dotted, hwords, ← hspelt.name]

theorem import_eq (hc : c.conforms = true) (hk : c.kind = .importDeclaration) :
    Plan.ofCst c = [.node (if c.isStatic then .staticImport else .importDef) none c.line
      [.qualified (c.dotted ++ if c.hasAsterisk then ".*" else "") c.line]] := by
  obtain ⟨name, hfilter, hwords, hspelt⟩ := exists_name hc (by simp [hk])
  have hofCst : Plan.ofCst c = Plan.import_ c := by
    rw [Plan.ofCst, hk]
    rfl
  rw [hofCst, Plan.import_, hfilter, dotted, hwords, ← hspelt.name]
  rfl

theorem dotted_eq_typeName (hc : c.conforms = true)
    (hk : c.kind ∈ [.packageDeclaration, .importDeclaration]) :
    ∃ name ∈ c.children, Plan.isName name = true ∧ c.dotted = name.typeName := by
  obtain ⟨name, hfilter, hwords, hspelt⟩ := exists_name hc hk
  have hmem : name ∈ c.children.filter Plan.isName := by
    rw [hfilter]
    exact List.mem_singleton_self name
  obtain ⟨hchild, hisName⟩ := List.mem_filter.mp hmem
  exact ⟨name, hchild, hisName, by rw [dotted, hwords, hspelt.name]⟩

theorem named_of_superclass {s : Cst} (hc : c.conforms = true) (hk : c.kind = .classDeclaration)
    (hs : s ∈ c.children) (hkind : s.kind = .superclass) :
    ∃ before after, c.named = before ++ s :: after ∧
      ∀ d ∈ before, d.kind ∉ [.superclass, .extendsInterfaces] := by
  have hslots : ∀ slot ∈ (Grammar.content .classDeclaration).slots,
      Kind.extendsInterfaces ∉ slot.kinds ∧
        (Kind.superclass ∈ slot.kinds → slot.field = some .superclass) := by decide
  have hrole : ∀ d ∈ c.children, d.kind ∈ [.superclass, .extendsInterfaces] →
      d.field = some .superclass := by
    intro d hd hdk
    rcases exists_slot_of_mem (fits_parts hc) hd with hcomment | ⟨slot, hslot, hfield, hmem⟩
    · rw [isComment] at hcomment
      rcases List.mem_pair.mp hdk with hdk | hdk <;> rw [hdk] at hcomment <;> cases hcomment
    · rw [hk] at hslot
      obtain ⟨hinterfaces, hsuper⟩ := hslots slot hslot
      rcases List.mem_pair.mp hdk with hdk | hdk <;> rw [hdk] at hmem
      · rw [hfield, hsuper hmem]
      · exact absurd hmem hinterfaces
  obtain ⟨before, after, hchildren⟩ := List.append_of_mem hs
  have honce : (c.getAll .superclass).length ≤ 1 := by
    rw [getAll_eq hc (by rw [hk]; decide)]
    cases c.get? .superclass <;> simp
  have hbefore : ∀ d ∈ before, d.kind ∉ [.superclass, .extendsInterfaces] := by
    intro d hd hdk
    have hfield := hrole d (by simp [hchildren, hd]) hdk
    have hsfield := hrole s hs (by simp [hkind])
    have hfound : d ∈ before.filter fun e => e.field = some .superclass :=
      List.mem_filter.mpr ⟨hd, by simp [hfield]⟩
    have hpos := List.length_pos_of_mem hfound
    rw [getAll, hchildren, List.filter_append, List.filter_cons_of_pos (by simp [hsfield]),
      List.length_append, List.length_cons] at honce
    omega
  refine ⟨before.filter isNamed, after.filter isNamed, ?_, fun d hd => ?_⟩
  · rw [named, hchildren, List.filter_append,
      List.filter_cons_of_pos (by simp [isNamed, hkind])]
  · exact hbefore d (List.mem_filter.mp hd).1

theorem isSegment_of_isClassType (h : c.isClassType = true) : isSegment c.kind = true := by
  rw [isClassType, Bool.or_eq_true, Bool.and_eq_true, decide_eq_true_iff] at h
  rcases h with h | ⟨h, -⟩
  · revert h
    cases c.kind <;> decide
  · rw [h]
    rfl

theorem clause_eq {s type : Cst} (hc : s.conforms = true) (hk : s.kind = .superclass)
    (htype : type ∈ s.children) (hclass : type.isClassType = true) :
    Plan.clause .extendsClause s =
      .node .extendsClause none s.line [.qualified type.typeName type.line] := by
  have hfits := fits_parts hc
  rw [hk] at hfits
  obtain ⟨mark, rest, hparts, hmark, hrest⟩ := fits_cons hfits
  obtain ⟨found, rfl, -⟩ := fits_single hrest
  have hsegment := isSegment_of_isClassType hclass
  have honly : (s.children.filter fun d => isSegment d.kind) = [type] := by
    have hmem : type ∈ s.children.filter fun d => isSegment d.kind :=
      List.mem_filter.mpr ⟨htype, hsegment⟩
    have hmarkNot : isSegment mark.kind = false := by
      rw [List.mem_singleton.mp hmark]
      rfl
    rw [← (s.overlooks_kind (q := isSegment) rfl rfl).filter_parts, hparts, List.filter_cons,
      hmarkNot, if_neg Bool.false_ne_true] at hmem ⊢
    rw [List.mem_singleton.mp (List.mem_filter.mp hmem).1] at hsegment ⊢
    rw [List.filter_cons, if_pos hsegment, List.filter_nil]
  have hkinds : ∀ d ∈ s.children, d.kind ≠ .typeList ∧ d.isAnnotating = false := by
    intro d hd
    have hslots : ((Grammar.content .superclass).slots.all fun slot => slot.kinds.all fun k =>
        k ≠ .typeList && !k.isAnnotating) = true := by decide
    rcases isComment_or_of_slots hc (by rw [hk]; exact hslots) hd with hcomment | hcase
    · rw [isComment] at hcomment
      rw [isAnnotating]
      revert hcomment
      cases d.kind <;> decide
    · simpa [isAnnotating] using hcase
  have htypes : ((s.named.flatMap fun d => if d.kind = .typeList then d.named else [d]).filter
      fun d => !d.isComment) = [type] := by
    have hflat : (s.named.flatMap fun d => if d.kind = .typeList then d.named else [d]) =
        s.named.flatMap fun d => [d] :=
      List.flatMap_congr fun d hd => if_neg (hkinds d (List.mem_filter.mp hd).1).1
    rw [hflat, List.flatMap_singleton', named, List.filter_filter, ← honly]
    refine List.filter_congr fun d hd => ?_
    have hplain := (hkinds d hd).2
    rw [isAnnotating] at hplain
    simp [isSegment, isNamed, isComment, hplain, Bool.and_comm]
  rw [Plan.clause, htypes]
  rfl

theorem class_eq {s : Cst} (hc : c.conforms = true) (hk : c.kind = .classDeclaration)
    (hs : s ∈ c.children) (hkind : s.kind = .superclass) :
    ∃ before after, Plan.ofCst c = [.node .classDef none c.line
        (before ++ Plan.clause .extendsClause s :: after)] ∧
      ∀ p ∈ before, ∃ k, p.kind? = some k ∧ k ≠ .extendsClause := by
  obtain ⟨early, late, hnamed, hearly⟩ := named_of_superclass hc hk hs hkind
  have hclause : Plan.clause? s = some (Plan.clause .extendsClause s) := by
    rw [Plan.clause?, hkind]
  have hofCst : Plan.ofCst c = [Plan.typeDeclaration .classDef c] := by
    rw [Plan.ofCst, hk]
    rfl
  rw [hofCst, Plan.typeDeclaration, hk, hnamed, List.filterMap_append,
    List.filterMap_cons_some hclause]
  refine ⟨[Plan.modifiers c, Plan.nameOf (c.get? .name) c.line] ++ early.filterMap Plan.clause?,
    late.filterMap Plan.clause? ++ _, by simp; rfl, ?_⟩
  rw [List.forall_mem_append, List.forall_mem_cons, List.forall_mem_singleton]
  refine ⟨⟨⟨_, Plan.kind?_modifiers c, by decide⟩, ?_⟩, fun p hp => ?_⟩
  · obtain ⟨line, hname⟩ := Plan.nameOf_eq (c.get? .name) c.line
    rw [hname]
    exact ⟨.ident, rfl, by decide⟩
  · obtain ⟨d, hd, hp⟩ := List.mem_filterMap.mp hp
    have hdk := hearly d hd
    simp only [List.mem_cons, List.not_mem_nil, or_false, not_or] at hdk
    rw [Plan.clause?] at hp
    split at hp
    · next hd => exact absurd hd hdk.1
    · next hd => exact absurd hd hdk.2
    · cases hp
      exact ⟨.implementsClause, rfl, by decide⟩
    · cases hp

end Cst

section Related

variable {α β γ : Type}

theorem sublistForall₂_append {S : α → β → Prop} {as bs : List α} {xs ys : List β}
    (h : List.SublistForall₂ S as xs) (h' : List.SublistForall₂ S bs ys) :
    List.SublistForall₂ S (as ++ bs) (xs ++ ys) := by
  rw [List.sublistForall₂_iff] at h h' ⊢
  obtain ⟨us, hus, hxs⟩ := h
  obtain ⟨vs, hvs, hys⟩ := h'
  exact ⟨us ++ vs, List.rel_append hus hvs, hxs.append hys⟩

theorem sublistForall₂_of_forall₂ {S : α → β → Prop} {S' : γ → β → Prop} {Q : α → γ → Prop}
    {as : List α} {bs : List β} {cs : List γ} (h : List.SublistForall₂ S as bs)
    (h' : List.Forall₂ S' cs bs) (hQ : ∀ a b c, S a b → S' c b → Q a c) :
    List.SublistForall₂ Q as cs := by
  induction h generalizing cs with
  | nil => exact .nil
  | cons hab _ ih =>
    cases h' with
    | cons hcb hrest => exact .cons (hQ _ _ _ hab hcb) (ih hrest)
  | cons_right _ ih =>
    cases h' with
    | cons _ hrest => exact .cons_right (ih hrest)

theorem exists_of_sublistForall₂ {S : α → β → Prop} {as : List α} {bs : List β}
    (h : List.SublistForall₂ S as bs) : ∀ a ∈ as, ∃ b ∈ bs, S a b := by
  induction h with
  | nil => exact List.forall_mem_nil _
  | cons hab _ ih =>
    rw [List.forall_mem_cons]
    refine ⟨⟨_, List.mem_cons_self, hab⟩, fun a ha => ?_⟩
    obtain ⟨b, hb, hS⟩ := ih a ha
    exact ⟨b, List.mem_cons_of_mem _ hb, hS⟩
  | cons_right _ ih =>
    intro a ha
    obtain ⟨b, hb, hS⟩ := ih a ha
    exact ⟨b, List.mem_cons_of_mem _ hb, hS⟩

end Related

namespace Plan

variable {R : Cst → List Term → Prop} {ps qs : List Plan} {ts : List Term}

theorem filledAll_append : FilledAll R (ps ++ qs) ts ↔
    ∃ us vs, FilledAll R ps us ∧ FilledAll R qs vs ∧ ts = us ++ vs := by
  induction ps generalizing ts with
  | nil => simp [FilledAll]
  | cons p ps ih =>
    simp only [List.cons_append, FilledAll, ih]
    constructor
    · rintro ⟨us, -, hus, ⟨vs, ws, hvs, hws, rfl⟩, rfl⟩
      exact ⟨us ++ vs, ws, ⟨us, vs, hus, hvs, rfl⟩, hws, by simp⟩
    · rintro ⟨-, ws, ⟨us, vs, hus, hvs, rfl⟩, hws, rfl⟩
      exact ⟨us, vs ++ ws, hus, ⟨vs, ws, hvs, hws, rfl⟩, by simp⟩

theorem FilledAll.forall_kind (h : FilledAll R ps ts) {P : Syntax.Kind → Prop}
    (hps : ∀ p ∈ ps, ∃ k, p.kind? = some k ∧ P k) : ∀ T ∈ ts, P T.kind := by
  intro T hT
  obtain ⟨p, hp, us, hus, hT⟩ := h.exists_of_mem hT
  obtain ⟨k, hk, hP⟩ := hps p hp
  obtain ⟨U, rfl, hU⟩ := hus.of_kind? hk
  rw [List.mem_singleton.mp hT, hU]
  exact hP

mutual

/-- What relates the nodes below the holes of a plan to the terms in the holes, in order, relates
them to the terms of the filled plan. -/
theorem Filled.sublistForall₂ {S : Cst → Term → Prop} {f : Cst → List Cst} :
    ∀ {p : Plan} {ts : List Term},
      (∀ d ∈ p.pending, ∀ us, R d us → List.SublistForall₂ S (f d) (Term.subtermsAll us)) →
        Filled R p ts → List.SublistForall₂ S (p.pending.flatMap f) (Term.subtermsAll ts)
  | .node kind text line parts, ts, h, hfilled => by
    obtain ⟨us, hus, rfl⟩ := hfilled
    rw [pending, Term.subtermsAll, Term.subtermsAll, List.append_nil, Term.subterms]
    exact .cons_right (FilledAll.sublistForall₂ h hus)
  | .done T, ts, _, _ => .nil
  | .hole c, ts, h, hfilled => by
    rw [pending, List.flatMap_singleton]
    exact h c (List.mem_singleton_self c) ts hfilled

theorem FilledAll.sublistForall₂ {S : Cst → Term → Prop} {f : Cst → List Cst} :
    ∀ {ps : List Plan} {ts : List Term},
      (∀ d ∈ pendingAll ps, ∀ us, R d us → List.SublistForall₂ S (f d) (Term.subtermsAll us)) →
        FilledAll R ps ts →
          List.SublistForall₂ S ((pendingAll ps).flatMap f) (Term.subtermsAll ts)
  | [], ts, _, _ => .nil
  | p :: ps, ts, h, hfilled => by
    obtain ⟨us, vs, hus, hvs, rfl⟩ := hfilled
    rw [pendingAll, List.forall_mem_append] at h
    rw [pendingAll, List.flatMap_append, Term.subtermsAll_append]
    exact sublistForall₂_append (Filled.sublistForall₂ h.1 hus) (FilledAll.sublistForall₂ h.2 hvs)

end

end Plan

def Kind.isNaming (k : Kind) : Bool :=
  k matches .packageDeclaration | .importDeclaration | .classDeclaration

namespace Cst

/-- The node `i` of the tree is what the declaration was lowered to. It stands at the line of the
declaration, and its kind and its name are those that the words of the declaration tell. -/
structure NamedAt (c : Cst) (t : Tree) (i : Nat) : Prop where
  lowered : ∃ depth T parent, c.lower depth = .ok [T] ∧ t.Holds parent i T
  line : t.line i = c.line
  package : c.kind = .packageDeclaration →
    t.kind i = .packageDef ∧ t.qualifiedName i = .ok c.dotted
  imported : c.kind = .importDeclaration →
    t.kind i = (if c.isStatic then .staticImport else .importDef) ∧
      t.qualifiedName i = .ok (c.dotted ++ if c.hasAsterisk then ".*" else "")
  extending : c.kind = .classDeclaration →
    t.kind i = .classDef ∧ ∀ s ∈ c.children, s.kind = .superclass →
      ∀ type ∈ s.children, type.isClassType = true → type.clearsGenerics = true →
        t.superClassName i = .ok (some type.dotted)

variable {c d : Cst} {T : Term} {depth : Nat}

/-- The plan of a package, an import or a class is one node. -/
theorem exists_plan (hc : c.conforms = true) (hk : c.kind.isNaming = true) :
    ∃ kind parts, Plan.ofCst c = [.node kind none c.line parts] ∧
      (c.kind = .classDeclaration → kind = .classDef) := by
  cases hkind : c.kind with
  | packageDeclaration => exact ⟨_, _, package_eq hc hkind, nofun⟩
  | importDeclaration => exact ⟨_, _, import_eq hc hkind, nofun⟩
  | classDeclaration =>
    have hofCst : Plan.ofCst c = [Plan.typeDeclaration .classDef c] := by
      rw [Plan.ofCst, hkind]
      rfl
    rw [Plan.typeDeclaration, hkind] at hofCst
    exact ⟨_, _, hofCst, fun _ => rfl⟩
  | _ =>
    rw [hkind] at hk
    cases hk

theorem exists_filledAll {ts : List Term} (h : c.lower depth = .ok ts) :
    ∃ n, Plan.FilledAll (fun d us => d.lower n = .ok us) (Plan.ofCst c) ts := by
  cases depth with
  | zero => cases h
  | succ n => exact ⟨n, Plan.filledAll_of_fillAll h⟩

theorem lower_naming {k : Syntax.Kind} {name : String} {line : Nat}
    (hplan : Plan.ofCst c = [.node k none line [.qualified name line]])
    (h : c.lower depth = .ok [T]) : T = .naming k none line name line := by
  obtain ⟨n, hfilled⟩ := exists_filledAll h
  rw [hplan, Plan.filledAll_singleton] at hfilled
  obtain ⟨us, hus, hT⟩ := hfilled
  rw [Plan.filledAll_singleton] at hus
  rw [List.singleton_inj.mp hT, hus]
  rfl

theorem dotted_ne_star (hc : c.conforms = true)
    (hk : c.kind ∈ [.packageDeclaration, .importDeclaration]) : c.dotted ≠ "*" := by
  obtain ⟨name, hmem, hisName, hdotted⟩ := dotted_eq_typeName hc hk
  rw [hdotted]
  exact typeName_ne_star (conforms_child hc hmem) hisName

theorem lower_class {s type : Cst} (hc : c.conforms = true) (hk : c.kind = .classDeclaration)
    (hs : s ∈ c.children) (hskind : s.kind = .superclass) (htype : type ∈ s.children)
    (hclass : type.isClassType = true) (h : c.lower depth = .ok [T]) :
    ∃ before after, T = .node .classDef none c.line
        (before ++ .naming .extendsClause none s.line type.typeName type.line :: after) ∧
      ∀ U ∈ before, U.kind ≠ .extendsClause := by
  obtain ⟨n, hfilled⟩ := exists_filledAll h
  obtain ⟨ps, qs, hplan, hps⟩ := class_eq hc hk hs hskind
  rw [hplan, clause_eq (conforms_child hc hs) hskind htype hclass,
    Plan.filledAll_singleton] at hfilled
  obtain ⟨us, hus, hT⟩ := hfilled
  obtain ⟨before, rest, hbefore, ⟨clause, after, hclause, -, rfl⟩, rfl⟩ :=
    Plan.filledAll_append.mp hus
  obtain ⟨names, hnames, rfl⟩ := hclause
  rw [Plan.filledAll_singleton] at hnames
  refine ⟨before, after, ?_, hbefore.forall_kind hps⟩
  rw [List.singleton_inj.mp hT, hnames]
  rfl

/-- What a package, an import or a class is lowered to has its name wherever it stands. -/
theorem namedAt_of_holds {t : Tree} {parent : Option Nat} {i : Nat} (hc : c.conforms = true)
    (hk : c.kind.isNaming = true) (h : c.lower depth = .ok [T]) (hT : t.Holds parent i T) :
    c.NamedAt t i := by
  have hlowered : ∃ depth T parent, c.lower depth = .ok [T] ∧ t.Holds parent i T :=
    ⟨depth, T, parent, h, hT⟩
  cases hkind : c.kind with
  | packageDeclaration =>
    have hnaming := lower_naming (package_eq hc hkind) h
    rw [hnaming] at hT
    have hname := hT.qualifiedName_naming rfl (dotted_ne_star hc (by simp [hkind]))
    exact ⟨hlowered, hT.line, fun _ => ⟨hT.kind, hname⟩, by simp [hkind], by simp [hkind]⟩
  | importDeclaration =>
    have hnaming := lower_naming (import_eq hc hkind) h
    rw [hnaming] at hT
    have hstar : (c.dotted ++ if c.hasAsterisk then ".*" else "") ≠ "*" := by
      split
      · exact ne_star_of_mem (by simp)
      · simpa using dotted_ne_star hc (by simp [hkind])
    have hholds : (if c.isStatic then Syntax.Kind.staticImport else .importDef).holdsName =
        true := by
      split <;> rfl
    have hname := hT.qualifiedName_naming hholds hstar
    exact ⟨hlowered, hT.line, by simp [hkind], fun _ => ⟨hT.kind, hname⟩, by simp [hkind]⟩
  | classDeclaration =>
    obtain ⟨n, hfilled⟩ := exists_filledAll h
    obtain ⟨kind, parts, hplan, hclassDef⟩ := exists_plan hc hk
    rw [hplan, Plan.filledAll_singleton] at hfilled
    obtain ⟨us, -, hnode⟩ := hfilled
    obtain rfl := List.singleton_inj.mp hnode
    refine ⟨hlowered, hT.line, by simp [hkind], by simp [hkind], fun _ => ⟨?_, ?_⟩⟩
    · exact hT.kind.trans (hclassDef hkind)
    intro s hs hskind type htype hclass hclear
    obtain ⟨before, after, hparts, hbefore⟩ := lower_class hc hkind hs hskind htype hclass h
    rw [hparts] at hT
    have hspelt := spelt_classType (conforms_child (conforms_child hc hs) htype) hclear hclass
    rw [hT.superClassName_naming hbefore, hspelt.name]
    rfl
  | _ =>
    rw [hkind] at hk
    cases hk

theorem Inside.conforms (h : c.Inside d) (hc : c.conforms = true) : d.conforms = true := by
  induction h with
  | child hd => exact conforms_child hc hd
  | deeper _ hd ih => exact conforms_child ih hd

def among (asked : Kind → Bool) (visits : List (Nat × Cst)) : List Cst :=
  (visits.map Prod.snd).filter fun c => asked c.kind

theorem among_visits (asked : Kind → Bool) (level : Nat) (c : Cst) :
    among asked (c.visits level) = (if asked c.kind then [c] else []) ++
      (Plan.pendingAll (Plan.ofCst c)).flatMap fun d => among asked (d.visits (level + 1)) := by
  rw [among, visits_eq, List.map_cons, List.filter_cons, List.map_flatMap, List.filter_flatMap]
  split
  · rfl
  · rfl

section Lowered

variable {asked : Kind → Bool}

/-- If the nodes of the kinds asked for are lowered to one term each, then the terms are found in
the lowered whole, in the same order. -/
theorem sublistForall₂_of_lower {S : Cst → Term → Prop}
    (hplan : ∀ d : Cst, d.conforms = true → asked d.kind = true →
      ∃ kind text parts, Plan.ofCst d = [.node kind text d.line parts])
    (hS : ∀ (d : Cst) (depth : Nat) (U : Term), d.conforms = true → asked d.kind = true →
      d.lower depth = .ok [U] → S d U)
    {ts : List Term} (level : Nat) (hc : c.conforms = true) (h : c.lower depth = .ok ts) :
    List.SublistForall₂ S (among asked (c.visits level)) (Term.subtermsAll ts) := by
  induction depth generalizing c ts level with
  | zero => cases h
  | succ depth ih =>
    have hfilled := Plan.filledAll_of_fillAll h
    have hinner : ∀ d ∈ Plan.pendingAll (Plan.ofCst c), ∀ us, d.lower depth = .ok us →
        List.SublistForall₂ S (among asked (d.visits (level + 1))) (Term.subtermsAll us) :=
      fun d hd us hus => ih (level + 1) ((Plan.inside_of_pending hd).conforms hc) hus
    rw [among_visits]
    split
    · next hk =>
      obtain ⟨kind, text, parts, hofCst⟩ := hplan c hc hk
      rw [hofCst] at hinner hfilled ⊢
      rw [Plan.filledAll_singleton] at hfilled
      obtain ⟨us, hus, rfl⟩ := hfilled
      rw [Plan.pendingAll_singleton, Plan.pending] at hinner ⊢
      rw [Term.subtermsAll, Term.subtermsAll, List.append_nil, Term.subterms]
      exact .cons (hS c _ _ hc hk h) (Plan.FilledAll.sublistForall₂ hinner hus)
    · exact Plan.FilledAll.sublistForall₂ hinner hfilled

theorem sublistForall₂_of_visits {P : Cst → Nat → Prop} {program : Cst}
    (hc : program.conforms = true) (h : program.toTerm = .ok T)
    (hplan : ∀ d : Cst, d.conforms = true → asked d.kind = true →
      ∃ kind text parts, Plan.ofCst d = [.node kind text d.line parts])
    (hP : ∀ (d : Cst) (depth : Nat) (U : Term) (parent : Option Nat) (i : Nat),
      d.conforms = true → asked d.kind = true → d.lower depth = .ok [U] →
        T.tree.Holds parent i U → P d i) :
    List.SublistForall₂ P (among asked program.allVisits)
      (Tree.root :: T.tree.descendants Tree.root) := by
  have hfinished : T.tree.Finished :=
    ⟨T.steps, Tree.ofSteps_of_wellShaped T.word_steps (sound_of_toTerm hc h).1.shaped⟩
  have hplaced : List.SublistForall₂
      (fun d U => ∀ parent i, T.tree.Holds parent i U → P d i)
      (among asked program.allVisits) T.subterms := by
    rw [toTerm] at h
    split at h
    · next ts hts =>
      cases h
      have hlower : ∀ d ∈ Plan.pendingAll (Plan.holes program.named), ∀ us,
          d.lower maxDepth = .ok us → List.SublistForall₂
            (fun d U => ∀ parent i, (Term.node .compilationUnit none 1 ts).tree.Holds parent i U →
              P d i) (among asked (d.visits 0)) (Term.subtermsAll us) := by
        intro d hd us hus
        rw [Plan.pendingAll_holes] at hd
        exact sublistForall₂_of_lower hplan
          (fun e depth U he hk hU parent i => hP e depth U parent i he hk hU) 0
          ((inside_of_named hd).conforms hc) hus
      have hall := Plan.FilledAll.sublistForall₂ hlower (Plan.filledAll_of_fillAll hts)
      rw [Plan.pendingAll_holes] at hall
      rw [among, allVisits, List.map_flatMap, List.filter_flatMap, Term.subterms]
      exact .cons_right hall
    · cases h
  rw [hfinished.preorder, Tree.size_tree, List.range_eq_range']
  refine sublistForall₂_of_forall₂ hplaced (Tree.holds_tree T).preorder ?_
  rintro d U n hU ⟨parent, hn⟩
  exact hU parent n hn

end Lowered

def naming (visits : List (Nat × Cst)) : List Cst :=
  (visits.map Prod.snd).filter (·.kind.isNaming)

theorem sublistForall₂_of_toTerm {program : Cst} {T : Term} (hc : program.conforms = true)
    (h : program.toTerm = .ok T) :
    List.SublistForall₂ (fun d i => d.NamedAt T.tree i) (naming program.allVisits)
      (Tree.root :: T.tree.descendants Tree.root) := by
  change List.SublistForall₂ _ (among Kind.isNaming program.allVisits) _
  refine sublistForall₂_of_visits hc h (fun d hd hk => ?_)
    fun d depth U parent i hd hk hU => namedAt_of_holds hd hk hU
  obtain ⟨kind, parts, hplan, -⟩ := exists_plan hd hk
  exact ⟨kind, none, parts, hplan⟩

theorem mem_allVisits_of_named {program : Cst} (h : d ∈ program.named) :
    (0, d) ∈ program.allVisits := by
  refine List.mem_flatMap.mpr ⟨d, h, ?_⟩
  rw [visits_eq]
  exact List.mem_cons_self

/-- What a visited node leaves to be lowered is visited inside it. -/
theorem mem_visits_of_pending {e : Cst} {level level' : Nat} (h : (level', c) ∈ e.visits level)
    (hd : d ∈ Plan.pendingAll (Plan.ofCst c)) : (level' + 1, d) ∈ e.visits level := by
  rw [visits_eq, List.mem_cons, List.mem_flatMap] at h ⊢
  right
  rcases h with heq | ⟨inner, hinner, hmem⟩
  · obtain ⟨rfl, rfl⟩ := Prod.mk.inj heq
    refine ⟨d, hd, ?_⟩
    rw [visits_eq]
    exact List.mem_cons_self
  · exact ⟨inner, hinner, mem_visits_of_pending hmem hd⟩
termination_by e.weight
decreasing_by exact (Plan.inside_of_pending hinner).weight_lt

theorem mem_allVisits_of_pending {program : Cst} {level : Nat}
    (h : (level, c) ∈ program.allVisits) (hd : d ∈ Plan.pendingAll (Plan.ofCst c)) :
    (level + 1, d) ∈ program.allVisits := by
  obtain ⟨e, he, hmem⟩ := List.mem_flatMap.mp h
  exact List.mem_flatMap.mpr ⟨e, he, mem_visits_of_pending hmem hd⟩

theorem eq_or_inside_of_mem_visits {e : Cst} {level level' : Nat}
    (h : (level', c) ∈ e.visits level) : c = e ∨ e.Inside c := by
  rw [visits_eq, List.mem_cons, List.mem_flatMap] at h
  rcases h with heq | ⟨inner, hinner, hmem⟩
  · exact .inl (Prod.mk.inj heq).2
  · have hinside := Plan.inside_of_pending hinner
    rcases eq_or_inside_of_mem_visits hmem with rfl | hdeeper
    · exact .inr hinside
    · exact .inr (hinside.trans hdeeper)
termination_by e.weight
decreasing_by exact (Plan.inside_of_pending hinner).weight_lt

theorem inside_of_mem_allVisits {program : Cst} {level : Nat}
    (h : (level, c) ∈ program.allVisits) : program.Inside c := by
  obtain ⟨e, he, hmem⟩ := List.mem_flatMap.mp h
  rcases eq_or_inside_of_mem_visits hmem with rfl | hinside
  · exact inside_of_named he
  · exact (inside_of_named he).trans hinside

theorem Inside.clearsGenerics (h : c.Inside d) (hc : ∀ e ∈ c.children, e.clearsGenerics = true) :
    d.clearsGenerics = true := by
  induction h with
  | child hd => exact hc _ hd
  | deeper _ hd ih => exact (everywhere_iff.mp ih).2 _ hd

/-- Names survive the lowering. In a tree that conforms to the grammar, every package, import and
class that is lowered has a node of its own, these nodes stand in the order of the source, and each
has the kind and the name that the words of its declaration tell: those of a package or an import
joined by dots, with a star behind them where the import has one, and those of the superclass of a
class, whatever annotations, type arguments and comments stand between them. A comment in front of
a generic type belongs outside of that type, which is where parsing puts it. -/
theorem names_of_toTree {program : Cst} (hc : program.conforms = true) :
    ((maxDepth + 1 < program.height ∧
        ∃ line, program.toTree = .error (.nestingTooDeep line maxDepth)) ∨
      ∃ t, program.toTree = .ok t ∧
        List.SublistForall₂ (fun d i => d.NamedAt t i) (naming program.allVisits)
          (Tree.root :: t.descendants Tree.root)) ∧
    (∀ d ∈ program.named, (0, d) ∈ program.allVisits) ∧
    ∀ source d, (Parser.parse source).Inside d → d.clearsGenerics = true := by
  refine ⟨?_, fun d => mem_allVisits_of_named,
    fun source d hd => hd.clearsGenerics (Parser.clearsGenerics_parse source)⟩
  cases h : program.toTerm with
  | error e =>
    refine .inl ⟨?_, e.line, by rw [toTree, h]⟩
    by_contra hheight
    obtain ⟨T, hT⟩ := exists_toTerm ⟨hc, Nat.le_of_not_lt hheight⟩
    rw [h] at hT
    cases hT
  | ok T =>
    exact .inr ⟨T.tree, toTree_of_toTerm hc h, sublistForall₂_of_toTerm hc h⟩

theorem names_of_toTree_annotated :
    let program := Parser.parse
      "package a./**/b; import static c.D.*; class E extends @F a./**/B<G<H>>.@I C<J> {}"
    program.conforms = true ∧ ∃ t, program.toTree = .ok t ∧
      (∃ i, t.kind i = .packageDef ∧ t.qualifiedName i = .ok "a.b") ∧
      (∃ i, t.kind i = .staticImport ∧ t.qualifiedName i = .ok "c.D.*") ∧
      ∃ i, t.kind i = .classDef ∧ t.superClassName i = .ok (some "a.B.C") := by
  intro program
  have hfacts : program.conforms = true ∧ ¬ maxDepth + 1 < program.height ∧
      (∃ d ∈ program.named, d.kind = .packageDeclaration ∧ d.dotted = "a.b") ∧
      (∃ d ∈ program.named, d.kind = .importDeclaration ∧ d.isStatic = true ∧
        d.dotted ++ (if d.hasAsterisk then ".*" else "") = "c.D.*") ∧
      ∃ d ∈ program.named, d.kind = .classDeclaration ∧ ∃ s ∈ d.children,
        s.kind = .superclass ∧ ∃ type ∈ s.children, type.isClassType = true ∧
          type.dotted = "a.B.C" := by decide +kernel
  obtain ⟨hc, hheight, ⟨p, hp, hpkind, hpname⟩, ⟨m, hm, hmkind, hmstatic, hmname⟩,
    e, he, hekind, s, hs, hskind, type, htype, hclass, hname⟩ := hfacts
  obtain ⟨⟨hdeep, -⟩ | ⟨t, ht, hsub⟩, hvisited, hparsed⟩ := names_of_toTree hc
  · exact absurd hdeep hheight
  have hnamed : ∀ d ∈ program.named, d.kind.isNaming = true → ∃ i, d.NamedAt t i := by
    intro d hd hk
    have hmem : d ∈ naming program.allVisits :=
      List.mem_filter.mpr ⟨List.mem_map_of_mem (hvisited d hd), hk⟩
    obtain ⟨i, -, hi⟩ := exists_of_sublistForall₂ hsub d hmem
    exact ⟨i, hi⟩
  have hclear : type.clearsGenerics = true :=
    hparsed _ type (.deeper (.deeper (inside_of_named he) hs) htype)
  obtain ⟨i, hi⟩ := hnamed p hp (by rw [hpkind]; rfl)
  obtain ⟨j, hj⟩ := hnamed m hm (by rw [hmkind]; rfl)
  obtain ⟨k, hk⟩ := hnamed e he (by rw [hekind]; rfl)
  obtain ⟨hikind, hiname⟩ := hi.package hpkind
  obtain ⟨hjkind, hjname⟩ := hj.imported hmkind
  obtain ⟨hkkind, hksuper⟩ := hk.extending hekind
  rw [hmstatic] at hjkind
  rw [hmname] at hjname
  exact ⟨hc, t, ht, ⟨i, hikind, hpname ▸ hiname⟩, ⟨j, hjkind, hjname⟩, k, hkkind,
    hname ▸ hksuper s hs hskind type htype hclass hclear⟩

end Cst

end ArchLint.Java
