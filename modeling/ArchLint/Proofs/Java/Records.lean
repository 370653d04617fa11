import ArchLint.Proofs.Java.Fields
import ArchLint.Proofs.Java.Names

/-!
# Components of records

The components of a record are the first fields of its class, one for each in the order of the
source, and the lowered members of its body come behind them. A component of variable arity has no
field.
-/

namespace ArchLint

namespace Syntax.Tree

variable {t : Tree} {parent : Option Nat} {i : Nat}

open Term (places)

theorem HoldsAll.forall₂_places {Ts : List Term} (h : HoldsAll t parent i Ts) :
    List.Forall₂ (fun T n => Holds t parent n T) Ts (places i Ts) := by
  induction Ts generalizing i with
  | nil => exact .nil
  | cons T Ts ih => exact .cons h.1 (ih h.2)

end Syntax.Tree

namespace Java

open Syntax (Term Tree)

namespace Cst

def components (c : Cst) : List Cst :=
  (c.get? .parameters).toList.flatMap fun list =>
    list.children.filter fun d => d.kind ∈ [.formalParameter, .spreadParameter]

def isVariadic (c : Cst) : Bool :=
  c.kind = .spreadParameter

/-- The node `v` is the field of the component `c` in the class `i`. A use `this.x` of its name in
this class, on the line of the component or behind it, refers to the field exactly if no definition
of that name whose scope is the class stands in front of it. -/
structure FieldAt (c : Cst) (t : Tree) (i v : Nat) : Prop where
  member : t.IsField i v
  kind : t.kind v = .variableDef
  line : t.line v = c.line
  name : ∃ name, c.get? .name = some name ∧ t.Declares v name.text
  this : ∀ name n, c.get? .name = some name → t.kind n = .ident → t.text n = some name.text →
    t.ThisQualified n → t.ClassOf n i → c.line ≤ t.line n →
      (t.resolveDeclaration n = .ok (some v) ↔ ∀ e < v, ¬ t.FieldFor i n e)

/-- The node `i` is what the record was lowered to: a class marked as a record, whose one block
holds the fields of the components, those of variable arity apart, and behind them what the members
of the body were lowered to. -/
structure RecordAt (c : Cst) (t : Tree) (i : Nat) : Prop where
  lowered : ∃ depth T parent, c.lower depth = .ok [T] ∧ t.Holds parent i T
  kind : t.kind i = .classDef
  text : t.text i = some "record"
  line : t.line i = c.line
  block : ∃ b body fields members groups,
    (t.children i).filter (fun e => t.kind e = .objBlock) = [b] ∧
    t.children b = fields ++ members ∧
    List.Forall₂ (fun d v => d.FieldAt t i v) (c.components.filter (!·.isVariadic)) fields ∧
    c.get? .body = some body ∧
    List.Forall₂ (fun d us => ∃ depth, d.lower depth = .ok us) body.named groups ∧
    List.Forall₂ (fun U n => t.Holds (some b) n U) groups.flatten members

variable {c d : Cst} {T : Term} {depth : Nat}

theorem component_of_mem (hc : c.conforms = true) (hd : d ∈ c.components) :
    d.conforms = true ∧ d.kind ∈ [.formalParameter, .spreadParameter] := by
  obtain ⟨list, hlist, hd⟩ := List.mem_flatMap.mp hd
  obtain ⟨hmem, hk⟩ := List.mem_filter.mp hd
  have hget : c.get? .parameters = some list := by simpa using hlist
  exact ⟨conforms_child (conforms_child hc (mem_of_get? hget).1) hmem, of_decide_eq_true hk⟩

theorem filter_components {list : Cst} (hlist : c.get? .parameters = some list) :
    c.components.filter (!·.isVariadic) = list.named.filter (·.kind = .formalParameter) := by
  rw [components, hlist, Option.toList_some, List.flatMap_singleton, List.filter_filter, named,
    List.filter_filter]
  refine List.filter_congr fun d _ => ?_
  unfold isVariadic isNamed
  cases d.kind <;> decide

theorem member_eq_of_classBody {body : Cst} (hc : body.conforms = true)
    (hk : body.kind = .classBody) : body.named.flatMap Plan.member = Plan.holes body.named := by
  have hkinds : ∀ d ∈ body.named, d.kind ≠ .enumBodyDeclarations := by
    intro d hd
    have hslots : ((Grammar.content .classBody).slots.all fun s => s.kinds.all fun k =>
        k ≠ .enumBodyDeclarations) = true := by decide
    rcases isComment_or_of_slots hc (by rw [hk]; exact hslots) (List.mem_filter.mp hd).1 with
      hcomment | hcase
    · rintro heq
      rw [isComment, heq] at hcomment
      cases hcomment
    · exact of_decide_eq_true hcase
  rw [Plan.holes, List.map_eq_flatMap]
  exact List.flatMap_congr fun d hd => if_neg (hkinds d hd)

theorem record_eq (hc : c.conforms = true) (hk : c.kind = .recordDeclaration) :
    ∃ body, c.get? .body = some body ∧
      Plan.ofCst c = [.node .classDef (some "record") c.line
        ([Plan.modifiers c, Plan.nameOf (c.get? .name) c.line] ++ c.named.filterMap Plan.clause? ++
          [.node .objBlock none body.line
            ((c.components.filter (!·.isVariadic)).map Plan.component ++
              Plan.holes body.named)])] := by
  have hrequires : Grammar.requires .recordDeclaration .parameters = true ∧
      Grammar.requires .recordDeclaration .body = true := by decide
  obtain ⟨list, hlist⟩ := exists_get? (f := .parameters) hc (by rw [hk]; exact hrequires.1)
  obtain ⟨body, hbody⟩ := exists_get? (f := .body) hc (by rw [hk]; exact hrequires.2)
  have hbodyKind : body.kind = .classBody := by
    have hkind := kind_of_get? hc hbody
    rw [hk] at hkind
    revert hkind
    cases body.kind <;> decide
  have hofCst : Plan.ofCst c = [Plan.typeDeclaration .classDef c] := by
    rw [Plan.ofCst, hk]
    rfl
  have hblock : Plan.body body (some list) = .node .objBlock none body.line
      ((c.components.filter (!·.isVariadic)).map Plan.component ++ Plan.holes body.named) := by
    rw [filter_components hlist,
      ← member_eq_of_classBody (conforms_child hc (mem_of_get? hbody).1) hbodyKind]
    rfl
  refine ⟨body, hbody, ?_⟩
  rw [hofCst, Plan.typeDeclaration, hk, hbody, hlist, ← hblock]
  rfl

end Cst

namespace Plan

variable {R : Cst → List Term → Prop} {ts : List Term}

theorem FilledAll.forall₂_map {ds : List Cst} {g : Cst → Plan} {S : Cst → Term → Prop}
    (hg : ∀ d ∈ ds, ∀ us, Filled R (g d) us → ∃ U, us = [U] ∧ S d U)
    (h : FilledAll R (ds.map g) ts) : List.Forall₂ S ds ts := by
  induction ds generalizing ts with
  | nil =>
    rw [show ts = [] from h]
    exact .nil
  | cons d ds ih =>
    obtain ⟨us, vs, hus, hvs, rfl⟩ := h
    rw [List.forall_mem_cons] at hg
    obtain ⟨U, rfl, hU⟩ := hg.1 us hus
    exact .cons hU (ih hg.2 hvs)

theorem FilledAll.exists_groups {ds : List Cst} (h : FilledAll R (holes ds) ts) :
    ∃ groups, List.Forall₂ R ds groups ∧ ts = groups.flatten := by
  induction ds generalizing ts with
  | nil => exact ⟨[], .nil, h⟩
  | cons d ds ih =>
    obtain ⟨us, vs, hus, hvs, rfl⟩ := h
    obtain ⟨groups, hgroups, rfl⟩ := ih hvs
    exact ⟨us :: groups, .cons hus hgroups, rfl⟩

end Plan

namespace Cst

variable {c d : Cst} {t : Tree} {T : Term} {depth i b v : Nat}

def Declared (c : Cst) (T : Term) : Prop :=
  ∃ name, c.get? .name = some name ∧ ∃ modifiers type line rest,
    T = .node .variableDef none c.line (modifiers :: type :: .token .ident name.text line :: rest)

theorem declared_of_filled {R : Cst → List Term → Prop} {us : List Term}
    (hc : c.conforms = true) (hk : c.kind = .formalParameter)
    (h : Plan.Filled R (Plan.component c) us) : ∃ U, us = [U] ∧ c.Declared U := by
  have hrequires : Grammar.requires .formalParameter .name = true := by decide
  obtain ⟨name, hname⟩ := exists_get? (f := .name) hc (by rw [hk]; exact hrequires)
  obtain ⟨vs, hvs, rfl⟩ := h
  rw [hname] at hvs
  obtain ⟨_, _, hmodifiers, ⟨_, _, htype, ⟨_, rest, hident, -, rfl⟩, rfl⟩, rfl⟩ := hvs
  obtain ⟨M, rfl, -⟩ := hmodifiers.of_kind? (Plan.kind?_modifiers c)
  obtain ⟨Y, rfl, -⟩ := htype.of_kind? (Plan.kind?_typeRef _ _)
  rw [show _ = [Term.token .ident name.text name.line] from hident]
  exact ⟨_, rfl, name, hname, M, Y, name.line, rest, rfl⟩

theorem forall₂_declared {R : Cst → List Term → Prop} {Fs : List Term} (hc : c.conforms = true)
    (h : Plan.FilledAll R ((c.components.filter (!·.isVariadic)).map Plan.component) Fs) :
    List.Forall₂ Declared (c.components.filter (!·.isVariadic)) Fs := by
  refine h.forall₂_map fun d hd us hus => ?_
  obtain ⟨hmem, hvariadic⟩ := List.mem_filter.mp hd
  obtain ⟨hdc, hdk⟩ := component_of_mem hc hmem
  have hformal : d.kind = .formalParameter := by
    refine (List.mem_pair.mp hdk).resolve_right fun hspread => ?_
    rw [isVariadic, hspread] at hvariadic
    cases hvariadic
  exact declared_of_filled hdc hformal hus

theorem Declared.declares {parent : Option Nat} (h : c.Declared T) (hT : t.Holds parent v T) :
    t.kind v = .variableDef ∧ t.line v = c.line ∧
      ∃ name, c.get? .name = some name ∧ t.Declares v name.text := by
  obtain ⟨name, hname, M, Y, line, rest, rfl⟩ := h
  refine ⟨hT.kind, hT.line, name, hname, _, _, _, _, hT.children, ?_⟩
  exact hT.below.2.2.1.text

theorem Declared.fieldAt {parent : Option Nat} (ht : t.Finished) (h : c.Declared T)
    (hT : t.Holds parent v T) (hv : t.IsField i v) : c.FieldAt t i v := by
  obtain ⟨hk, hline, name, hname, hdeclares⟩ := h.declares hT
  refine ⟨hv, hk, hline, ⟨name, hname, hdeclares⟩, ?_⟩
  intro other n hother hnk htext hthis hclass hle
  obtain rfl : name = other := Option.some.inj (hname.symm.trans hother)
  exact hv.resolveDeclaration_iff ht hk hdeclares hnk hthis hclass htext (hline ▸ hle)

/-- Components and their terms, laid out in the block of a class. -/
theorem forall₂_fieldAt (ht : t.Finished) (hb : t.parent b = some i) (hk : t.kind b = .objBlock)
    {ds : List Cst} {Fs : List Term} {j : Nat} (hFs : List.Forall₂ Declared ds Fs)
    (h : t.HoldsAll (some b) j Fs) :
    List.Forall₂ (fun d v => d.FieldAt t i v) ds (Term.places j Fs) := by
  induction hFs generalizing j with
  | nil => exact .nil
  | cons hdeclared _ ih =>
    exact .cons (hdeclared.fieldAt ht h.1 ⟨b, hb, hk, h.1.parent_eq⟩) (ih h.2)

theorem kind_of_heads {R : Cst → List Term → Prop} {heads : List Term}
    (h : Plan.FilledAll R
      ([Plan.modifiers c, Plan.nameOf (c.get? .name) c.line] ++ c.named.filterMap Plan.clause?)
      heads) : ∀ U ∈ heads, U.kind ≠ .objBlock := by
  refine h.forall_kind (P := (· ≠ .objBlock)) (List.forall_mem_append.mpr ⟨?_, fun p hp => ?_⟩)
  · rw [List.forall_mem_cons, List.forall_mem_singleton]
    obtain ⟨line, hname⟩ := Plan.nameOf_eq (c.get? .name) c.line
    rw [hname]
    exact ⟨⟨_, Plan.kind?_modifiers c, by decide⟩, ⟨.ident, rfl, by decide⟩⟩
  · obtain ⟨k, hclause, hk, -⟩ := Plan.housed_clauses c.named p hp
    refine ⟨k, hk, ?_⟩
    rintro rfl
    cases hclause

theorem recordAt_of_holds {parent : Option Nat} (ht : t.Finished) (hc : c.conforms = true)
    (hk : c.kind = .recordDeclaration) (h : c.lower depth = .ok [T])
    (hT : t.Holds parent i T) : c.RecordAt t i := by
  obtain ⟨body, hbody, hplan⟩ := record_eq hc hk
  obtain ⟨n, hfilled⟩ := exists_filledAll h
  rw [hplan, Plan.filledAll_singleton] at hfilled
  obtain ⟨us, hus, hnode⟩ := hfilled
  obtain ⟨heads, blocks, hheads, hblock, rfl⟩ := Plan.filledAll_append.mp hus
  rw [Plan.filledAll_singleton] at hblock
  obtain ⟨inner, hinner, rfl⟩ := hblock
  obtain ⟨Fs, Ms, hFs, hMs, rfl⟩ := Plan.filledAll_append.mp hinner
  obtain ⟨groups, hgroups, rfl⟩ := hMs.exists_groups
  have hlowered : ∃ depth T parent, c.lower depth = .ok [T] ∧ t.Holds parent i T :=
    ⟨depth, T, parent, h, hT⟩
  obtain rfl := List.singleton_inj.mp hnode
  have hchildren := hT.children
  -- the block is the last child, behind the modifiers, the name and the clauses
  obtain ⟨hbefore, hb, -⟩ := Tree.holdsAll_append.mp hT.below
  obtain ⟨hfields, hmembers⟩ := Tree.holdsAll_append.mp hb.below
  have hheadKinds := kind_of_heads hheads
  refine ⟨hlowered, hT.kind, hT.text, hT.line, _, body, _, _, groups, ?_, ?_,
    forall₂_fieldAt ht hb.parent_eq hb.kind (forall₂_declared hc hFs) hfields, hbody,
    hgroups.imp fun d us hus => ⟨n, hus⟩, hmembers.forall₂_places⟩
  · rw [hchildren]
    simp only [Term.children]
    rw [Term.places_append, List.filter_append, List.filter_eq_nil_iff.mpr]
    · simp [Term.places, hb.kind, Term.kind]
    · intro e he
      obtain ⟨U, hU, hholds, -, -⟩ := hbefore.of_mem_places he
      rw [hholds.kind, decide_eq_true_iff]
      exact hheadKinds U hU
  · rw [hb.children]
    exact Term.places_append _ _ _

def records (visits : List (Nat × Cst)) : List Cst :=
  among (· = .recordDeclaration) visits

def typeDeclarations : List Kind :=
  [.classDeclaration, .recordDeclaration, .interfaceDeclaration, .annotationTypeDeclaration,
    .enumDeclaration]

/-- What stands right in the node belongs to the lowered part of the file: the node is the file
itself, a node that is lowered, the body of a type that is lowered, or what the body of an enum has
behind the constants. -/
inductive Opened (program : Cst) : Cst → Prop where
  | file : Opened program program
  | lowered {level : Nat} {c : Cst} : (level, c) ∈ program.allVisits → Opened program c
  | body {level : Nat} {c b : Cst} : (level, c) ∈ program.allVisits → c.kind ∈ typeDeclarations →
      c.get? .body = some b → Opened program b
  | behindConstants {b e : Cst} : Opened program b → e ∈ b.children →
      e.kind = .enumBodyDeclarations → Opened program e

end Cst

namespace Grammar

def hosts (k k' : Kind) : Bool :=
  (content k).slots.any fun s => s.kinds.contains k'

end Grammar

namespace Cst

variable {c d r program : Cst}

theorem hosts_of_child (hc : c.conforms = true) (hd : d ∈ c.children)
    (hcomment : d.isComment = false) : Grammar.hosts c.kind d.kind = true := by
  rcases exists_slot_of_mem (fits_parts hc) hd with hd | ⟨s, hs, -, hk⟩
  · rw [hcomment] at hd
    cases hd
  · exact List.any_eq_true.mpr ⟨s, hs, List.contains_iff_mem.mpr hk⟩

theorem Opened.conforms (h : program.Opened c) (hc : program.conforms = true) :
    c.conforms = true := by
  induction h with
  | file => exact hc
  | lowered hv => exact (inside_of_mem_allVisits hv).conforms hc
  | body hv _ hb =>
    exact conforms_child ((inside_of_mem_allVisits hv).conforms hc) (mem_of_get? hb).1
  | behindConstants _ he _ ih => exact conforms_child ih he

end Cst

namespace Plan

variable {c d r b : Cst} {plans : List Plan}

theorem mem_pending_body {components : Option Cst} (hd : d ∈ b.named) (hr : hole r ∈ member d) :
    r ∈ (body b components).pending := by
  refine mem_pendingAll_append ?_
  rw [pendingAll_eq]
  exact List.mem_flatMap.mpr
    ⟨hole r, List.mem_flatMap.mpr ⟨d, hd, hr⟩, List.mem_singleton_self r⟩

theorem Form.pending_record (h : Form c plans) (hc : c.conforms = true) (hr : r ∈ c.children)
    (hk : r.kind = .recordDeclaration) : r ∈ pendingAll plans := by
  have hnamed : r ∈ c.named := List.mem_filter.mpr ⟨hr, by simp [Cst.isNamed, hk]⟩
  have hhosts := Cst.hosts_of_child hc hr (by rw [Cst.isComment, hk]; rfl)
  rw [hk] at hhosts
  have hnone {ks : List Kind} (hks : c.kind ∈ ks)
      (hall : ∀ k ∈ ks, Grammar.hosts k .recordDeclaration = false) : False := by
    rw [hall c.kind hks] at hhosts
    cases hhosts
  have hnest (kind : Syntax.Kind) : r ∈ pendingAll [nest kind c] := by
    rw [pendingAll_singleton, nest, pending, pendingAll_holes]
    exact hnamed
  cases h with
  | body _ =>
    rw [pendingAll_singleton]
    refine mem_pending_body hnamed ?_
    rw [member, if_neg (by simp [hk])]
    exact List.mem_singleton_self _
  | forEach hfor =>
    have hslots : ∀ s ∈ (Grammar.content .enhancedForStatement).slots,
        Kind.recordDeclaration ∈ s.kinds → s.field = some .body := by decide
    have hbody : r ∈ c.getAll .body := by
      rcases Cst.exists_slot_of_mem (Cst.fits_parts hc) hr with hcomment | ⟨s, hs, hfield, hkind⟩
      · rw [Cst.isComment, hk] at hcomment
        cases hcomment
      · rw [hfor] at hs
        exact List.mem_filter.mpr ⟨hr, by simp [hfield, hslots s hs (hk ▸ hkind)]⟩
    rw [Cst.getAll_eq hc (by rw [hfor]; decide)] at hbody
    rw [pendingAll_singleton]
    refine mem_pendingAll_append ?_
    rwa [pendingAll_holes]
  | group kind _ => exact hnest kind
  | other _ => exact hnest .other
  | literal hliteral =>
    have hall : ∀ k : Kind, k.isLiteral = true →
        Grammar.hosts k .recordDeclaration = false := by
      intro k
      cases k <;> decide
    rw [hall c.kind hliteral] at hhosts
    cases hhosts
  | comment h | typeDeclaration _ _ h | variableDefs h | method h | constructor_ h | parameter h
  | annotated h | operator h | creation h | word h | type h => exact (hnone h (by decide)).elim
  | package h | import_ h | resource h | lambda h | modifierList h | parentheses h | assignment h
  | chain h | fieldAccess h | methodCall h | arrayAccess h | dotted h =>
    exact (hnone (List.mem_singleton.mpr h) (by decide)).elim
  | self kind h => exact (hnone (List.mem_map_of_mem (f := Prod.fst) h) (by decide)).elim

theorem mem_pending_typeDeclaration (hk : c.kind ∈ Cst.typeDeclarations)
    (hb : c.get? .body = some b) (hr : ∀ components, r ∈ (body b components).pending) :
    r ∈ pendingAll (ofCst c) := by
  obtain ⟨kind, hplan⟩ : ∃ kind, ofCst c = [typeDeclaration kind c] := by
    simp only [Cst.typeDeclarations, List.mem_cons, List.not_mem_nil, or_false] at hk
    rcases hk with hk | hk | hk | hk | hk
    all_goals
      rw [ofCst, hk]
      exact ⟨_, rfl⟩
  rw [hplan, pendingAll_singleton]
  refine mem_pendingAll_append ?_
  rw [hb, pendingAll_singleton]
  exact hr _

end Plan

namespace Cst

variable {c r program : Cst}

/-- Every record that belongs to the lowered part of a file is lowered. -/
theorem Opened.mem_records (h : program.Opened c) (hc : program.conforms = true)
    (hprogram : program.kind = .program) (hr : r ∈ c.children) (hk : r.kind = .recordDeclaration) :
    r ∈ records program.allVisits := by
  have hmem {level : Nat} (hv : (level, r) ∈ program.allVisits) :
      r ∈ records program.allVisits :=
    List.mem_filter.mpr ⟨List.mem_map.mpr ⟨_, hv, rfl⟩, decide_eq_true hk⟩
  have hnamed {d : Cst} (hd : r ∈ d.children) : r ∈ d.named :=
    List.mem_filter.mpr ⟨hd, by simp [isNamed, hk]⟩
  have hhole : Plan.hole r ∈ Plan.member r := by
    rw [Plan.member, if_neg (by simp [hk])]
    exact List.mem_singleton_self _
  cases h with
  | file => exact hmem (mem_allVisits_of_named (hnamed hr))
  | lowered hv =>
    have hcc := (inside_of_mem_allVisits hv).conforms hc
    exact hmem (mem_allVisits_of_pending hv ((Plan.form_ofCst c).pending_record hcc hr hk))
  | body hv htype hb =>
    exact hmem (mem_allVisits_of_pending hv (Plan.mem_pending_typeDeclaration htype hb
      fun _ => Plan.mem_pending_body (hnamed hr) hhole))
  | @behindConstants b _ hb he hek =>
    have hbc := hb.conforms hc
    have hbk : b.kind = .enumBody := by
      have hhosts := hosts_of_child hbc he (by rw [isComment, hek]; rfl)
      rw [hek] at hhosts
      revert hhosts
      cases b.kind <;> decide
    have hpending : ∀ components, r ∈ (Plan.body b components).pending := by
      have hmember : Plan.hole r ∈ Plan.member c := by
        rw [Plan.member, if_pos hek]
        exact List.mem_map_of_mem (hnamed hr)
      exact fun _ => Plan.mem_pending_body
        (List.mem_filter.mpr ⟨he, by simp [isNamed, hek]⟩) hmember
    cases hb with
    | file => rw [hprogram] at hbk; cases hbk
    | lowered hv =>
      refine hmem (mem_allVisits_of_pending hv ?_)
      have hplan : Plan.ofCst b = [Plan.body b none] := by
        rw [Plan.ofCst, hbk]
        rfl
      rw [hplan, Plan.pendingAll_singleton]
      exact hpending none
    | body hv htype hb =>
      exact hmem (mem_allVisits_of_pending hv
        (Plan.mem_pending_typeDeclaration htype hb hpending))
    | behindConstants _ _ hek => rw [hek] at hbk; cases hbk

end Cst

variable {source : String} {t : Tree}

/-- In a file that parses, every record that is lowered has a class of its own, these classes stand
in the order of the source, and the block of each starts with one field for each component that is
not of variable arity, in order and with the name of the component. A use of `this` with that name
refers to the field unless another definition of the name comes first. A record that stands right in
the file, in a node that is lowered or in the body of a type that is lowered, is lowered itself. -/
theorem components_are_fields (h : parse source = .ok t) :
    List.SublistForall₂ (fun r i => r.RecordAt t i) (Cst.records (Parser.parse source).allVisits)
      (Tree.root :: t.descendants Tree.root) ∧
    ∀ c r, (Parser.parse source).Opened c → r ∈ c.children → r.kind = .recordDeclaration →
      r ∈ Cst.records (Parser.parse source).allVisits := by
  obtain ⟨T, hc, hT, rfl⟩ := exists_term_of_parse h
  refine ⟨?_, fun c r hopened hr hk =>
    hopened.mem_records hc (Parser.kind_parse source) hr hk⟩
  have hfinished : T.tree.Finished :=
    ⟨T.steps, Tree.ofSteps_of_wellShaped T.word_steps (Cst.sound_of_toTerm hc hT).1.shaped⟩
  refine Cst.sublistForall₂_of_visits hc hT (fun d hd hk => ?_)
    fun d depth U parent i hd hk hU hplace =>
      Cst.recordAt_of_holds hfinished hd (of_decide_eq_true hk) hU hplace
  obtain ⟨body, -, hplan⟩ := Cst.record_eq hd (of_decide_eq_true hk)
  exact ⟨_, _, _, hplan⟩

theorem components_are_fields_nested :
    let source := "enum E { A; record R(@F int a, /**/ int b[]) {} }"
    ∃ t, parse source = .ok t ∧ ∃ r ∈ Cst.records (Parser.parse source).allVisits, ∃ i,
      r.components.length = 2 ∧ (∀ d ∈ r.components, d.isVariadic = false) ∧ r.RecordAt t i := by
  intro source
  obtain ⟨t, ht, -⟩ := exists_tree_of_decide source (fun _ => True) (by decide +kernel)
  have hfacts : ∃ c ∈ (Parser.parse source).named, c.kind = .enumDeclaration ∧
      ∃ b ∈ c.get? .body, ∃ e ∈ b.children, e.kind = .enumBodyDeclarations ∧
        ∃ r ∈ e.children, r.kind = .recordDeclaration ∧ r.components.length = 2 ∧
          ∀ d ∈ r.components, d.isVariadic = false := by decide +kernel
  obtain ⟨c, hc, hck, b, hb, e, he, hek, r, hr, hrk, hlength, hplain⟩ := hfacts
  obtain ⟨hclasses, hlowered⟩ := components_are_fields ht
  have hbody : (Parser.parse source).Opened b :=
    .body (Cst.mem_allVisits_of_named hc) (by rw [hck]; decide) (Option.mem_def.mp hb)
  have hmem := hlowered e r (.behindConstants hbody he hek) hr hrk
  obtain ⟨i, -, hi⟩ := exists_of_sublistForall₂ hclasses r hmem
  exact ⟨t, ht, r, hmem, i, hlength, hplain, hi⟩

/-- A component of variable arity has no field. -/
theorem variadic_component_has_no_field :
    let source := "record R(int... xs) {}"
    ∃ t, parse source = .ok t ∧
      (∃ r ∈ Cst.records (Parser.parse source).allVisits, r.components.length = 1) ∧
      t.kind 1 = .classDef ∧ t.text 1 = some "record" ∧ t.children 1 = [2, 3, 4] ∧
      t.kind 4 = .objBlock ∧ t.children 4 = [] := by
  intro source
  obtain ⟨t, ht, hclass⟩ := exists_tree_of_decide source
    (fun t => t.kind 1 = .classDef ∧ t.text 1 = some "record" ∧ t.children 1 = [2, 3, 4] ∧
      t.kind 4 = .objBlock ∧ t.children 4 = []) (by decide +kernel)
  have hfacts : ∃ r ∈ (Parser.parse source).named, r.kind = .recordDeclaration ∧
      r.components.length = 1 := by decide +kernel
  obtain ⟨r, hr, hk, hlength⟩ := hfacts
  have hmem : r ∈ Cst.records (Parser.parse source).allVisits :=
    List.mem_filter.mpr
      ⟨List.mem_map.mpr ⟨_, Cst.mem_allVisits_of_named hr, rfl⟩, decide_eq_true hk⟩
  exact ⟨t, ht, ⟨r, hmem, hlength⟩, hclass⟩

end Java

end ArchLint
