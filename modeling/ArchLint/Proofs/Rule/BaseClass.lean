import ArchLint.Proofs.Query.Success
import ArchLint.Proofs.Rule.Exact
import ArchLint.Proofs.Text.Cutting

/-!
# Which classes lack their base class

Whether a class is reported depends on four regions of the tree: its own node and children, the
clause among them that names its superclass, all that lies below it, and all that lies above it.
Each exemption is said of its region alone.
-/

namespace ArchLint

open Syntax

namespace Syntax.Tree

def FirstChildOf (t : Tree) (i : Nat) (asked : Kind → Bool) (c : Nat) : Prop :=
  ∃ before after, t.children i = before ++ c :: after ∧ asked (t.kind c) = true ∧
    ∀ b ∈ before, asked (t.kind b) = false

/-- The name of a class, which stands in its first identifier. -/
def ClassName (t : Tree) (i : Nat) (name : String) : Prop :=
  ∃ c, t.FirstChildOf i (· = .ident) c ∧ t.text c = some name

/-- The class says that it extends `name`: the first child of its own first clause to that effect
is a dotted name or has a text. -/
def Extends (t : Tree) (i : Nat) (name : String) : Prop :=
  ∃ e c rest, t.FirstChildOf i (· = .extendsClause) e ∧ t.children e = c :: rest ∧
    (t.kind c = .dot ∧ t.dottedName c = name ∨ t.kind c ≠ .dot ∧ t.text c = some name)

def Annotated (t : Tree) (i : Nat) (name : String) : Prop :=
  ∃ a c, t.Above i a ∧ t.kind a = .annotationUse ∧
    t.FirstChildOf a (fun k => k = .ident || k = .dot) c ∧ t.dottedName c = name

variable {t : Tree} {i c : Nat} {name : String}

theorem find?_children_eq_some (asked : Kind → Bool) :
    (t.children i).find? (fun c => asked (t.kind c)) = some c ↔ t.FirstChildOf i asked c := by
  rw [List.find?_eq_some_iff_append, FirstChildOf]
  constructor
  · rintro ⟨hc, before, after, hchildren, hbefore⟩
    refine ⟨before, after, hchildren, hc, fun b hb => ?_⟩
    simpa using hbefore b hb
  · rintro ⟨before, after, hchildren, hc, hbefore⟩
    refine ⟨hc, before, after, hchildren, fun b hb => ?_⟩
    simpa using hbefore b hb

theorem findChild_eq_some {k : Kind} :
    t.findChild i k = some c ↔ t.FirstChildOf i (· = k) c :=
  find?_children_eq_some (· = k)

theorem firstChild_eq_some : t.firstChild i = some c ↔ ∃ rest, t.children i = c :: rest := by
  rw [firstChild, child_eq_getElem?, ← List.head?_eq_getElem?, List.head?_eq_some_iff]

theorem className_eq_some :
    (t.findChild i .ident).bind t.text = some name ↔ t.ClassName i name := by
  rw [Option.bind_eq_some_iff, ClassName]
  simp only [findChild_eq_some]

theorem superClassName_extends (hk : t.kind i = .classDef) :
    ∃ found, t.superClassName i = .ok found ∧ ∀ name, found = some name ↔ t.Extends i name := by
  refine ⟨_, by rw [superClassName, check_of_accepts (by simp [hk, Query.accepts])]; rfl, ?_⟩
  intro name
  rw [Option.bind_eq_some_iff]
  simp only [Option.bind_eq_some_iff, findChild_eq_some, firstChild_eq_some]
  constructor
  · rintro ⟨c, ⟨e, he, rest, hc⟩, hname⟩
    refine ⟨e, c, rest, he, hc, ?_⟩
    split at hname
    · next hdot => exact .inl ⟨hdot, Option.some.inj hname⟩
    · next hdot => exact .inr ⟨hdot, hname⟩
  · rintro ⟨e, c, rest, he, hc, hname⟩
    refine ⟨c, ⟨e, he, rest, hc⟩, ?_⟩
    rcases hname with ⟨hdot, hname⟩ | ⟨hdot, hname⟩
    · rw [if_pos hdot, hname]
    · rw [if_neg hdot, hname]

theorem extends_iff (hk : t.kind i = .classDef) :
    t.Extends i name ↔ t.superClassName i = .ok (some name) := by
  obtain ⟨found, hfound, hextends⟩ := t.superClassName_extends hk
  rw [← hextends, hfound, Except.ok.injEq]

theorem Finished.isAnnotatedWith_iff (ht : t.Finished) (hi : i < t.size) :
    t.isAnnotatedWith i name = true ↔ t.Annotated i name := by
  obtain ⟨T, -, hT⟩ := ht.exists_isLayout
  rw [isAnnotatedWith, List.any_eq_true]
  simp only [findAll, List.mem_filter, hT.mem_descendants hi, Option.any_eq_true,
    decide_eq_true_iff]
  constructor
  · rintro ⟨a, ⟨habove, hkind⟩, c, hc, hname⟩
    exact ⟨a, c, habove, hkind, (find?_children_eq_some _).mp hc, hname⟩
  · rintro ⟨a, c, habove, hkind, hc, hname⟩
    exact ⟨a, ⟨habove, hkind⟩, c, (find?_children_eq_some _).mpr hc, hname⟩

theorem Finished.isInnerClass_iff (ht : t.Finished) :
    t.isInnerClass i = true ↔ ∃ c, t.kind c = .classDef ∧ t.Above c i := by
  obtain ⟨T, -, hT⟩ := ht.exists_isLayout
  rw [isInnerClass, enclosingClass, List.find?_isSome]
  simp only [hT.mem_ancestors, decide_eq_true_iff]
  constructor
  · rintro ⟨c, habove, hkind⟩
    exact ⟨c, hkind, habove⟩
  · rintro ⟨c, hkind, habove⟩
    exact ⟨c, habove, hkind⟩

theorem isRecord_iff (hk : t.kind i = .classDef) :
    t.isRecord i = true ↔ t.text i = some "record" := by
  simp [isRecord, hk]

end Syntax.Tree

namespace BaseClassRule

variable {r : BaseClassRule} {t : Tree} {i : Nat} {name : String}

/-- The name is that of the base class, plain or qualified: the segments of the base class are its
last segments. -/
def Names (r : BaseClassRule) (name : String) : Prop :=
  Text.segments '.' r.baseClass.toList <:+ Text.segments '.' name.toList

instance (r : BaseClassRule) (name : String) : Decidable (r.Names name) :=
  inferInstanceAs (Decidable (_ <:+ _))

/-- The class has the suffix, none of the exemptions applies to it, and it does not say that it
extends the base class. -/
structure Faults (r : BaseClassRule) (t : Tree) (i : Nat) (name : String) : Prop where
  kind : t.kind i = .classDef
  named : t.ClassName i name
  suffix : r.suffix.toList <:+ name.toList
  record : t.text i ≠ some "record"
  inner : ¬ (r.ignoreInnerClasses = true ∧ ∃ c, t.kind c = .classDef ∧ t.Above c i)
  exempted : ∀ annotation, r.exemptedBy = some annotation → ¬ t.Annotated i annotation
  base : ∀ superClass, t.Extends i superClass → ¬ r.Names superClass

def finding (r : BaseClassRule) (t : Tree) (i : Nat) : Finding where
  line := t.line i
  message := r.complaint
  help := some ("add `extends " ++ r.baseClass ++ "` to `" ++
    ((t.findChild i .ident).bind t.text).getD "" ++ "`")

theorem isBase_iff {superClass : String} : r.isBase superClass = true ↔ r.Names superClass := by
  rw [Names, Text.segments_suffix_iff, isBase, Bool.or_eq_true, decide_eq_true_iff,
    String.toList_inj]
  refine or_congr_right ?_
  constructor
  · intro h
    split at h
    · next before hbefore =>
      obtain ⟨front, rfl⟩ := List.getLast?_eq_some_iff.mp (of_decide_eq_true h)
      exact ⟨front, by simpa using Text.dropEnding?_eq_some_iff.mp hbefore⟩
    · cases h
  · rintro ⟨front, hfront⟩
    have hbefore : Text.dropEnding? r.baseClass.toList superClass.toList =
        some (front ++ ['.']) := by
      rw [Text.dropEnding?_eq_some_iff, hfront]
      simp
    rw [hbefore]
    simp

theorem concerns_iff (ht : t.Finished) (hk : t.kind i = .classDef) :
    r.concerns t i name = true ↔
      r.suffix.toList <:+ name.toList ∧ t.text i ≠ some "record" ∧
        ¬ (r.ignoreInnerClasses = true ∧ ∃ c, t.kind c = .classDef ∧ t.Above c i) ∧
        ∀ annotation, r.exemptedBy = some annotation → ¬ t.Annotated i annotation := by
  have hi : i < t.size := Tree.lt_size_of_kind (by simp [hk])
  have hannotated : r.exemptedBy.any (t.isAnnotatedWith i) = true ↔
      ∃ annotation, r.exemptedBy = some annotation ∧ t.Annotated i annotation := by
    rw [Option.any_eq_true]
    simp only [ht.isAnnotatedWith_iff hi]
  rw [concerns, Bool.and_eq_true, Bool.and_eq_true, Bool.and_eq_true, Text.isSome_dropEnding?,
    Bool.not_eq_true', Bool.not_eq_true', Bool.not_eq_true', ← Bool.not_eq_true,
    ← Bool.not_eq_true, ← Bool.not_eq_true, Tree.isRecord_iff hk, Bool.and_eq_true,
    ht.isInnerClass_iff, hannotated, and_assoc, and_assoc]
  simp only [not_exists, not_and]

theorem check_decides (ht : t.Finished) (hk : t.kind i = .classDef) :
    ∃ findings, r.check t i = .ok findings ∧
      ((∃ name, r.Faults t i name) ∧ findings = [r.finding t i] ∨
        (¬ ∃ name, r.Faults t i name) ∧ findings = []) := by
  cases hname : (t.findChild i .ident).bind t.text with
  | none =>
    refine ⟨[], by rw [check, hname], .inr ⟨?_, rfl⟩⟩
    rintro ⟨name, h⟩
    rw [Tree.className_eq_some.mpr h.named] at hname
    cases hname
  | some name =>
    have hunique : ∀ name', r.Faults t i name' → name' = name := by
      intro name' h
      rw [Tree.className_eq_some.mpr h.named] at hname
      exact Option.some.inj hname
    obtain ⟨found, hfound, hextends⟩ := t.superClassName_extends hk
    by_cases hconcerns : r.concerns t i name = true
    · obtain ⟨hsuffix, hrecord, hinner, hexempted⟩ := (concerns_iff ht hk).mp hconcerns
      have hcheck : r.check t i =
          .ok (if found.any r.isBase = true then [] else [r.finding t i]) := by
        rw [check, hname]
        simp only [if_pos hconcerns, hfound, finding, hname, bind, Except.bind, pure, Except.pure,
          Option.getD_some]
        split <;> rfl
      by_cases hbase : found.any r.isBase = true
      · refine ⟨[], by rw [hcheck, if_pos hbase], .inr ⟨?_, rfl⟩⟩
        rintro ⟨name', h⟩
        obtain ⟨superClass, hsuper, hisBase⟩ := (Option.any_eq_true _ _).mp hbase
        exact h.base superClass ((hextends superClass).mp hsuper) (isBase_iff.mp hisBase)
      · refine ⟨[r.finding t i], by rw [hcheck, if_neg hbase], .inl ⟨⟨name, hk,
          Tree.className_eq_some.mp hname, hsuffix, hrecord, hinner, hexempted, ?_⟩, rfl⟩⟩
        intro superClass hsuper hnames
        apply hbase
        rw [(hextends superClass).mpr hsuper]
        exact isBase_iff.mpr hnames
    · refine ⟨[], ?_, .inr ⟨?_, rfl⟩⟩
      · rw [check, hname]
        exact if_neg hconcerns
      · rintro ⟨name', h⟩
        obtain rfl := hunique name' h
        exact hconcerns ((concerns_iff ht hk).mpr ⟨h.suffix, h.record, h.inner, h.exempted⟩)

theorem keeps (ht : t.Finished) (r : BaseClassRule) :
    r.toRule.Keeps t (r.finding t) (fun i => ∃ name, r.Faults t i name) fun _ _ => True where
  visited := by
    intro n s hinterest _
    have hk : t.kind n = .classDef := List.mem_singleton.mp hinterest
    obtain ⟨findings, hcheck, hfaults⟩ := check_decides (r := r) ht hk
    have hvisit : r.toRule.visit s t n = { state := (), findings } := by
      simp only [toRule, Rule.stateless, hcheck]
    rw [hvisit]
    refine ⟨?_, trivial⟩
    rcases hfaults with ⟨h, rfl⟩ | ⟨h, rfl⟩
    · exact .reported _ h
    · exact .passed _ h
  skipped := by
    intro n s hinterest _
    refine ⟨?_, trivial⟩
    rintro ⟨name, h⟩
    exact hinterest (List.mem_singleton.mpr h.kind)

/-- In a finished tree the rule reports the classes at fault and no other node: each once, in
pre-order, on its line and by its name. No visit fails. -/
theorem missing_base_classes_exact (ht : t.Finished) (r : BaseClassRule) (s : r.toRule.State)
    (f : SourceFile) :
    (∃ reports, { r.toRule with state := s }.ReportsExactly t f (r.finding t)
      (fun i => ∃ name, r.Faults t i name) reports) ∧
    ∀ i name, r.Faults t i name → (r.finding t i).help =
      some ("add `extends " ++ r.baseClass ++ "` to `" ++ name ++ "`") := by
  constructor
  · refine (keeps ht r).reportsExactly ht ?_ trivial
    rintro i ⟨name, h⟩
    exact Tree.lt_size_of_kind (by simp [h.kind])
  · intro i name h
    rw [finding, Tree.className_eq_some.mpr h.named]
    rfl

theorem missing_base_classes_exact_nested :
    ∃ t : Tree, ∃ reports : List Nat, t.Finished ∧
      ({ suffix := "Action", baseClass := "Base" } : BaseClassRule).toRule.ReportsExactly t
        ⟨⟨"A"⟩, ⟨"A"⟩, ""⟩
        (({ suffix := "Action", baseClass := "Base" } : BaseClassRule).finding t)
        (fun i => ∃ name,
          ({ suffix := "Action", baseClass := "Base" } : BaseClassRule).Faults t i name) reports ∧
      1 ∈ reports ∧ 4 ∉ reports ∧ 10 ∈ reports := by
  have h : ∃ t, Tree.ofSteps [.start .compilationUnit none 1, .start .classDef none 1,
      .leaf .ident (some "OAction") 1, .start .objBlock none 1, .start .classDef none 2,
      .leaf .ident (some "IAction") 2, .start .extendsClause none 2, .qualified "x.Base" 2, .finish,
      .finish, .finish, .finish, .start .classDef none 3, .leaf .ident (some "BAction") 3,
      .start .extendsClause none 3, .qualified "MyBase" 3, .finish, .finish, .finish] = .ok t ∧
      (t.kind 1 = .classDef ∧ (t.findChild 1 .ident).bind t.text = some "OAction" ∧
        t.text 1 = none ∧ t.superClassName 1 = .ok none) ∧
      (t.kind 4 = .classDef ∧ t.superClassName 4 = .ok (some "x.Base")) ∧
      t.kind 10 = .classDef ∧ (t.findChild 10 .ident).bind t.text = some "BAction" ∧
        t.text 10 = none ∧ t.superClassName 10 = .ok (some "MyBase") :=
    ⟨_, rfl, ⟨rfl, rfl, rfl, rfl⟩, ⟨rfl, by decide +kernel⟩, rfl, rfl, rfl, by decide +kernel⟩
  obtain ⟨t, ht, ⟨hk₁, hname₁, htext₁, hsuper₁⟩, ⟨hk₄, hsuper₄⟩, hk₁₀, hname₁₀, htext₁₀,
    hsuper₁₀⟩ := h
  have hfin : t.Finished := ⟨_, ht⟩
  obtain ⟨⟨reports, hreports⟩, -⟩ := missing_base_classes_exact hfin
    { suffix := "Action", baseClass := "Base" } () ⟨⟨"A"⟩, ⟨"A"⟩, ""⟩
  refine ⟨t, reports, hfin, hreports, ?_, ?_, ?_⟩
  · rw [hreports.exact]
    refine ⟨"OAction", hk₁, Tree.className_eq_some.mp hname₁, by decide, by simp [htext₁],
      by simp, by simp, ?_⟩
    intro superClass hextends
    rw [Tree.extends_iff hk₁, hsuper₁] at hextends
    cases hextends
  · rw [hreports.exact]
    rintro ⟨name, h⟩
    refine h.base "x.Base" ((Tree.extends_iff hk₄).mpr hsuper₄) ?_
    decide
  · rw [hreports.exact]
    refine ⟨"BAction", hk₁₀, Tree.className_eq_some.mp hname₁₀, by decide, by simp [htext₁₀],
      by simp, by simp, ?_⟩
    intro superClass hextends
    rw [Tree.extends_iff hk₁₀, hsuper₁₀] at hextends
    cases hextends
    decide

end BaseClassRule

end ArchLint
