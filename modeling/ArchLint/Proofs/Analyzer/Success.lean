import Mathlib.Algebra.BigOperators.Group.List.Basic
import ArchLint.Proofs.Analyzer.History
import ArchLint.Proofs.Java.Shape
import ArchLint.Proofs.Query.Success
import ArchLint.Proofs.Rule.Independence

/-!
# Rules that never fail

A visit fails if a query in it does. The built-in rules ask only about nodes of kinds that the
queries are about, and the targets of assignments that they look up are identifiers in every tree
of a Java source. So no visit fails, whatever the rules are set to.
-/

namespace ArchLint

open Syntax

namespace Rule

variable {t : Tree} {r : Rule}

/-- No visit to a node that the rule asks for ends in an error, whatever state the rule is in. -/
def Succeeds (r : Rule) (t : Tree) : Prop :=
  ∀ s i, t.kind i ∈ r.interests → (r.visit s t i).failure = none

theorem stateless_succeeds {name code description : String} {severity : Severity}
    {interests : List Kind} {check : Tree → Nat → Except QueryError (List Finding)}
    (h : ∀ i, t.kind i ∈ interests → ∃ findings, check t i = .ok findings) :
    (stateless name code description severity interests check).Succeeds t := by
  intro s i hi
  obtain ⟨findings, hcheck⟩ := h i hi
  simp only [stateless, hcheck]

theorem succeeds_baseClass (p : BaseClassRule) : p.toRule.Succeeds t := by
  refine stateless_succeeds fun i hi => ?_
  obtain ⟨name, hname⟩ := Tree.exists_superClassName hi
  rw [BaseClassRule.check, hname]
  split
  · exact ⟨_, rfl⟩
  · split
    · simp only [bind, Except.bind, pure, Except.pure]
      split
      · exact ⟨_, rfl⟩
      · exact ⟨_, rfl⟩
    · exact ⟨_, rfl⟩

theorem succeeds_dependency (ht : t.Finished) (p : DependencyRule) : p.toRule.Succeeds t := by
  intro s i hi
  obtain ⟨name, hname⟩ := ht.exists_qualifiedName hi
  simp only [DependencyRule.toRule, DependencyRule.visit, hname]
  split
  · rfl
  · split
    · rfl
    · rfl

theorem isInitial_eq (t : Tree) (i : Nat) :
    ParameterRule.isInitial t i = (t.parent i).any fun p => (t.kind p).isInitial := by
  simp only [ParameterRule.isInitial, Kind.isInitial_eq]

theorem succeeds_parameter (ht : t.Finished)
    (htargets : ∀ i n, (∀ p, t.parent i = some p → (t.kind p).isInitial = false) →
      t.targetIdent i = some n → t.kind n = .ident) (p : ParameterRule) :
    p.toRule.Succeeds t := by
  refine stateless_succeeds fun i _ => ?_
  rw [ParameterRule.check]
  split
  · exact ⟨_, rfl⟩
  · next hinitial =>
    split
    · exact ⟨_, rfl⟩
    · next target htarget =>
      split
      · exact ⟨_, rfl⟩
      · have hident : t.kind target = .ident := by
          refine htargets i target (fun p hp => ?_) htarget
          rw [isInitial_eq, hp] at hinitial
          exact Bool.eq_false_iff.mpr hinitial
        obtain ⟨found, hfound, -⟩ := ht.resolveDeclaration_refers hident
        rw [hfound]
        cases found with
        | none => exact ⟨_, rfl⟩
        | some d =>
          simp only [bind, Except.bind, pure, Except.pure]
          split
          · next hk =>
            obtain ⟨name, hname, -⟩ := ht.exists_declaredName (.inr hk)
            rw [hname]
            exact ⟨_, rfl⟩
          · exact ⟨_, rfl⟩

theorem BuiltIn.succeeds (ht : t.Finished)
    (htargets : ∀ i n, (∀ p, t.parent i = some p → (t.kind p).isInitial = false) →
      t.targetIdent i = some n → t.kind n = .ident) (h : r.BuiltIn) : r.Succeeds t := by
  cases h with
  | baseClass p => exact succeeds_baseClass p
  | dependency p => exact succeeds_dependency ht p
  | parameter p => exact succeeds_parameter ht htargets p

theorem Same.succeeds {r' : Rule} (h : r.Same r') (hr : r.Succeeds t) : r'.Succeeds t := by
  obtain ⟨s, rfl⟩ := h
  exact hr

theorem Visits.failures_eq_zero {s s' : r.State} {nodes : List Nat} {findings : List Finding}
    {failures : Nat} (h : r.Visits t s nodes s' findings failures) (hr : r.Succeeds t)
    (hnodes : ∀ i ∈ nodes, t.kind i ∈ r.interests) : failures = 0 := by
  induction h with
  | done s => rfl
  | @next s _ i nodes _ _ _ ih =>
    rw [hr s i (hnodes i List.mem_cons_self),
      ih fun j hj => hnodes j (List.mem_cons_of_mem i hj)]
    rfl

theorem Succeeds.failures_run (hr : r.Succeeds t) (f : SourceFile) :
    (r.run t f).failures = 0 := by
  obtain ⟨s, findings, failures, hvisits, hrun⟩ :=
    r.exists_visits_foldl_step t (Tree.root :: t.descendants Tree.root) (r.beginFile r.state f) #[]
      0
  have hzero : failures = 0 := by
    refine hvisits.failures_eq_zero hr fun i hi => ?_
    exact List.contains_iff_mem.mp (List.mem_filter.mp hi).2
  have hsame : r.run t f = ⟨{ r with state := s }, #[] ++ findings, 0 + failures⟩ := hrun
  rw [hsame, hzero]

end Rule

theorem failures_walk {t : Tree} {rules : List Rule} (h : ∀ r ∈ rules, r.Succeeds t)
    (f : SourceFile) : (walk t f rules).failures = 0 := by
  rw [walk_eq, Walk.ofRuns, List.map_map]
  apply List.sum_eq_zero
  intro n hn
  obtain ⟨r, hr, rfl⟩ := List.mem_map.mp hn
  exact (h r hr).failures_run f

namespace Analyzer

theorem ruleFailures_checkTree {a : Analyzer} {t : Tree} (hr : ∀ r ∈ a.rules, r.Succeeds t)
    (f : SourceFile) : (a.checkTree f t).1.ruleFailures = 0 := by
  rw [checkTree]
  split
  · rfl
  · exact failures_walk hr f

/-- The built-in rules never fail on Java: whatever their parameters, the configuration and the
files looked at before, the report on a source that parses counts no failures. No visit to a node
of its tree ends in an error, and an assignment other than an initializer or an annotation member
writes to an identifier, if to any node. -/
theorem builtIn_never_fails {a : Analyzer} {workingDirectory : Path} {root : Option Path}
    {rules : List Rule} {exclude : List String} {config : Config} {failOnParseError : Bool}
    (hrules : ∀ r ∈ rules, r.BuiltIn)
    (ha : build workingDirectory root rules exclude config (some Java.sourceParser)
      failOnParseError = .ok a) (history : List Call) {content : String} {t : Tree}
    (ht : Java.parse content = .ok t) :
    (∀ path, ∃ report, ((a.after history).analyzeSource path content).1 = .ok report ∧
      report.ruleFailures = 0) ∧
    (∀ r : Rule, r.BuiltIn → ∀ s i, t.kind i ∈ r.interests → (r.visit s t i).failure = none) ∧
    (∀ i n, t.kind i = .assign →
      (∀ p, t.parent i = some p →
        t.kind p ≠ .variableDef ∧ t.kind p ≠ .annotationMemberValuePair) →
      t.targetIdent i = some n → t.kind n = .ident) := by
  obtain ⟨T, hsound, hkind, hlayout, hfinished⟩ := Java.exists_sound_of_parse ht
  have hroot : T.kind ≠ .assign := by simp [hkind]
  have htargets := fun i n => hlayout.kind_targetIdent (i := i) (n := n) hsound hroot
  have hsucceeds : ∀ r : Rule, r.BuiltIn → r.Succeeds t :=
    fun r hr => hr.succeeds hfinished htargets
  obtain ⟨hsub, hparser, -⟩ := of_build ha
  refine ⟨fun path => ?_, hsucceeds, fun i n _ hp => htargets i n fun p hparent => ?_⟩
  · have hreset : ∀ r ∈ a.rules, r.Resets := fun r hr => (hrules r (hsub hr)).resets
    have hparse : Java.sourceParser.parse content = .ok t := ht
    have hzero := ruleFailures_checkTree fun r hr => hsucceeds r (hrules r (hsub hr))
    refine ⟨(a.checkTree (.ofRoot path content a.root) t).1, ?_, hzero _⟩
    rw [((Continues.refl a).after history).analyzeSource_eq hreset, analyzeSource_fst, hparser]
    simp only [hparse]
  · obtain ⟨hvariable, hmember⟩ := hp p hparent
    simp [Kind.isInitial_eq, hvariable, hmember]

theorem exists_of_isOk {ε : Type} {α : Type*} {x : Except ε α} (h : x.isOk = true) :
    ∃ a, x = .ok a := by
  cases x with
  | error e => cases h
  | ok a => exact ⟨a, rfl⟩

theorem builtIn_never_fails_defaults :
    ∃ a t, build ⟨"/"⟩ none Registry.all [] {} (some Java.sourceParser) false = .ok a ∧
      Java.parse "class A { void m(int p) { p = 1; } }" = .ok t ∧
      ∃ report, ((a.after [.source ⟨"/B.java"⟩ "package b;"]).analyzeSource ⟨"/A.java"⟩
        "class A { void m(int p) { p = 1; } }").1 = .ok report ∧
        report.ruleFailures = 0 := by
  have hrules : ∀ r ∈ Registry.all, r.BuiltIn := by
    simp only [Registry.all, List.forall_mem_cons]
    exact ⟨.baseClass _, .dependency _, .parameter _, List.forall_mem_nil _⟩
  have hbuild :
      (build ⟨"/"⟩ none Registry.all [] {} (some Java.sourceParser) false).isOk = true := by
    decide +kernel
  have hparse : (Java.parse "class A { void m(int p) { p = 1; } }").isOk = true := by
    decide +kernel
  obtain ⟨a, ha⟩ := exists_of_isOk hbuild
  obtain ⟨t, ht⟩ := exists_of_isOk hparse
  exact ⟨a, t, ha, ht, (builtIn_never_fails hrules ha _ ht).1 _⟩

end Analyzer

end ArchLint
