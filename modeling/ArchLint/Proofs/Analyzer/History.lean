import Mathlib.Data.List.Basic
import ArchLint.Analyzer
import ArchLint.Proofs.Report.Order
import ArchLint.Proofs.Rule.Walk

/-!
# History of an analyzer

An analyzer keeps its rules from file to file. Whatever it has looked at before, it stays the
analyzer it was built as, up to the states of its rules; when every rule resets, no answer
depends on them. A run over many files is then made of answers that a fresh analyzer gives to
each file alone.
-/

namespace ArchLint

open Syntax

namespace Analyzer

inductive Call where
  | tree (f : SourceFile) (t : Tree)
  | source (path : Path) (content : String)

def afterCall (a : Analyzer) : Call → Analyzer
  | .tree f t => (a.checkTree f t).2
  | .source path content => (a.analyzeSource path content).2

def after (a : Analyzer) (history : List Call) : Analyzer :=
  history.foldl afterCall a

/-- One analyzer at two moments: only the states of its rules may differ. -/
def Continues (a b : Analyzer) : Prop :=
  ∃ rules, b = { a with rules := rules } ∧ List.Forall₂ Rule.Same a.rules rules

def tree? (a : Analyzer) (v : Volume) (path : Path) : Option Tree :=
  match v.readText path, a.parser with
  | .ok content, some parser => (parser.parse content).toOption
  | _, _ => none

/-- The report on one file that can be read and parses. -/
def report? (a : Analyzer) (v : Volume) (path : Path) : Option Report :=
  match v.readText path with
  | .ok content => (a.analyzeSource path content).1.toOption
  | .error _ => none

variable {a b : Analyzer}

theorem forall₂_same_trans {rules rules' rules'' : List Rule}
    (h : List.Forall₂ Rule.Same rules rules') (h' : List.Forall₂ Rule.Same rules' rules'') :
    List.Forall₂ Rule.Same rules rules'' := by
  induction h generalizing rules'' with
  | nil => exact h'
  | cons hsame _ ih =>
    cases h' with
    | cons hsame' h' => exact .cons (hsame.trans hsame') (ih h')

theorem Continues.refl (a : Analyzer) : Continues a a :=
  ⟨a.rules, rfl, List.forall₂_same.mpr fun r _ => Rule.Same.refl r⟩

theorem Continues.checkTree (h : Continues a b) (f : SourceFile) (t : Tree) :
    Continues a (b.checkTree f t).2 := by
  obtain ⟨rules, rfl, hrules⟩ := h
  rw [Analyzer.checkTree]
  split
  · exact ⟨rules, rfl, hrules⟩
  · exact ⟨_, rfl, forall₂_same_trans hrules (forall₂_same_walk t f rules)⟩

theorem Continues.analyzeSource (h : Continues a b) (path : Path) (content : String) :
    Continues a (b.analyzeSource path content).2 := by
  rw [Analyzer.analyzeSource]
  split
  · exact h
  · split
    · exact h
    · exact h.checkTree _ _

theorem Continues.afterCall (h : Continues a b) (c : Call) : Continues a (b.afterCall c) := by
  cases c with
  | tree f t => exact h.checkTree f t
  | source path content => exact h.analyzeSource path content

theorem Continues.after (h : Continues a b) (history : List Call) :
    Continues a (b.after history) := by
  induction history generalizing b with
  | nil => exact h
  | cons c history ih => exact ih (h.afterCall c)

theorem Continues.root (h : Continues a b) : b.root = a.root := by
  obtain ⟨rules, rfl, -⟩ := h
  rfl

theorem Continues.parser (h : Continues a b) : b.parser = a.parser := by
  obtain ⟨rules, rfl, -⟩ := h
  rfl

theorem Continues.failOnParseError (h : Continues a b) :
    b.failOnParseError = a.failOnParseError := by
  obtain ⟨rules, rfl, -⟩ := h
  rfl

theorem Continues.discover (h : Continues a b) (v : Volume) : b.discover v = a.discover v := by
  obtain ⟨rules, rfl, -⟩ := h
  rfl

theorem analyzeSource_fst (a : Analyzer) (path : Path) (content : String) :
    (a.analyzeSource path content).1 =
      match a.parser with
      | none => .error .noParser
      | some parser =>
        match parser.parse content with
        | .error e => .error (.parse path e)
        | .ok t => .ok (a.checkTree (.ofRoot path content a.root) t).1 := by
  cases hp : a.parser with
  | none => simp only [analyzeSource, hp]
  | some parser => cases hparse : parser.parse content <;> simp only [analyzeSource, hp, hparse]

section Reset

variable (hreset : ∀ r ∈ a.rules, r.Resets)

include hreset

theorem Continues.checkTree_eq (h : Continues a b) (f : SourceFile) (t : Tree) :
    (b.checkTree f t).1 = (a.checkTree f t).1 := by
  obtain ⟨rules, rfl, hrules⟩ := h
  have hignores : ({ a with rules := rules } : Analyzer).ignores t = a.ignores t := rfl
  rw [Analyzer.checkTree, Analyzer.checkTree, hignores, walk_eq_of_same hrules hreset t f]
  split <;> rfl

theorem Continues.analyzeSource_eq (h : Continues a b) (path : Path) (content : String) :
    (b.analyzeSource path content).1 = (a.analyzeSource path content).1 := by
  simp only [analyzeSource_fst, h.parser, h.root, h.checkTree_eq hreset]

/-- A run over readable files adds up the reports on those that parse. -/
theorem Continues.analyzeFiles_eq (h : Continues a b) {parser : SourceParser}
    (hparser : a.parser = some parser) (hfail : a.failOnParseError = false) {v : Volume}
    {paths : List Path} (hread : ∀ p ∈ paths, ∃ content, v.readText p = .ok content)
    (report : Report) :
    (analyzeFiles v paths report b).1 =
      .ok ((paths.filterMap (a.report? v)).foldl Report.append report) := by
  -- the analyzer changes from file to file; that it still continues `a` is the invariant
  induction paths generalizing b report with
  | nil => rfl
  | cons p paths ih =>
    obtain ⟨content, hcontent⟩ := hread p List.mem_cons_self
    have hrest := fun q hq => hread q (List.mem_cons_of_mem p hq)
    have hreport : a.report? v p = (a.analyzeSource p content).1.toOption := by
      rw [report?, hcontent]
    obtain ⟨r, c, hrc⟩ : ∃ r c, b.analyzeSource p content = (r, c) := ⟨_, _, rfl⟩
    have hnext : Continues a c := by simpa only [hrc] using h.analyzeSource p content
    have heq : r = (a.analyzeSource p content).1 := by
      simpa only [hrc] using h.analyzeSource_eq hreset p content
    rw [analyzeFiles, hcontent]
    rw [analyzeSource_fst, hparser] at heq hreport
    simp only [hrc]
    cases hparse : parser.parse content with
    | error e =>
      simp only [hparse] at heq hreport
      subst heq
      simp only [hnext.failOnParseError, hfail, List.filterMap_cons, hreport]
      exact ih hnext hrest report
    | ok t =>
      simp only [hparse] at heq hreport
      subst heq
      simp only [List.filterMap_cons, hreport]
      exact ih hnext hrest _

end Reset

theorem filesChecked_checkTree (a : Analyzer) (f : SourceFile) (t : Tree) :
    (a.checkTree f t).1.filesChecked = if a.ignores t then 0 else 1 := by
  rw [checkTree]
  split <;> rfl

theorem filesChecked_report? (a : Analyzer) (v : Volume) (p : Path) :
    (a.report? v p).map Report.filesChecked =
      (a.tree? v p).map fun t => if a.ignores t then 0 else 1 := by
  rw [report?, tree?]
  cases v.readText p with
  | error e => rfl
  | ok content =>
    simp only [analyzeSource_fst]
    cases a.parser with
    | none => rfl
    | some parser =>
      cases hparse : parser.parse content with
      | error e => simp [hparse, Except.toOption]
      | ok t => simp [hparse, Except.toOption, filesChecked_checkTree]

theorem sum_filesChecked (a : Analyzer) (v : Volume) (paths : List Path) :
    ((paths.filterMap (a.report? v)).map Report.filesChecked).sum =
      (paths.filterMap (a.tree? v)).countP fun t => !a.ignores t := by
  rw [List.map_filterMap, funext (a.filesChecked_report? v)]
  induction paths with
  | nil => rfl
  | cons p paths ih =>
    cases hp : a.tree? v p with
    | none => simpa only [List.filterMap_cons, hp, Option.map_none] using ih
    | some t =>
      simp only [List.filterMap_cons, hp, Option.map_some, List.sum_cons, List.countP_cons, ih]
      cases a.ignores t <;> simp [Nat.add_comm]

theorem exists_parser_of_discover {v : Volume} {paths : List Path}
    (h : a.discover v = .ok paths) : ∃ parser, a.parser = some parser := by
  rw [discover] at h
  cases hp : a.parser with
  | none => simp [hp] at h
  | some parser => exact ⟨parser, rfl⟩

theorem pairwise_of_discover {v : Volume} {paths : List Path} (h : a.discover v = .ok paths) :
    paths.Pairwise fun p q => p.compare q ≠ .gt := by
  rw [discover] at h
  split at h
  · cases h
  · split at h
    · cases h
    · cases h
      have hsorted := List.pairwise_mergeSort (ne_gt_trans Path.compare) (ne_gt_total Path.compare)
      exact (hsorted _).imp fun hpq => by simpa using hpq

theorem analyze_fst {v : Volume} {paths : List Path} (h : a.discover v = .ok paths)
    {report : Report} (hfiles : (analyzeFiles v paths {} a).1 = .ok report) :
    (a.analyze v).1 = .ok report.sort := by
  rw [analyze, h]
  obtain ⟨r, c, hrc⟩ : ∃ r c, analyzeFiles v paths {} a = (r, c) := ⟨_, _, rfl⟩
  rw [hrc] at hfiles
  cases hfiles
  simp only [hrc]

theorem of_build {workingDirectory : Path} {root : Option Path} {rules : List Rule}
    {exclude : List String} {config : Config} {parser : Option SourceParser}
    {failOnParseError : Bool}
    (ha : build workingDirectory root rules exclude config parser failOnParseError = .ok a) :
    a.rules ⊆ rules ∧ a.parser = parser ∧ a.failOnParseError = failOnParseError := by
  rw [build] at ha
  split at ha
  · cases ha
  · cases ha
    exact ⟨List.filter_subset_self rules, rfl, rfl⟩

/-- What an analyzer with built-in rules has looked at before never shows: it answers the next
call as if it were new. A run over readable files, with files that do not parse passed over, is
the stable sort of what a new analyzer reports on each file alone. -/
theorem answers_independent_of_history {workingDirectory : Path} {root : Option Path}
    {rules : List Rule} {exclude : List String} {config : Config}
    {parser : Option SourceParser} {failOnParseError : Bool}
    (hrules : ∀ r ∈ rules, r.BuiltIn)
    (ha : build workingDirectory root rules exclude config parser failOnParseError = .ok a)
    (history : List Call) :
    (∀ f t, ((a.after history).checkTree f t).1 = (a.checkTree f t).1) ∧
    (∀ path content,
      ((a.after history).analyzeSource path content).1 = (a.analyzeSource path content).1) ∧
    (failOnParseError = false → ∀ v paths, (a.after history).discover v = .ok paths →
      (∀ p ∈ paths, ∃ content, v.readText p = .ok content) →
      (paths.Pairwise fun p q => p.compare q ≠ .gt) ∧
      ∃ report, ((a.after history).analyze v).1 = .ok report ∧
        StablySorted Report.precedes
          ((paths.filterMap (a.report? v)).flatMap Report.violations) report.violations ∧
        report.filesChecked = (paths.filterMap (a.tree? v)).countP (fun t => !a.ignores t) ∧
        report.ruleFailures = ((paths.filterMap (a.report? v)).map Report.ruleFailures).sum) := by
  obtain ⟨hsub, -, hfail⟩ := of_build ha
  have hreset : ∀ r ∈ a.rules, r.Resets := fun r hr => (hrules r (hsub hr)).resets
  have hlater := (Continues.refl a).after history
  refine ⟨hlater.checkTree_eq hreset, hlater.analyzeSource_eq hreset, ?_⟩
  intro hfalse v paths hpaths hread
  have hfresh := (hlater.discover v).symm.trans hpaths
  obtain ⟨parser, hparser⟩ := exists_parser_of_discover hfresh
  have hfiles := hlater.analyzeFiles_eq hreset hparser (hfail.trans hfalse) hread {}
  rw [Report.foldl_append] at hfiles
  refine ⟨pairwise_of_discover hfresh, _, analyze_fst hpaths hfiles, ?_, ?_, ?_⟩
  · exact Report.stablySorted_sort ⟨_, _, _⟩
  · rw [← sum_filesChecked]
    exact Nat.zero_add _
  · exact Nat.zero_add _

/-- A language of two texts: a package `a` that imports `b.c`, and the import alone. -/
def sampleParser : SourceParser where
  language := "sample"
  extensions := ["s"]
  parse content :=
    if content = "p" then
      (Tree.ofSteps [.start .compilationUnit none 1, .start .packageDef none 1, .qualified "a" 1,
        .finish, .start .importDef none 2, .qualified "b.c" 2, .finish, .finish]).mapError .tree
    else if content = "i" then
      (Tree.ofSteps [.start .compilationUnit none 1, .start .importDef none 1,
        .qualified "b.c" 1, .finish, .finish]).mapError .tree
    else .error (.syntaxFault 1)

def sampleAnalyzer : Analyzer where
  root := ⟨"/"⟩
  rules := [({ source := "a", target := "b" } : DependencyRule).toRule]
  excludes := []
  config := { analyzer := { root := ⟨"/"⟩, exclude := [] } }
  parser := some sampleParser
  failOnParseError := false

def sampleVolume : Volume :=
  .directory [("p.s", .file "p".toUTF8), ("q.s", .file "(".toUTF8)]

theorem answers_independent_of_restricted_file :
    build ⟨"/"⟩ none [({ source := "a", target := "b" } : DependencyRule).toRule] []
        { analyzer := { root := ⟨"/"⟩, exclude := [] } } (some sampleParser) false =
      .ok sampleAnalyzer ∧
    ((sampleAnalyzer.after [.source ⟨"/p.s"⟩ "p", .source ⟨"/q.s"⟩ "("]).analyzeSource
      ⟨"/r.s"⟩ "i").1 = (sampleAnalyzer.analyzeSource ⟨"/r.s"⟩ "i").1 ∧
    ∃ report,
      ((sampleAnalyzer.after [.source ⟨"/p.s"⟩ "p"]).analyze sampleVolume).1 = .ok report ∧
      report.filesChecked = 1 := by
  have hrules : ∀ r ∈ [({ source := "a", target := "b" } : DependencyRule).toRule], r.BuiltIn := by
    intro r hr
    rw [List.mem_singleton.mp hr]
    exact .dependency _
  have ha : build ⟨"/"⟩ none [({ source := "a", target := "b" } : DependencyRule).toRule] []
      { analyzer := { root := ⟨"/"⟩, exclude := [] } } (some sampleParser) false =
      .ok sampleAnalyzer := rfl
  have hfound : Discovery.files? sampleAnalyzer.config.analyzer.respectGitignore sampleVolume
      sampleAnalyzer.root = some [⟨"/p.s"⟩, ⟨"/q.s"⟩] := by decide +kernel
  have hsources : [(⟨"/p.s"⟩ : Path), ⟨"/q.s"⟩].filter (fun p =>
      p.extension?.any sampleParser.extensions.contains && !sampleAnalyzer.isExcluded p) =
      [⟨"/p.s"⟩, ⟨"/q.s"⟩] := by decide +kernel
  have hpaths : sampleAnalyzer.discover sampleVolume = .ok [⟨"/p.s"⟩, ⟨"/q.s"⟩] := by
    have hparser : sampleAnalyzer.parser = some sampleParser := rfl
    simp only [discover, hparser, hfound, hsources]
    rw [List.mergeSort_of_pairwise (by decide +kernel)]
  have hread : ∀ p ∈ [(⟨"/p.s"⟩ : Path), ⟨"/q.s"⟩],
      ∃ content, sampleVolume.readText p = .ok content := by
    intro p hp
    rcases List.mem_pair.mp hp with rfl | rfl
    · exact ⟨"p", by decide +kernel⟩
    · exact ⟨"(", by decide +kernel⟩
  have hchecked : ([⟨"/p.s"⟩, ⟨"/q.s"⟩].filterMap (sampleAnalyzer.tree? sampleVolume)).countP
      (fun t => !sampleAnalyzer.ignores t) = 1 := by decide +kernel
  have hlater := (Continues.refl sampleAnalyzer).after [.source ⟨"/p.s"⟩ "p"]
  refine ⟨ha, (answers_independent_of_history hrules ha _).2.1 _ _, ?_⟩
  obtain ⟨-, report, hreport, -, hfiles, -⟩ :=
    (answers_independent_of_history hrules ha [.source ⟨"/p.s"⟩ "p"]).2.2 rfl _ _
      ((hlater.discover _).trans hpaths) hread
  exact ⟨report, hreport, hfiles.trans hchecked⟩

end Analyzer

end ArchLint
