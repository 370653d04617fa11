import Mathlib.Data.List.Perm.Basic
import Mathlib.Tactic.Ring
import ArchLint.Proofs.Analyzer.Settings
import ArchLint.Proofs.Analyzer.Success

/-!
# The share of each rule

Which files a run comes to check does not depend on its rules. What it reports on them is put
together from shares, one for each rule that takes part: a rule that takes part twice has its share
in the report twice.
-/

namespace ArchLint

open Syntax

namespace Report

/-- What the rules report on these files, one file after the other. -/
def on (c : Config) (rules : List Rule) (files : List (SourceFile × Tree)) : Report where
  violations := files.flatMap fun (f, t) => rules.flatMap fun q => q.reported c t f
  filesChecked := files.length
  ruleFailures := (files.map fun (f, t) => (rules.map fun q => (q.run t f).failures).sum).sum

variable {c : Config} {q : Rule} {rules : List Rule} {files : List (SourceFile × Tree)}
  {v : Violation}

theorem append_assoc (r s u : Report) : (r.append s).append u = r.append (s.append u) := by
  simp [append, Nat.add_assoc]

theorem nothing_append (r : Report) : append {} r = r := by
  simp [append]

theorem append_on_nil (r : Report) (c : Config) (rules : List Rule) :
    r.append (on c rules []) = r := by
  simp [append, on]

theorem on_append (c : Config) (rules : List Rule) (files files' : List (SourceFile × Tree)) :
    on c rules (files ++ files') = (on c rules files).append (on c rules files') := by
  simp [append, on]

theorem exists_rule_of_mem_on (hv : v ∈ (on c rules files).violations) :
    ∃ q ∈ rules, v.rule = q.name := by
  obtain ⟨file, -, hfile⟩ := List.mem_flatMap.mp hv
  obtain ⟨q, hq, hreported⟩ := List.mem_flatMap.mp hfile
  exact ⟨q, hq, Rule.rule_of_mem_reported hreported⟩

theorem violations_on_cons (c : Config) (q : Rule) (rules : List Rule)
    (files : List (SourceFile × Tree)) : (on c (q :: rules) files).violations.Perm
      ((on c [q] files).violations ++ (on c rules files).violations) := by
  have hsplit := files.flatMap_append_perm (fun p => [q].flatMap fun q => q.reported c p.2 p.1)
    fun p => rules.flatMap fun q => q.reported c p.2 p.1
  simpa [on] using hsplit.symm

/-- A violation of a rule is reported as many times over as the rule takes part. -/
theorem count_on (hrules : ∀ r ∈ rules, r.name = q.name → r = q) (hv : v.rule = q.name) :
    (on c rules files).violations.count v =
      (rules.countP fun r => r.name = q.name) * (on c [q] files).violations.count v := by
  induction rules with
  | nil =>
    have hnone : v ∉ (on c [] files).violations := by
      intro hmem
      obtain ⟨r, hr, -⟩ := exists_rule_of_mem_on hmem
      cases hr
    rw [List.countP_nil, Nat.zero_mul, List.count_eq_zero.mpr hnone]
  | cons r rules ih =>
    have hrest := ih fun r' hr' => hrules r' (List.mem_cons_of_mem r hr')
    rw [(violations_on_cons c r rules files).count_eq, List.count_append, hrest]
    by_cases hname : r.name = q.name
    · obtain rfl := hrules r List.mem_cons_self hname
      rw [List.countP_cons_of_pos (by simp)]
      ring
    · have hnone : (on c [r] files).violations.count v = 0 := by
        apply List.count_eq_zero.mpr
        intro hmem
        obtain ⟨r', hr', hrule⟩ := exists_rule_of_mem_on hmem
        obtain rfl := List.mem_singleton.mp hr'
        exact hname (hrule.symm.trans hv)
      rw [hnone, List.countP_cons_of_neg (by simpa using hname), Nat.zero_add]

theorem ruleFailures_on (h : ∀ p ∈ files, ∀ q ∈ rules, q.Succeeds p.2) :
    (on c rules files).ruleFailures = 0 := by
  apply List.sum_eq_zero
  intro n hn
  obtain ⟨p, hp, rfl⟩ := List.mem_map.mp hn
  apply List.sum_eq_zero
  intro m hm
  obtain ⟨q, hq, rfl⟩ := List.mem_map.mp hm
  exact (h p hp q hq).failures_run p.1

end Report

namespace Analyzer

variable {a b : Analyzer} {v : Volume} {path : Path} {paths : List Path}
  {file : Option (SourceFile × Tree)} {checked : List (SourceFile × Tree)}

/-- The file at a path together with its tree. It is not checked if it does not parse or if its
package is left out. -/
def fileAt (a : Analyzer) (v : Volume) (path : Path) :
    Except AnalyzerError (Option (SourceFile × Tree)) :=
  match v.readText path with
  | .error e => .error (.io e)
  | .ok content =>
    match a.parser with
    | none => .error .noParser
    | some parser =>
      match parser.parse content with
      | .error e => if a.failOnParseError then .error (.parse path e) else .ok none
      | .ok t => .ok (if a.ignores t then none else some (.ofRoot path content a.root, t))

def filesAt (a : Analyzer) (v : Volume) :
    List Path → Except AnalyzerError (List (SourceFile × Tree))
  | [] => .ok []
  | path :: paths =>
    match a.fileAt v path with
    | .error e => .error e
    | .ok file => (a.filesAt v paths).map (file.toList ++ ·)

def checkedFiles (a : Analyzer) (v : Volume) : Except AnalyzerError (List (SourceFile × Tree)) :=
  (a.discover v).bind fun paths => a.filesAt v paths

theorem checkedFiles_rules (a : Analyzer) (rules : List Rule) (v : Volume) :
    ({ a with rules } : Analyzer).checkedFiles v = a.checkedFiles v := by
  have hat : ∀ paths, ({ a with rules } : Analyzer).filesAt v paths = a.filesAt v paths := by
    intro paths
    induction paths with
    | nil => rfl
    | cons path paths ih =>
      rw [filesAt, filesAt, ih]
      rfl
  simp only [checkedFiles, hat]
  rfl

theorem build_eq (workingDirectory : Path) (root : Option Path) (rules : List Rule)
    (exclude : List String) (config : Config) (parser : Option SourceParser)
    (failOnParseError : Bool) :
    build workingDirectory root rules exclude config parser failOnParseError =
      (build workingDirectory root [] exclude config parser failOnParseError).map fun a =>
        { a with rules := rules.filter fun q => config.isEnabled q.name } := by
  rw [build, build]
  cases (exclude ++ config.analyzer.exclude).mapM Glob.parse with
  | error cause => rfl
  | ok excludes => rfl

theorem parses_of_fileAt {parser : SourceParser} (hparser : a.parser = some parser)
    (h : a.fileAt v path = .ok file) :
    ∀ p ∈ file.toList, ∃ content, parser.parse content = .ok p.2 := by
  simp only [fileAt, hparser] at h
  split at h
  · cases h
  · next content _ =>
    split at h
    · split at h
      · cases h
      · cases h
        exact List.forall_mem_nil _
    · next t hparse =>
      cases h
      split
      · exact List.forall_mem_nil _
      · exact List.forall_mem_singleton.mpr ⟨content, hparse⟩

theorem parses_of_filesAt {parser : SourceParser} (hparser : a.parser = some parser)
    (h : a.filesAt v paths = .ok checked) :
    ∀ p ∈ checked, ∃ content, parser.parse content = .ok p.2 := by
  induction paths generalizing checked with
  | nil =>
    cases h
    exact List.forall_mem_nil _
  | cons path paths ih =>
    rw [filesAt] at h
    split at h
    · cases h
    · next file hfile =>
      cases hrest : a.filesAt v paths with
      | error e =>
        rw [hrest] at h
        cases h
      | ok rest =>
        rw [hrest] at h
        cases h
        exact List.forall_mem_append.mpr ⟨parses_of_fileAt hparser hfile, ih hrest⟩

theorem parses_of_checkedFiles {parser : SourceParser} (hparser : a.parser = some parser)
    (h : a.checkedFiles v = .ok checked) :
    ∀ p ∈ checked, ∃ content, parser.parse content = .ok p.2 := by
  rw [checkedFiles] at h
  cases hpaths : a.discover v with
  | error e =>
    rw [hpaths] at h
    cases h
  | ok paths =>
    rw [hpaths] at h
    exact parses_of_filesAt hparser h

theorem report_checkTree (a : Analyzer) (f : SourceFile) (t : Tree) : (a.checkTree f t).1 =
    .on a.config a.rules (if a.ignores t then none else some (f, t)).toList := by
  by_cases hignores : a.ignores t = true
  · rw [if_pos hignores, checkTree_of_ignores hignores]
    rfl
  · rw [if_neg hignores, checkTree_of_not_ignores hignores]
    simp [Report.on]

section Reset

variable (hreset : ∀ r ∈ a.rules, r.Resets)

include hreset

/-- A step of a run adds what the rules report on the file at hand, if it is checked, or ends the
run. -/
theorem Continues.analyzeFiles_cons (h : Continues a b) (path : Path) (paths : List Path)
    (report : Report) :
    ∃ d, Continues a d ∧ analyzeFiles v (path :: paths) report b =
      match a.fileAt v path with
      | .error e => (.error e, d)
      | .ok file => analyzeFiles v paths (report.append (.on a.config a.rules file.toList)) d := by
  rw [analyzeFiles, fileAt]
  cases hread : v.readText path with
  | error cause => exact ⟨b, h, rfl⟩
  | ok content =>
    obtain ⟨r, d, hsource⟩ : ∃ r d, b.analyzeSource path content = (r, d) := ⟨_, _, rfl⟩
    have hnext : Continues a d := by simpa only [hsource] using h.analyzeSource path content
    have hr : r = (a.analyzeSource path content).1 := by
      simpa only [hsource] using h.analyzeSource_eq hreset path content
    rw [analyzeSource_fst] at hr
    refine ⟨d, hnext, ?_⟩
    simp only [hsource]
    cases hparser : a.parser with
    | none =>
      simp only [hparser] at hr
      rw [hr]
    | some parser =>
      simp only [hparser] at hr
      cases hparse : parser.parse content with
      | error cause =>
        simp only [hparse] at hr ⊢
        simp only [hr, hnext.failOnParseError]
        by_cases hfail : a.failOnParseError = true
        · simp only [if_pos hfail]
        · simp only [if_neg hfail, Option.toList_none, Report.append_on_nil]
      | ok t =>
        simp only [hparse] at hr ⊢
        simp only [hr, report_checkTree]

theorem Continues.analyzeFiles_fst (h : Continues a b) (report : Report) :
    (analyzeFiles v paths report b).1 =
      (a.filesAt v paths).map fun checked => report.append (.on a.config a.rules checked) := by
  induction paths generalizing b report with
  | nil =>
    simp only [filesAt, Except.map, Report.append_on_nil]
    rfl
  | cons path paths ih =>
    obtain ⟨d, hd, hstep⟩ := h.analyzeFiles_cons hreset path paths report
    rw [hstep, filesAt]
    cases a.fileAt v path with
    | error e => rfl
    | ok file =>
      simp only [ih hd]
      cases a.filesAt v paths with
      | error e => rfl
      | ok rest => simp only [Except.map, Report.append_assoc, ← Report.on_append]

theorem analyze_eq : (a.analyze v).1 =
    (a.checkedFiles v).map fun checked => (Report.on a.config a.rules checked).sort := by
  rw [analyze, checkedFiles]
  cases a.discover v with
  | error e => rfl
  | ok paths =>
    obtain ⟨r, d, hr⟩ : ∃ r d, analyzeFiles v paths {} a = (r, d) := ⟨_, _, rfl⟩
    have hrun : (analyzeFiles v paths {} a).1 = _ :=
      (Continues.refl a).analyzeFiles_fst hreset {}
    simp only [hr] at hrun ⊢
    subst hrun
    simp only [Except.bind]
    cases a.filesAt v paths with
    | error e => rfl
    | ok checked => simp only [Except.map, Report.nothing_append]

end Reset

theorem analyze_with (a : Analyzer) {rules : List Rule} (hreset : ∀ r ∈ rules, r.Resets)
    (v : Volume) : (({ a with rules } : Analyzer).analyze v).1 =
      (a.checkedFiles v).map fun checked => (Report.on a.config rules checked).sort := by
  rw [analyze_eq hreset, checkedFiles_rules]

end Analyzer

end ArchLint
