import Mathlib.Data.List.Nodup
import ArchLint.Command
import ArchLint.Proofs.Analyzer.History

/-!
# Settings of one rule

A configuration can switch a rule off and give it another severity. Two analyzers whose
configurations differ in the section of one rule only say the same about all other rules, however
many files they have looked at before. What the settings decide is whether the rule takes part, and
how severe its violations are; a check passes if nothing that is not allowed is as severe as an
error.
-/

namespace ArchLint

open Syntax

namespace Config

variable {c c' : Config} {r name : String}

/-- Two configurations that agree outside the section of one rule. -/
structure AgreeApartFrom (r : String) (c c' : Config) : Prop where
  analyzer : c'.analyzer = c.analyzer
  rules : ∀ name, name ≠ r → c'.rule? name = c.rule? name

def severityOf (c : Config) (q : Rule) : Severity :=
  (c.severity? q.name).getD q.severity

theorem AgreeApartFrom.isEnabled (h : AgreeApartFrom r c c') (hname : name ≠ r) :
    c'.isEnabled name = c.isEnabled name := by
  rw [Config.isEnabled, Config.isEnabled, h.rules name hname]

theorem AgreeApartFrom.severity? (h : AgreeApartFrom r c c') (hname : name ≠ r) :
    c'.severity? name = c.severity? name := by
  rw [Config.severity?, Config.severity?, h.rules name hname]

theorem AgreeApartFrom.isEnabled_eq (h : AgreeApartFrom r c c') (hr : c.isEnabled r = true)
    (hr' : c'.isEnabled r = true) (name : String) : c'.isEnabled name = c.isEnabled name := by
  by_cases hname : name = r
  · rw [hname, hr, hr']
  · exact h.isEnabled hname

end Config

namespace Rule

variable {q q' : Rule} {c c' : Config} {t : Tree} {f : SourceFile} {v : Violation}

theorem Same.name_eq (h : q.Same q') : q'.name = q.name := by
  obtain ⟨s, rfl⟩ := h
  rfl

theorem Same.severity_eq (h : q.Same q') : q'.severity = q.severity := by
  obtain ⟨s, rfl⟩ := h
  rfl

theorem rule_of_mem_complaints (hv : v ∈ q.complaints t f) : v.rule = q.name := by
  obtain ⟨finding, -, hfinding⟩ := mem_complaints.mp hv
  rw [eq_complaint hfinding]
  rfl

theorem severity_of_mem_complaints (hv : v ∈ q.complaints t f) : v.severity = q.severity := by
  obtain ⟨finding, -, hfinding⟩ := mem_complaints.mp hv
  rw [eq_complaint hfinding]
  rfl

def reported (q : Rule) (c : Config) (t : Tree) (f : SourceFile) : List Violation :=
  (q.complaints t f).map (Analyzer.withSeverity c)

theorem mem_reported : v ∈ q.reported c t f ↔
    ∃ w ∈ q.complaints t f, v = { w with severity := c.severityOf q } := by
  have hsevere : ∀ w ∈ q.complaints t f,
      Analyzer.withSeverity c w = { w with severity := c.severityOf q } := by
    intro w hw
    rw [Analyzer.withSeverity, rule_of_mem_complaints hw, severity_of_mem_complaints hw]
    rfl
  rw [reported, List.mem_map]
  constructor
  · rintro ⟨w, hw, rfl⟩
    exact ⟨w, hw, hsevere w hw⟩
  · rintro ⟨w, hw, rfl⟩
    exact ⟨w, hw, hsevere w hw⟩

theorem rule_of_mem_reported (hv : v ∈ q.reported c t f) : v.rule = q.name := by
  obtain ⟨w, hw, rfl⟩ := mem_reported.mp hv
  have hrule : w.rule = q.name := rule_of_mem_complaints hw
  exact hrule

theorem reported_congr (h : c'.severity? q.name = c.severity? q.name) :
    q.reported c' t f = q.reported c t f := by
  apply List.map_congr_left
  intro v hv
  rw [Analyzer.withSeverity, Analyzer.withSeverity, rule_of_mem_complaints hv, h]

end Rule

theorem Report.hasErrors_eq_false_iff {report : Report} : report.hasErrors = false ↔
    ∀ v ∈ report.violations, v.severity.rank < Severity.error.rank := by
  simp [hasErrors, hasAtLeast]

theorem Report.hasErrors_append {report other : Report} :
    (report.append other).hasErrors = (report.hasErrors || other.hasErrors) :=
  List.any_append

theorem Report.hasErrors_sort (report : Report) : report.sort.hasErrors = report.hasErrors :=
  (List.mergeSort_perm _ _).any_eq

namespace Analyzer

variable {a a' : Analyzer} {rules : List Rule} {r : String} {t : Tree} {f : SourceFile}

theorem checkTree_of_ignores (h : a.ignores t = true) : a.checkTree f t = ({}, a) := by
  rw [checkTree, if_pos h]

theorem checkTree_of_not_ignores (h : ¬ a.ignores t = true) : a.checkTree f t =
    ({ violations := a.rules.flatMap fun q => q.reported a.config t f
       filesChecked := 1
       ruleFailures := (a.rules.map fun q => (q.run t f).failures).sum },
      { a with rules := a.rules.map fun q => (q.run t f).rule }) := by
  rw [checkTree, if_neg h, walk_eq]
  simp only [Walk.ofRuns, List.flatMap_map, List.map_flatMap, List.map_map]
  rfl

/-- No finding of a rule that takes part is at once not allowed and as severe as an error. -/
def PassesOn (a : Analyzer) (f : SourceFile) (t : Tree) : Prop :=
  a.ignores t = false → ∀ q ∈ a.rules, ∀ finding ∈ (q.run t f).findings.toList,
    (Allowance.find? f.content finding.line q.name).isSome = true ∨
      (a.config.severityOf q).rank < Severity.error.rank

theorem hasErrors_checkTree (a : Analyzer) (f : SourceFile) (t : Tree) :
    (a.checkTree f t).1.hasErrors = false ↔ a.PassesOn f t := by
  by_cases hignores : a.ignores t = true
  · rw [checkTree_of_ignores hignores]
    constructor
    · intro _ hfalse
      rw [hignores] at hfalse
      cases hfalse
    · intro _
      rfl
  · rw [checkTree_of_not_ignores hignores, Report.hasErrors_eq_false_iff]
    simp only [List.mem_flatMap, Rule.mem_reported]
    constructor
    · intro h _ q hq finding hfinding
      by_cases hallowed : (Allowance.find? f.content finding.line q.name).isSome = true
      · exact .inl hallowed
      · right
        have hsome := mt Rule.violation?_eq_none_iff.mp hallowed
        obtain ⟨w, hw⟩ := Option.ne_none_iff_exists'.mp hsome
        exact h _ ⟨q, hq, w, Rule.mem_complaints.mpr ⟨finding, hfinding, hw⟩, rfl⟩
    · rintro h _ ⟨q, hq, w, hw, rfl⟩
      obtain ⟨finding, hfinding, hviolation⟩ := Rule.mem_complaints.mp hw
      rcases h (Bool.eq_false_iff.mpr hignores) q hq finding hfinding with hallowed | hbelow
      · rw [Rule.violation?_eq_none_iff.mpr hallowed] at hviolation
        cases hviolation
      · exact hbelow

/-- Two analyzers that were given these rules and differ in their settings of one. Both have the
rules in the same states, each without those that it disables. -/
structure Twins (r : String) (rules : List Rule) (a a' : Analyzer) : Prop where
  root : a'.root = a.root
  parser : a'.parser = a.parser
  config : a.config.AgreeApartFrom r a'.config
  left : a.rules = rules.filter fun q => a.config.isEnabled q.name
  right : a'.rules = rules.filter fun q => a'.config.isEnabled q.name

theorem map_name_of_same {rules' : List Rule} (h : List.Forall₂ Rule.Same rules rules') :
    rules'.map Rule.name = rules.map Rule.name := by
  induction h with
  | nil => rfl
  | cons hsame _ ih => rw [List.map_cons, List.map_cons, hsame.name_eq, ih]

theorem exists_same_of_mem {rules' : List Rule} {q : Rule}
    (h : List.Forall₂ Rule.Same rules rules') (hq : q ∈ rules) : ∃ q' ∈ rules', q.Same q' := by
  induction h with
  | nil => cases hq
  | @cons first first' _ _ hsame _ ih =>
    rcases List.mem_cons.mp hq with rfl | hq
    · exact ⟨first', List.mem_cons_self, hsame⟩
    · obtain ⟨q', hq', hqq'⟩ := ih hq
      exact ⟨q', List.mem_cons_of_mem _ hq', hqq'⟩

theorem forall₂_filter_of_same {rules' : List Rule} (h : List.Forall₂ Rule.Same rules rules')
    (p : String → Bool) : List.Forall₂ Rule.Same (rules.filter fun q => p q.name)
      (rules'.filter fun q => p q.name) := by
  induction h with
  | nil => exact .nil
  | cons hsame _ ih =>
    rw [List.filter_cons, List.filter_cons, hsame.name_eq]
    split
    · exact .cons hsame ih
    · exact ih

theorem filter_map_run (p : String → Bool) (t : Tree) (f : SourceFile) (rules : List Rule) :
    ((rules.filter fun q => p q.name).map fun q => (q.run t f).rule) =
      (rules.map fun q => (q.run t f).rule).filter fun q => p q.name := by
  rw [List.filter_map]
  congr 1
  apply List.filter_congr
  intro q _
  rw [Function.comp_apply, (q.same_run t f).name_eq]

namespace Twins

theorem ignores (h : Twins r rules a a') (t : Tree) : a'.ignores t = a.ignores t := by
  rw [Analyzer.ignores, Analyzer.ignores, h.config.analyzer]

theorem checkTree (h : Twins r rules a a') (f : SourceFile) (t : Tree) :
    ∃ rules', List.Forall₂ Rule.Same rules rules' ∧
      Twins r rules' (a.checkTree f t).2 (a'.checkTree f t).2 := by
  by_cases hignores : a.ignores t = true
  · refine ⟨rules, List.forall₂_same.mpr fun q _ => .refl q, ?_⟩
    rw [checkTree_of_ignores hignores, checkTree_of_ignores ((h.ignores t).trans hignores)]
    exact h
  · refine ⟨rules.map fun q => (q.run t f).rule, ?_, ?_⟩
    · rw [List.forall₂_map_right_iff, List.forall₂_same]
      intro q _
      exact q.same_run t f
    · rw [checkTree_of_not_ignores hignores,
        checkTree_of_not_ignores (by rwa [h.ignores t])]
      constructor
      · exact h.root
      · exact h.parser
      · exact h.config
      · rw [h.left]
        exact filter_map_run _ t f rules
      · rw [h.right]
        exact filter_map_run _ t f rules

theorem afterCall (h : Twins r rules a a') (call : Call) :
    ∃ rules', List.Forall₂ Rule.Same rules rules' ∧
      Twins r rules' (a.afterCall call) (a'.afterCall call) := by
  have hstays : ∃ rules', List.Forall₂ Rule.Same rules rules' ∧ Twins r rules' a a' :=
    ⟨rules, List.forall₂_same.mpr fun q _ => .refl q, h⟩
  cases call with
  | tree f t => exact h.checkTree f t
  | source path content =>
    simp only [Analyzer.afterCall, Analyzer.analyzeSource, h.parser, h.root]
    cases a.parser with
    | none => exact hstays
    | some parser =>
      cases hparse : parser.parse content with
      | error e => simpa only [hparse] using hstays
      | ok t => simpa only [hparse] using h.checkTree (.ofRoot path content a.root) t

theorem after (h : Twins r rules a a') (history : List Call) :
    ∃ rules', List.Forall₂ Rule.Same rules rules' ∧
      Twins r rules' (a.after history) (a'.after history) := by
  induction history generalizing rules a a' with
  | nil => exact ⟨rules, List.forall₂_same.mpr fun q _ => .refl q, h⟩
  | cons call history ih =>
    obtain ⟨rules', hsame, hstep⟩ := h.afterCall call
    obtain ⟨rules'', hsame', hrest⟩ := ih hstep
    exact ⟨rules'', forall₂_same_trans hsame hsame', hrest⟩

end Twins

/-- What a configuration makes of the rules on one file: the violations of those it enables. -/
def found (c : Config) (rules : List Rule) (t : Tree) (f : SourceFile) : List Violation :=
  (rules.filter fun q => c.isEnabled q.name).flatMap fun q => q.reported c t f

theorem found_cons (c : Config) (q : Rule) (rules : List Rule) (t : Tree) (f : SourceFile) :
    found c (q :: rules) t f =
      (if c.isEnabled q.name then q.reported c t f else []) ++ found c rules t f := by
  rw [found, List.filter_cons]
  split
  · rfl
  · rfl

/-- The settings of one rule leave the violations of the others as they are. -/
theorem filter_found {c c' : Config} (h : c.AgreeApartFrom r c') (rules : List Rule) (t : Tree)
    (f : SourceFile) : (found c' rules t f).filter (fun v => v.rule ≠ r) =
      (found c rules t f).filter fun v => v.rule ≠ r := by
  induction rules with
  | nil => rfl
  | cons q rules ih =>
    rw [found_cons, found_cons, List.filter_append, List.filter_append, ih]
    congr 1
    -- what the rule itself adds is filtered out again, whether or not it is enabled
    by_cases hq : q.name = r
    · have hnone : ∀ c : Config, (if c.isEnabled q.name then q.reported c t f else []).filter
          (fun v => v.rule ≠ r) = [] := by
        intro c
        rw [List.filter_eq_nil_iff]
        intro v hv
        split at hv
        · simp [Rule.rule_of_mem_reported hv, hq]
        · cases hv
      rw [hnone, hnone]
    · rw [h.isEnabled hq, Rule.reported_congr (h.severity? hq)]

/-- Two violations that differ in their severity at most. -/
def SameButSeverity (v v' : Violation) : Prop :=
  v' = { v with severity := v'.severity }

theorem forall₂_found {c c' : Config} (h : c.AgreeApartFrom r c') (hr : c.isEnabled r = true)
    (hr' : c'.isEnabled r = true) (rules : List Rule) (t : Tree) (f : SourceFile) :
    List.Forall₂ SameButSeverity (found c rules t f) (found c' rules t f) := by
  have hrules : (rules.filter fun q => c'.isEnabled q.name) =
      rules.filter fun q => c.isEnabled q.name :=
    List.filter_congr fun q _ => h.isEnabled_eq hr hr' q.name
  have hmap : ∀ c : Config, ∀ qs : List Rule, (qs.flatMap fun q => q.reported c t f) =
      (qs.flatMap fun q => q.complaints t f).map (withSeverity c) := by
    intro c qs
    rw [List.map_flatMap]
    rfl
  rw [found, found, hrules, hmap, hmap, List.forall₂_map_left_iff, List.forall₂_map_right_iff,
    List.forall₂_same]
  intro v _
  rfl

theorem mem_found {c : Config} {v : Violation} : v ∈ found c rules t f ↔
    ∃ q ∈ rules, c.isEnabled q.name = true ∧ v ∈ q.reported c t f := by
  rw [found, List.mem_flatMap]
  simp only [List.mem_filter, and_assoc]

/-- A report of the rules under a configuration: every violation comes from a rule that is enabled,
and is as severe as the configuration says or else as that rule is. -/
structure Follows (rules : List Rule) (c : Config) (report : Report) : Prop where
  enabled : ∀ v ∈ report.violations, c.isEnabled v.rule = true ∧ v.rule ∈ rules.map Rule.name
  severity : ∀ v ∈ report.violations, ∀ q ∈ rules, q.name = v.rule →
    v.severity = (c.severity? q.name).getD q.severity

theorem follows_found {c : Config} (hnames : (rules.map Rule.name).Nodup) {report : Report}
    (h : report.violations = found c rules t f) : Follows rules c report := by
  constructor
  · intro v hv
    rw [h, mem_found] at hv
    obtain ⟨q, hq, hon, hv⟩ := hv
    have hrule := Rule.rule_of_mem_reported hv
    exact ⟨hrule ▸ hon, hrule ▸ List.mem_map_of_mem hq⟩
  · intro v hv q hq hname
    rw [h, mem_found] at hv
    obtain ⟨q', hq', -, hv⟩ := hv
    -- two rules of one name would leave open whose severity is meant
    obtain rfl : q = q' :=
      List.inj_on_of_nodup_map hnames hq hq' (hname.trans (Rule.rule_of_mem_reported hv))
    obtain ⟨w, -, rfl⟩ := Rule.mem_reported.mp hv
    rfl

theorem Follows.rule_ne {c : Config} {report : Report} (h : Follows rules c report)
    (hr : c.isEnabled r = false) : ∀ v ∈ report.violations, v.rule ≠ r := by
  rintro v hv rfl
  rw [(h.enabled v hv).1] at hr
  cases hr

theorem Follows.of_same {c : Config} {rules' : List Rule} {report : Report}
    (h : Follows rules' c report) (hsame : List.Forall₂ Rule.Same rules rules') :
    Follows rules c report := by
  constructor
  · intro v hv
    rw [← map_name_of_same hsame]
    exact h.enabled v hv
  · intro v hv q hq hname
    obtain ⟨q', hq', hqq'⟩ := exists_same_of_mem hsame hq
    rw [← hqq'.name_eq, ← hqq'.severity_eq]
    exact h.severity v hv q' hq' (hqq'.name_eq.trans hname)

/-- Every file in turn passes, each as the analyzer is after the files before it. -/
def PassesThrough (v : Volume) : List Path → Analyzer → Prop
  | [], _ => True
  | p :: paths, a => ∀ content, v.readText p = .ok content →
    (∀ t, a.tree? v p = some t → a.PassesOn (.ofRoot p content a.root) t) ∧
      PassesThrough v paths (a.afterCall (.source p content))

theorem passesThrough_cons {v : Volume} {p : Path} {paths : List Path} {content : String}
    (h : v.readText p = .ok content) : PassesThrough v (p :: paths) a ↔
      (∀ t, a.tree? v p = some t → a.PassesOn (.ofRoot p content a.root) t) ∧
        PassesThrough v paths (a.afterCall (.source p content)) := by
  rw [PassesThrough, h]
  simp

theorem hasErrors_analyzeFiles {v : Volume} {paths : List Path} {report result : Report}
    (h : (analyzeFiles v paths report a).1 = .ok result) :
    result.hasErrors = false ↔ report.hasErrors = false ∧ PassesThrough v paths a := by
  -- each file changes the analyzer and the report, and the rest is said of whatever they are then
  induction paths generalizing a report with
  | nil =>
    cases h
    simp [PassesThrough]
  | cons p paths ih =>
    rw [analyzeFiles] at h
    cases hread : v.readText p with
    | error e =>
      rw [hread] at h
      cases h
    | ok content =>
      rw [passesThrough_cons hread]
      simp only [hread] at h
      cases hparser : a.parser with
      | none =>
        simp only [analyzeSource, hparser] at h
        cases h
      | some parser =>
        cases hparse : parser.parse content with
        | error e =>
          have htree : a.tree? v p = none := by
            simp [tree?, hread, hparser, hparse, Except.toOption]
          simp only [analyzeSource, afterCall, hparser, hparse] at h ⊢
          split at h
          · cases h
          · simp [ih h, htree]
        | ok t =>
          have htree : a.tree? v p = some t := by
            simp [tree?, hread, hparser, hparse, Except.toOption]
          simp only [analyzeSource, afterCall, hparser, hparse] at h ⊢
          rw [ih h, Report.hasErrors_append, Bool.or_eq_false_iff, hasErrors_checkTree, htree]
          simp [and_assoc]

def Passes (a : Analyzer) (v : Volume) : Prop :=
  ∃ paths, a.discover v = .ok paths ∧ PassesThrough v paths a

theorem hasErrors_analyze {v : Volume} {report : Report} (h : (a.analyze v).1 = .ok report) :
    report.hasErrors = false ↔ a.Passes v := by
  rw [analyze] at h
  cases hpaths : a.discover v with
  | error e =>
    rw [hpaths] at h
    cases h
  | ok paths =>
    rw [hpaths] at h
    obtain ⟨result, b, hfiles⟩ : ∃ result b, analyzeFiles v paths {} a = (result, b) := ⟨_, _, rfl⟩
    simp only [hfiles] at h
    cases result with
    | error e => cases h
    | ok result =>
      cases h
      rw [Report.hasErrors_sort, hasErrors_analyzeFiles (by rw [hfiles])]
      simp [Passes, hpaths, Report.hasErrors, Report.hasAtLeast]

end Analyzer

theorem Command.passed_iff {e : Environment} {request : CheckRequest} {outcome : CheckOutcome}
    (h : Command.check e request = .ok outcome) : ∃ config rules a,
      request.source.load e = .ok config ∧ Command.rulesFor request.filter config = .ok rules ∧
      Analyzer.build e.workingDirectory (some request.path) rules request.exclude config
        (some Java.sourceParser) false = .ok a ∧
      (outcome.passed = true ↔ a.Passes e.volume) := by
  rw [Command.check] at h
  cases hconfig : request.source.load e with
  | error path =>
    rw [hconfig] at h
    cases h
  | ok config =>
    simp only [hconfig] at h
    cases hrules : Command.rulesFor request.filter config with
    | error cause =>
      rw [hrules] at h
      cases h
    | ok rules =>
      simp only [hrules] at h
      cases hbuild : Analyzer.build e.workingDirectory (some request.path) rules request.exclude
          config (some Java.sourceParser) false with
      | error cause =>
        rw [hbuild] at h
        cases h
      | ok a =>
        simp only [hbuild] at h
        cases hreport : (a.analyze e.volume).1 with
        | error cause =>
          rw [hreport] at h
          cases h
        | ok report =>
          simp only [hreport] at h
          cases h
          refine ⟨config, rules, a, rfl, hrules, hbuild, ?_⟩
          rw [Bool.not_eq_true', Analyzer.hasErrors_analyze hreport]

namespace Analyzer

variable {a a' : Analyzer} {rules : List Rule} {r : String} {t : Tree} {f : SourceFile}

section Build

variable {workingDirectory : Path} {root : Option Path} {exclude : List String} {c c' : Config}
  {parser : Option SourceParser} {failOnParseError : Bool}

theorem twins_of_build (hc : c.AgreeApartFrom r c')
    (ha : build workingDirectory root rules exclude c parser failOnParseError = .ok a) :
    ∃ a', build workingDirectory root rules exclude c' parser failOnParseError = .ok a' ∧
      Twins r rules a a' := by
  rw [build] at ha ⊢
  rw [hc.analyzer]
  split at ha
  · cases ha
  · cases ha
    exact ⟨_, rfl, rfl, rfl, hc, rfl, rfl⟩

theorem config_of_build
    (ha : build workingDirectory root rules exclude c parser failOnParseError = .ok a) :
    a.config = c := by
  rw [build] at ha
  split at ha
  · cases ha
  · cases ha
    rfl

theorem build_without (hr : c.isEnabled r = false) :
    build workingDirectory root (rules.filter fun q => q.name ≠ r) exclude c parser
        failOnParseError =
      build workingDirectory root rules exclude c parser failOnParseError := by
  have hrules : ((rules.filter fun q => q.name ≠ r).filter fun q => c.isEnabled q.name) =
      rules.filter fun q => c.isEnabled q.name := by
    rw [List.filter_filter]
    apply List.filter_congr
    intro q _
    by_cases hq : q.name = r
    · simp [hq, hr]
    · simp [hq]
  rw [build, build, hrules]

def reportOn (a : Analyzer) (history : List Call) (f : SourceFile) (t : Tree) : Report :=
  ((a.after history).checkTree f t).1

/-- What one analyzer makes of its rules. Those that take part are the enabled ones, and after some
calls only their states are others. A report counts their failures and holds their violations, under
the severity in the configuration or else that of the rule, and there is no error among them if and
only if every finding is allowed or below one. -/
structure Honours (rules : List Rule) (c : Config) (a : Analyzer) (history : List Call)
    (f : SourceFile) (t : Tree) : Prop where
  config : (a.after history).config = c
  members : List.Forall₂ Rule.Same (rules.filter fun q => c.isEnabled q.name)
    (a.after history).rules
  failures : (a.after history).ignores t = false → (a.reportOn history f t).ruleFailures =
    ((a.after history).rules.map fun q => (q.run t f).failures).sum
  follows : Follows rules c (a.reportOn history f t)
  passes : (a.reportOn history f t).hasErrors = false ↔ (a.after history).PassesOn f t

theorem config_after (a : Analyzer) (history : List Call) :
    (a.after history).config = a.config := by
  obtain ⟨rules, heq, -⟩ := (Continues.refl a).after history
  rw [heq]

theorem honours_of_selects {rules' : List Rule} {history : List Call}
    (hnames : (rules.map Rule.name).Nodup) (hsame : List.Forall₂ Rule.Same rules rules')
    (hrules : (a.after history).rules = rules'.filter fun q => a.config.isEnabled q.name)
    (f : SourceFile) (t : Tree) : Honours rules a.config a history f t := by
  constructor
  · exact config_after a history
  · rw [hrules]
    exact forall₂_filter_of_same hsame _
  · intro hignores
    rw [reportOn, checkTree_of_not_ignores (Bool.eq_false_iff.mp hignores)]
  · apply Follows.of_same ?_ hsame
    rw [reportOn]
    by_cases hignores : (a.after history).ignores t = true
    · rw [checkTree_of_ignores hignores]
      exact ⟨List.forall_mem_nil _, List.forall_mem_nil _⟩
    · rw [← map_name_of_same hsame] at hnames
      apply follows_found hnames (t := t) (f := f)
      rw [checkTree_of_not_ignores hignores, hrules, config_after]
      rfl
  · exact hasErrors_checkTree _ f t

theorem Twins.filter_violations (h : Twins r rules a a') (f : SourceFile) (t : Tree) :
    (a'.checkTree f t).1.violations.filter (fun v => v.rule ≠ r) =
      (a.checkTree f t).1.violations.filter fun v => v.rule ≠ r := by
  by_cases hignores : a.ignores t = true
  · rw [checkTree_of_ignores hignores, checkTree_of_ignores ((h.ignores t).trans hignores)]
  · rw [checkTree_of_not_ignores hignores, checkTree_of_not_ignores (by rwa [h.ignores t]), h.left,
      h.right]
    exact filter_found h.config rules t f

theorem Twins.forall₂_violations (h : Twins r rules a a') (hr : a.config.isEnabled r = true)
    (hr' : a'.config.isEnabled r = true) (f : SourceFile) (t : Tree) :
    List.Forall₂ SameButSeverity (a.checkTree f t).1.violations
        (a'.checkTree f t).1.violations ∧
      (a'.checkTree f t).1.ruleFailures = (a.checkTree f t).1.ruleFailures := by
  by_cases hignores : a.ignores t = true
  · rw [checkTree_of_ignores hignores, checkTree_of_ignores ((h.ignores t).trans hignores)]
    exact ⟨.nil, rfl⟩
  · have hrules : a'.rules = a.rules := by
      rw [h.left, h.right]
      exact List.filter_congr fun q _ => h.config.isEnabled_eq hr hr' q.name
    rw [checkTree_of_not_ignores hignores, checkTree_of_not_ignores (by rwa [h.ignores t])]
    constructor
    · rw [h.left, h.right]
      exact forall₂_found h.config hr hr' rules t f
    · rw [hrules]

/-- The settings of a rule concern nothing but that rule: the reports of two analyzers on a file,
whatever they have looked at before, have the same violations of all others. With the rule enabled
in both they differ in its severities only; where it is disabled, the analyzer is the one without
it. A check passes if and only if what enabled rules find is allowed or less severe than an
error. -/
theorem rule_settings_framed (hnames : (rules.map Rule.name).Nodup) (hc : c.AgreeApartFrom r c')
    (ha : build workingDirectory root rules exclude c parser failOnParseError = .ok a)
    (history : List Call) (f : SourceFile) (t : Tree) :
    (∃ a', build workingDirectory root rules exclude c' parser failOnParseError = .ok a' ∧
      (a'.reportOn history f t).violations.filter (fun v => v.rule ≠ r) =
        (a.reportOn history f t).violations.filter (fun v => v.rule ≠ r) ∧
      (c.isEnabled r = true → c'.isEnabled r = true →
        List.Forall₂ SameButSeverity (a.reportOn history f t).violations
          (a'.reportOn history f t).violations ∧
        (a'.reportOn history f t).ruleFailures = (a.reportOn history f t).ruleFailures) ∧
      (c.isEnabled r = false → (∀ v ∈ (a.reportOn history f t).violations, v.rule ≠ r) ∧
        build workingDirectory root (rules.filter fun q => q.name ≠ r) exclude c parser
          failOnParseError = .ok a) ∧
      (c'.isEnabled r = false → (∀ v ∈ (a'.reportOn history f t).violations, v.rule ≠ r) ∧
        build workingDirectory root (rules.filter fun q => q.name ≠ r) exclude c' parser
          failOnParseError = .ok a') ∧
      Honours rules c a history f t ∧ Honours rules c' a' history f t) ∧
    ∀ e request outcome, Command.check e request = .ok outcome → ∃ config chosen checker,
      request.source.load e = .ok config ∧ Command.rulesFor request.filter config = .ok chosen ∧
      build e.workingDirectory (some request.path) chosen request.exclude config
        (some Java.sourceParser) false = .ok checker ∧
      (outcome.passed = true ↔ checker.Passes e.volume) := by
  obtain ⟨a', ha', htwins⟩ := twins_of_build hc ha
  have hconfig := config_of_build ha
  have hconfig' := config_of_build ha'
  obtain ⟨rules', hsame, hlater⟩ := htwins.after history
  have hhonours : Honours rules c a history f t := by
    rw [← hconfig]
    apply honours_of_selects hnames hsame
    rw [hlater.left, config_after]
  have hhonours' : Honours rules c' a' history f t := by
    rw [← hconfig']
    apply honours_of_selects hnames hsame
    rw [hlater.right, config_after]
  refine ⟨⟨a', ha', hlater.filter_violations f t, ?_, ?_, ?_, hhonours, hhonours'⟩, ?_⟩
  · intro hr hr'
    apply hlater.forall₂_violations
    · rwa [config_after, hconfig]
    · rwa [config_after, hconfig']
  · intro hr
    rw [build_without hr]
    exact ⟨hhonours.follows.rule_ne hr, ha⟩
  · intro hr'
    rw [build_without hr']
    exact ⟨hhonours'.follows.rule_ne hr', ha'⟩
  · intro e request outcome
    exact Command.passed_iff

end Build

def importRule (name : String) : Rule :=
  .stateless name "S1" "" .warning [.compilationUnit, .importDef] fun t i =>
    if t.kind i = .importDef then .ok [⟨t.line i, "import", none⟩]
    else .error (.unexpectedKind .qualifiedName (t.kind i) (t.line i))

def importConfig (settings : RuleConfig) : Config :=
  { analyzer := { exclude := [] }, rules := [("a", settings)] }

def importAnalyzer (settings : RuleConfig) : Except AnalyzerError Analyzer :=
  build ⟨"/"⟩ none [importRule "a", importRule "b"] [] (importConfig settings) none false

def importReport (a : Analyzer) (t : Tree) : Report :=
  a.reportOn [.tree ⟨⟨"A"⟩, ⟨"A"⟩, ""⟩ t] ⟨⟨"A"⟩, ⟨"A"⟩, ""⟩ t

theorem rule_settings_framed_imports :
    ∃ a a' t, importAnalyzer { severity := some .error } = .ok a ∧
      importAnalyzer { enabled := some false } = .ok a' ∧
      Tree.ofSteps [.start .compilationUnit none 1, .start .importDef none 2, .qualified "a.b" 2,
        .finish, .finish] = .ok t ∧
      (importReport a t).hasErrors = true ∧ (importReport a' t).hasErrors = false ∧
      (importReport a' t).violations.filter (fun v => v.rule ≠ "a") =
        (importReport a t).violations.filter (fun v => v.rule ≠ "a") ∧
      ∀ v ∈ (importReport a' t).violations, v.rule ≠ "a" := by
  have hnames : ([importRule "a", importRule "b"].map Rule.name).Nodup := by decide
  have hconfig : (importConfig { severity := some .error }).AgreeApartFrom "a"
      (importConfig { enabled := some false }) := by
    refine ⟨rfl, fun name hname => ?_⟩
    have hother : (name == "a") = false := beq_eq_false_iff_ne.mpr hname
    simp only [Config.rule?, importConfig, List.lookup_cons, List.lookup_nil, hother]
  have hreports : ∃ a a' t, importAnalyzer { severity := some .error } = .ok a ∧
      importAnalyzer { enabled := some false } = .ok a' ∧
      Tree.ofSteps [.start .compilationUnit none 1, .start .importDef none 2, .qualified "a.b" 2,
        .finish, .finish] = .ok t ∧
      (importReport a t).hasErrors = true ∧ (importReport a' t).hasErrors = false :=
    ⟨_, _, _, rfl, rfl, rfl, by decide +kernel, by decide +kernel⟩
  obtain ⟨a, a', t, ha, ha', ht, herrors, hpasses⟩ := hreports
  obtain ⟨b, hb, hothers, -, -, hout, -, -⟩ := (rule_settings_framed hnames hconfig ha
    [.tree ⟨⟨"A"⟩, ⟨"A"⟩, ""⟩ t] ⟨⟨"A"⟩, ⟨"A"⟩, ""⟩ t).1
  obtain rfl : b = a' := Except.ok.inj (hb.symm.trans ha')
  exact ⟨a, b, t, ha, hb, ht, herrors, hpasses, hothers, (hout rfl).1⟩

end Analyzer

end ArchLint
