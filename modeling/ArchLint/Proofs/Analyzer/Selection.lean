import ArchLint.Command
import ArchLint.Proofs.Analyzer.Shares

/-!
# Selecting rules

A caller names the rules of a check by their names or codes between commas. Pieces that name no
rule are passed over; a rule that is named more than once takes part more than once, and each of
its violations is reported as many times over. Which violations there are, and whether the check
passes, depends on nothing but the set of rules that are named.
-/

namespace ArchLint

open Syntax

namespace Registry

def Denotes (word : String) (q : Rule) : Prop :=
  word = q.name ∨ word = q.code

instance (word : String) (q : Rule) : Decidable (Denotes word q) :=
  inferInstanceAs (Decidable (_ ∨ _))

/-- How many pieces between the commas denote the rule, blanks around them aside. -/
def mentions (filter : String) (q : Rule) : Nat :=
  (Text.segments ',' filter.toList).countP fun piece =>
    Denotes (String.ofList (Text.trim piece)) q

/-- The rules that are denoted by some piece, each once. -/
def denoted (filter : String) (config : Config) : List Rule :=
  (configured config).filter fun q => 0 < mentions filter q

variable {config : Config} {filter word : String} {q r : Rule}

theorem eq_of_name_eq (hq : q ∈ configured config) (hr : r ∈ configured config)
    (h : q.name = r.name) : q = r := by
  have hnames : (configured config).map Rule.name = all.map Rule.name := rfl
  have hnodup : ((configured config).map Rule.name).Nodup := by
    rw [hnames]
    decide
  exact List.inj_on_of_nodup_map hnodup hq hr h

theorem mem_configured : q ∈ configured config ↔
    q = (BaseClassRule.ofConfig ((config.rule? BaseClassRule.name).getD {})).toRule ∨
    q = (DependencyRule.ofConfig ((config.rule? DependencyRule.name).getD {})).toRule ∨
    q = ({} : ParameterRule).toRule := by
  have hlist : configured config =
      [(BaseClassRule.ofConfig ((config.rule? BaseClassRule.name).getD {})).toRule,
        (DependencyRule.ofConfig ((config.rule? DependencyRule.name).getD {})).toRule,
        ({} : ParameterRule).toRule] := rfl
  simp only [hlist, List.mem_cons, List.not_mem_nil, or_false]

theorem builtIn_of_mem (h : q ∈ configured config) : q.BuiltIn := by
  rcases mem_configured.mp h with rfl | rfl | rfl
  · exact .baseClass _
  · exact .dependency _
  · exact .parameter _

theorem find?_of_denotes (hq : q ∈ configured config) (h : Denotes word q) :
    find? word config = some q := by
  rcases mem_configured.mp hq with rfl | rfl | rfl
  all_goals
    rcases h with rfl | rfl
    · rfl
    · rfl

theorem of_find? (h : find? word config = some q) : q ∈ configured config ∧ Denotes word q := by
  rw [find?] at h
  split at h
  · next hword =>
    cases h
    exact ⟨mem_configured.mpr (.inl rfl), hword⟩
  · split at h
    · next hword =>
      cases h
      exact ⟨mem_configured.mpr (.inr (.inl rfl)), hword⟩
    · split at h
      · next hword =>
        cases h
        exact ⟨mem_configured.mpr (.inr (.inr rfl)), hword⟩
      · cases h

theorem named_find? (hq : q ∈ configured config) (word : String) :
    ((find? word config).map fun r => decide (r.name = q.name)).getD false =
      decide (Denotes word q) := by
  by_cases hword : Denotes word q
  · simp [find?_of_denotes hq hword, hword]
  · rw [decide_eq_false hword]
    cases hfind : find? word config with
    | none => rfl
    | some r =>
      obtain ⟨hr, hdenotes⟩ := of_find? hfind
      have hname : r.name ≠ q.name := by
        intro hname
        obtain rfl := eq_of_name_eq hr hq hname
        exact hword hdenotes
      simp [hname]

theorem not_denotes_empty (hq : q ∈ configured config) : ¬ Denotes "" q := by
  intro h
  have hfind := find?_of_denotes hq h
  have hnone : find? "" config = none := rfl
  rw [hnone] at hfind
  cases hfind

theorem select_subset (words : List String) (config : Config) :
    select words config ⊆ configured config := by
  intro q hq
  obtain ⟨word, -, hfind⟩ := List.mem_filterMap.mp hq
  exact (of_find? hfind).1

theorem denoted_subset (filter : String) (config : Config) :
    denoted filter config ⊆ configured config :=
  List.filter_subset_self _

theorem countP_select (hq : q ∈ configured config) (filter : String) :
    (select (Command.namesIn filter) config).countP (fun r => r.name = q.name) =
      mentions filter q := by
  rw [select, List.countP_filterMap, Command.namesIn, List.countP_filterMap, List.countP_map,
    mentions]
  apply List.countP_congr
  intro piece _
  by_cases hempty : Text.trim piece = []
  · simp [hempty, not_denotes_empty hq]
  · simp [hempty, named_find? hq]

theorem countP_filter {rules : List Rule} (hrules : rules ⊆ configured config)
    (hq : q ∈ configured config) (p : Rule → Bool) :
    (rules.filter p).countP (fun r => r.name = q.name) =
      if p q then rules.countP (fun r => r.name = q.name) else 0 := by
  have hp : ∀ r ∈ rules, r.name = q.name → p r = p q := by
    intro r hr hname
    rw [eq_of_name_eq (hrules hr) hq hname]
  rw [List.countP_filter]
  split
  · next hpq =>
    apply List.countP_congr
    intro r hr
    by_cases hname : r.name = q.name
    · simp [hp r hr hname, hpq]
    · simp [hname]
  · next hpq =>
    apply List.countP_eq_zero.mpr
    intro r hr
    by_cases hname : r.name = q.name
    · simp [hp r hr hname, hpq]
    · simp [hname]

theorem countP_denoted (hq : q ∈ configured config) (filter : String) :
    (denoted filter config).countP (fun r => r.name = q.name) =
      if 0 < mentions filter q then 1 else 0 := by
  have hone : (configured config).countP (fun r => r.name = q.name) = 1 := by
    rcases mem_configured.mp hq with rfl | rfl | rfl
    · rfl
    · rfl
    · rfl
  rw [denoted, countP_filter (List.Subset.refl _) hq, hone]
  simp only [decide_eq_true_eq]

end Registry

namespace Report

variable {config : Config} {filter : String} {rules : List Rule}
  {files : List (SourceFile × Tree)} {v : Violation} {q : Rule}

/-- The report of a run that was given these rules. It drops those that are disabled. -/
def ofRun (config : Config) (rules : List Rule) (files : List (SourceFile × Tree)) : Report :=
  (on config (rules.filter fun q => config.isEnabled q.name) files).sort

theorem violations_ofRun (config : Config) (rules : List Rule)
    (files : List (SourceFile × Tree)) : (ofRun config rules files).violations.Perm
      (on config (rules.filter fun q => config.isEnabled q.name) files).violations :=
  List.mergeSort_perm _ _

theorem exists_rule_of_mem_ofRun (hv : v ∈ (ofRun config rules files).violations) :
    ∃ q ∈ rules, v.rule = q.name := by
  obtain ⟨q, hq, hrule⟩ := exists_rule_of_mem_on ((violations_ofRun config rules files).subset hv)
  exact ⟨q, List.mem_of_mem_filter hq, hrule⟩

theorem count_ofRun (hrules : rules ⊆ Registry.configured config)
    (hq : q ∈ Registry.configured config) (hv : v.rule = q.name) :
    (ofRun config rules files).violations.count v =
      (if config.isEnabled q.name then rules.countP fun r => r.name = q.name else 0) *
        (on config [q] files).violations.count v := by
  have hname : ∀ r ∈ rules.filter fun q => config.isEnabled q.name, r.name = q.name → r = q :=
    fun r hr => Registry.eq_of_name_eq (hrules (List.mem_of_mem_filter hr)) hq
  rw [(violations_ofRun config rules files).count_eq, count_on hname hv,
    Registry.countP_filter hrules hq]

theorem ruleFailures_ofRun (hrules : rules ⊆ Registry.configured config)
    (hfiles : ∀ p ∈ files, ∃ content, Java.parse content = .ok p.2) :
    (ofRun config rules files).ruleFailures = 0 := by
  refine ruleFailures_on (c := config) ?_
  intro p hp q hq
  obtain ⟨content, ht⟩ := hfiles p hp
  obtain ⟨T, hsound, hkind, hlayout, hfinished⟩ := Java.exists_sound_of_parse ht
  have hroot : T.kind ≠ .assign := by simp [hkind]
  have hbuiltIn := Registry.builtIn_of_mem (hrules (List.mem_of_mem_filter hq))
  exact hbuiltIn.succeeds hfinished fun i n =>
    hlayout.kind_targetIdent (i := i) (n := n) hsound hroot

end Report

namespace Command

variable {e : Environment} {request : CheckRequest} {config : Config} {filter : String}
  {rules : List Rule}

def reportWith (e : Environment) (request : CheckRequest) (config : Config) (rules : List Rule) :
    Except CommandError Report :=
  match Analyzer.build e.workingDirectory (some request.path) rules request.exclude config
      (some Java.sourceParser) false with
  | .error cause => .error (.build cause)
  | .ok a => (a.analyze e.volume).1.mapError .analysis

def outcomeOf (e : Environment) (request : CheckRequest) (report : Report) : CheckOutcome where
  passed := !report.hasErrors
  output := report.render (sourceText e.volume (e.workingDirectory.join request.path))
    request.format

theorem check_eq (hload : request.source.load e = .ok config)
    (hrules : rulesFor request.filter config = .ok rules) :
    check e request = (reportWith e request config rules).map (outcomeOf e request) := by
  simp only [check, hload, hrules, reportWith]
  cases hbuild : Analyzer.build e.workingDirectory (some request.path) rules request.exclude config
      (some Java.sourceParser) false with
  | error cause => rfl
  | ok a =>
    have hroot : a.root = e.workingDirectory.join request.path := by
      rw [Analyzer.build] at hbuild
      split at hbuild
      · cases hbuild
      · cases hbuild
        rfl
    cases hreport : (a.analyze e.volume).1 with
    | error cause => simp only [hreport, Except.mapError, Except.map]
    | ok report => simp only [hreport, Except.mapError, Except.map, outcomeOf, hroot]

/-- The files that a check looks at are the same for all rules, and so is what keeps it from
looking at them. -/
theorem reportWith_cases (e : Environment) (request : CheckRequest) (config : Config) :
    (∃ cause, ∀ rules : List Rule, rules ⊆ Registry.configured config →
      reportWith e request config rules = .error cause) ∨
    ∃ files : List (SourceFile × Tree), (∀ p ∈ files, ∃ content, Java.parse content = .ok p.2) ∧
      ∀ rules : List Rule, rules ⊆ Registry.configured config → reportWith e request config rules =
        .ok (.ofRun config rules files) := by
  cases hidle : Analyzer.build e.workingDirectory (some request.path) [] request.exclude config
      (some Java.sourceParser) false with
  | error cause =>
    left
    refine ⟨.build cause, fun rules _ => ?_⟩
    rw [reportWith, Analyzer.build_eq, hidle]
    rfl
  | ok idle =>
    obtain ⟨-, hparser, -⟩ := Analyzer.of_build hidle
    have hconfig : idle.config = config := Analyzer.config_of_build hidle
    have hreport : ∀ rules : List Rule, rules ⊆ Registry.configured config →
        reportWith e request config rules =
          ((idle.checkedFiles e.volume).map fun files =>
            Report.ofRun config rules files).mapError .analysis := by
      intro rules hrules
      have hreset : ∀ q ∈ rules.filter fun q => config.isEnabled q.name, q.Resets :=
        fun q hq => (Registry.builtIn_of_mem (hrules (List.mem_of_mem_filter hq))).resets
      have hrun := congrArg (Except.mapError CommandError.analysis)
        (idle.analyze_with hreset e.volume)
      rw [reportWith, Analyzer.build_eq, hidle]
      simpa only [Except.map, Report.ofRun, hconfig] using hrun
    cases hfiles : idle.checkedFiles e.volume with
    | error cause =>
      left
      refine ⟨.analysis cause, fun rules hrules => ?_⟩
      rw [hreport rules hrules, hfiles]
      rfl
    | ok files =>
      right
      refine ⟨files, Analyzer.parses_of_checkedFiles hparser hfiles, fun rules hrules => ?_⟩
      rw [hreport rules hrules, hfiles]
      rfl

/-- A report beside that of the rules that are denoted, each run once: it says the same, but says
the violations of each rule as many times over as the rule is mentioned. -/
structure Repeats (filter : String) (config : Config) (once report : Report) : Prop where
  filesChecked : report.filesChecked = once.filesChecked
  ruleFailures : report.ruleFailures = once.ruleFailures
  rules : ∀ v ∈ once.violations, ∃ q ∈ Registry.denoted filter config, v.rule = q.name
  mem : ∀ v, v ∈ report.violations ↔ v ∈ once.violations
  count : ∀ q ∈ Registry.configured config, ∀ v, v.rule = q.name →
    report.violations.count v = Registry.mentions filter q * once.violations.count v

namespace Repeats

variable {once report : Report}

theorem hasErrors (h : Repeats filter config once report) : report.hasErrors = once.hasErrors := by
  rw [Bool.eq_iff_iff, Report.hasErrors, Report.hasErrors, Report.hasAtLeast, Report.hasAtLeast,
    List.any_eq_true, List.any_eq_true]
  simp only [h.mem]

theorem perm_iff (h : Repeats filter config once report) :
    report.violations.Perm once.violations ↔
      ∀ q ∈ Registry.denoted filter config, 1 < Registry.mentions filter q →
        ∀ v ∈ once.violations, v.rule ≠ q.name := by
  rw [List.perm_iff_count]
  constructor
  · intro hcount q hq htwice v hv hrule
    have hsame := hcount v
    have hpos := List.count_pos_iff.mpr hv
    rw [h.count q (List.mem_of_mem_filter hq) v hrule] at hsame
    have htwo : 2 * once.violations.count v ≤
        Registry.mentions filter q * once.violations.count v := Nat.mul_le_mul_right _ htwice
    omega
  · intro hsilent v
    by_cases hv : v ∈ once.violations
    · obtain ⟨q, hq, hrule⟩ := h.rules v hv
      obtain ⟨hconfigured, hmentions⟩ := List.mem_filter.mp hq
      have hpos : 0 < Registry.mentions filter q := of_decide_eq_true hmentions
      have hone : Registry.mentions filter q = 1 := by
        by_contra hne
        exact hsilent q hq (by omega) v hv hrule
      rw [h.count q hconfigured v hrule, hone, Nat.one_mul]
    · have hreport : v ∉ report.violations := mt (h.mem v).mp hv
      rw [List.count_eq_zero.mpr hv, List.count_eq_zero.mpr hreport]

end Repeats

/-- On the same files a violation is reported once for every piece that denotes its rule. -/
theorem count_selected {files : List (SourceFile × Tree)} {q : Rule}
    (hq : q ∈ Registry.configured config) {v : Violation} (hv : v.rule = q.name)
    (filter : String) :
    (Report.ofRun config (Registry.select (namesIn filter) config) files).violations.count v =
      Registry.mentions filter q *
        (Report.ofRun config (Registry.denoted filter config) files).violations.count v := by
  rw [Report.count_ofRun (Registry.select_subset _ _) hq hv,
    Report.count_ofRun (Registry.denoted_subset _ _) hq hv, Registry.countP_select hq,
    Registry.countP_denoted hq]
  by_cases henabled : config.isEnabled q.name = true
  · rw [if_pos henabled, if_pos henabled]
    by_cases hmentions : 0 < Registry.mentions filter q
    · rw [if_pos hmentions, Nat.one_mul]
    · have hnone : Registry.mentions filter q = 0 := by omega
      rw [hnone, Nat.zero_mul, Nat.zero_mul]
  · rw [if_neg henabled, if_neg henabled, Nat.zero_mul, Nat.mul_zero]

theorem repeats_ofRun {files : List (SourceFile × Tree)}
    (hfiles : ∀ p ∈ files, ∃ content, Java.parse content = .ok p.2) (filter : String)
    (config : Config) : Repeats filter config
      (Report.ofRun config (Registry.denoted filter config) files)
      (Report.ofRun config (Registry.select (namesIn filter) config) files) := by
  have hselected := Registry.select_subset (namesIn filter) config
  have hdenoted := Registry.denoted_subset filter config
  constructor
  · rfl
  · rw [Report.ruleFailures_ofRun hselected hfiles, Report.ruleFailures_ofRun hdenoted hfiles]
  · intro v hv
    exact Report.exists_rule_of_mem_ofRun hv
  · intro v
    rw [← List.count_pos_iff, ← List.count_pos_iff]
    constructor
    · intro hv
      obtain ⟨q, hq, hrule⟩ := Report.exists_rule_of_mem_ofRun (List.count_pos_iff.mp hv)
      rw [count_selected (hselected hq) hrule] at hv
      exact Nat.pos_of_mul_pos_left hv
    · intro hv
      obtain ⟨q, hq, hrule⟩ := Report.exists_rule_of_mem_ofRun (List.count_pos_iff.mp hv)
      obtain ⟨hconfigured, hmentions⟩ := List.mem_filter.mp hq
      rw [count_selected hconfigured hrule]
      exact Nat.mul_pos (of_decide_eq_true hmentions) hv
  · intro q hq v hrule
    exact count_selected hq hrule filter

theorem rulesFor_eq (hfilter : request.filter = some filter)
    (hknown : ∃ q ∈ Registry.configured config, 0 < Registry.mentions filter q) :
    rulesFor request.filter config = .ok (Registry.select (namesIn filter) config) := by
  obtain ⟨q, hq, hmentions⟩ := hknown
  rw [← Registry.countP_select hq, List.countP_pos_iff] at hmentions
  obtain ⟨r, hr, -⟩ := hmentions
  simp only [hfilter, rulesFor]
  split
  · next hnone =>
    rw [hnone] at hr
    cases hr
  · rfl

theorem selected_beside_denoted (e : Environment) (request : CheckRequest) (filter : String)
    (config : Config) :
    (∃ cause,
      reportWith e request config (Registry.select (namesIn filter) config) = .error cause ∧
      reportWith e request config (Registry.denoted filter config) = .error cause) ∨
    ∃ report once,
      reportWith e request config (Registry.select (namesIn filter) config) = .ok report ∧
      reportWith e request config (Registry.denoted filter config) = .ok once ∧
      Repeats filter config once report ∧ report.ruleFailures = 0 := by
  have hselected := Registry.select_subset (namesIn filter) config
  have hdenoted := Registry.denoted_subset filter config
  rcases reportWith_cases e request config with ⟨cause, hcause⟩ | ⟨files, hfiles, hreport⟩
  · left
    exact ⟨cause, hcause _ hselected, hcause _ hdenoted⟩
  · right
    exact ⟨_, _, hreport _ hselected, hreport _ hdenoted, repeats_ofRun hfiles filter config,
      Report.ruleFailures_ofRun hselected hfiles⟩

/-- A check with rules that the caller names looks at the same files, or stops for the same cause,
as a run with each of the rules that some piece denotes taking part once. Its report has the same
violations and the same verdict and counts no failures, but it says the violations of every rule as
many times over as the rule is mentioned. So the two reports agree, as multisets, exactly if no rule
that is mentioned more than once has anything to report. -/
theorem selection_repeats_rules (hfilter : request.filter = some filter)
    (hload : request.source.load e = .ok config)
    (hknown : ∃ q ∈ Registry.configured config, 0 < Registry.mentions filter q) :
    check e request =
      (reportWith e request config (Registry.select (namesIn filter) config)).map
        (outcomeOf e request) ∧
    ((∃ cause,
        reportWith e request config (Registry.select (namesIn filter) config) = .error cause ∧
        reportWith e request config (Registry.denoted filter config) = .error cause) ∨
      ∃ report once,
        reportWith e request config (Registry.select (namesIn filter) config) = .ok report ∧
        reportWith e request config (Registry.denoted filter config) = .ok once ∧
        Repeats filter config once report ∧ report.ruleFailures = 0 ∧
        report.hasErrors = once.hasErrors ∧
        (report.violations.Perm once.violations ↔
          ∀ q ∈ Registry.denoted filter config, 1 < Registry.mentions filter q →
            ∀ v ∈ once.violations, v.rule ≠ q.name)) := by
  refine ⟨check_eq hload (rulesFor_eq hfilter hknown), ?_⟩
  rcases selected_beside_denoted e request filter config with hstops |
    ⟨report, once, hreport, honce, hrepeats, hfailures⟩
  · exact .inl hstops
  · exact .inr ⟨report, once, hreport, honce, hrepeats, hfailures, hrepeats.hasErrors,
      hrepeats.perm_iff⟩

def actionProject : Environment where
  volume := .directory [("A.java", .file "class XHTMLAction {}\n".toUTF8)]
  workingDirectory := ⟨"/"⟩
  globalDirectory := none

def missingBaseClass : Violation where
  code := "AC001"
  rule := "require-base-class"
  severity := .error
  location := { file := ⟨"A.java"⟩, line := 1, column := 1, offset := 0, length := 20 }
  message := "HTML action classes must extend HTMLActionSupport"
  suggestion := some "add `extends HTMLActionSupport` to `XHTMLAction`"

def asking (filter : String) : CheckRequest where
  filter := some filter

def onceOn (filter : String) : Except CommandError Report :=
  reportWith actionProject (asking filter) {} (Registry.denoted filter {})

def padded : String := " AC001 ,,bogus,AC003,require-base-class"

def nameAndCode : String := "AC001,require-base-class"

theorem baseClass_mem_configured : (BaseClassRule.ofConfig {}).toRule ∈ Registry.configured {} :=
  List.mem_cons_self

/-- Blanks, an empty piece and an unknown one do not matter, but a second mention does. -/
theorem selection_repeats_rules_padded : ∃ report once : Report,
    check actionProject (asking padded) = .ok (outcomeOf actionProject (asking padded) report) ∧
    onceOn padded = .ok once ∧ once.violations = [missingBaseClass] ∧
    report.violations.count missingBaseClass = 2 := by
  have hmentions : Registry.mentions padded (BaseClassRule.ofConfig {}).toRule = 2 := by
    decide +kernel
  have hviolations : (onceOn padded).toOption.map Report.violations = some [missingBaseClass] := by
    decide +kernel
  have hfilter : (asking padded).filter = some padded := rfl
  have hknown : ∃ q ∈ Registry.configured {}, 0 < Registry.mentions padded q :=
    ⟨_, baseClass_mem_configured, by rw [hmentions]; decide⟩
  obtain ⟨hcheck, ⟨cause, -, hstops⟩ | ⟨report, once, hreport, honce, hrepeats, -, -, -⟩⟩ :=
    selection_repeats_rules (e := actionProject) hfilter rfl hknown
  · rw [onceOn, hstops] at hviolations
    cases hviolations
  · have hone : once.violations = [missingBaseClass] := by
      rw [onceOn, honce] at hviolations
      exact Option.some.inj hviolations
    refine ⟨report, once, ?_, honce, hone, ?_⟩
    · rw [hcheck, hreport]
      rfl
    · rw [hrepeats.count _ baseClass_mem_configured missingBaseClass rfl, hmentions, hone,
        List.count_singleton_self]

/-- To name a rule and to give its code as well is to report its violations twice. -/
theorem selection_is_no_set : ∃ report once : Report,
    check actionProject (asking nameAndCode) =
      .ok (outcomeOf actionProject (asking nameAndCode) report) ∧
    onceOn nameAndCode = .ok once ∧ ¬ report.violations.Perm once.violations := by
  have hmentions : Registry.mentions nameAndCode (BaseClassRule.ofConfig {}).toRule = 2 := by
    decide +kernel
  have hviolations : (onceOn nameAndCode).toOption.map Report.violations =
      some [missingBaseClass] := by
    decide +kernel
  have hfilter : (asking nameAndCode).filter = some nameAndCode := rfl
  have hknown : ∃ q ∈ Registry.configured {}, 0 < Registry.mentions nameAndCode q :=
    ⟨_, baseClass_mem_configured, by rw [hmentions]; decide⟩
  have hcheck := check_eq (e := actionProject) rfl (rulesFor_eq hfilter hknown)
  rcases selected_beside_denoted actionProject (asking nameAndCode) nameAndCode {} with
    ⟨cause, -, hstops⟩ | ⟨report, once, hreport, honce, hrepeats, -⟩
  · rw [onceOn, hstops] at hviolations
    cases hviolations
  · refine ⟨report, once, ?_, honce, ?_⟩
    · rw [hcheck, hreport]
      rfl
    · rw [onceOn, honce] at hviolations
      have hone : once.violations = [missingBaseClass] := Option.some.inj hviolations
      intro hperm
      have hcount := hperm.count_eq missingBaseClass
      rw [hrepeats.count _ baseClass_mem_configured missingBaseClass rfl, hmentions, hone,
        List.count_singleton_self] at hcount
      omega

end Command

end ArchLint
