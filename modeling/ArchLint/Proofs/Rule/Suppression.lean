import Mathlib.Data.List.Flatten
import ArchLint.Proofs.Rule.Spans

/-!
# Suppression

A directive suppresses what is found on its own line and on the line below, and nothing else.
What it leaves of the findings is what a text without directives would show, some of them missing
and all others in place.
-/

namespace ArchLint

open Syntax Text

namespace Allowance

variable {content content' rule : String} {line n : Nat} {a b : Allowance}

/-- Line `n` of the text, counted from one, carries a directive for the rule or for all rules. -/
structure CoversAt (content : String) (n : Nat) (rule : String) (a : Allowance) : Prop where
  carried : ∃ k text, n = k + 1 ∧ (lines content.toList)[k]? = some text ∧ parse? text = some a
  named : rule ∈ a.rules ∨ "all" ∈ a.rules

def AgreeAt (content content' : String) (n : Nat) : Prop :=
  ∀ k, n = k + 1 → (lines content.toList)[k]? = (lines content'.toList)[k]?

def Undirected (content : String) : Prop :=
  ∀ text ∈ lines content.toList, parse? text = none

instance (content : String) : Decidable (Undirected content) :=
  List.decidableBAll _ _

def onLine? (content : String) (n : Nat) (rule : String) : Option Allowance :=
  ((lineAt (lines content.toList) n).bind parse?).filter fun a => a.covers rule

theorem find?_eq (content : String) (line : Nat) (rule : String) :
    find? content line rule = (onLine? content (line - 1) rule).or (onLine? content line rule) := by
  change [line - 1, line].findSome? (onLine? content · rule) = _
  rw [List.findSome?_cons, List.findSome?_cons, List.findSome?_nil]
  cases onLine? content (line - 1) rule with
  | some a => rfl
  | none => cases onLine? content line rule <;> rfl

theorem covers_iff : a.covers rule = true ↔ rule ∈ a.rules ∨ "all" ∈ a.rules := by
  simp [covers]

theorem lineAt_eq_some_iff {ls : List (List Char)} {text : List Char} :
    lineAt ls n = some text ↔ ∃ k, n = k + 1 ∧ ls[k]? = some text := by
  cases n with
  | zero => simp [lineAt]
  | succ n => simp [lineAt]

theorem onLine?_eq_some_iff : onLine? content n rule = some a ↔ CoversAt content n rule a := by
  rw [onLine?, Option.filter_eq_some_iff, covers_iff, Option.bind_eq_some_iff]
  constructor
  · rintro ⟨⟨text, htext, ha⟩, hnamed⟩
    obtain ⟨k, hk, htext⟩ := lineAt_eq_some_iff.mp htext
    exact ⟨⟨k, text, hk, htext, ha⟩, hnamed⟩
  · rintro ⟨⟨k, text, hk, htext, ha⟩, hnamed⟩
    exact ⟨⟨text, lineAt_eq_some_iff.mpr ⟨k, hk, htext⟩, ha⟩, hnamed⟩

theorem onLine?_eq_none_iff :
    onLine? content n rule = none ↔ ∀ a, ¬ CoversAt content n rule a := by
  simp only [Option.eq_none_iff_forall_ne_some, ne_eq, onLine?_eq_some_iff]

/-- The line above is asked first. -/
theorem find?_eq_some_iff : find? content line rule = some a ↔
    CoversAt content (line - 1) rule a ∨
      (∀ b, ¬ CoversAt content (line - 1) rule b) ∧ CoversAt content line rule a := by
  rw [find?_eq, Option.or_eq_some_iff, onLine?_eq_none_iff, onLine?_eq_some_iff,
    onLine?_eq_some_iff]

theorem isSome_find?_iff : (find? content line rule).isSome = true ↔
    ∃ a, CoversAt content (line - 1) rule a ∨ CoversAt content line rule a := by
  rw [find?_eq, Option.isSome_or, Bool.or_eq_true, Option.isSome_iff_exists,
    Option.isSome_iff_exists, exists_or]
  simp only [onLine?_eq_some_iff]

theorem AgreeAt.coversAt_iff (h : AgreeAt content content' n) :
    CoversAt content n rule a ↔ CoversAt content' n rule a := by
  constructor
  · rintro ⟨⟨k, text, hk, htext, ha⟩, hnamed⟩
    exact ⟨⟨k, text, hk, (h k hk) ▸ htext, ha⟩, hnamed⟩
  · rintro ⟨⟨k, text, hk, htext, ha⟩, hnamed⟩
    exact ⟨⟨k, text, hk, (h k hk).symm ▸ htext, ha⟩, hnamed⟩

theorem Undirected.not_coversAt (h : Undirected content) : ¬ CoversAt content n rule a := by
  rintro ⟨⟨k, text, -, htext, ha⟩, -⟩
  rw [h text (List.mem_of_getElem? htext)] at ha
  cases ha

end Allowance

open Allowance

namespace Rule

variable {r : Rule} {t : Tree} {f bare : SourceFile} {finding : Finding} {content : String}

theorem violation?_eq_none_iff_coversAt : r.violation? f finding = none ↔
    ∃ a, CoversAt f.content (finding.line - 1) r.name a ∨
      CoversAt f.content finding.line r.name a := by
  rw [violation?_eq_none_iff, isSome_find?_iff]

/-- What becomes of a finding rests with its own line and the line above. -/
structure LineLocal (r : Rule) (f : SourceFile) (finding : Finding) : Prop where
  dropped : r.violation? f finding = none ↔
    ∃ a, CoversAt f.content (finding.line - 1) r.name a ∨
      CoversAt f.content finding.line r.name a
  kept : r.violation? f finding ≠ none → r.violation? f finding = some (r.complaint f finding)
  found : ∀ a, find? f.content finding.line r.name = some a ↔
    CoversAt f.content (finding.line - 1) r.name a ∨
      (∀ b, ¬ CoversAt f.content (finding.line - 1) r.name b) ∧
        CoversAt f.content finding.line r.name a
  agreeing : ∀ f' : SourceFile, AgreeAt f.content f'.content (finding.line - 1) →
    AgreeAt f.content f'.content finding.line →
    (r.violation? f' finding = none ↔ r.violation? f finding = none)

theorem lineLocal (r : Rule) (f : SourceFile) (finding : Finding) : r.LineLocal f finding where
  dropped := violation?_eq_none_iff_coversAt
  kept h := by
    obtain ⟨v, hv⟩ := Option.ne_none_iff_exists'.mp h
    rw [hv, eq_complaint hv]
  found a := find?_eq_some_iff
  agreeing f' habove hown := by
    rw [violation?_eq_none_iff_coversAt, violation?_eq_none_iff_coversAt]
    simp only [habove.coversAt_iff, hown.coversAt_iff]

theorem violation?_of_undirected (h : Undirected f.content) (r : Rule) (finding : Finding) :
    r.violation? f finding = some (r.complaint f finding) := by
  apply (r.lineLocal f finding).kept
  rw [ne_eq, violation?_eq_none_iff_coversAt]
  rintro ⟨a, habove | hown⟩
  · exact h.not_coversAt habove
  · exact h.not_coversAt hown

end Rule

def Violation.unspanned (v : Violation) : Violation :=
  { v with location := { v.location with offset := 0, length := 0 } }

/-- What is left of some violations when others are taken out, up to spans. -/
def RemainsOf (left whole : List Violation) : Prop :=
  (left.map Violation.unspanned).Sublist (whole.map Violation.unspanned)

variable {r : Rule} {f bare : SourceFile}

theorem Rule.unspanned_complaint (h : bare.relativePath = f.relativePath) (finding : Finding) :
    (r.complaint bare finding).unspanned = (r.complaint f finding).unspanned := by
  rw [complaint, complaint, h]
  rfl

theorem Rule.remainsOf_filterMap (hpath : bare.relativePath = f.relativePath)
    (hbare : Undirected bare.content) (findings : List Finding) :
    RemainsOf (findings.filterMap (r.violation? f)) (findings.filterMap (r.violation? bare)) := by
  rw [RemainsOf]
  induction findings with
  | nil => exact .slnil
  | cons finding findings ih =>
    rw [List.filterMap_cons_some (violation?_of_undirected hbare r finding), List.map_cons]
    by_cases hnone : r.violation? f finding = none
    · rw [List.filterMap_cons_none hnone]
      exact ih.cons _
    · rw [List.filterMap_cons_some ((r.lineLocal f finding).kept hnone), List.map_cons,
        unspanned_complaint hpath]
      exact ih.cons_cons _

theorem Rule.run_congr (t : Tree) (h : r.beginFile r.state f = r.beginFile r.state bare) :
    r.run t f = r.run t bare := by
  rw [run, run, start, start, h]

theorem Rule.remainsOf_complaints (t : Tree) (hpath : bare.relativePath = f.relativePath)
    (hbare : Undirected bare.content)
    (hstart : r.beginFile r.state f = r.beginFile r.state bare) :
    RemainsOf (r.complaints t f) (r.complaints t bare) := by
  rw [complaints_eq, complaints_eq, run_congr t hstart]
  exact remainsOf_filterMap hpath hbare _

theorem Rule.BuiltIn.beginFile_eq (h : r.BuiltIn) (s : r.State) (f f' : SourceFile) :
    r.beginFile s f = r.beginFile s f' := by
  cases h with
  | baseClass p => rfl
  | dependency p => rfl
  | parameter p => rfl

theorem remainsOf_walk (t : Tree) {rules : List Rule} (hpath : bare.relativePath = f.relativePath)
    (hbare : Undirected bare.content)
    (hstart : ∀ r ∈ rules, r.beginFile r.state f = r.beginFile r.state bare) :
    RemainsOf (walk t f rules).violations (walk t bare rules).violations := by
  rw [violations_walk, violations_walk, RemainsOf, List.map_flatMap, List.map_flatMap]
  apply List.Sublist.flatMap_right
  intro r hr
  exact Rule.remainsOf_complaints t hpath hbare (hstart r hr)

/-- A walk reports what each rule finds and no directive on the line of the finding or the line
above allows. -/
theorem violations_lineLocal (t : Tree) (f : SourceFile) (rules : List Rule) :
    (walk t f rules).violations =
        rules.flatMap (fun r => (r.run t f).findings.toList.filterMap (r.violation? f)) ∧
      ∀ (r : Rule) (finding : Finding), r.LineLocal f finding := by
  constructor
  · rw [violations_walk]
    exact List.flatMap_congr fun r _ => r.complaints_eq t f
  · intro r finding
    exact r.lineLocal f finding

/-- A walk reports the findings that no directive on their line or the line above allows. Whatever
was found, it leaves of it what a text without directives leaves, some violations missing; and if
the rules begin both files alike, they find the same. -/
theorem suppression_lineLocal (t : Tree) (f bare : SourceFile) (rules : List Rule)
    (hpath : bare.relativePath = f.relativePath) (hbare : Undirected bare.content) :
    (walk t f rules).violations =
        rules.flatMap (fun r => (r.run t f).findings.toList.filterMap (r.violation? f)) ∧
      (∀ (r : Rule) (finding : Finding), r.LineLocal f finding) ∧
      (∀ run : Run, RemainsOf (run.violations f) (run.violations bare)) ∧
      ((∀ r ∈ rules, r.BuiltIn ∨ r.beginFile r.state f = r.beginFile r.state bare) →
        RemainsOf (walk t f rules).violations (walk t bare rules).violations) := by
  obtain ⟨hreported, hlocal⟩ := violations_lineLocal t f rules
  refine ⟨hreported, hlocal, fun run => Rule.remainsOf_filterMap hpath hbare _, ?_⟩
  intro hstart
  apply remainsOf_walk t hpath hbare
  intro r hr
  rcases hstart r hr with hbuiltIn | halike
  · exact hbuiltIn.beginFile_eq _ _ _
  · exact halike

def allowingFile : SourceFile :=
  ⟨⟨"A"⟩, ⟨"A"⟩, "package a; // archcheck: allow(all)\nimport b.C;\n"⟩

theorem suppression_lineLocal_import :
    ∃ t, Tree.ofSteps importSteps = .ok t ∧ (importWalk t importFile).violations ≠ [] ∧
      (importWalk t allowingFile).violations = [] ∧
      RemainsOf (importWalk t allowingFile).violations (importWalk t importFile).violations := by
  have hwalk : ∃ t, Tree.ofSteps importSteps = .ok t ∧
      (importWalk t importFile).violations ≠ [] ∧ (importWalk t allowingFile).violations = [] := by
    refine ⟨_, rfl, ?_, ?_⟩
    · decide +kernel
    · decide +kernel
  obtain ⟨t, ht, hreported, hallowed⟩ := hwalk
  have hbare : Undirected importFile.content := by decide +kernel
  obtain ⟨-, -, -, hremains⟩ := suppression_lineLocal t allowingFile importFile
    [(⟨"a", "b", "b is closed", .error⟩ : DependencyRule).toRule] rfl hbare
  refine ⟨t, ht, hreported, hallowed, hremains fun r hr => ?_⟩
  rw [List.mem_singleton.mp hr]
  exact .inl (.dependency _)

end ArchLint
