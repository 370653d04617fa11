import ArchLint.Proofs.Json.RoundTrip
import ArchLint.Report.Format

/-!
# Reports that are written and read

A report is read back from the JSON that it is rendered as, whatever its texts hold, as long as its
numbers fit into 64 bits.
-/

namespace ArchLint

open Json (Exact)

structure Location.Fits (l : Location) : Prop where
  line : l.line < Nat.pow 2 64
  column : l.column < Nat.pow 2 64
  offset : l.offset < Nat.pow 2 64
  length : l.length < Nat.pow 2 64

/-- The numbers of a report fit into 64 bits. -/
structure Report.Fits (r : Report) : Prop where
  filesChecked : r.filesChecked < Nat.pow 2 64
  ruleFailures : r.ruleFailures < Nat.pow 2 64
  violations : ∀ v ∈ r.violations, v.location.Fits

theorem Location.Fits.exact {l : Location} (h : l.Fits) : Exact l.toJson := by
  apply Exact.object
  simp only [List.forall_mem_cons]
  exact ⟨.string _, .number h.line, .number h.column, .number h.offset, .number h.length,
    List.forall_mem_nil _⟩

theorem Violation.exact_toJson {v : Violation} (h : v.location.Fits) : Exact v.toJson := by
  apply Exact.object
  rw [List.forall_mem_append]
  constructor
  · simp only [List.forall_mem_cons]
    exact ⟨.string _, .string _, .string _, h.exact, .string _, List.forall_mem_nil _⟩
  · cases v.suggestion with
    | none => exact List.forall_mem_nil _
    | some s =>
      rw [List.forall_mem_singleton]
      apply Exact.object
      rw [List.forall_mem_singleton]
      exact .string s

theorem Report.Fits.exact {r : Report} (h : r.Fits) : Exact r.toJson := by
  apply Exact.object
  simp only [List.forall_mem_cons]
  refine ⟨.array ?_, .number h.filesChecked, .number h.ruleFailures, List.forall_mem_nil _⟩
  rw [List.forall_mem_map]
  intro v hv
  exact Violation.exact_toJson (h.violations v hv)

theorem Location.ofJson?_toJson (l : Location) : ofJson? l.toJson = some l := rfl

theorem Violation.ofJson?_toJson (v : Violation) : ofJson? v.toJson = some v := by
  obtain ⟨code, rule, severity, location, message, suggestion⟩ := v
  cases suggestion with
  | none => cases severity <;> rfl
  | some s => cases severity <;> rfl

theorem Report.ofJson?_toJson (r : Report) : ofJson? r.toJson = some r := by
  have hviolations : (r.violations.map Violation.toJson).mapM Violation.ofJson? =
      some r.violations :=
    Json.mapM_map_eq_some fun v _ => v.ofJson?_toJson
  have hfields : r.toJson.fields? ["violations", "files_checked", "rule_failures"] =
      some [some (.array (r.violations.map Violation.toJson)), some (.number r.filesChecked),
        some (.number r.ruleFailures)] := rfl
  rw [ofJson?, hfields]
  simp only [hviolations]
  rfl

/-- A report with numbers of 64 bits is read back, in every field and in the same order, from what
it is rendered as. -/
theorem Report.parse?_render_json (r : Report) (h : r.Fits) (source : Path → Option String) :
    parse? (r.render source .json) = some r := by
  have hnewline : Json.Reader.Blank "\n".toList := List.forall_mem_singleton.mpr rfl
  rw [parse?, render, Json.parse?_print h.exact hnewline, Option.bind_some, ofJson?_toJson]

def awkwardPlace : Location :=
  ⟨⟨"é/😀.java"⟩, Nat.pow 2 64 - 1, 0, 7, 10⟩

def awkwardViolation (suggestion : Option String) : Violation where
  code := "\"\\/\x08"
  rule := "\x00\x1f\x7f"
  severity := .warning
  location := awkwardPlace
  message := "a\r\n\tb\u2028"
  suggestion := suggestion

def awkwardReport : Report :=
  ⟨[awkwardViolation none, awkwardViolation (some "\\u0041"), awkwardViolation none], 0, Nat.pow 2 64 - 1⟩

theorem Report.parse?_render_json_awkward : awkwardReport.Fits ∧
    parse? (awkwardReport.render (fun _ => none) .json) = some awkwardReport := by
  have hplace : awkwardPlace.Fits := ⟨by decide, by decide, by decide, by decide⟩
  have hfits : awkwardReport.Fits := by
    refine ⟨by decide, by decide, ?_⟩
    simp only [awkwardReport, List.forall_mem_cons]
    exact ⟨hplace, hplace, hplace, List.forall_mem_nil _⟩
  exact ⟨hfits, parse?_render_json awkwardReport hfits fun _ => none⟩

end ArchLint
