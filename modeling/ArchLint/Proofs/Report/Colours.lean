import Mathlib.Data.List.Basic
import ArchLint.Report.Format

/-!
# Reports with and without colours

A report is written for people in two ways, with colours and without. Taking all colour sequences
out of both leaves the same text, whatever the violations say: a text of a violation may hold
escape characters and parts of sequences of its own, but none of them can join with a sequence that
was put in, since a blank, a line feed or a letter stands between them.
-/

namespace ArchLint

namespace Colour

variable {c : Char} {cs ds rest after : List Char}

/-- What stands behind the colour sequence at the front of a text: an escape character, a bracket,
digits and the letter `m`. -/
def behind? : List Char → Option (List Char)
  | '\x1b' :: '[' :: cs =>
    match cs.takeWhile Char.isDigit, cs.dropWhile Char.isDigit with
    | _ :: _, 'm' :: after => some after
    | _, _ => none
  | _ => none

/-- An escape character, a bracket and digits: a colour sequence that lacks its last letter. -/
def IsLead (cs : List Char) : Prop :=
  ∃ digits, digits ≠ [] ∧ (∀ d ∈ digits, d.isDigit = true) ∧ cs = '\x1b' :: '[' :: digits

theorem behind?_eq_some_iff :
    behind? cs = some after ↔ ∃ lead, IsLead lead ∧ cs = lead ++ 'm' :: after := by
  constructor
  · intro h
    rw [behind?.eq_def] at h
    split at h
    · next cs =>
      split at h
      · next d ds after' htake hdrop =>
        cases h
        refine ⟨'\x1b' :: '[' :: cs.takeWhile Char.isDigit, ⟨_, by simp [htake], ?_, rfl⟩, ?_⟩
        · exact List.all_eq_true.mp List.all_takeWhile
        · rw [List.cons_append, List.cons_append, ← hdrop, List.takeWhile_append_dropWhile]
      · cases h
    · cases h
  · rintro ⟨_, ⟨digits, hne, hdigits, rfl⟩, rfl⟩
    obtain ⟨d, ds, rfl⟩ := List.exists_cons_of_ne_nil hne
    rw [List.cons_append, List.cons_append, behind?,
      List.takeWhile_append_of_pos hdigits, List.dropWhile_append_of_pos hdigits]
    rfl

theorem length_of_behind? (h : behind? cs = some after) : after.length < cs.length := by
  obtain ⟨lead, -, rfl⟩ := behind?_eq_some_iff.mp h
  simp only [List.length_append, List.length_cons]
  omega

/-- The text without its colour sequences. -/
def erase (cs : List Char) : List Char :=
  match _h : behind? cs with
  | some after => erase after
  | none =>
    match cs with
    | [] => []
    | c :: rest => c :: erase rest
termination_by cs.length
decreasing_by
  · exact length_of_behind? _h
  · exact Nat.lt_succ_self _

def eraseAll (text : String) : String :=
  String.ofList (erase text.toList)

theorem erase_behind (h : behind? cs = some after) : erase cs = erase after := by
  rw [erase]
  split
  · next h' => rw [Option.some.inj (h.symm.trans h')]
  · next h' => cases h.symm.trans h'

theorem erase_cons (h : behind? (c :: cs) = none) : erase (c :: cs) = c :: erase cs := by
  rw [erase]
  split
  · next h' => cases h.symm.trans h'
  · rfl

theorem erase_nil : erase [] = [] := by
  rw [erase]
  rfl

def isInner (c : Char) : Bool :=
  c = '\x1b' || c = '[' || c.isDigit

/-- No colour sequence begins in the text and ends behind it. -/
def Settled (cs : List Char) : Prop :=
  ∀ c ∈ cs.getLast?, isInner c = false

instance (cs : List Char) : Decidable (Settled cs) :=
  decidable_of_iff (cs.getLast?.all fun c => !isInner c)
    (by simp [Settled, Option.all_eq_true])

theorem IsLead.isInner {lead : List Char} (h : IsLead lead) : ∀ c ∈ lead, isInner c = true := by
  obtain ⟨digits, -, hdigits, rfl⟩ := h
  simp only [List.forall_mem_cons]
  refine ⟨rfl, rfl, fun d hd => ?_⟩
  simp [Colour.isInner, hdigits d hd]

theorem settled_append (hne : ds ≠ []) (h : Settled ds) (cs : List Char) : Settled (cs ++ ds) := by
  intro c hc
  rw [List.getLast?_append_of_ne_nil _ hne] at hc
  exact h c hc

theorem Settled.of_append (h : Settled (cs ++ ds)) : Settled ds := by
  by_cases hne : ds = []
  · rw [hne]
    nofun
  · intro c hc
    apply h
    rwa [List.getLast?_append_of_ne_nil _ hne]

theorem IsLead.eq_nil_of_settled (hlead : IsLead (cs ++ ds)) (h : Settled cs) : cs = [] := by
  by_contra hne
  have hinner := hlead.isInner _ (List.mem_append_left ds (List.getLast_mem hne))
  rw [h _ (List.getLast?_eq_some_getLast hne)] at hinner
  cases hinner

theorem behind?_append (hne : cs ≠ []) (h : Settled cs) (ds : List Char) :
    behind? (cs ++ ds) = (behind? cs).map (· ++ ds) := by
  ext after
  rw [Option.map_eq_some_iff]
  simp only [behind?_eq_some_iff]
  constructor
  · rintro ⟨lead, hlead, heq⟩
    rcases List.append_eq_append_iff.mp heq with ⟨more, rfl, -⟩ | ⟨more, rfl, hrest⟩
    · exact absurd (hlead.eq_nil_of_settled h) hne
    · cases more with
      | nil =>
        rw [← List.append_nil lead] at hlead
        rw [List.append_nil] at h hne
        exact absurd (hlead.eq_nil_of_settled h) hne
      | cons c more =>
        obtain ⟨rfl, rfl⟩ := List.cons.inj hrest
        exact ⟨more, ⟨lead, hlead, rfl⟩, rfl⟩
  · rintro ⟨before, ⟨lead, hlead, rfl⟩, rfl⟩
    exact ⟨lead, hlead, by simp⟩

/-- What is erased from a settled text does not depend on what follows it. -/
theorem erase_append (h : Settled cs) (ds : List Char) :
    erase (cs ++ ds) = erase cs ++ erase ds := by
  induction cs using erase.induct with
  | case1 cs after hafter ih =>
    have hne : cs ≠ [] := by
      rintro rfl
      cases hafter
    have hbehind := behind?_append hne h ds
    rw [hafter] at hbehind
    obtain ⟨lead, -, rfl⟩ := behind?_eq_some_iff.mp hafter
    have hsettled : Settled after := by
      rw [List.append_cons] at h
      exact h.of_append
    rw [erase_behind hbehind, erase_behind hafter, ih hsettled]
  | case2 _ =>
    rw [erase_nil]
    rfl
  | case3 c rest hnone ih =>
    have hbehind := behind?_append (List.cons_ne_nil c rest) h ds
    have hsettled : Settled ([c] ++ rest) := h
    rw [hnone, List.cons_append] at hbehind
    rw [erase_cons hnone, List.cons_append, erase_cons hbehind, ih hsettled.of_append,
      List.cons_append]

theorem erase_paint (colour : Colour) {text : String} (h : Settled text.toList)
    (ds : List Char) :
    erase ((colour.paint text).toList ++ ds) = erase (text.toList ++ ds) := by
  have hdigits : IsLead ('\x1b' :: '[' :: Nat.toDigits 10 colour.number) :=
    ⟨_, Nat.toDigits_ne_nil, fun _ => Nat.isDigit_of_mem_toDigits (by decide) (by decide), rfl⟩
  have hfront : behind? ((colour.paint text).toList ++ ds) =
      some (text.toList ++ ("\x1b[0m".toList ++ ds)) := by
    refine behind?_eq_some_iff.mpr ⟨_, hdigits, ?_⟩
    simp [paint, String.toList_append, Nat.repr]
  have hback : behind? ("\x1b[0m".toList ++ ds) = some ds :=
    behind?_eq_some_iff.mpr ⟨['\x1b', '[', '0'], ⟨['0'], by simp, by simp, rfl⟩, rfl⟩
  rw [erase_behind hfront, erase_append h, erase_behind hback, erase_append h]

example : erase "\x1b[31mred\x1b[0m \x1b[m \x1b[1".toList = "red \x1b[m \x1b[1".toList := by
  cbv

end Colour

open Colour (erase eraseAll Settled settled_append erase_append erase_paint)

namespace Violation

def opening (v : Violation) : List Char :=
  (v.code ++ " " ++ v.rule ++ " at " ++ v.location.label ++ "\n" ++ "  ").toList

def closing (v : Violation) : List Char :=
  (": " ++ v.message ++ "\n" ++
    (match v.suggestion with
    | some s => "  = help: " ++ s ++ "\n"
    | none => "") ++ "\n").toList

theorem toList_linesWith (severity : String) (v : Violation) :
    (v.linesWith severity ++ "\n").toList = v.opening ++ (severity.toList ++ v.closing) := by
  rw [linesWith, opening, closing]
  cases v.suggestion <;> simp only [String.toList_append, List.append_assoc]

theorem settled_opening (v : Violation) : Settled v.opening := by
  rw [opening, String.toList_append]
  exact settled_append (by decide) (by decide) _

theorem settled_closing (v : Violation) : Settled v.closing := by
  rw [closing, String.toList_append]
  exact settled_append (by decide) (by decide) _

end Violation

theorem Severity.settled_name (s : Severity) : Settled s.name.toList := by
  cases s <;> decide

/-- The lines of a violation are the same with and without colours. -/
theorem Violation.erase_linesWith (v : Violation) (c : Colour) (rest : List Char) :
    erase ((v.linesWith (c.paint v.severity.name) ++ "\n").toList ++ rest) =
      erase ((v.format ++ "\n").toList) ++ erase rest := by
  have hname := v.severity.settled_name
  rw [format, toList_linesWith, toList_linesWith, List.append_assoc, List.append_assoc,
    erase_append v.settled_opening, erase_paint c hname, erase_append hname,
    erase_append v.settled_closing, erase_append v.settled_opening, erase_append hname]
  simp only [List.append_assoc]

namespace Report

def having (r : Report) (s : Severity) : Nat :=
  (r.violations.filter fun v => v.severity = s).length

theorem settled_summary (r : Report) : Settled r.summary.toList := by
  delta summary
  split
  · rw [← String.append_assoc, String.toList_append]
    exact settled_append (by decide) (by decide) _
  · rw [String.append_empty, String.toList_append]
    exact settled_append (by decide) (by decide) _

theorem erase_listing (vs : List Violation) {rest rest' : List Char}
    (h : erase rest = erase rest') :
    erase ((String.join (vs.map fun v =>
        v.linesWith (v.severity.colour.paint v.severity.name) ++ "\n")).toList ++ rest) =
      erase ((String.join (vs.map fun v => v.format ++ "\n")).toList ++ rest') := by
  induction vs with
  | nil => exact h
  | cons v vs ih =>
    have hformat : Settled (v.format ++ "\n").toList := by
      rw [String.toList_append]
      exact settled_append (by decide) (by decide) _
    rw [List.map_cons, List.map_cons, String.join_cons, String.join_cons,
      String.toList_append (s := v.linesWith _ ++ "\n"),
      String.toList_append (s := v.format ++ "\n"), List.append_assoc, List.append_assoc,
      v.erase_linesWith, erase_append hformat, ih]

theorem erase_summaryLine (r : Report) :
    erase r.summaryLine.toList = erase (r.summary.toList ++ "\n".toList) := by
  rw [summaryLine, String.toList_append, erase_paint _ r.settled_summary]

theorem count_eq (r : Report) (s : Severity) : r.count s = r.having s := by
  rw [count, having, List.countP_eq_length_filter]

theorem having_add (r : Report) :
    r.having .error + r.having .warning + r.having .info = r.violations.length := by
  rw [having, having, having]
  induction r.violations with
  | nil => rfl
  | cons v vs ih => cases hs : v.severity <;> simp [hs] <;> omega

theorem erase_renderText (r : Report) :
    erase r.renderText.toList = erase (r.format ++ "\n").toList := by
  rw [renderText, format, String.append_assoc, String.toList_append, String.toList_append]
  refine erase_listing r.violations ?_
  rw [r.erase_summaryLine, String.toList_append]

/-- With and without colours a report is the same text, up to the line feed at its end. Both end in
a summary that tells how many violations have each severity, and these are all of them. -/
theorem render_text_agrees (r : Report) (source : Path → Option String) :
    eraseAll (r.render source .text) = eraseAll (r.format ++ "\n") ∧
      (∃ listing, r.format = listing ++ r.summary) ∧
      (∃ listing, r.render source .text = listing ++ r.colour.paint r.summary ++ "\n") ∧
      r.summary = "Found " ++ toString (r.having .error) ++ " error(s), " ++
        toString (r.having .warning) ++ " warning(s), " ++ toString (r.having .info) ++
        " info(s) in " ++ toString r.filesChecked ++ " file(s)" ++
        (if r.ruleFailures > 0 then " (" ++ toString r.ruleFailures ++ " rule visit(s) failed)"
        else "") ∧
      r.having .error + r.having .warning + r.having .info = r.violations.length := by
  refine ⟨?_, ⟨_, rfl⟩, ⟨_, (String.append_assoc).symm⟩, ?_, r.having_add⟩
  · exact congrArg String.ofList r.erase_renderText
  · rw [← r.count_eq, ← r.count_eq, ← r.count_eq]
    rfl

end Report

end ArchLint
