import Mathlib.Algebra.Ring.Nat
import Mathlib.Data.String.Basic
import Mathlib.Tactic.Push
import ArchLint.SourceFile

/-!
# Where lines lie

What the lines of a text are, said of the text alone: a line begins at the front or behind a line
feed, has no line feed in it, and ends before a terminator or with the text. The text is cut into
exactly these lines, and the two ways to count along the text, lines with their terminators and
lines without, find each of them in the same place.
-/

namespace ArchLint.Text

open SourceFile

variable {cs front before line ending after : List Char} {n : Nat}

theorem byteLength_eq (cs : List Char) : byteLength cs = (cs.map Char.utf8Size).sum := by
  rw [byteLength, List.sum_eq_foldl, List.foldl_map]

theorem byteLength_append (cs ds : List Char) :
    byteLength (cs ++ ds) = byteLength cs + byteLength ds := by
  rw [byteLength_eq, List.map_append, List.sum_append, byteLength_eq, byteLength_eq]

theorem byteLength_cons (c : Char) (cs : List Char) :
    byteLength (c :: cs) = c.utf8Size + byteLength cs := by
  rw [byteLength_eq, List.map_cons, List.sum_cons, byteLength_eq]

theorem utf8ByteSize_ofList (cs : List Char) :
    (String.ofList cs).utf8ByteSize = byteLength cs := by
  rw [String.utf8ByteSize_ofList]
  induction cs with
  | nil => rfl
  | cons c cs ih => rw [String.utf8Len_cons, ih, byteLength_cons, Nat.add_comm]

/-- A text is empty, or one line without line feed, or such a line in front of a text. -/
@[elab_as_elim]
theorem lineInduction {P : List Char → Prop} (nil : P [])
    (last : ∀ line, '\n' ∉ line → line ≠ [] → P line)
    (cons : ∀ line rest, '\n' ∉ line → P rest → P (line ++ '\n' :: rest)) (cs : List Char) :
    P cs := by
  suffices h : ∀ front, '\n' ∉ front → P (front ++ cs) from h [] List.not_mem_nil
  induction cs with
  | nil =>
    intro front hfront
    rw [List.append_nil]
    by_cases hnil : front = []
    · rwa [hnil]
    · exact last front hfront hnil
  | cons c cs ih =>
    intro front hfront
    by_cases hc : c = '\n'
    · rw [hc]
      exact cons front cs hfront (ih [] List.not_mem_nil)
    · rw [List.append_cons]
      apply ih
      simp [hfront, Ne.symm hc]

theorem terminatedLines_cons (c : Char) (cs : List Char) :
    terminatedLines (c :: cs) = terminatedLines.step c (terminatedLines cs) := rfl

theorem terminatedLines_free (hline : '\n' ∉ line) (hne : line ≠ []) :
    terminatedLines line = [line] := by
  induction line with
  | nil => exact absurd rfl hne
  | cons c line ih =>
    rw [List.mem_cons, not_or] at hline
    rw [terminatedLines_cons]
    by_cases hnil : line = []
    · rw [hnil]
      rfl
    · rw [ih hline.2 hnil, terminatedLines.step, if_neg (Ne.symm hline.1)]

theorem terminatedLines_append_newline (hline : '\n' ∉ line) (rest : List Char) :
    terminatedLines (line ++ '\n' :: rest) = (line ++ ['\n']) :: terminatedLines rest := by
  induction line with
  | nil =>
    rw [List.nil_append, terminatedLines_cons]
    cases terminatedLines rest with
    | nil => rfl
    | cons next lines => rw [terminatedLines.step, if_pos rfl]; rfl
  | cons c line ih =>
    rw [List.mem_cons, not_or] at hline
    rw [List.cons_append, terminatedLines_cons, ih hline.2, terminatedLines.step,
      if_neg (Ne.symm hline.1)]
    rfl

theorem flatten_terminatedLines (cs : List Char) : (terminatedLines cs).flatten = cs := by
  induction cs using lineInduction with
  | nil => rfl
  | last line hline hne => rw [terminatedLines_free hline hne, List.flatten_singleton]
  | cons line rest hline ih =>
    rw [terminatedLines_append_newline hline, List.flatten_cons, ih, List.append_assoc]
    rfl

def EndsLine (cs : List Char) : Prop :=
  ∀ c ∈ cs.getLast?, c = '\n'

theorem not_endsLine (hline : '\n' ∉ line) (hne : line ≠ []) : ¬ EndsLine line := by
  intro h
  have hlast := h _ (List.getLast?_eq_some_getLast hne)
  exact hline (hlast ▸ List.getLast_mem hne)

theorem EndsLine.of_cons {rest : List Char} (h : EndsLine (line ++ '\n' :: rest)) :
    EndsLine rest := by
  intro c hc
  apply h
  rw [List.getLast?_append, List.getLast?_cons, Option.mem_def.mp hc]
  rfl

theorem EndsLine.cons {rest : List Char} (h : EndsLine rest) (line : List Char) :
    EndsLine (line ++ '\n' :: rest) := by
  intro c hc
  rw [List.getLast?_append, List.getLast?_cons, Option.some_or, Option.mem_some_iff] at hc
  cases hlast : rest.getLast? with
  | none => rw [← hc, hlast]; rfl
  | some d =>
    rw [hlast] at hc
    rw [← hc]
    exact h d hlast

theorem terminatedLines_append (h : EndsLine before) (cs : List Char) :
    terminatedLines (before ++ cs) = terminatedLines before ++ terminatedLines cs := by
  induction before using lineInduction with
  | nil => rfl
  | last line hline hne => exact absurd h (not_endsLine hline hne)
  | cons line rest hline ih =>
    rw [List.append_assoc, List.cons_append, terminatedLines_append_newline hline,
      terminatedLines_append_newline hline, ih h.of_cons]
    rfl

theorem length_terminatedLines (h : EndsLine before) :
    (terminatedLines before).length = before.count '\n' := by
  induction before using lineInduction with
  | nil => rfl
  | last line hline hne => exact absurd h (not_endsLine hline hne)
  | cons line rest hline ih =>
    rw [terminatedLines_append_newline hline, List.length_cons, ih h.of_cons, List.count_append,
      List.count_eq_zero_of_not_mem hline, List.count_cons_self, Nat.zero_add]

/-- How a line ends: with a line feed, a carriage return before it being part of the terminator,
or with the text. -/
inductive Ends (line : List Char) : List Char → List Char → Prop where
  | newline (after : List Char) (h : ∀ c ∈ line.getLast?, c ≠ '\r') : Ends line ['\n'] after
  | carriage (after : List Char) : Ends line ['\r', '\n'] after
  | text (h : line ≠ []) : Ends line [] []

/-- Line `n` of a text, counted from zero: it stands behind `before`, and `ending` terminates
it. -/
structure LineAt (cs : List Char) (n : Nat) (before line ending after : List Char) : Prop where
  parts : cs = before ++ (line ++ (ending ++ after))
  number : before.count '\n' = n
  starts : EndsLine before
  free : '\n' ∉ line
  ends : Ends line ending after

theorem dropTerminator_free (hline : '\n' ∉ line) : dropTerminator line = line := by
  rw [dropTerminator]
  split
  · next h => exact absurd (List.mem_reverse.mp (h ▸ List.mem_cons_self)) hline
  · next h => exact absurd (List.mem_reverse.mp (h ▸ List.mem_cons_self)) hline
  · rfl

theorem dropTerminator_newline (h : ∀ c ∈ line.getLast?, c ≠ '\r') :
    dropTerminator (line ++ ['\n']) = line := by
  rcases List.eq_nil_or_concat line with rfl | ⟨front, c, rfl⟩
  · rfl
  · have hc : c ≠ '\r' := by
      apply h
      rw [List.concat_eq_append, List.getLast?_concat]
      rfl
    rw [List.concat_eq_append, dropTerminator, List.reverse_append, List.reverse_append]
    simp [hc]

theorem lines_append_newline (hline : '\n' ∉ line) (hlast : ∀ c ∈ line.getLast?, c ≠ '\r')
    (rest : List Char) : lines (line ++ '\n' :: rest) = line :: lines rest := by
  rw [lines, terminatedLines_append_newline hline, List.map_cons, dropTerminator_newline hlast]
  rfl

theorem dropTerminator_carriage (line : List Char) :
    dropTerminator (line ++ ['\r', '\n']) = line := by
  rw [dropTerminator, List.reverse_append]
  exact List.reverse_reverse line

theorem Ends.dropTerminator_eq (h : Ends line ending after) (hline : '\n' ∉ line) :
    dropTerminator (line ++ ending) = line := by
  cases h with
  | newline after hlast => exact dropTerminator_newline hlast
  | carriage after => exact dropTerminator_carriage line
  | text hne => rw [List.append_nil, dropTerminator_free hline]

theorem Ends.terminatedLines_eq (h : Ends line ending after) (hline : '\n' ∉ line) :
    terminatedLines (line ++ (ending ++ after)) = (line ++ ending) :: terminatedLines after := by
  cases h with
  | newline after _ => exact terminatedLines_append_newline hline after
  | carriage after =>
    have hcarriage : '\n' ∉ line ++ ['\r'] := by simp [hline]
    have hlines := terminatedLines_append_newline hcarriage after
    rwa [List.append_assoc, List.append_assoc] at hlines
  | text hne =>
    rw [List.append_nil, List.append_nil]
    exact terminatedLines_free hline hne

theorem exists_ends (hfront : '\n' ∉ front) (rest : List Char) :
    ∃ line ending, front ++ ['\n'] = line ++ ending ∧ '\n' ∉ line ∧ Ends line ending rest := by
  by_cases h : ∀ c ∈ front.getLast?, c ≠ '\r'
  · exact ⟨front, _, rfl, hfront, .newline rest h⟩
  · push Not at h
    obtain ⟨c, hc, rfl⟩ := h
    obtain ⟨line, rfl⟩ := List.getLast?_eq_some_iff.mp hc
    refine ⟨line, _, List.append_assoc line _ _, ?_, .carriage rest⟩
    exact fun hmem => hfront (List.mem_append_left _ hmem)

theorem LineAt.append (h : LineAt cs n before line ending after) (hline : '\n' ∉ front) :
    LineAt (front ++ '\n' :: cs) (n + 1) (front ++ '\n' :: before) line ending after where
  parts := by rw [h.parts, List.append_assoc, List.cons_append]
  number := by
    rw [List.count_append, List.count_eq_zero_of_not_mem hline, List.count_cons_self, h.number,
      Nat.zero_add]
  starts := h.starts.cons front
  free := h.free
  ends := h.ends

/-- The lines of a text are found in it, each under its number. -/
theorem exists_lineAt (h : (lines cs)[n]? = some line) :
    ∃ before ending after, LineAt cs n before line ending after := by
  have hnil : EndsLine [] := fun c hc => by cases hc
  induction cs using lineInduction generalizing n with
  | nil => cases h
  | last whole hwhole hne =>
    rw [lines, terminatedLines_free hwhole hne, List.map_singleton, dropTerminator_free hwhole]
      at h
    obtain ⟨rfl, rfl⟩ : n = 0 ∧ whole = line := by
      simpa [List.getElem?_singleton] using h
    exact ⟨[], [], [], by simp, rfl, hnil, hwhole, .text hne⟩
  | cons whole rest hwhole ih =>
    rw [lines, terminatedLines_append_newline hwhole, List.map_cons] at h
    cases n with
    | zero =>
      obtain ⟨l, ending, hparts, hfree, hends⟩ := exists_ends hwhole rest
      rw [hparts, List.getElem?_cons_zero, hends.dropTerminator_eq hfree] at h
      cases h
      refine ⟨[], ending, rest, ?_, rfl, hnil, hfree, hends⟩
      rw [List.nil_append, ← List.append_assoc, ← hparts, List.append_assoc]
      rfl
    | succ n =>
      obtain ⟨before, ending, after, hline⟩ := ih h
      exact ⟨_, ending, after, hline.append hwhole⟩

/-- A text has exactly the lines that it shows. -/
theorem lines_getElem?_eq_some_iff :
    (lines cs)[n]? = some line ↔ ∃ before ending after, LineAt cs n before line ending after := by
  constructor
  · exact exists_lineAt
  · rintro ⟨before, ending, after, h⟩
    have hlength := length_terminatedLines h.starts
    rw [h.number] at hlength
    rw [lines, h.parts, terminatedLines_append h.starts, List.map_append,
      List.getElem?_append_right (by rw [List.length_map, hlength]), List.length_map, hlength,
      Nat.sub_self, h.ends.terminatedLines_eq h.free, List.map_cons, List.getElem?_cons_zero,
      h.ends.dropTerminator_eq h.free]

theorem length_lines (cs : List Char) : (lines cs).length = (terminatedLines cs).length :=
  List.length_map _

theorem lineStart_append (ls : List (List Char)) (full : List Char) (rest : List (List Char)) :
    lineStart (ls ++ full :: rest) ls.length = (byteLength ls.flatten, true) := by
  induction ls with
  | nil => rfl
  | cons l ls ih =>
    rw [List.cons_append, List.length_cons, lineStart, ih, List.flatten_cons, byteLength_append,
      Nat.add_comm]

theorem lineStart_of_length_le {ls : List (List Char)} (h : ls.length ≤ n) :
    lineStart ls n = (byteLength ls.flatten, false) := by
  induction ls generalizing n with
  | nil => rfl
  | cons l ls ih =>
    cases n with
    | zero => exact absurd h (Nat.not_succ_le_zero _)
    | succ n =>
      rw [lineStart, ih (Nat.le_of_succ_le_succ h), List.flatten_cons, byteLength_append,
        Nat.add_comm]

theorem LineAt.lineStart_eq (h : LineAt cs n before line ending after) :
    lineStart (terminatedLines cs) n = (byteLength before, true) := by
  have hstart := lineStart_append (terminatedLines before) (line ++ ending)
    (terminatedLines after)
  rwa [length_terminatedLines h.starts, h.number, flatten_terminatedLines,
    ← h.ends.terminatedLines_eq h.free, ← terminatedLines_append h.starts, ← h.parts] at hstart

end ArchLint.Text
