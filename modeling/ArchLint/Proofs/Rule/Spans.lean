import ArchLint.Proofs.Rule.Walk
import ArchLint.Proofs.Text.Lines
import ArchLint.Syntax.Builder

/-!
# Spans

A violation names a line and a span of bytes. Whatever line a rule reports, the span lies within
the text and cuts no character: it covers the line without its terminator where there is one, and
is empty where there is none.
-/

namespace ArchLint

open Syntax Text

variable {cs before line ending after : List Char} {n : Nat}

namespace Text

theorem extract_utf8Encode (before part after : List Char) :
    (before ++ (part ++ after)).utf8Encode.extract (byteLength before)
      (byteLength before + byteLength part) = part.utf8Encode := by
  have hsize : ∀ ds : List Char, ds.utf8Encode.size = byteLength ds := by
    intro ds
    rw [← utf8ByteSize_ofList, String.utf8ByteSize, String.toByteArray_ofList]
  rw [List.utf8Encode_append, ← hsize before, ← hsize part]
  have hshift := ByteArray.extract_append_size_add (a := before.utf8Encode)
    (b := (part ++ after).utf8Encode) (i := 0) (j := part.utf8Encode.size)
  rw [Nat.add_zero] at hshift
  rw [hshift, List.utf8Encode_append, ByteArray.extract_append_eq_left rfl]

theorem isValid_of_eq {content : String} (h : content.toList = before ++ after) :
    (⟨byteLength before⟩ : String.Pos.Raw).IsValid content := by
  rw [String.Pos.Raw.isValid_iff_exists_append]
  refine ⟨String.ofList before, String.ofList after, ?_, ?_⟩
  · rw [← String.ofList_append, ← h, String.ofList_toList]
  · rw [String.rawEndPos, utf8ByteSize_ofList]

theorem byteLength_toList (content : String) :
    byteLength content.toList = content.utf8ByteSize := by
  rw [← utf8ByteSize_ofList, String.ofList_toList]

end Text

namespace Location

/-- A span that goes by the line of its location, be there such a line in the text or not. -/
structure MarksLine (l : Location) (content : String) : Prop where
  placed : ∀ n before line ending after, l.line = n + 1 →
    LineAt content.toList n before line ending after →
    l.offset = byteLength before ∧ l.length = byteLength line
  above : l.line = 0 → l.offset = 0 ∧ l.length = 0
  below : (lines content.toList).length < l.line →
    l.offset = content.utf8ByteSize ∧ l.length = 0

/-- Such a span lies in the text between two characters, and where there is a line its bytes are
those of the line. -/
structure Spans (l : Location) (content : String) : Prop extends MarksLine l content where
  inside : l.offset + l.length ≤ content.utf8ByteSize
  start : (⟨l.offset⟩ : String.Pos.Raw).IsValid content
  stop : (⟨l.offset + l.length⟩ : String.Pos.Raw).IsValid content
  covers : ∀ n line, l.line = n + 1 → (lines content.toList)[n]? = some line →
    (∃ before ending after, LineAt content.toList n before line ending after) ∧
      content.toByteArray.extract l.offset (l.offset + l.length) = (String.ofList line).toByteArray

end Location

namespace SourceFile

variable {f : SourceFile}

theorem offsetOf_eq (h : LineAt f.content.toList n before line ending after) :
    f.offsetOf (n + 1) 1 = byteLength before := by
  rw [offsetOf, h.lineStart_eq]
  rfl

theorem lineLength_eq (h : LineAt f.content.toList n before line ending after) :
    f.lineLength (n + 1) = byteLength line := by
  rw [lineLength, lines_getElem?_eq_some_iff.mpr ⟨before, ending, after, h⟩]
  rfl

theorem offsetOf_of_length_lt (h : (lines f.content.toList).length < n + 1) :
    f.offsetOf (n + 1) 1 = f.content.utf8ByteSize := by
  rw [length_lines] at h
  rw [offsetOf, lineStart_of_length_le (Nat.le_of_lt_succ h), flatten_terminatedLines,
    byteLength_toList]

theorem lineLength_of_length_lt (h : (lines f.content.toList).length < n + 1) :
    f.lineLength (n + 1) = 0 := by
  rw [lineLength, List.getElem?_eq_none (Nat.le_of_lt_succ h)]
  rfl

end SourceFile

namespace Location

variable {l : Location} {content : String}

/-- Either the text has the line, or the line is before or behind all lines of the text. -/
theorem exists_lineAt_or (l : Location) (content : String) :
    (∃ n before line ending after, l.line = n + 1 ∧
      LineAt content.toList n before line ending after) ∨
    l.line = 0 ∨ (lines content.toList).length < l.line := by
  rcases Nat.eq_zero_or_eq_succ_pred l.line with hzero | hsucc
  · exact .inr (.inl hzero)
  · cases hline : (lines content.toList)[l.line.pred]? with
    | some line =>
      obtain ⟨before, ending, after, h⟩ := exists_lineAt hline
      exact .inl ⟨_, before, line, ending, after, hsucc, h⟩
    | none =>
      rw [List.getElem?_eq_none_iff] at hline
      right
      right
      omega

theorem MarksLine.exists_parts (h : l.MarksLine content) : ∃ before part after,
    content.toList = before ++ (part ++ after) ∧ l.offset = byteLength before ∧
      l.length = byteLength part := by
  rcases l.exists_lineAt_or content with ⟨n, before, line, ending, after, hl, hat⟩ | hzero | hbelow
  · obtain ⟨hoffset, hlength⟩ := h.placed n before line ending after hl hat
    exact ⟨before, line, ending ++ after, hat.parts, hoffset, hlength⟩
  · obtain ⟨hoffset, hlength⟩ := h.above hzero
    exact ⟨[], [], content.toList, rfl, hoffset, hlength⟩
  · obtain ⟨hoffset, hlength⟩ := h.below hbelow
    refine ⟨content.toList, [], [], by simp, ?_, hlength⟩
    rw [hoffset, byteLength_toList]

theorem MarksLine.spans (h : l.MarksLine content) : l.Spans content := by
  obtain ⟨before, part, after, hparts, hoffset, hlength⟩ := h.exists_parts
  have hend : l.offset + l.length = byteLength (before ++ part) := by
    rw [hoffset, hlength, byteLength_append]
  rw [← List.append_assoc] at hparts
  refine { h with inside := ?_, start := ?_, stop := ?_, covers := ?_ }
  · rw [hend, ← byteLength_toList, hparts, byteLength_append (before ++ part)]
    exact Nat.le_add_right _ _
  · rw [hoffset]
    rw [List.append_assoc] at hparts
    exact isValid_of_eq hparts
  · rw [hend]
    exact isValid_of_eq hparts
  · intro n line hl hline
    obtain ⟨before, ending, after, hat⟩ := exists_lineAt hline
    obtain ⟨hoffset, hlength⟩ := h.placed n before line ending after hl hat
    refine ⟨⟨before, ending, after, hat⟩, ?_⟩
    rw [hoffset, hlength, String.toByteArray_ofList, ← extract_utf8Encode before line,
      ← hat.parts, ← String.toByteArray_ofList, String.ofList_toList]

end Location

theorem Rule.marksLine_complaint (r : Rule) (f : SourceFile) (finding : Finding) :
    (r.complaint f finding).location.MarksLine f.content := by
  constructor
  · intro n before line ending after (hl : finding.line = n + 1) hat
    change f.offsetOf finding.line 1 = _ ∧ f.lineLength finding.line = _
    rw [hl]
    exact ⟨SourceFile.offsetOf_eq hat, SourceFile.lineLength_eq hat⟩
  · intro (hl : finding.line = 0)
    change f.offsetOf finding.line 1 = _ ∧ f.lineLength finding.line = _
    rw [hl]
    exact ⟨rfl, rfl⟩
  · intro (hl : _ < finding.line)
    change f.offsetOf finding.line 1 = _ ∧ f.lineLength finding.line = _
    obtain ⟨n, hn⟩ := Nat.exists_eq_succ_of_ne_zero (Nat.ne_zero_of_lt hl)
    rw [hn] at hl ⊢
    exact ⟨SourceFile.offsetOf_of_length_lt hl, SourceFile.lineLength_of_length_lt hl⟩

/-- Whatever a walk reports, its span is exact and within the text. -/
theorem spans_of_mem_walk (t : Tree) (f : SourceFile) (rules : List Rule) {v : Violation}
    (hv : v ∈ (walk t f rules).violations) : v.location.Spans f.content := by
  rw [violations_walk, List.mem_flatMap] at hv
  obtain ⟨r, -, hv⟩ := hv
  obtain ⟨finding, -, hfinding⟩ := Rule.mem_complaints.mp hv
  rw [Rule.eq_complaint hfinding]
  exact (r.marksLine_complaint f finding).spans

def importSteps : List Step :=
  [.start .compilationUnit none 1, .start .packageDef none 1, .qualified "a" 1, .finish,
    .start .importDef none 2, .qualified "b.C" 2, .finish, .finish]

def importFile : SourceFile :=
  ⟨⟨"A"⟩, ⟨"A"⟩, "package a; // ä\r\nimport b.C;\n"⟩

def importWalk (t : Tree) (f : SourceFile) : Walk :=
  walk t f [(⟨"a", "b", "b is closed", .error⟩ : DependencyRule).toRule]

theorem spans_of_mem_walk_import :
    ∃ t v, Tree.ofSteps importSteps = .ok t ∧ v ∈ (importWalk t importFile).violations ∧
      v.location = ⟨⟨"A"⟩, 2, 1, 18, 11⟩ ∧ v.location.Spans importFile.content := by
  have hwalk : ∃ t v, Tree.ofSteps importSteps = .ok t ∧
      v ∈ (importWalk t importFile).violations ∧ v.location = ⟨⟨"A"⟩, 2, 1, 18, 11⟩ := by
    refine ⟨_, ⟨"AC002", "forbidden-dependency", .error, ⟨⟨"A"⟩, 2, 1, 18, 11⟩, "b is closed",
      none⟩, rfl, ?_, rfl⟩
    decide +kernel
  obtain ⟨t, v, ht, hv, hlocation⟩ := hwalk
  exact ⟨t, v, ht, hv, hlocation, spans_of_mem_walk t _ _ hv⟩

end ArchLint
