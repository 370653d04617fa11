import ArchLint.Java.Parser
import ArchLint.Proofs.Java.Parser.Statements

/-!
# A file is read in the order of its lines

The cursor of the scanner only moves down, so the lexemes come in the order of their lines, and
the parsers keep that order: the leaves of a parsed file stand on lines that never go back.
-/

namespace ArchLint.Java

/-- The lines come in order and end no later than `last`. -/
structure Ascends (ns : List Nat) (last : Nat) : Prop where
  ordered : ns.Pairwise (· ≤ ·)
  bounded : ∀ n ∈ ns, n ≤ last

namespace Ascends

variable {ns : List Nat} {last last' : Nat}

theorem nil (last : Nat) : Ascends [] last :=
  ⟨List.Pairwise.nil, List.forall_mem_nil _⟩

theorem mono (h : Ascends ns last) (hle : last ≤ last') : Ascends ns last' :=
  ⟨h.ordered, fun n hn => Nat.le_trans (h.bounded n hn) hle⟩

theorem concat (h : Ascends ns last) : Ascends (ns ++ [last]) last := by
  constructor
  · rw [List.pairwise_append]
    refine ⟨h.ordered, List.pairwise_singleton _ _, fun n hn m hm => ?_⟩
    rw [List.mem_singleton.mp hm]
    exact h.bounded n hn
  · intro n hn
    rcases List.mem_append.mp hn with hn | hn
    · exact h.bounded n hn
    · exact Nat.le_of_eq (List.mem_singleton.mp hn)

end Ascends

namespace Lexeme

theorem Cursor.line_le_take (c : Cursor) (n : Nat) : c.line ≤ (c.take n).2.line :=
  Nat.le_add_right _ _

theorem Cursor.ascends_skipGap (fuel : Nat) (c : Cursor) (gap : String) (comments : Array Cst)
    (before : List Nat) (hlines : Ascends (before ++ comments.toList.flatMap Cst.lines) c.line)
    (hsettled : ∀ d ∈ comments.toList, d.Settled) :
    Ascends (before ++ (c.skipGap fuel gap comments).2.1.flatMap Cst.lines)
        (c.skipGap fuel gap comments).2.2.line ∧
      ∀ d ∈ (c.skipGap fuel gap comments).2.1, d.Settled := by
  induction fuel generalizing c gap comments with
  | zero => exact ⟨hlines, hsettled⟩
  | succ fuel ih =>
    rw [skipGap]
    split
    · exact ih _ _ _ (hlines.mono (c.line_le_take _)) hsettled
    · split
      · exact ⟨hlines, hsettled⟩
      · next kind n _ =>
        refine ih _ _ _ ?_ ?_
        · rw [Array.toList_push, List.flatMap_append, ← List.append_assoc, List.flatMap_singleton,
            Cst.lines_leaf]
          exact hlines.concat.mono (c.line_le_take n)
        · rw [Array.toList_push, List.forall_mem_append]
          exact ⟨hsettled, List.forall_mem_singleton.mpr (Cst.settled_leaf _ _ _ _)⟩

/-- The lexemes found so far are in order, and the cursor is not above the last of them. -/
structure Scanned (done : List Lexeme) (c : Cursor) : Prop where
  ascends : Ascends ((Parser.upcoming done).flatMap Piece.lines) c.line
  settled : Piece.AllSettled (Parser.upcoming done)

theorem Scanned.push {done : List Lexeme} {c c' : Cursor} {l : Lexeme} (h : Scanned done c)
    (hcomments : Ascends ((Parser.upcoming done).flatMap Piece.lines ++
      l.comments.flatMap Cst.lines) l.line)
    (hsettled : ∀ d ∈ l.comments, d.Settled) (hline : l.line ≤ c'.line) :
    Scanned (done ++ [l]) c' := by
  constructor
  · simp only [Parser.upcoming, List.map_append, List.map_singleton, List.flatMap_append,
      List.flatMap_singleton, Piece.lines_leaf] at hcomments ⊢
    rw [← List.append_assoc]
    exact hcomments.concat.mono hline
  · simp only [Parser.upcoming, List.map_append, List.map_singleton,
      Piece.allSettled_append, Piece.allSettled_cons, Piece.allSettled_nil, Piece.settled_leaf]
    exact ⟨h.settled, hsettled, trivial⟩

theorem scanned_scan (fuel : Nat) (frames : List Frame) (c : Cursor) (done : Array Lexeme)
    (h : Scanned done.toList c) : ∃ c', Scanned (scan fuel frames c done).toList c' := by
  induction fuel generalizing frames c done with
  | zero => exact ⟨c, h⟩
  | succ fuel ih =>
    -- Between quotes nothing is skipped, elsewhere a gap; from there on both cases go alike.
    have hturn (kind : LexemeKind) (n : Nat) (gap : String) (comments : List Cst) (c' : Cursor)
        (frames' : List Frame)
        (hcomments : Ascends ((Parser.upcoming done.toList).flatMap Piece.lines ++
          comments.flatMap Cst.lines) c'.line)
        (hsettled : ∀ d ∈ comments, d.Settled) :
        ∃ c'', Scanned (
          let done := done.push
            { kind, text := String.ofList (c'.take n).1, line := c'.line, start := c'.start
              gap, comments }
          if kind = .endOfFile then done
          else scan fuel frames' (c'.take n).2 done).toList c'' := by
      extract_lets done'
      have hpush : Scanned done'.toList (c'.take n).2 := by
        rw [Array.toList_push]
        exact h.push hcomments hsettled (c'.line_le_take n)
      split
      · exact ⟨_, hpush⟩
      · exact ih _ _ _ hpush
    have hgap := c.ascends_skipGap (fuel + 1) "" #[]
      ((Parser.upcoming done.toList).flatMap Piece.lines) (by simpa using h.ascends) (by simp)
    cases frames with
    | nil => exact hturn _ _ _ _ _ _ hgap.1 hgap.2
    | cons frame frames =>
      cases frame with
      | embedded depth => exact hturn _ _ _ _ _ _ hgap.1 hgap.2
      | quoted triple =>
        exact hturn _ _ "" [] c _ (by simpa using h.ascends) (List.forall_mem_nil _)

end Lexeme

theorem scanned_lexemes (source : String) :
    ∃ c, Lexeme.Scanned (lexemes source) c :=
  Lexeme.scanned_scan _ _ _ _ ⟨.nil _, Piece.allSettled_nil⟩

namespace Parser

theorem reads_construct {self : Goal → Parser Piece} (hself : ∀ goal, Reads [] (self goal) one)
    (limit : Nat) (goal : Goal) : Reads [] (construct self limit goal) one := by
  cases goal with
  | expression level arrow => exact reads_expression hself level arrow
  | unary arrow => exact reads_unary hself arrow
  | operand arrow => exact reads_operand hself arrow
  | simpleType => exact reads_simpleType hself
  | unannotatedType => exact reads_unannotatedType hself
  | type => exact reads_type hself
  | typeArguments => exact reads_typeArguments hself
  | annotated => exact reads_annotated hself
  | elementValue => exact reads_elementValue hself
  | arguments => exact reads_arguments hself
  | arrayInitializer => exact reads_arrayInitializer hself
  | recordPattern => exact reads_recordPattern hself
  | formalParameters => exact reads_formalParameters hself
  | statement topLevel => exact reads_statement hself topLevel
  | block => exact reads_statementsInBraces hself (by decide) (.pure (by simp))
  | classBody => exact reads_body (by decide) (reads_classMember hself)
  | interfaceBody => exact reads_body (by decide) (reads_interfaceMember hself)
  | annotationBody => exact reads_body (by decide) (reads_annotationMember hself)
  | enumBody => exact reads_enumBody hself
  | switchBody => exact reads_switchBody hself

theorem reads_nested (limit depth : Nat) (goal : Goal) :
    Reads [] (nested limit depth goal) one := by
  induction depth generalizing goal with
  | zero => exact .fail
  | succ depth ih => exact reads_construct ih limit goal

end Parser

namespace Parser

theorem front_upcoming (rest : List Lexeme) :
    ((front rest).comments.flatMap Cst.lines).Sublist ((upcoming rest).flatMap Piece.lines) ∧
      (Piece.AllSettled (upcoming rest) → ∀ c ∈ (front rest).comments, c.Settled) := by
  cases rest with
  | nil => exact ⟨List.Sublist.refl _, fun _ => List.forall_mem_nil _⟩
  | cons l rest =>
    simp only [upcoming, front, List.map_cons, List.flatMap_cons, Piece.allSettled_cons,
      Piece.lines_leaf, Piece.settled_leaf, List.append_assoc]
    exact ⟨List.sublist_append_left _ _, fun h => h.1⟩

theorem settled_of_file {limit : Nat} {ls rest : List Lexeme} {tree : Cst} {c : Lexeme.Cursor}
    (hscanned : Lexeme.Scanned ls c) (h : file limit ls = .ok (tree, rest)) :
    (∀ c ∈ tree.children, c.Settled) ∧
      (tree.children.flatMap Cst.lines).Pairwise (· ≤ ·) := by
  obtain ⟨parts, mid, hparts, hend⟩ := bind_ok h
  cases hend
  have hstatement : Reads []
      (do return [← nested limit (constructsPerLexeme * limit) (.statement true)]) id :=
    (reads_nested limit _ _).listed
  obtain ⟨hsettled, hlines⟩ :=
    reads_many _ hstatement limit ls parts rest hparts hscanned.settled
  rw [Piece.allSettled_append] at hsettled
  obtain ⟨htrailing, hcomments⟩ := front_upcoming rest
  constructor
  · exact List.forall_mem_append.mpr
      ⟨(Piece.settled_parts parts).mpr hsettled.1, hcomments hsettled.2⟩
  · refine hscanned.ascends.ordered.sublist (List.Sublist.trans ?_ hlines)
    rw [Cst.children, List.flatMap_append, Piece.lines_parts, List.flatMap_append]
    exact (List.Sublist.refl _).append htrailing

theorem settled_faulty (line : Nat) :
    (∀ c ∈ (faulty line).children, c.Settled) ∧
      ((faulty line).children.flatMap Cst.lines).Pairwise (· ≤ ·) := by
  constructor
  · exact List.forall_mem_singleton.mpr (Cst.settled_leaf _ _ _ _)
  · exact List.pairwise_singleton _ _

theorem settled_parse (source : String) :
    (∀ c ∈ (parse source).children, c.Settled) ∧
      ((parse source).children.flatMap Cst.lines).Pairwise (· ≤ ·) := by
  obtain ⟨c, hscanned⟩ := scanned_lexemes source
  obtain ⟨line, hfaulty⟩ | ⟨-, rest, hfile⟩ := faulty_or_conforms source
  · rw [hfaulty]
    exact settled_faulty line
  · exact settled_of_file hscanned hfile

/-- Whatever the source is, no comment stands in front of a generic type inside that type. -/
theorem clearsGenerics_parse (source : String) :
    ∀ c ∈ (parse source).children, c.clearsGenerics = true :=
  fun c hc => ((settled_parse source).1 c hc).clear

end Parser

end ArchLint.Java
