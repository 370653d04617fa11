import ArchLint.Java.Parser.Statements
import ArchLint.Proofs.Java.Parser.Declarations

/-!
# Statements keep the order of lines
-/

namespace ArchLint.Java.Parser

open Piece (Kept)

variable {self : Goal → Parser Piece} {limit : Nat}

theorem looks_variableAhead (self : Goal → Parser Piece) (followers : List String) :
    Looks (variableAhead self followers) :=
  looks_succeeds _

theorem reads_jumpStatement {kind : Kind}
    (hkind : kind ∉ [.assignmentExpression, .genericType]) (text : String) :
    Reads [] (jumpStatement kind text) one :=
  (reads_keyword _).bind fun _ =>
    (reads_optionalIf _ reads_identifier.listed).bind fun _ =>
      (reads_mark _).bind fun _ => .pure (by simp [hkind])

section Nested

variable (hself : ∀ goal, Reads [] (self goal) one)
include hself

theorem reads_expressionStatement : Reads [] (expressionStatement self) one :=
  (hself _).bind fun _ => (reads_mark _).bind fun _ => .pure (by simp)

theorem reads_ifStatement : Reads [] (ifStatement self) one := by
  have halternative : Reads []
      (do return [← keyword "else", (← self (.statement false)).as .alternative]) id :=
    (reads_keyword _).bind fun _ => (hself _).bind fun _ => .pure (by simp)
  exact (reads_keyword _).bind fun _ => (reads_parenthesized hself).bind fun _ =>
    (hself _).bind fun _ => (reads_optionalIf _ halternative).bind fun _ => .pure (by simp)

theorem reads_whileStatement : Reads [] (whileStatement self) one :=
  (reads_keyword _).bind fun _ => (reads_parenthesized hself).bind fun _ =>
    (hself _).bind fun _ => .pure (by simp)

theorem reads_doStatement : Reads [] (doStatement self) one :=
  (reads_keyword _).bind fun _ => (hself _).bind fun _ => (reads_keyword _).bind fun _ =>
    (reads_parenthesized hself).bind fun _ => (reads_mark _).bind fun _ => .pure (by simp)

theorem reads_enhancedForRest (parts : List Piece) :
    Reads parts (enhancedForRest self limit parts) one :=
  (reads_modifiers hself).bind fun _ => (hself _).bind fun _ => (reads_variableId hself).bind
    fun _ => (reads_mark _).bind fun _ => (hself _).bind fun _ => (reads_mark _).bind fun _ =>
      (hself _).bind fun _ => .pure (by simp)

theorem reads_expressionsAs (f : Field) (stop : String) :
    Reads [] (expressionsAs self limit f stop) id :=
  (looks_atMark _).bind fun _ => .ite (.pure (by simp))
    (reads_commaSeparated limit ((hself _).bind fun _ => .pure (by simp)))

theorem reads_forRest (parts : List Piece) : Reads parts (forRest self limit parts) one := by
  refine (looks_ahead _).bind fun _ => ?_
  extract_lets rest go
  have hrest (init : List Piece) : Reads (parts ++ init) (rest init) one := by
    refine (looks_atMark _).bind fun _ => ?_
    extract_lets close
    have hclose (condition : List Piece) :
        Reads (parts ++ init ++ condition) (close condition) one :=
      (reads_mark _).bind fun _ => (reads_expressionsAs hself _ _).bind fun _ =>
        (reads_mark _).bind fun _ => (hself _).bind fun _ => .pure (by simp)
    refine .ite (.pass (.of_kept (hclose []) (by simp))) ?_
    exact (hself _).bind fun condition =>
      .pass (.of_kept (hclose [condition.as .condition]) (by simp))
  have hgo (isDeclaration : Bool) : Reads parts (go isDeclaration) one := by
    refine .ite ?_ ?_
    · refine (reads_modifiers hself).bind fun modifiers => ?_
      have hdeclaration : Reads modifiers
          (variablesRest self limit .localVariableDeclaration modifiers) one :=
        reads_variablesRest hself (by decide) modifiers
      exact (hdeclaration.behind parts).seq fun declaration =>
        .pass (.of_kept (hrest [declaration.as .init]) (by simp))
    · exact (reads_expressionsAs hself _ _).bind fun init => (reads_mark _).bind fun stop =>
        .pass (.of_kept (hrest (init ++ [stop])) (by simp))
  exact .ite (.pass (hgo _)) ((looks_variableAhead self _).bind hgo)

theorem reads_forStatement : Reads [] (forStatement self limit) one :=
  (reads_keyword _).bind fun word => (reads_mark _).bind fun opening =>
    (looks_succeeds _).bind fun _ => .ite (reads_enhancedForRest hself [word, opening])
      (reads_forRest hself [word, opening])

theorem reads_returnStatement : Reads [] (returnStatement self) one := by
  refine (reads_keyword _).bind fun word => (looks_atMark _).bind fun _ => ?_
  extract_lets close
  have hclose (value : List Piece) : Reads ([word] ++ value) (close value) one :=
    (reads_mark _).bind fun _ => .pure (by simp)
  exact .ite (.pass (hclose _)) ((hself _).bind fun _ => .pass (hclose _))

theorem reads_valueStatement {kind : Kind} (hkind : kind ∉ [.assignmentExpression, .genericType])
    (text : String) : Reads [] (valueStatement self kind text) one :=
  (reads_keyword _).bind fun _ => (hself _).bind fun _ => (reads_mark _).bind fun _ =>
    .pure (by simp [hkind])

theorem reads_assertStatement : Reads [] (assertStatement self) one := by
  have hmessage : Reads [] (do return [← mark ":", ← self (.expression 0 true)]) id :=
    (reads_mark _).bind fun _ => (hself _).bind fun _ => .pure (by simp)
  exact (reads_keyword _).bind fun _ => (hself _).bind fun _ =>
    (reads_optionalIf _ hmessage).bind fun _ => (reads_mark _).bind fun _ => .pure (by simp)

theorem reads_synchronizedStatement : Reads [] (synchronizedStatement self) one :=
  (reads_keyword _).bind fun _ => (reads_parenthesized hself).bind fun _ =>
    (hself _).bind fun _ => .pure (by simp)

theorem reads_labeledStatement : Reads [] (labeledStatement self) one :=
  reads_identifier.bind fun _ => (reads_mark _).bind fun _ => (hself _).bind fun _ =>
    .pure (by simp)

theorem reads_catchType : Reads [] (catchType self limit) one :=
  (hself _).bind fun _ =>
    (reads_many _ ((reads_mark _).bind fun _ => (hself _).bind fun _ => .pure (by simp)) limit).bind
      fun _ => .pure (by simp)

theorem reads_catchClause : Reads [] (catchClause self limit) one :=
  (reads_keyword _).bind fun _ => (reads_mark _).bind fun _ => (reads_modifiers hself).bind
    fun _ => (reads_catchType hself).bind fun _ => (reads_variableId hself).bind fun _ =>
      (reads_mark _).bind fun _ => (hself _).bind fun _ => .pure (by simp +contextual)

theorem reads_catchClauses : Reads [] (catchClauses self limit) id :=
  reads_many _ (reads_catchClause hself).listed limit

theorem reads_finallyClause : Reads [] (finallyClause self) id :=
  reads_optionalIf _ ((reads_keyword _).bind fun _ => (hself _).bind fun _ => .pure (by simp))

theorem reads_resource : Reads [] (resource self limit) one := by
  refine (looks_ahead _).bind fun _ => ?_
  extract_lets go
  have hgo (isDeclaration : Bool) : Reads [] (go isDeclaration) one := by
    refine .ite ?_ ?_
    · exact (reads_modifiers hself).bind fun _ => (hself _).bind fun _ =>
        (reads_variableId hself).bind fun _ => (reads_mark _).bind fun _ =>
          (hself _).bind fun _ => .pure (by simp)
    · refine (hself _).bind fun _ => ?_
      split
      · exact .pure (by simp)
      · exact .pure (by simp)
      · exact .fail
  exact .ite (.pass (hgo _)) ((looks_variableAhead self _).bind hgo)

theorem reads_resources : Reads [] (resources self limit) one := by
  have hmore : Reads [] (do return [← mark ";", ← resource self limit]) id :=
    (reads_mark _).bind fun _ => (reads_resource hself).bind fun _ => .pure (by simp)
  exact (reads_mark _).bind fun _ => (reads_resource hself).bind fun _ =>
    (reads_many _ hmore limit).bind fun _ =>
      (reads_optionalIf _ (reads_mark _).listed).bind fun _ =>
        (reads_mark _).bind fun _ => .pure (by simp)

theorem reads_tryStatement : Reads [] (tryStatement self limit) one := by
  refine (reads_keyword _).bind fun _ => (looks_atMark _).bind fun _ => .ite ?_ ?_
  · exact (reads_resources hself).bind fun _ => (hself _).bind fun _ =>
      (reads_catchClauses hself).bind fun _ => (reads_finallyClause hself).bind fun _ =>
        .pure (by simp)
  · exact (hself _).bind fun _ => (reads_catchClauses hself).bind fun _ =>
      (reads_finallyClause hself).bind fun _ => .ite .fail_bind (.pure (by simp))

theorem reads_typePattern : Reads [] (typePattern self) one :=
  (hself _).bind fun _ => (reads_leafIf _ _).bind fun _ => .pure (by simp)

theorem reads_labelRecordPattern : Reads [] (labelRecordPattern self) one :=
  (hself _).bind fun _ => (looks_ahead _).bind fun _ => .ite (.pure (by simp)) .fail

theorem reads_labelPattern : Reads [] (labelPattern self) one := by
  refine (looks_ahead _).bind fun _ => .ite .fail_bind ?_
  refine (reads_attempt_piece (reads_labelRecordPattern hself)).bind fun found => ?_
  cases found with
  | some pattern => exact .pure (by simp)
  | none => exact (reads_typePattern hself).bind fun _ => .pure (by simp)

theorem reads_switchLabel : Reads [] (switchLabel self limit) one := by
  have hguard : Reads [] (do
      let word ← keyword "when"
      return [.node .guard [word, ← self (.expression 0 false)]]) id :=
    (reads_keyword _).bind fun _ => (hself _).bind fun _ => .pure (by simp)
  refine (looks_atKeyword _).bind fun _ => .ite ((reads_keyword _).bind fun _ => .pure (by simp)) ?_
  refine (reads_keyword _).bind fun word =>
    (reads_attempt_piece (reads_labelPattern hself)).bind fun found => ?_
  extract_lets close
  have hclose (values : List Piece) : Reads ([word] ++ values) (close values) one :=
    (reads_optionalIf _ hguard).bind fun _ => .pure (by simp)
  cases found with
  | some pattern => exact .pass (hclose _)
  | none => exact (reads_commaSeparated limit (hself _).listed).bind hclose

theorem reads_switchEntry (arrow : Bool) : Reads [] (switchEntry self limit arrow) one := by
  refine (reads_switchLabel hself).bind fun label => .ite ?_ ?_
  · refine (reads_mark _).bind fun sign =>
      (looks_atMark _).bind fun _ => (looks_atKeyword _).bind fun _ => ?_
    extract_lets close
    have hclose (body : Piece) : Reads [label, sign, body] (close body) one := .pure (by simp)
    refine .ite ((hself _).bind hclose) (.ite ?_ ?_)
    · exact (reads_valueStatement hself (by decide) _).bind hclose
    · exact (reads_expressionStatement hself).bind hclose
  · exact (reads_mark _).bind fun _ =>
      (reads_many _ (hself _).listed limit).bind fun _ => .pure (by simp)

theorem reads_switchBody : Reads [] (switchBody self limit) one :=
  (reads_mark _).bind fun _ => (looks_succeeds _).bind fun arrow =>
    (reads_many _ (reads_switchEntry hself arrow).listed limit).bind fun _ =>
      (reads_mark _).bind fun _ => .pure (by simp)

theorem reads_switchStatement : Reads [] (switchStatement self) one :=
  (reads_switchExpression hself).bind fun _ => (looks_atMark _).bind fun _ =>
    .ite ((reads_mark _).bind fun _ => .pure (by simp)) (.pure (by simp))

omit hself in
/-- Taking modifiers apart leaves the same leaves. -/
theorem kept_unwrapped (parts : List Piece) : Kept parts (otherStatement.unwrapped parts) := by
  unfold otherStatement.unwrapped
  split
  · next leading field line text first rest =>
    simp only [Kept, Piece.AllSettled, List.forall_mem_singleton, List.forall_mem_cons,
      List.forall_mem_map, List.flatMap_cons]
    rintro ⟨hleading, hnode⟩
    obtain ⟨-, -, hchildren⟩ := Cst.settled_iff.mp hnode
    refine ⟨⟨⟨hleading, hchildren first List.mem_cons_self⟩, fun c hc => ?_⟩, ?_⟩
    · exact ⟨List.forall_mem_nil _, hchildren c (List.mem_cons_of_mem _ hc)⟩
    · have hrest : (rest.map (⟨[], ·⟩)).flatMap Piece.lines = rest.flatMap Cst.lines := by
        rw [List.flatMap_map]
        rfl
      simp [Piece.lines, Cst.lines_node, hrest]
  · exact Kept.refl _

theorem reads_otherStatement (topLevel : Bool) :
    Reads [] (otherStatement self limit topLevel) one := by
  refine (looks_ahead _).bind fun _ => .ite ?_ ?_
  · refine (reads_modifiers hself).seq fun parts => ?_
    refine (looks_atKeyword _).bind fun _ => .ite ?_ ((looks_ahead _).bind fun _ => .ite ?_ ?_)
    · exact (reads_packageRest _).of_kept (kept_unwrapped parts)
    · exact (reads_moduleRest _).of_kept (kept_unwrapped parts)
    refine (reads_typeDeclarationRest? hself parts).seq fun found => ?_
    cases found with
    | some declaration => exact .pure (by simp)
    | none =>
      refine (looks_atMark _).bind fun _ => .ite (reads_genericRest hself false parts) (.ite ?_ ?_)
      · exact reads_methodOrVariables hself (by decide) parts
      · exact reads_variablesRest hself (by decide) parts
  · refine (reads_typeDeclarationRest? hself []).seq fun found => ?_
    cases found with
    | some declaration => exact .pure (by simp)
    | none =>
      refine (looks_ahead _).bind fun _ => .ite (reads_moduleRest _) ?_
      refine (looks_atMark _).bind fun _ => .ite ?_ ?_
      · exact .ite (reads_genericRest hself false []) .fail
      refine (looks_ahead _).bind fun _ => .ite (reads_labeledStatement hself) ?_
      refine (looks_variableAhead self _).bind fun _ => .ite ?_ ?_
      · exact reads_methodOrVariables hself (by decide) []
      exact (looks_variableAhead self _).bind fun _ =>
        .ite (reads_variablesRest hself (by decide) []) (reads_expressionStatement hself)

theorem reads_statement (topLevel : Bool) : Reads [] (statement self limit topLevel) one := by
  have hother : Reads [] (otherStatement self limit topLevel) one :=
    reads_otherStatement hself topLevel
  refine looks_peek.bind fun l => .ite (reads_mark _) (.ite (hself _) (.ite hother ?_))
  split
  · exact reads_ifStatement hself
  · exact reads_whileStatement hself
  · exact reads_doStatement hself
  · exact reads_forStatement hself
  · exact reads_jumpStatement (by decide) _
  · exact reads_jumpStatement (by decide) _
  · exact reads_returnStatement hself
  · exact reads_valueStatement hself (by decide) _
  · exact reads_assertStatement hself
  · exact reads_tryStatement hself
  · exact reads_switchStatement hself
  · exact reads_importDeclaration
  · exact reads_packageRest []
  · exact (looks_ahead _).bind fun _ => .ite (reads_synchronizedStatement hself) hother
  · exact (looks_ahead _).bind fun _ => .ite (reads_valueStatement hself (by decide) _) hother
  · exact hother

end Nested

end ArchLint.Java.Parser
