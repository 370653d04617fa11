import ArchLint.Java.Parser.Expressions
import ArchLint.Proofs.Java.Parser.Types

/-!
# Expressions keep the order of lines
-/

namespace ArchLint.Java.Parser

open Piece (Kept)

variable {self : Goal → Parser Piece} {limit : Nat}

theorem kept_of_suffix {rest ls : List Lexeme} (h : rest <:+ ls) :
    Kept (upcoming ls) (upcoming rest) := by
  obtain ⟨dropped, rfl⟩ := h
  intro hall
  simp only [upcoming, List.map_append, Piece.allSettled_append, List.flatMap_append] at hall ⊢
  exact ⟨hall.2, List.sublist_append_right _ _⟩

/-- What is put together to one operator stands where its first sign does. -/
theorem glue_spec (n : Nat) (l : Lexeme) (rest : List Lexeme) :
    (operatorAhead.glue n l rest).1.line = l.line ∧
      (operatorAhead.glue n l rest).1.comments = l.comments ∧
      (operatorAhead.glue n l rest).2 <:+ rest := by
  induction n generalizing l rest with
  | zero => exact ⟨rfl, rfl, List.suffix_refl _⟩
  | succ n ih =>
    cases rest with
    | nil => exact ⟨rfl, rfl, List.suffix_refl _⟩
    | cons following rest =>
      rw [operatorAhead.glue]
      split
      · obtain ⟨hline, hcomments, hsuffix⟩ := ih { l with text := l.text ++ ">" } rest
        exact ⟨hline, hcomments, hsuffix.trans (List.suffix_cons _ _)⟩
      · split
        · exact ⟨rfl, rfl, List.suffix_cons _ _⟩
        · exact ⟨rfl, rfl, List.suffix_refl _⟩

theorem kept_operatorAhead {ls rest : List Lexeme} {l : Lexeme}
    (h : operatorAhead ls = some (l, rest)) :
    Kept (upcoming ls) (.leaf .token l :: upcoming rest) := by
  cases ls with
  | nil => cases h
  | cons first tail =>
    rw [operatorAhead] at h
    split at h
    · cases h
    · split at h
      · cases h
        exact Kept.refl _
      · have hspec := glue_spec 3 first tail
        rw [Option.some.inj h] at hspec
        obtain ⟨hline, hcomments, hsuffix⟩ : l.line = first.line ∧ l.comments = first.comments ∧
          rest <:+ tail := hspec
        have hfirst : Kept [.leaf .token first] [.leaf .token l] := by
          simp [hline, hcomments]
        exact hfirst.append (kept_of_suffix hsuffix)

theorem reads_operatorIf (test : String → Bool) : Reads [] (operatorIf test) some? := by
  intro ls found rest h
  rw [operatorIf] at h
  split at h
  · next l rest' hl =>
    split at h
    · cases h
      exact kept_operatorAhead hl
    · cases h
      exact Kept.refl _
  · cases h
    exact Kept.refl _

theorem reads_withText {p : Parser Piece} (text : List Lexeme → List Lexeme → String)
    (h : Reads [] p one) :
    Reads [] (fun ls =>
      match p ls with
      | .ok (piece, rest) => .ok (piece.withText (text ls rest), rest)
      | .error e => .error e) one := by
  intro ls piece rest hpiece
  simp only at hpiece
  split at hpiece
  · next inner rest' hinner =>
    cases hpiece
    refine (h ls inner _ hinner).trans ?_
    simp
  · cases hpiece

section Nested

variable (hself : ∀ goal, Reads [] (self goal) one)
include hself

theorem reads_interpolation : Reads [] (interpolation self) one :=
  (reads_mark _).bind fun _ => (hself _).bind fun _ => (reads_mark _).bind fun _ => .pure (by simp)

theorem reads_quotedPart : Reads [] (quotedPart self) one := by
  refine looks_peek.bind fun l => ?_
  split
  · exact (reads_next .token).bind fun _ => .pure (by simp)
  · exact (reads_next .token).bind fun _ => .pure (by simp)
  · exact reads_interpolation hself

theorem reads_stringLiteral : Reads [] (stringLiteral self limit) one := by
  refine reads_withText (fun ls rest => sourceText ls ((front rest).start - _)) ?_
  refine (reads_leafIf _ _).bind fun _ => ?_
  refine (reads_many _ (reads_quotedPart hself).listed limit).bind fun _ => ?_
  exact (reads_leafIf _ _).bind fun _ => .pure (by simp)

theorem reads_classLiteral : Reads [] (classLiteral self) one := by
  refine reads_withText (fun ls rest => sourceText ls ((front rest).start - _)) ?_
  exact (hself _).bind fun _ => (reads_mark _).bind fun _ => (reads_keyword _).bind fun _ =>
    .pure (by simp)

theorem reads_methodReferenceRest (qualifier : Piece) :
    Reads [qualifier] (methodReferenceRest self qualifier) one := by
  refine (reads_mark _).bind fun sign =>
    (reads_optionalIf _ (hself _).listed).bind fun arguments =>
      (looks_atKeyword _).bind fun _ => ?_
  extract_lets close
  have hclose (method : Piece) :
      Reads ([qualifier, sign] ++ arguments ++ [method]) (close method) one := .pure (by simp)
  exact .ite ((reads_keyword _).bind hclose) (reads_identifier.bind hclose)

theorem reads_typeMethodReference : Reads [] (typeMethodReference self) one :=
  (hself _).seq fun type => reads_methodReferenceRest hself type

theorem reads_arguments : Reads [] (arguments self limit) one := by
  refine (reads_mark _).bind fun opening => (looks_atMark _).bind fun _ => ?_
  extract_lets close
  have hclose (values : List Piece) : Reads ([opening] ++ values) (close values) one :=
    (reads_mark _).bind fun _ => .pure (by simp)
  refine .ite (.pass (hclose _)) ?_
  exact (reads_commaSeparated limit (hself _).listed).bind hclose

theorem reads_dimensionExpression : Reads [] (dimensionExpression self limit) id :=
  (reads_annotations hself).bind fun _ => (reads_mark _).bind fun _ => (hself _).bind fun _ =>
    (reads_mark _).bind fun _ => .pure (by simp)

theorem reads_arrayCreationRest (parts : List Piece) (hparts : parts ≠ []) :
    Reads parts (arrayCreationRest self limit parts) one := by
  have hsize : Reads [] (dimensionExpression self limit) id := reads_dimensionExpression hself
  have hsizes (sizes : List Piece) : Reads (parts ++ sizes)
      (do return .node .arrayCreationExpression (parts ++ sizes ++ (← nameDimensions self limit)))
      one :=
    (reads_nameDimensions hself).bind fun _ => .pure (by simp [hparts])
  refine (reads_many _ hsize limit).bind fun sizes => ?_
  cases sizes with
  | cons size sizes => exact hsizes _
  | nil =>
    refine (reads_attempt hsize).bind fun found => ?_
    cases found with
    | some first =>
      have hmore := reads_manyWhile atIndex hsize limit first.toArray
      exact ((hmore.behind parts).of_kept (by simp)).seq hsizes
    | none =>
      refine (reads_dimensions hself).bind fun found => ?_
      cases found with
      | none => exact .fail
      | some brackets =>
        exact (hself _).bind fun _ => .pure (by simp [hparts])

theorem reads_creation (outer : List Piece) : Reads outer (creation self limit outer) one := by
  have harguments : Reads [] (do
      return (← self .typeArguments).as .typeArguments :: (← annotations self limit)) id :=
    (hself _).bind fun _ => (reads_annotations hself).bind fun _ => .pure (by simp)
  refine (reads_keyword _).bind fun word => (reads_annotations hself).bind fun leading =>
    (reads_optionalIf _ harguments).bind fun arguments => (hself _).bind fun type => ?_
  extract_lets parts
  refine (looks_atMark _).bind fun _ => .ite ?_ (.ite ?_ .fail)
  · exact (hself _).bind fun _ => (reads_optionalIf _ (hself _).listed).bind
      fun _ => .pure (by simp [parts])
  · refine (reads_arrayCreationRest hself parts ?_).of_kept ?_
    · simp [parts]
    · simp [parts]

theorem reads_member (object : Piece) (between : List Piece) :
    Reads ([object] ++ between) (member self object between) one := by
  refine (reads_optionalIf _ ((hself _).bind fun _ => .pure (by simp))).bind fun arguments =>
    (looks_atKeyword _).bind fun _ => ?_
  cases arguments with
  | nil =>
    refine .ite ((reads_keywordLeaf _ _).bind fun _ => .pure (by simp)) ?_
    refine (reads_leafIf _ _).bind fun _ => (looks_atMark _).bind fun _ => .ite ?_ (.pure (by simp))
    exact (hself _).bind fun _ => .pure (by simp)
  | cons first more =>
    refine (reads_leafIf _ _).bind fun _ => (looks_atMark _).bind fun _ => .ite ?_ .fail
    exact (hself _).bind fun _ => .pure (by simp)

theorem reads_outerMember (object dot : Piece) :
    Reads [object, dot] (outerMember self object dot) one :=
  (reads_keywordLeaf _ _).bind fun super => (reads_mark _).bind fun second =>
    reads_member hself object [dot, super, second]

theorem reads_primaryRest (n : Nat) (object : Piece) :
    Reads [object] (primaryRest self limit n object) one := by
  induction n generalizing object with
  | zero => exact .fail
  | succ n ih =>
    refine looks_peek.bind fun _ => .ite ?_ (.ite ?_ (.ite ?_ (.pure (by simp))))
    · refine (looks_succeeds _).bind fun _ => .ite (.pure (by simp)) ?_
      refine (reads_mark _).bind fun dot => looks_peek.bind fun _ =>
        .ite ?_ (.ite ?_ (.ite ?_ ?_))
      · exact (reads_creation hself [object, dot]).seq fun _ => ih _
      · exact (reads_outerMember hself object dot).seq fun _ => ih _
      · exact (reads_stringLiteral hself).bind fun _ => (ih _).of_kept (by simp)
      · exact (reads_member hself object [dot]).seq fun _ => ih _
    · exact (reads_mark _).bind fun _ => (hself _).bind fun _ => (reads_mark _).bind fun _ =>
        (ih _).of_kept (by simp)
    · exact (reads_methodReferenceRest hself object).seq fun _ => ih _

theorem reads_superMember : Reads [] (superMember self) one := by
  refine (reads_keywordLeaf _ _).bind fun super => (looks_atMark _).bind fun _ =>
    .ite (reads_methodReferenceRest hself super) ?_
  exact (reads_mark _).bind fun dot => (looks_atKeyword _).bind fun _ =>
    .ite (reads_outerMember hself super dot) (reads_member hself super [dot])

theorem reads_wordPrimary : Reads [] (wordPrimary self limit) one := by
  refine looks_peek.bind fun l => ?_
  split
  · exact (reads_next .token).bind fun _ => .pure (by simp)
  · refine .ite (reads_keywordLeaf _ _) (.ite (reads_superMember hself)
      (.ite (reads_creation hself []) ((looks_ahead _).bind fun _ => ?_)))
    extract_lets go
    have hgo (typed : Option Piece) : Reads typed.toList (go typed) one := by
      cases typed with
      | some piece => exact .pure (by simp)
      | none =>
        refine .ite .fail (reads_identifier.bind fun _ => (looks_atMark _).bind fun _ => ?_)
        exact .ite ((hself _).bind fun _ => .pure (by simp)) (.pure (by simp))
    refine .ite ?_ (.pass (hgo none))
    refine (reads_attempt_piece (reads_classLiteral hself)).bind fun found => ?_
    cases found with
    | some piece => exact .pass (hgo (some piece))
    | none => exact (reads_attempt_piece (reads_typeMethodReference hself)).bind hgo

theorem reads_lambdaRest (parameters : Piece) :
    Reads [parameters] (lambdaRest self parameters) one := by
  refine (reads_mark _).bind fun arrow => (looks_atMark _).bind fun _ => ?_
  extract_lets close
  have hclose (body : Piece) : Reads [parameters, arrow, body] (close body) one := .pure (by simp)
  exact .ite ((hself _).bind hclose) ((hself _).bind hclose)

omit hself in
theorem reads_inferredParameters : Reads [] (inferredParameters limit) one :=
  (reads_mark _).bind fun _ =>
    (reads_commaSeparated limit reads_identifier.listed).bind fun _ =>
      (reads_mark _).bind fun _ => .pure (by simp)

theorem reads_typedParameters : Reads [] (typedParameters self) one :=
  (hself _).bind fun _ => (looks_atMark _).bind fun _ => .ite (.pure (by simp)) .fail

theorem reads_castType : Reads [] (castType self limit) id := by
  have hmore : Reads [] (do return [← mark "&", (← self .type).as .type]) id :=
    (reads_mark _).bind fun _ => (hself _).bind fun _ => .pure (by simp)
  refine (reads_mark _).bind fun _ => (hself _).bind fun _ =>
    (reads_many _ hmore limit).bind fun _ => (reads_mark _).bind fun _ => ?_
  exact (looks_ahead _).bind fun _ => .ite (.pure (by simp)) .fail

theorem reads_parenthesized : Reads [] (parenthesized self) one :=
  (reads_mark _).bind fun _ => (hself _).bind fun _ => (reads_mark _).bind fun _ => .pure (by simp)

/-- An assignment starts with what is assigned to. -/
theorem reads_primaryOrAssignment (arrow : Bool) (first : Piece) :
    Reads [first] (primaryOrAssignment self limit arrow first) one := by
  refine (reads_primaryRest hself limit first).seq fun left => .ite ?_ (.pure (by simp))
  refine (reads_operatorIf _).bind fun found => ?_
  cases found with
  | none => exact .pure (by simp)
  | some operator =>
    refine (hself _).bind fun right => .pure fun hall => ?_
    rw [Piece.allSettled_cons, Piece.settled_cons fun _ => left.field_as .left]
    · simpa using hall
    · exact nofun

theorem reads_afterParenthesis (arrow : Bool) :
    Reads [] (afterParenthesis self limit arrow) one := by
  refine looks_get.bind fun ls => ?_
  extract_lets l couldBeType go
  refine (looks_ahead _).bind fun _ => .ite ?_ ?_
  · exact reads_inferredParameters.seq fun parameters => reads_lambdaRest hself parameters
  · have hgo (parameters : Option Piece) : Reads parameters.toList (go parameters) one := by
      cases parameters with
      | some parameters => exact reads_lambdaRest hself parameters
      | none =>
        have htypes : Reads []
            (if couldBeType then attempt (castType self limit) else pure none) (·.elim [] id) :=
          .ite (reads_attempt (reads_castType hself)) (.pure (by simp))
        refine htypes.bind fun found => ?_
        cases found with
        | some types => exact (hself _).bind fun _ => .pure (by simp)
        | none =>
          exact (reads_parenthesized hself).seq fun first =>
            reads_primaryOrAssignment hself arrow first
    exact .ite ((reads_attempt_piece (reads_typedParameters hself)).bind hgo) (.pass (hgo none))

theorem reads_switchExpression : Reads [] (switchExpression self) one :=
  (reads_keyword _).bind fun _ => (reads_parenthesized hself).bind fun _ =>
    (hself _).bind fun _ => .pure (by simp)

theorem reads_operand (arrow : Bool) : Reads [] (operand self limit arrow) one := by
  have hrest (first : Piece) : Reads [first] (primaryOrAssignment self limit arrow first) one :=
    reads_primaryOrAssignment hself arrow first
  refine looks_peek.bind fun l => ?_
  split
  · refine .ite ?_ (.ite ?_ (.ite (reads_afterParenthesis hself arrow) (.ite ?_ .fail)))
    · exact (reads_next .token).bind fun _ => (hself _).bind fun _ => .pure (by simp)
    · exact (reads_next .token).bind fun _ => (hself _).bind fun _ => .pure (by simp)
    · exact (reads_typeMethodReference hself).seq hrest
  · refine (looks_ahead _).bind fun _ => .ite ?_ ((looks_ahead _).bind fun _ => .ite ?_ ?_)
    · exact reads_identifier.seq fun name => reads_lambdaRest hself name
    · exact reads_switchExpression hself
    · exact (reads_wordPrimary hself).seq hrest
  · next kind _ => exact (reads_next kind).seq fun _ => hrest _
  · exact (reads_stringLiteral hself).seq hrest
  · exact .fail

omit hself in
theorem reads_postfixes (n : Nat) (value : Piece) : Reads [value] (postfixes n value) one := by
  induction n generalizing value with
  | zero => exact .fail
  | succ n ih =>
    refine looks_peek.bind fun _ => .ite ?_ (.pure (by simp))
    exact (reads_next .token).bind fun _ => (ih _).of_kept (by simp)

theorem reads_unary (arrow : Bool) : Reads [] (unary self limit arrow) one :=
  (reads_operand hself arrow).seq fun value => reads_postfixes limit value

theorem reads_instanceofRest (left : Piece) : Reads [left] (instanceofRest self left) one := by
  refine (reads_keyword _).bind fun word =>
    (reads_optionalIf _ (reads_keyword _).listed).bind fun final => ?_
  extract_lets parts
  refine (reads_attempt_piece (hself _)).bind fun found => ?_
  cases found with
  | some pattern => exact .pure (by simp [parts])
  | none =>
    exact (hself _).bind fun _ =>
      (reads_optionalIf _ (reads_identifier.bind fun _ => .pure (by simp))).bind fun _ =>
        .pure (by simp [parts])

theorem reads_binaryRest (level : Nat) (arrow : Bool) (n : Nat) (left : Piece) :
    Reads [left] (binaryRest self level arrow n left) one := by
  induction n generalizing left with
  | zero => exact .fail
  | succ n ih =>
    refine looks_get.bind fun ls => ?_
    split
    · exact .pure (by simp)
    · refine .ite (.pure (by simp)) ((looks_atKeyword _).bind fun _ => .ite ?_ (.ite ?_ ?_))
      · exact (reads_instanceofRest hself left).seq fun _ =>
          (reads_postfixes (n + 1) _).seq fun _ => ih _
      · exact (reads_mark _).bind fun _ => (hself _).bind fun _ => (reads_mark _).bind fun _ =>
          (hself _).bind fun _ => (ih _).of_kept (by simp)
      · refine (reads_operatorIf _).bind fun found => ?_
        cases found with
        | none => exact .fail
        | some operator => exact (hself _).bind fun _ => (ih _).of_kept (by simp)

theorem reads_expression (level : Nat) (arrow : Bool) :
    Reads [] (expression self limit level arrow) one :=
  (reads_unary hself arrow).seq fun first => reads_binaryRest hself level arrow limit first

theorem reads_arrayInitializer : Reads [] (arrayInitializer self limit) one :=
  reads_braced (by decide) (reads_variableInitializer hself)

theorem reads_recordComponent : Reads [] (recordComponent self) one := by
  refine (looks_ahead _).bind fun _ => .ite ?_ ?_
  · exact (reads_keywordLeaf _ _).bind fun _ => .pure (by simp)
  refine (reads_attempt_piece (hself _)).bind fun found => ?_
  cases found with
  | some pattern => exact .pure (by simp)
  | none => exact (hself _).bind fun _ => reads_identifier.bind fun _ => .pure (by simp)

theorem reads_recordPatternBody : Reads [] (recordPatternBody self limit) one := by
  refine (reads_mark _).bind fun opening => (looks_atMark _).bind fun _ => ?_
  extract_lets close
  have hclose (components : List Piece) : Reads ([opening] ++ components) (close components) one :=
    (reads_mark _).bind fun _ => .pure (by simp)
  refine .ite (.pass (hclose _)) ?_
  exact (reads_commaSeparated limit (reads_recordComponent hself).listed).bind hclose

theorem reads_recordPattern : Reads [] (recordPattern self limit) one := by
  refine (looks_ahead _).bind fun _ => ?_
  extract_lets go
  have hgo (type : Piece) : Reads [type] (go type) one :=
    (reads_recordPatternBody hself).bind fun _ => .pure (by simp)
  refine .ite (reads_identifier.bind hgo) ?_
  exact (hself _).bind fun _ => (looks_atMark _).bind fun _ => .ite (.pass (hgo _)) .fail_bind

end Nested

end ArchLint.Java.Parser
