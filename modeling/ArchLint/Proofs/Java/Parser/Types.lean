import ArchLint.Java.Parser.Types
import ArchLint.Proofs.Java.Parser.Basic

/-!
# Names, types and annotations keep the order of lines
-/

namespace ArchLint.Java.Parser

variable {self : Goal → Parser Piece} {limit : Nat}

theorem reads_scopedName (n : Nat) (scope : Piece) : Reads [scope] (scopedName n scope) one := by
  induction n generalizing scope with
  | zero => exact .fail
  | succ n ih =>
    refine (looks_ahead _).bind fun _ => .ite ?_ (.pure (by simp))
    exact (reads_mark _).bind fun _ => reads_identifier.bind fun _ => (ih _).of_kept (by simp)

theorem reads_name (limit : Nat) : Reads [] (name limit) one :=
  reads_identifier.seq fun first => reads_scopedName limit first

section Nested

variable (hself : ∀ goal, Reads [] (self goal) one)
include hself

theorem reads_elementValuePair : Reads [] (elementValuePair self) one :=
  reads_identifier.bind fun _ => (reads_mark _).bind fun _ => (hself _).bind fun _ =>
    .pure (by simp)

theorem reads_annotationArguments : Reads [] (annotationArguments self limit) one := by
  refine (reads_mark _).bind fun opening =>
    (looks_atMark _).bind fun _ => (looks_ahead _).bind fun _ => ?_
  extract_lets close
  have hclose (values : List Piece) : Reads ([opening] ++ values) (close values) one :=
    (reads_mark _).bind fun _ => .pure (by simp)
  refine .ite (.pass (hclose _)) (.ite ?_ ?_)
  · exact (reads_commaSeparated limit (reads_elementValuePair hself).listed).bind hclose
  · exact (hself _).bind fun _ => .pass (hclose _)

theorem reads_annotated : Reads [] (annotated self limit) one :=
  (reads_mark _).bind fun _ => (reads_name limit).bind fun _ => (looks_atMark _).bind fun _ =>
    .ite ((reads_annotationArguments hself).bind fun _ => .pure (by simp)) (.pure (by simp))

theorem reads_annotations : Reads [] (annotations self limit) id :=
  reads_many _ (hself _).listed limit

omit hself in
theorem reads_braced {kind : Kind} (hkind : kind ∉ [.assignmentExpression, .genericType])
    {value : Parser Piece} (hvalue : Reads [] value one) :
    Reads [] (braced limit kind value) one := by
  have hitem : Reads [] (do
      let value ← value
      if ← ahead fun ls => (front ls).isMark "," && !(front ls.tail).isMark "\x7d" then
        let comma ← mark ","
        if (← peek).isMark "," then fail
        return [value, comma]
      else if ← ahead fun ls => (front ls).isMarkIn ["\x7d", ","] then return [value]
      else fail) id := by
    refine hvalue.bind fun _ => (looks_ahead _).bind fun _ => .ite ?_ ?_
    · exact (reads_mark _).bind fun _ => looks_peek.bind fun _ => .ite .fail_bind (.pure (by simp))
    · exact (looks_ahead _).bind fun _ => .ite (.pure (by simp)) .fail
  refine (reads_mark _).bind fun _ => (reads_many _ hitem limit).bind fun _ => ?_
  refine (reads_optionalIf _ (reads_mark _).listed).bind fun _ => ?_
  exact (reads_mark _).bind fun _ => .pure (by simp [hkind])

theorem reads_elementValue : Reads [] (elementValue self limit) one :=
  (looks_atMark _).bind fun _ => .ite (reads_braced (by decide) (hself _))
    ((looks_atMark _).bind fun _ => .ite (hself _) (hself _))

omit hself in
theorem reads_primitive {kind : Kind} (hkind : kind ∉ [.assignmentExpression, .genericType]) :
    Reads [] (primitive kind) one := by
  refine (reads_next .token).bind fun _ => ?_
  split
  · exact .pure (by simp)
  · exact .pure (by simp)
  · exact .pure (by simp [hkind])

theorem reads_wildcard (leading : List Piece) : Reads leading (wildcard self leading) one := by
  refine (reads_mark _).bind fun sign =>
    (looks_atKeyword _).bind fun _ => (looks_atKeyword _).bind fun _ => ?_
  extract_lets close
  have hclose (bounds : List Piece) : Reads (leading ++ [sign] ++ bounds) (close bounds) one :=
    .pure (by simp)
  refine .ite ?_ (.ite ?_ (.pass (.of_kept (hclose []) (by simp))))
  · exact (reads_keyword _).bind fun word => (hself _).bind fun type =>
      .pass (.of_kept (hclose [word, type]) (by simp))
  · exact (reads_keywordLeaf _ _).bind fun word => (hself _).bind fun type =>
      .pass (.of_kept (hclose [word, type]) (by simp))

omit hself in
theorem reads_annotatedType (leading : List Piece) (type : Piece) :
    Reads (leading ++ [type])
      (pure (if leading.isEmpty then type else .node .annotatedType (leading ++ [type]))) one := by
  cases leading with
  | nil => exact .pure (by simp)
  | cons first more => exact .pure (by simp)

theorem reads_typeArgument : Reads [] (typeArgument self limit) one :=
  (reads_annotations hself).bind fun leading => (looks_atMark _).bind fun _ =>
    .ite (reads_wildcard hself leading)
      ((hself _).bind fun type => reads_annotatedType leading type)

theorem reads_typeArguments : Reads [] (typeArguments self limit) one := by
  refine (reads_mark _).bind fun opening => (looks_atMark _).bind fun _ => ?_
  extract_lets close
  have hclose (types : List Piece) : Reads ([opening] ++ types) (close types) one :=
    (reads_mark _).bind fun _ => .pure (by simp)
  refine .ite (.pass (hclose _)) ?_
  exact (reads_commaSeparated limit (reads_typeArgument hself).listed).bind hclose

/-- Type arguments come right behind the type that they are given to. -/
theorem reads_classTypeRest (n : Nat) {base : Piece} (hbase : base.tree.kind ∈ Grammar.plainTypes) :
    Reads [base] (classTypeRest self limit n base) one := by
  induction n generalizing base with
  | zero => exact .fail
  | succ n ih =>
    refine (looks_atMark _).bind fun _ => .ite ?_ ?_
    · refine (hself _).bind fun arguments => (ih ?_).of_kept ?_
      · rw [Piece.kind_node]
        decide
      · have hgeneric : (Piece.node .genericType [base, arguments]).Settled ↔
            Piece.AllSettled [base, arguments] :=
          Piece.settled_cons (by nofun) (fun _ => hbase) [arguments]
        simp [hgeneric]
    · refine (looks_ahead _).bind fun _ => .ite ?_ (.pure (by simp))
      refine (reads_mark _).bind fun _ => (reads_annotations hself).bind fun _ =>
        (reads_leafIf _ _).bind fun _ => (ih ?_).of_kept (by simp)
      rw [Piece.kind_node]
      decide

omit hself in
theorem primitiveKind?_not_mem {text : String} {kind : Kind}
    (h : primitiveKind? text = some kind) :
    kind ∉ [.assignmentExpression, .genericType] := by
  unfold primitiveKind? at h
  split at h <;> cases h <;> decide

theorem reads_simpleType : Reads [] (simpleType self limit) one := by
  refine looks_peek.bind fun l => ?_
  split
  · next kind hkind =>
    split at hkind
    · exact reads_primitive (primitiveKind?_not_mem hkind)
    · cases hkind
  · refine (reads_leafIf _ _).bind_of (returns_leafIf _ _) fun first hfirst => ?_
    exact reads_classTypeRest hself limit (by rw [hfirst]; decide)

theorem reads_dimension : Reads [] (dimension self limit) id :=
  (reads_annotations hself).bind fun _ => (reads_mark _).bind fun _ => (reads_mark _).bind fun _ =>
    .pure (by simp)

theorem reads_dimensionList (n : Nat) (done : Array Piece) :
    Reads done.toList (dimensionList self limit n done) id := by
  induction n generalizing done with
  | zero => exact .fail
  | succ n ih =>
    refine looks_peek.bind fun _ => .ite ?_ (.pure (by simp))
    refine (reads_attempt (reads_dimension hself)).bind fun found => ?_
    cases found with
    | none => exact .pure (by simp)
    | some parts => exact (ih _).of_kept (by simp)

theorem reads_dimensions : Reads [] (dimensions self limit) some? := by
  refine (reads_dimensionList hself limit #[]).seq fun parts => ?_
  cases parts with
  | nil => exact .pure (by simp)
  | cons part parts => exact .pure (by simp)

theorem reads_nameDimensions : Reads [] (nameDimensions self limit) id := by
  refine (reads_dimensions hself).bind fun found => ?_
  cases found with
  | none => exact .pure (by simp)
  | some piece => exact .pure (by simp)

theorem reads_unannotatedType : Reads [] (unannotatedType self limit) one := by
  refine (hself _).bind fun element => (reads_dimensions hself).bind fun found => ?_
  cases found with
  | none => exact .pure (by simp)
  | some piece => exact .pure (by simp)

theorem reads_type : Reads [] (type self limit) one :=
  (reads_annotations hself).bind fun leading => (hself _).bind fun type =>
    reads_annotatedType leading type

theorem reads_typeList : Reads [] (typeList self limit) one := by
  have hone : Returns (do return [← self .type]) (· ≠ []) := by
    intro ls parts rest hparts
    obtain ⟨type, mid, -, ⟨⟩⟩ := bind_ok hparts
    exact List.cons_ne_nil _ _
  refine (reads_commaSeparated limit (hself _).listed).bind_of
    (returns_commaSeparated limit hone) fun types htypes => ?_
  exact .pure (by simp [htypes])

theorem reads_typeBound : Reads [] (typeBound self limit) one := by
  have hmore : Reads [] (do return [← mark "&", ← self .type]) id :=
    (reads_mark _).bind fun _ => (hself _).bind fun _ => .pure (by simp)
  exact (reads_keyword _).bind fun _ => (hself _).bind fun _ =>
    (reads_many _ hmore limit).bind fun _ => .pure (by simp)

theorem reads_typeParameter : Reads [] (typeParameter self limit) one :=
  (reads_annotations hself).bind fun _ => (reads_leafIf _ _).bind fun _ =>
    (reads_optionalIf _ (reads_typeBound hself).listed).bind fun _ => .pure (by simp)

theorem reads_typeParameters : Reads [] (typeParameters self limit) one :=
  (reads_mark _).bind fun _ =>
    (reads_commaSeparated limit (reads_typeParameter hself).listed).bind fun _ =>
      (reads_mark _).bind fun _ => .pure (by simp)

/-- The three lexemes of `non-sealed` become one, on the line of the first. -/
theorem reads_modifier : Reads [] (modifier self) one := by
  refine (looks_atMark _).bind fun _ => .ite (hself _) ((looks_ahead _).bind fun _ => .ite ?_ ?_)
  · refine (reads_next .token).bind fun _ => (reads_next .token).bind fun _ =>
      (reads_next .token).bind fun _ => .pure ?_
    simp +contextual
  · exact (reads_next .token).bind fun _ => .pure (by simp)

theorem reads_modifiers : Reads [] (modifiers self limit) id := by
  refine (reads_many _ (reads_modifier hself).listed limit).bind fun parts => ?_
  cases parts with
  | nil => exact .pure (by simp)
  | cons part parts => exact .pure (by simp)

omit hself in
theorem reads_variableName : Reads [] variableName one :=
  (looks_atKeyword _).bind fun _ => .ite (reads_keywordLeaf _ _) reads_identifier

theorem reads_variableId : Reads [] (variableId self limit) id :=
  reads_variableName.bind fun _ => (reads_nameDimensions hself).bind fun _ => .pure (by simp)

omit hself in
theorem returns_variableId : Returns (variableId self limit) (· ≠ []) := by
  intro ls parts rest hparts
  obtain ⟨name, mid, -, hmore⟩ := bind_ok hparts
  obtain ⟨dimensions, end_, -, ⟨⟩⟩ := bind_ok hmore
  exact List.cons_ne_nil _ _

theorem reads_variableInitializer : Reads [] (variableInitializer self) one :=
  (looks_atMark _).bind fun _ => .ite (hself _) (hself _)

theorem reads_variableDeclarator : Reads [] (variableDeclarator self limit) one := by
  have hvalue : Reads []
      (do return [← mark "=", (← variableInitializer self).as .value]) id :=
    (reads_mark _).bind fun _ => (reads_variableInitializer hself).bind fun _ => .pure (by simp)
  refine (reads_variableId hself).bind_of returns_variableId fun id hid => ?_
  exact (reads_optionalIf _ hvalue).bind fun _ => .pure (by simp [hid])

theorem reads_variableDeclarators : Reads [] (variableDeclarators self limit) id :=
  reads_commaSeparated limit ((reads_variableDeclarator hself).bind fun _ => .pure (by simp))

theorem reads_receiverParameter : Reads [] (receiverParameter self limit) one := by
  have hpath : Reads [] (do return [← identifier, ← mark "."]) id :=
    reads_identifier.bind fun _ => (reads_mark _).bind fun _ => .pure (by simp)
  refine (reads_annotations hself).bind fun leading => (hself _).bind fun type =>
    (reads_many _ hpath limit).bind fun path => ?_
  exact .ite .fail_bind ((reads_keywordLeaf _ _).bind fun _ => .pure (by simp))

theorem reads_formalParameter : Reads [] (formalParameter self limit) one := by
  refine (reads_modifiers hself).bind fun _ => (hself _).bind fun _ =>
    (looks_atMark _).bind fun _ => .ite ?_ ((reads_variableId hself).bind fun _ => .pure (by simp))
  exact (reads_mark _).bind fun _ => (reads_annotations hself).bind fun _ =>
    (reads_variableDeclarator hself).bind fun _ => .pure (by simp)

theorem reads_formalParameters : Reads [] (formalParameters self limit) one := by
  refine (reads_mark _).bind fun opening =>
    (reads_attempt_piece (reads_receiverParameter hself)).bind fun receiver => ?_
  extract_lets go
  have hgo (comma : List Piece) :
      Reads ([opening] ++ receiver.toList ++ comma) (go comma) one := by
    refine (looks_atMark _).bind fun _ => ?_
    extract_lets close
    have hclose (parameters : List Piece) :
        Reads ([opening] ++ receiver.toList ++ comma ++ parameters) (close parameters) one :=
      (reads_mark _).bind fun _ => .pure (by simp)
    refine .ite (.pass (.of_kept (hclose []) (by simp))) ?_
    exact (reads_commaSeparated limit (reads_formalParameter hself).listed).bind hclose
  refine .ite ?_ (.pass (.of_kept (hgo []) (by simp)))
  exact (reads_optionalIf _ (reads_mark _).listed).bind hgo

end Nested

end ArchLint.Java.Parser
