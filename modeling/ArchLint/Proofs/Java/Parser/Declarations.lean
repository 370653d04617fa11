import ArchLint.Java.Parser.Declarations
import ArchLint.Proofs.Java.Parser.Expressions

/-!
# Declarations keep the order of lines
-/

namespace ArchLint.Java.Parser

variable {self : Goal → Parser Piece} {limit : Nat}

section Nested

variable (hself : ∀ goal, Reads [] (self goal) one)
include hself

theorem reads_throwsClause : Reads [] (throwsClause self limit) id :=
  reads_optionalIf _ ((reads_keyword _).bind fun _ =>
    (reads_commaSeparated limit (hself _).listed).bind fun _ => .pure (by simp))

theorem reads_methodRest (parts : List Piece) :
    Reads parts (methodRest self limit parts) one := by
  refine reads_identifier.bind fun name => (hself _).bind fun parameters =>
    (reads_nameDimensions hself).bind fun dimensions =>
      (reads_throwsClause hself).bind fun throws => (looks_atMark _).bind fun _ => ?_
  extract_lets close
  have hclose (body : Piece) :
      Reads (parts ++ [name, parameters] ++ dimensions ++ throws ++ [body]) (close body) one :=
    .pure (by simp)
  refine .ite ?_ ?_
  · exact (reads_mark _).bind fun stop => (hclose stop).of_kept (by simp)
  · exact (hself _).bind fun body => .pass ((hclose (body.as .body)).of_kept (by simp))

theorem reads_constructorCall : Reads [] (constructorCall self limit) one := by
  refine (looks_ahead _).bind fun _ => ?_
  extract_lets go access
  have hgo (leading : List Piece) : Reads leading (go leading) one := by
    refine (reads_optionalIf _ ((hself _).bind fun _ => .pure (by simp))).bind fun arguments =>
      (looks_atKeyword _).bind fun _ => ?_
    extract_lets close
    have hclose (constructor : Piece) :
        Reads (leading ++ arguments ++ [constructor]) (close constructor) one :=
      (hself _).bind fun _ => (reads_mark _).bind fun _ => .pure (by simp)
    exact .ite ((reads_keywordLeaf _ _).bind hclose) ((reads_keywordLeaf _ _).bind hclose)
  have haccess (first : Piece) : Reads [first] (access first) one :=
    (reads_primaryRest hself limit first).seq fun object => (reads_mark _).bind fun dot =>
      .pass ((hgo [object.as .object, dot]).of_kept (by simp))
  refine .ite (.pass (hgo [])) (looks_peek.bind fun l => ?_)
  split
  · exact (reads_wordPrimary hself).seq haccess
  · exact (reads_stringLiteral hself).seq haccess
  · next kind _ => exact (reads_next kind).seq fun _ => .pass (haccess _)
  · exact (reads_parenthesized hself).seq haccess

theorem reads_statementsInBraces {kind : Kind}
    (hkind : kind ∉ [.assignmentExpression, .genericType])
    {first : Parser (List Piece)} (hfirst : Reads [] first id) :
    Reads [] (statementsInBraces self limit kind first) one := by
  refine (reads_mark _).bind fun _ => hfirst.bind fun _ =>
    (reads_many _ (hself _).listed limit).bind fun _ => ?_
  exact (reads_mark _).bind fun _ => .pure (by simp [hkind])

theorem reads_constructorBody : Reads [] (constructorBody self limit) one := by
  refine reads_statementsInBraces hself (by decide) ?_
  exact (reads_attempt_piece (reads_constructorCall hself)).bind fun _ => .pure (by simp)

theorem reads_constructorRest (parts : List Piece) :
    Reads parts (constructorRest self limit parts) one :=
  reads_identifier.bind fun _ => (hself _).bind fun _ => (reads_throwsClause hself).bind fun _ =>
    (reads_constructorBody hself).bind fun _ => .pure (by simp)

theorem reads_genericRest (allowConstructor : Bool) (parts : List Piece) :
    Reads parts (genericRest self limit allowConstructor parts) one := by
  refine (reads_typeParameters hself).bind fun typeParameters => ?_
  refine (looks_ahead _).bind fun _ => .ite ((reads_constructorRest hself _).of_kept (by simp)) ?_
  exact (reads_annotations hself).bind fun _ => (hself _).bind fun _ =>
    (reads_methodRest hself _).of_kept (by simp)

theorem reads_variablesRest {kind : Kind} (hkind : kind ∉ [.assignmentExpression, .genericType])
    (parts : List Piece) : Reads parts (variablesRest self limit kind parts) one :=
  (hself _).bind fun _ => (reads_variableDeclarators hself).bind fun _ =>
    (reads_mark _).bind fun _ => .pure (by simp [hkind])

theorem reads_methodOrVariables {kind : Kind} (hkind : kind ∉ [.assignmentExpression, .genericType])
    (parts : List Piece) : Reads parts (methodOrVariables self limit kind parts) one :=
  (looks_succeeds _).bind fun _ => .ite
    ((hself _).bind fun _ => (reads_methodRest hself _).of_kept (by simp))
    (reads_variablesRest hself hkind parts)

theorem reads_implementsClause : Reads [] (implementsClause self limit) id :=
  reads_optionalIf _ ((reads_keyword _).bind fun _ => (reads_typeList hself).bind fun _ =>
    .pure (by simp))

theorem reads_permitsClause : Reads [] (permitsClause self limit) id :=
  reads_optionalIf _ ((reads_keyword _).bind fun _ => (reads_typeList hself).bind fun _ =>
    .pure (by simp))

theorem reads_typeParametersIfAny : Reads [] (typeParametersIfAny self limit) id :=
  reads_optionalIf _ ((reads_typeParameters hself).bind fun _ => .pure (by simp))

theorem reads_classRest (parts : List Piece) : Reads parts (classRest self limit parts) one := by
  have hsuperclass : Reads [] (do
      let word ← keyword "extends"
      return [(Piece.node .superclass [word, ← self .type]).as .superclass]) id :=
    (reads_keyword _).bind fun _ => (hself _).bind fun _ => .pure (by simp)
  exact (reads_keyword _).bind fun _ => reads_identifier.bind fun _ =>
    (reads_typeParametersIfAny hself).bind fun _ => (reads_optionalIf _ hsuperclass).bind fun _ =>
      (reads_implementsClause hself).bind fun _ => (reads_permitsClause hself).bind fun _ =>
        (hself _).bind fun _ => .pure (by simp)

theorem reads_interfaceRest (parts : List Piece) :
    Reads parts (interfaceRest self limit parts) one := by
  have hextended : Reads [] (do
      let word ← keyword "extends"
      return [.node .extendsInterfaces [word, ← typeList self limit]]) id :=
    (reads_keyword _).bind fun _ => (reads_typeList hself).bind fun _ => .pure (by simp)
  exact (reads_keyword _).bind fun _ => reads_identifier.bind fun _ =>
    (reads_typeParametersIfAny hself).bind fun _ => (reads_optionalIf _ hextended).bind fun _ =>
      (reads_permitsClause hself).bind fun _ => (hself _).bind fun _ => .pure (by simp)

theorem reads_enumRest (parts : List Piece) : Reads parts (enumRest self limit parts) one :=
  (reads_keyword _).bind fun _ => reads_identifier.bind fun _ =>
    (reads_implementsClause hself).bind fun _ => (hself _).bind fun _ => .pure (by simp)

theorem reads_recordRest (parts : List Piece) : Reads parts (recordRest self limit parts) one :=
  (reads_keyword _).bind fun _ => reads_identifier.bind fun _ =>
    (reads_typeParametersIfAny hself).bind fun _ => (hself _).bind fun _ =>
      (reads_implementsClause hself).bind fun _ => (hself _).bind fun _ => .pure (by simp)

theorem reads_annotationTypeRest (parts : List Piece) :
    Reads parts (annotationTypeRest self parts) one :=
  (reads_mark _).bind fun _ => reads_identifier.bind fun _ => (hself _).bind fun _ =>
    .pure (by simp)

/-- What is in hand stays there when no type is declared. -/
theorem reads_typeDeclarationRest? (parts : List Piece) :
    Reads parts (typeDeclarationRest? self limit parts) (·.elim parts one) := by
  refine looks_get.bind fun ls => .ite ?_ (.ite ?_ (.ite ?_ (.ite ?_ (.ite ?_ (.pure (by simp))))))
  · exact (reads_classRest hself parts).seq fun _ => .pure (by simp)
  · exact (reads_interfaceRest hself parts).seq fun _ => .pure (by simp)
  · exact (reads_enumRest hself parts).seq fun _ => .pure (by simp)
  · exact (reads_annotationTypeRest hself parts).seq fun _ => .pure (by simp)
  · exact (reads_recordRest hself parts).seq fun _ => .pure (by simp)

omit hself in
theorem reads_members {member : Parser Piece} (h : Reads [] member one) :
    Reads [] (members limit member) id :=
  reads_many _ (h.bind fun _ => .pure (by simp)) limit

omit hself in
theorem reads_body {kind : Kind} (hkind : kind ∉ [.assignmentExpression, .genericType])
    {member : Parser Piece} (h : Reads [] member one) : Reads [] (body limit kind member) one :=
  (reads_mark _).bind fun _ => (reads_members h).bind fun _ => (reads_mark _).bind fun _ =>
    .pure (by simp [hkind])

theorem reads_classMember : Reads [] (classMember self limit) one := by
  refine (looks_atMark _).bind fun _ => .ite (reads_mark _) ?_
  refine (looks_atMark _).bind fun _ => .ite (hself _) ?_
  refine (looks_ahead _).bind fun _ => .ite ?_ ?_
  · exact (reads_keyword _).bind fun _ => (hself _).bind fun _ => .pure (by simp)
  refine (reads_modifiers hself).seq fun parts =>
    (reads_typeDeclarationRest? hself parts).seq fun found => ?_
  cases found with
  | some declaration => exact .pure (by simp)
  | none =>
    refine (looks_atMark _).bind fun _ => .ite (reads_genericRest hself true parts) ?_
    refine (looks_ahead _).bind fun _ => .ite (reads_constructorRest hself parts) ?_
    refine (looks_ahead _).bind fun _ => .ite ?_ ?_
    · exact reads_identifier.bind fun _ => (hself _).bind fun _ => .pure (by simp)
    · exact reads_methodOrVariables hself (by decide) parts

theorem reads_interfaceMember : Reads [] (interfaceMember self limit) one := by
  refine (looks_atMark _).bind fun _ => .ite (reads_mark _) ?_
  refine (reads_modifiers hself).seq fun parts =>
    (reads_typeDeclarationRest? hself parts).seq fun found => ?_
  cases found with
  | some declaration => exact .pure (by simp)
  | none =>
    exact (looks_atMark _).bind fun _ => .ite (reads_genericRest hself false parts)
      (reads_methodOrVariables hself (by decide) parts)

theorem reads_annotationElementRest (parts : List Piece) :
    Reads parts (annotationElementRest self limit parts) one := by
  have hvalue : Reads []
      (do return [← keyword "default", (← self .elementValue).as .value]) id :=
    (reads_keyword _).bind fun _ => (hself _).bind fun _ => .pure (by simp)
  exact (hself _).bind fun _ => reads_identifier.bind fun _ => (reads_mark _).bind fun _ =>
    (reads_mark _).bind fun _ => (reads_nameDimensions hself).bind fun _ =>
      (reads_optionalIf _ hvalue).bind fun _ => (reads_mark _).bind fun _ => .pure (by simp)

theorem reads_annotationMember : Reads [] (annotationMember self limit) one := by
  refine (looks_atMark _).bind fun _ => .ite (reads_mark _) ?_
  refine (reads_modifiers hself).seq fun parts =>
    (reads_typeDeclarationRest? hself parts).seq fun found => ?_
  cases found with
  | some declaration => exact .pure (by simp)
  | none =>
    exact (looks_succeeds _).bind fun _ => .ite (reads_annotationElementRest hself parts)
      (reads_variablesRest hself (by decide) parts)

theorem reads_enumConstant : Reads [] (enumConstant self limit) one :=
  (reads_modifiers hself).bind fun _ => reads_identifier.bind fun _ =>
    (reads_optionalIf _ ((hself _).bind fun _ => .pure (by simp))).bind fun _ =>
      (reads_optionalIf _ ((hself _).bind fun _ => .pure (by simp))).bind fun _ => .pure (by simp)

theorem reads_enumBody : Reads [] (enumBody self limit) one := by
  have hconstant : Reads [] (do
      let constant ← enumConstant self limit
      if ← ahead fun ls => (front ls).isMark "," && !(front ls.tail).isMarkIn ["\x7d", ";"] then
        let comma ← mark ","
        if (← peek).isMark "," then fail
        return [constant, comma]
      else if (← peek).isMarkIn ["\x7d", ",", ";"] then return [constant]
      else fail) id := by
    refine (reads_enumConstant hself).bind fun _ => (looks_ahead _).bind fun _ => .ite ?_ ?_
    · exact (reads_mark _).bind fun _ => looks_peek.bind fun _ => .ite .fail_bind (.pure (by simp))
    · exact looks_peek.bind fun _ => .ite (.pure (by simp)) .fail
  refine (reads_mark _).bind fun _ => (reads_many _ hconstant limit).bind fun _ => ?_
  refine (reads_optionalIf _ (reads_mark _).listed).bind fun _ => ?_
  refine (reads_optionalIf _ ((reads_mark _).bind fun _ =>
    (reads_members (reads_classMember hself)).bind fun _ => .pure (by simp))).bind fun _ => ?_
  exact (reads_mark _).bind fun _ => .pure (by simp)

end Nested

theorem reads_packageRest (parts : List Piece) : Reads parts (packageRest limit parts) one :=
  (reads_keyword _).bind fun _ => (reads_name limit).bind fun _ => (reads_mark _).bind fun _ =>
    .pure (by simp)

theorem reads_importDeclaration : Reads [] (importDeclaration limit) one := by
  have hstar : Reads [] (do return [← mark ".", ← leafIf .asterisk (·.isMark "*")]) id :=
    (reads_mark _).bind fun _ => (reads_leafIf _ _).bind fun _ => .pure (by simp)
  refine (reads_keyword _).bind fun word => (looks_ahead _).bind fun _ => ?_
  extract_lets go
  have hgo (static_ : List Piece) : Reads ([word] ++ static_) (go static_) one :=
    (reads_name limit).bind fun _ => (reads_optionalIf _ hstar).bind fun _ =>
      (reads_mark _).bind fun _ => .pure (by simp)
  exact .ite ((reads_keyword _).bind fun _ => .pass (hgo _)) (.pass (hgo _))

theorem reads_namesAs (f : Field) : Reads [] (namesAs limit f) id :=
  reads_commaSeparated limit ((reads_name limit).bind fun _ => .pure (by simp))

theorem reads_requiresDirective : Reads [] (requiresDirective limit) one :=
  (reads_keyword _).bind fun _ =>
    (reads_many _ ((reads_next .token).bind fun _ => .pure (by simp)) limit).bind fun _ =>
      (reads_name limit).bind fun _ => (reads_mark _).bind fun _ => .pure (by simp)

theorem reads_openingDirective {kind : Kind} (hkind : kind ∉ [.assignmentExpression, .genericType])
    (text : String) : Reads [] (openingDirective limit kind text) one := by
  have htargets : Reads [] (do return (← keyword "to") :: (← namesAs limit .modules)) id :=
    (reads_keyword _).bind fun _ => (reads_namesAs _).bind fun _ => .pure (by simp)
  exact (reads_keyword _).bind fun _ => (reads_name limit).bind fun _ =>
    (reads_optionalIf _ htargets).bind fun _ => (reads_mark _).bind fun _ =>
      .pure (by simp [hkind])

theorem reads_usesDirective : Reads [] (usesDirective limit) one :=
  (reads_keyword _).bind fun _ => (reads_name limit).bind fun _ => (reads_mark _).bind fun _ =>
    .pure (by simp)

theorem reads_providesDirective : Reads [] (providesDirective limit) one := by
  have hmore : Reads [] (do return [← mark ",", (← name limit).as .provider]) id :=
    (reads_mark _).bind fun _ => (reads_name limit).bind fun _ => .pure (by simp)
  exact (reads_keyword _).bind fun _ => (reads_name limit).bind fun _ =>
    (reads_keyword _).bind fun _ => (reads_name limit).bind fun _ =>
      (reads_many _ hmore limit).bind fun _ => (reads_mark _).bind fun _ => .pure (by simp)

theorem reads_moduleDirective : Reads [] (moduleDirective limit) one := by
  refine looks_peek.bind fun _ => .ite reads_requiresDirective ?_
  refine .ite (reads_openingDirective (by decide) _) ?_
  refine .ite (reads_openingDirective (by decide) _) ?_
  exact .ite reads_usesDirective reads_providesDirective

theorem reads_moduleRest (parts : List Piece) : Reads parts (moduleRest limit parts) one :=
  (reads_optionalIf _ (reads_keyword _).listed).bind fun _ =>
    (reads_keyword _).bind fun _ => (reads_name limit).bind fun _ =>
      (reads_body (by decide) reads_moduleDirective).bind fun _ => .pure (by simp)

end ArchLint.Java.Parser
