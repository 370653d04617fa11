import ArchLint.Java.Lowering

/-!
# Filling plans

One level of lowering makes a plan, and the holes of the plan are filled by lowering what stands
there. `Filled` says what a filled plan is without saying how the holes were filled, and `Form`
lists the plans that a concrete node can get: whatever is true of all lowered terms follows from
looking at these forms once.
-/

namespace ArchLint.Java

open Syntax (Term)

theorem Cst.exists_spine_eq (c : Cst) : ∃ inner, c.spine = c :: inner := by
  rw [spine]
  split
  · split
    · exact ⟨_, rfl⟩
    · exact ⟨_, rfl⟩
  · exact ⟨_, rfl⟩

theorem Cst.spine_ne_nil (c : Cst) : c.spine ≠ [] := by
  obtain ⟨inner, hspine⟩ := c.exists_spine_eq
  rw [hspine]
  exact List.cons_ne_nil _ _

theorem Cst.spine_around {c left : Cst} (hleft : c.get? .left = some left)
    (hbinary : left.kind = .binaryExpression) : c.spine = c :: left.spine := by
  rw [spine]
  split
  · next d hd =>
    cases hd.symm.trans hleft
    rw [if_pos hbinary]
  · next hd => cases hd.symm.trans hleft

theorem Cst.spine_single {c : Cst}
    (hleft : ∀ left, c.get? .left = some left → left.kind ≠ .binaryExpression) :
    c.spine = [c] := by
  rw [spine]
  split
  · next d hd => rw [if_neg (hleft d hd)]
  · rfl

namespace Plan

mutual

/-- The terms are the plan with its holes filled by terms that `R` allows there. -/
def Filled (R : Cst → List Term → Prop) : Plan → List Term → Prop
  | .node kind text line parts, ts =>
    ∃ us, FilledAll R parts us ∧ ts = [.node kind text line us]
  | .done T, ts => ts = [T]
  | .hole c, ts => R c ts

def FilledAll (R : Cst → List Term → Prop) : List Plan → List Term → Prop
  | [], ts => ts = []
  | p :: ps, ts => ∃ us vs, Filled R p us ∧ FilledAll R ps vs ∧ ts = us ++ vs

end

variable {R : Cst → List Term → Prop}

mutual

theorem filled_of_fill {ε : Type} {lower : Cst → Except ε (List Term)} :
    ∀ {p : Plan} {ts : List Term}, fill lower p = .ok ts →
      Filled (fun c us => lower c = .ok us) p ts
  | .node kind text line parts, ts, h => by
    rw [fill] at h
    cases hparts : fillAll lower parts with
    | error e => simp [hparts] at h
    | ok us =>
      simp only [hparts, Except.ok.injEq] at h
      exact ⟨us, filledAll_of_fillAll hparts, h.symm⟩
  | .done T, ts, h => by
    rw [fill] at h
    exact (Except.ok.inj h).symm
  | .hole c, ts, h => by rwa [fill] at h

theorem filledAll_of_fillAll {ε : Type} {lower : Cst → Except ε (List Term)} :
    ∀ {ps : List Plan} {ts : List Term}, fillAll lower ps = .ok ts →
      FilledAll (fun c us => lower c = .ok us) ps ts
  | [], ts, h => by
    rw [fillAll] at h
    exact (Except.ok.inj h).symm
  | p :: ps, ts, h => by
    rw [fillAll] at h
    cases hp : fill lower p with
    | error e => simp [hp] at h
    | ok us =>
      cases hps : fillAll lower ps with
      | error e => simp [hp, hps] at h
      | ok vs =>
        simp only [hp, hps, Except.ok.injEq] at h
        exact ⟨us, vs, filled_of_fill hp, filledAll_of_fillAll hps, h.symm⟩

end

theorem filledAll_singleton {p : Plan} {ts : List Term} :
    FilledAll R [p] ts ↔ Filled R p ts := by
  simp [FilledAll]

section Extended

variable {ε : Type} {lower lower' : Cst → Except ε (List Term)}

mutual

theorem fill_extend (h : ∀ c us, lower c = .ok us → lower' c = .ok us) :
    ∀ {p : Plan} {ts : List Term}, fill lower p = .ok ts → fill lower' p = .ok ts
  | .node kind text line parts, ts, hts => by
    rw [fill] at hts ⊢
    cases hparts : fillAll lower parts with
    | error e => simp [hparts] at hts
    | ok us =>
      rw [hparts] at hts
      rw [fillAll_extend h hparts]
      exact hts
  | .done T, ts, hts => hts
  | .hole c, ts, hts => h c ts hts

theorem fillAll_extend (h : ∀ c us, lower c = .ok us → lower' c = .ok us) :
    ∀ {ps : List Plan} {ts : List Term}, fillAll lower ps = .ok ts → fillAll lower' ps = .ok ts
  | [], ts, hts => hts
  | p :: ps, ts, hts => by
    rw [fillAll] at hts ⊢
    cases hp : fill lower p with
    | error e => simp [hp] at hts
    | ok us =>
      cases hps : fillAll lower ps with
      | error e => simp [hp, hps] at hts
      | ok vs =>
        simp only [hp, hps] at hts
        simp only [fill_extend h hp, fillAll_extend h hps]
        exact hts

end

end Extended

def formed : List Kind :=
  [ .lineComment, .blockComment, .decimalIntegerLiteral, .hexIntegerLiteral,
    .octalIntegerLiteral, .binaryIntegerLiteral, .decimalFloatingPointLiteral,
    .hexFloatingPointLiteral, .trueLiteral, .falseLiteral, .characterLiteral, .stringLiteral,
    .nullLiteral, .classLiteral, .packageDeclaration, .importDeclaration, .classDeclaration,
    .recordDeclaration, .interfaceDeclaration, .annotationTypeDeclaration, .enumDeclaration,
    .classBody, .interfaceBody, .enumBody, .annotationTypeBody, .fieldDeclaration,
    .constantDeclaration, .localVariableDeclaration, .methodDeclaration,
    .annotationTypeElementDeclaration, .constructorDeclaration, .compactConstructorDeclaration,
    .formalParameter, .spreadParameter, .catchFormalParameter, .resource,
    .enhancedForStatement, .lambdaExpression, .modifiers, .annotationUse, .plainAnnotationUse,
    .block, .constructorBody, .expressionStatement, .argumentList, .arrayInitializer,
    .explicitConstructorInvocation, .parenthesizedExpression, .assignmentExpression,
    .binaryExpression, .unaryExpression, .updateExpression, .fieldAccess, .methodInvocation,
    .arrayAccess, .objectCreationExpression, .arrayCreationExpression, .this, .super,
    .identifier, .typeIdentifier, .scopedIdentifier, .integralType, .floatingPointType,
    .booleanType, .voidType, .genericType, .scopedTypeIdentifier, .arrayType ]

/-- The plans that a concrete node can get, by its kind. -/
inductive Form (c : Cst) : List Plan → Prop where
  | comment : c.kind ∈ [.lineComment, .blockComment] → Form c []
  | literal : c.kind.isLiteral = true → Form c [token .literal c.text c.line]
  | package : c.kind = .packageDeclaration → Form c (package c)
  | import_ : c.kind = .importDeclaration → Form c (import_ c)
  | typeDeclaration (kind : Syntax.Kind) : kind ∈ [.classDef, .interfaceDef, .enumDef] →
      c.kind ∈ [.classDeclaration, .recordDeclaration, .interfaceDeclaration,
        .annotationTypeDeclaration, .enumDeclaration] → Form c [typeDeclaration kind c]
  | body : c.kind ∈ [.classBody, .interfaceBody, .enumBody, .annotationTypeBody] →
      Form c [body c none]
  | variableDefs : c.kind ∈ [.fieldDeclaration, .constantDeclaration, .localVariableDeclaration] →
      Form c (variableDefs c)
  | method : c.kind ∈ [.methodDeclaration, .annotationTypeElementDeclaration] →
      Form c [method c]
  | constructor_ : c.kind ∈ [.constructorDeclaration, .compactConstructorDeclaration] →
      Form c [constructor_ c]
  | parameter : c.kind ∈ [.formalParameter, .spreadParameter, .catchFormalParameter] →
      Form c [parameter c]
  | resource : c.kind = .resource → Form c [resource c]
  | forEach : c.kind = .enhancedForStatement → Form c [forEach c]
  | lambda : c.kind = .lambdaExpression → Form c [lambda c]
  | modifierList : c.kind = .modifiers → Form c [modifierList c]
  | annotated : c.kind ∈ [.annotationUse, .plainAnnotationUse] → Form c [annotated c]
  | group (kind : Syntax.Kind) :
      (c.kind, kind) ∈ [(.block, .slist), (.constructorBody, .slist), (.expressionStatement, .expr),
        (.argumentList, .elist), (.arrayInitializer, .arrayInit),
        (.explicitConstructorInvocation, .methodCall)] → Form c [nest kind c]
  | parentheses : c.kind = .parenthesizedExpression → Form c (holes c.named)
  | assignment : c.kind = .assignmentExpression → Form c [assignment c]
  | chain : c.kind = .binaryExpression → Form c [chain c]
  | operator : c.kind ∈ [.unaryExpression, .updateExpression] → Form c [operator c]
  | fieldAccess : c.kind = .fieldAccess → Form c [fieldAccess c]
  | methodCall : c.kind = .methodInvocation → Form c [methodCall c]
  | arrayAccess : c.kind = .arrayAccess → Form c [arrayAccess c]
  | creation : c.kind ∈ [.objectCreationExpression, .arrayCreationExpression] →
      Form c [creation c]
  | self (kind : Syntax.Kind) : (c.kind, kind) ∈ [(.this, .literalThis), (.super, .literalSuper)] →
      Form c [leaf kind c.line]
  | word : c.kind ∈ [.identifier, .typeIdentifier] → Form c [ident c.text c.line]
  | dotted : c.kind = .scopedIdentifier → Form c [qualified c.typeName c.line]
  | type : c.kind ∈ [.integralType, .floatingPointType, .booleanType, .voidType, .genericType,
      .scopedTypeIdentifier, .arrayType] → Form c [typeRef (some c) c.line]
  | other : c.kind ∉ formed → Form c [nest .other c]

theorem form_ofCst (c : Cst) : Form c (ofCst c) := by
  obtain ⟨kind, field, line, text, children⟩ := c
  cases kind with
  | lineComment | blockComment => exact .comment (by simp [Cst.kind])
  | decimalIntegerLiteral | hexIntegerLiteral | octalIntegerLiteral | binaryIntegerLiteral
  | decimalFloatingPointLiteral | hexFloatingPointLiteral | trueLiteral | falseLiteral
  | characterLiteral | stringLiteral | nullLiteral | classLiteral => exact .literal rfl
  | packageDeclaration => exact .package rfl
  | importDeclaration => exact .import_ rfl
  | classDeclaration | recordDeclaration =>
    exact .typeDeclaration .classDef (by decide) (by simp [Cst.kind])
  | interfaceDeclaration | annotationTypeDeclaration =>
    exact .typeDeclaration .interfaceDef (by decide) (by simp [Cst.kind])
  | enumDeclaration => exact .typeDeclaration .enumDef (by decide) (by simp [Cst.kind])
  | classBody | interfaceBody | enumBody | annotationTypeBody => exact .body (by simp [Cst.kind])
  | fieldDeclaration | constantDeclaration | localVariableDeclaration =>
    exact .variableDefs (by simp [Cst.kind])
  | methodDeclaration | annotationTypeElementDeclaration => exact .method (by simp [Cst.kind])
  | constructorDeclaration | compactConstructorDeclaration =>
    exact .constructor_ (by simp [Cst.kind])
  | formalParameter | spreadParameter | catchFormalParameter =>
    exact .parameter (by simp [Cst.kind])
  | resource => exact .resource rfl
  | enhancedForStatement => exact .forEach rfl
  | lambdaExpression => exact .lambda rfl
  | modifiers => exact .modifierList rfl
  | annotationUse | plainAnnotationUse => exact .annotated (by simp [Cst.kind])
  | block | constructorBody => exact .group .slist (by simp [Cst.kind])
  | expressionStatement => exact .group .expr (by simp [Cst.kind])
  | argumentList => exact .group .elist (by simp [Cst.kind])
  | arrayInitializer => exact .group .arrayInit (by simp [Cst.kind])
  | explicitConstructorInvocation => exact .group .methodCall (by simp [Cst.kind])
  | parenthesizedExpression => exact .parentheses rfl
  | assignmentExpression => exact .assignment rfl
  | binaryExpression => exact .chain rfl
  | unaryExpression | updateExpression => exact .operator (by simp [Cst.kind])
  | fieldAccess => exact .fieldAccess rfl
  | methodInvocation => exact .methodCall rfl
  | arrayAccess => exact .arrayAccess rfl
  | objectCreationExpression | arrayCreationExpression => exact .creation (by simp [Cst.kind])
  | this => exact .self .literalThis (by simp [Cst.kind])
  | super => exact .self .literalSuper (by simp [Cst.kind])
  | identifier | typeIdentifier => exact .word (by simp [Cst.kind])
  | scopedIdentifier => exact .dotted rfl
  | integralType | floatingPointType | booleanType | voidType | genericType
  | scopedTypeIdentifier | arrayType => exact .type (by simp [Cst.kind])
  | _ => exact .other (of_decide_eq_true rfl)

theorem chain_around {c left : Cst} (hleft : c.get? .left = some left)
    (hbinary : left.kind = .binaryExpression) : chain c = enclose (chain left) c := by
  rw [chain, chain, Cst.spine_around hleft hbinary, List.reverse_cons]
  cases hrev : left.spine.reverse with
  | nil => exact absurd (List.reverse_eq_nil_iff.mp hrev) left.spine_ne_nil
  | cons innermost outer => simp

theorem chain_single {c : Cst}
    (hleft : ∀ left, c.get? .left = some left → left.kind ≠ .binaryExpression) :
    chain c = operator c := by
  rw [chain, Cst.spine_single hleft]
  rfl

/-- What holds of a level without a chain on its left, and of a level around a chain of which it
holds, holds of all chains. -/
theorem chain_induction {motive : Cst → Plan → Prop}
    (single : ∀ c, (∀ left, c.get? .left = some left → left.kind ≠ .binaryExpression) →
      motive c (operator c))
    (around : ∀ c left inner, c.get? .left = some left → left.kind = .binaryExpression →
      motive left inner → motive c (enclose inner c))
    (c : Cst) : motive c (chain c) := by
  by_cases hleft : ∃ left, c.get? .left = some left ∧ left.kind = .binaryExpression
  · obtain ⟨left, hget, hbinary⟩ := hleft
    rw [chain_around hget hbinary]
    exact around c left _ hget hbinary (chain_induction single around left)
  · have hsingle : ∀ left, c.get? .left = some left → left.kind ≠ .binaryExpression :=
      fun left hget hbinary => hleft ⟨left, hget, hbinary⟩
    rw [chain_single hsingle]
    exact single c hsingle
termination_by c.weight
decreasing_by exact Cst.weight_lt_of_get? hget

end Plan

theorem Cst.lower_of_le {c : Cst} {ts : List Term} {depth depth' : Nat} (hle : depth ≤ depth')
    (h : c.lower depth = .ok ts) : c.lower depth' = .ok ts := by
  induction depth generalizing c ts depth' with
  | zero => cases h
  | succ depth ih =>
    cases depth' with
    | zero => omega
    | succ depth' => exact Plan.fillAll_extend (fun d us hd => ih (by omega) hd) h

end ArchLint.Java
