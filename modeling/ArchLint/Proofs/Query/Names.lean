import ArchLint.Proofs.Query.Success
import ArchLint.Proofs.Syntax.Context

/-!
# Dotted names

A dotted name is written as a chain of member accesses: all of them are opened in advance, and each
segment but the first closes one. Reading the chain gives back the name, whatever stands between
its dots. Only a lone star is no name for a declaration.
-/

namespace ArchLint.Syntax

def Kind.isShapeless (k : Kind) : Bool :=
  !k matches .variableDef | .parameterDef | .classDef | .interfaceDef | .enumDef | .packageDef |
    .importDef | .staticImport | .dot | .ident

/-- A node of this kind may have the name as its only child. -/
def Kind.Takes (k : Kind) (name : String) : Prop :=
  k.holdsName = true ∧ name ≠ "*" ∨ k.isShapeless = true

/-- A left-nested chain of member accesses with a leaf for each of the segments. -/
inductive Chain (line : Nat) : List (List Char) → Term → Prop where
  | one (s : List Char) : Chain line [s] (.segment s line)
  | more {pieces : List (List Char)} {T : Term} (s : List Char) : Chain line pieces T →
      Chain line (pieces ++ [s]) (.node .dot none line [T, .segment s line])

namespace Term

theorem word_segment (s : List Char) (line : Nat) :
    (segment s line).word = Bracket.segment s line := by
  rw [segment, Bracket.segment]
  split
  · rfl
  · rfl

theorem word_foldl_dot (rest : List (List Char)) (inner : Term) (line : Nat) :
    (rest.foldl (fun inner s => node .dot none line [inner, segment s line]) inner).word =
      List.replicate rest.length (.opening .dot none line) ++
        (inner.word ++ rest.flatMap fun s => Bracket.segment s line ++ [.closing]) := by
  induction rest generalizing inner with
  | nil => simp
  | cons s rest ih =>
    rw [List.foldl_cons, ih, List.length_cons, List.replicate_succ']
    simp [word, wordAll, word_segment]

theorem word_qualified (name : String) (line : Nat) :
    (qualified name line).word = Bracket.qualified name line := by
  rw [qualified, Bracket.qualified]
  cases h : Text.segments '.' name.toList with
  | nil => exact absurd h (Text.segments_ne_nil '.' name.toList)
  | cons first rest =>
    simp only
    rw [word_foldl_dot, word_segment]

end Term

namespace Chain

variable {line : Nat} {pieces : List (List Char)} {T : Term}

theorem ne_nil (h : Chain line pieces T) : pieces ≠ [] := by
  cases h with
  | one s => exact List.cons_ne_nil s []
  | more s h => simp

theorem foldl (h : Chain line pieces T) (rest : List (List Char)) :
    Chain line (pieces ++ rest)
      (rest.foldl (fun inner s => .node .dot none line [inner, .segment s line]) T) := by
  induction rest generalizing pieces T with
  | nil =>
    rw [List.append_nil]
    exact h
  | cons s rest ih =>
    rw [List.append_cons]
    exact ih (.more s h)

end Chain

theorem chain_qualified (name : String) (line : Nat) :
    Chain line (Text.segments '.' name.toList) (.qualified name line) := by
  rw [Term.qualified]
  cases h : Text.segments '.' name.toList with
  | nil => exact absurd h (Text.segments_ne_nil '.' name.toList)
  | cons first rest => exact (Chain.one first).foldl rest

theorem Term.label_segment (s : List Char) (line : Nat) :
    (segment s line).kind ≠ .dot ∧ (segment s line).text = some (String.ofList s) := by
  rcases segment_eq s line with ⟨rfl, h⟩ | ⟨-, h⟩
  · rw [h]
    exact ⟨nofun, rfl⟩
  · rw [h]
    exact ⟨nofun, rfl⟩

namespace Tree

variable {t : Tree} {parent : Option Nat} {i line : Nat} {T : Term} {name : String}

theorem dottedName_of_kind (h : t.kind i ≠ .dot) : t.dottedName i = (t.text i).getD "" := by
  rw [dottedName, if_neg h]

theorem Holds.dottedName_dot {left right : Term} {text : Option String}
    (h : Holds t parent i (.node .dot text line [left, right])) :
    t.dottedName i = t.dottedName (i + 1) ++ ("." ++ right.text.getD "") := by
  have hleft := h.below.1
  have hright := h.below.2.1
  have hkind : t.kind i = .dot := h.kind
  have hfirst : t.child i 0 = some (i + 1) := by
    rw [child_eq_getElem?, h.children]
    rfl
  have hsecond : t.child i 1 = some (i + 1 + left.size) := by
    rw [child_eq_getElem?, h.children]
    rfl
  rw [dottedName, if_pos hkind, hfirst, hsecond]
  simp only
  rw [if_pos ⟨Nat.lt_succ_self i, hleft.lt_size⟩, hright.text]

/-- Reading a chain joins its segments, by the number of them. -/
theorem Holds.dottedName_chain {pieces : List (List Char)} (h : Holds t parent i T)
    (hT : Chain line pieces T) : t.dottedName i = String.ofList (Text.joinSegments '.' pieces) := by
  induction hT generalizing parent i with
  | one s =>
    obtain ⟨hkind, htext⟩ := Term.label_segment s line
    rw [dottedName_of_kind (by rwa [h.kind]), h.text, htext]
    rfl
  | @more pieces T s hT ih =>
    obtain ⟨-, htext⟩ := Term.label_segment s line
    rw [h.dottedName_dot, ih h.below.1, htext,
      Text.joinSegments_append hT.ne_nil (List.cons_ne_nil s []), String.ofList_append,
      Option.getD_some, String.ofList_cons]
    rfl

theorem Holds.dottedName_qualified (h : Holds t parent i (.qualified name line)) :
    t.dottedName i = name := by
  rw [h.dottedName_chain (chain_qualified name line),
    (Text.cut_segments '.' name.toList).joined, String.ofList_toList]

end Tree

def Term.naming (kind : Kind) (text : Option String) (line : Nat) (name : String)
    (nameLine : Nat) : Term :=
  .node kind text line [.qualified name nameLine]

def Step.naming (kind : Kind) (text : Option String) (line : Nat) (name : String)
    (nameLine : Nat) : List Step :=
  [.start kind text line, .qualified name nameLine, .finish]

namespace Term

variable {k : Kind} {text : Option String} {line nameLine : Nat} {name : String}

theorem word_naming (k : Kind) (text : Option String) (line : Nat) (name : String)
    (nameLine : Nat) :
    Bracket.word (Step.naming k text line name nameLine) =
      (naming k text line name nameLine).word := by
  simp [Step.naming, naming, Bracket.word, Step.brackets, word, wordAll, word_qualified]

theorem qualified_cases (name : String) (line : Nat) :
    (qualified name line).kind = .dot ∨ qualified name line = segment name.toList line := by
  have hchain := chain_qualified name line
  generalize hpieces : Text.segments '.' name.toList = pieces at hchain
  generalize qualified name line = T at hchain
  cases hchain with
  | one s =>
    right
    rw [Text.eq_of_segments_eq_singleton hpieces]
  | more s _ => exact .inl rfl

theorem qualified_star (line : Nat) : qualified "*" line = token .star "*" line := rfl

theorem fault_naming (hk : k.holdsName = true) :
    (naming k text line name nameLine).fault =
      if name = "*" then some "declaration has no qualified name" else none := by
  have hfault : (naming k text line name nameLine).fault =
      if (naming k text line name nameLine).namesChild [.ident, .dot] then none
      else some "declaration has no qualified name" := by
    revert hk
    cases k <;> first | exact fun _ => rfl | exact nofun
  rw [hfault]
  split
  · next hnamed =>
    rw [if_neg]
    rintro rfl
    cases hnamed
  · next hnamed =>
    rw [if_pos]
    by_contra hname
    apply hnamed
    rcases qualified_reads hname nameLine with hdot | ⟨hident, htext⟩
    · simp [naming, namesChild, children, hdot]
    · simp [naming, namesChild, children, hident, htext]

theorem fault_naming_of_isShapeless (hk : k.isShapeless = true) :
    (naming k text line name nameLine).fault = none := by
  revert hk
  cases k <;> first | exact fun _ => rfl | exact nofun

theorem fault_naming_of_takes (hk : k.Takes name) :
    (naming k text line name nameLine).fault = none := by
  rcases hk with ⟨hk, hname⟩ | hk
  · rw [fault_naming hk, if_neg hname]
  · exact fault_naming_of_isShapeless hk

theorem wellShaped_naming (hfault : (naming k text line name nameLine).fault = none) :
    (naming k text line name nameLine).WellShaped := by
  obtain ⟨hsound, hassign⟩ := sound_qualified name nameLine
  have hchildren : ∀ T ∈ [qualified name nameLine], T.kind ≠ .assign :=
    List.forall_mem_singleton.mpr hassign
  refine (sound_node ?_ hfault ?_ (introduces_of_forall_ne hchildren)).shaped
  · exact List.forall_mem_singleton.mpr hsound
  · intro _ T hT hkind
    exact absurd hkind (hchildren T hT)

theorem rootError_naming_star (hk : k.holdsName = true) :
    (naming k text line "*" nameLine).rootError =
      some (.malformed k line "declaration has no qualified name") := by
  rw [rootError, fault_naming hk, if_pos rfl]
  rfl

end Term

namespace Tree

variable {t : Tree} {parent : Option Nat} {i line nameLine : Nat} {k : Kind} {text : Option String}
  {name : String} {T : Term}

/-- The node is the chain of the segments of the name, and it reads as the name. -/
structure Spells (t : Tree) (i : Nat) (name : String) (line : Nat) : Prop where
  chain : ∃ pieces T, Text.Cut '.' name.toList pieces ∧ Chain line pieces T ∧ t.Unfolds i T
  reads : t.dottedName i = name

theorem Holds.spells (h : Holds t parent i (.qualified name line)) : t.Spells i name line where
  chain := ⟨_, _, Text.cut_segments '.' name.toList, chain_qualified name line, h.unfolds⟩
  reads := h.dottedName_qualified

theorem Holds.findFirst_only {asked : Kind} (h : Holds t parent i (.node k text line [T]))
    (hk : k ≠ asked) : t.findFirst asked i = t.findFirst asked (i + 1) := by
  have hkind : t.kind i = k := h.kind
  have hchildren : t.children i = [i + 1] := h.children
  have hsize := h.below.1.lt_size
  rw [findFirst, if_neg (by rwa [hkind]), hchildren, List.findSome?_singleton,
    if_pos ⟨Nat.lt_succ_self i, hsize⟩]

theorem findFirst_childless {asked : Kind} (hk : t.kind i ≠ asked) (h : t.children i = []) :
    t.findFirst asked i = none := by
  rw [findFirst, if_neg hk, h, List.findSome?_nil]

theorem Holds.text_qualified (h : Holds t parent i (.qualified name line))
    (hdot : t.kind i ≠ .dot) : t.text i = some name := by
  rcases Term.qualified_cases name line with hkind | hsegment
  · exact absurd (h.kind.trans hkind) hdot
  · rw [h.text, hsegment, (Term.label_segment name.toList line).2, String.ofList_toList]

theorem Holds.qualifiedName_naming (h : Holds t parent i (.naming k text line name nameLine))
    (hk : k.holdsName = true) (hname : name ≠ "*") : t.qualifiedName i = .ok name := by
  have hchild := h.below.1
  have hread := hchild.dottedName_qualified
  have haccepts : t.kind i ∈ Query.qualifiedName.accepts := by
    have hkind : t.kind i = k := h.kind
    rw [hkind]
    revert hk
    cases k <;> simp [Kind.holdsName, Query.accepts]
  have hdot : k ≠ .dot := by
    rintro rfl
    cases hk
  have hident : k ≠ .ident := by
    rintro rfl
    cases hk
  rw [qualifiedName, check_of_accepts haccepts, h.findFirst_only hdot, h.findFirst_only hident]
  rcases Term.qualified_cases name nameLine with hq | hq
  · rw [findFirst, if_pos (hchild.kind.trans hq), ← hread]
    rfl
  · rcases Term.segment_eq name.toList nameLine with ⟨hstar, -⟩ | ⟨-, hsegment⟩
    · exact absurd (String.toList_inj.mp hstar) hname
    · rw [hq, hsegment, String.ofList_toList] at hchild
      have hkind : t.kind (i + 1) = .ident := hchild.kind
      rw [findFirst_childless (by rw [hkind]; decide) hchild.children, findFirst,
        if_pos hkind, Option.bind_some, hchild.text]
      rfl

theorem Holds.superClassName_naming {before after : List Term} {clauseLine : Nat}
    (h : Holds t parent i (.node .classDef text line
      (before ++ .naming .extendsClause none clauseLine name nameLine :: after)))
    (hbefore : ∀ T ∈ before, T.kind ≠ .extendsClause) :
    t.superClassName i = .ok (some name) := by
  have hbelow := h.below
  have hchildren := h.children
  rw [Term.children] at hbelow hchildren
  rw [Term.places_append, Term.places] at hchildren
  obtain ⟨hfirst, hclause, -⟩ := holdsAll_append.mp hbelow
  have hkind : t.kind (i + 1 + Term.sizeAll before) = .extendsClause := hclause.kind
  have hfind : t.findChild i .extendsClause = some (i + 1 + Term.sizeAll before) := by
    have hnone : (Term.places (i + 1) before).find? (t.kind · = .extendsClause) = none := by
      rw [List.find?_eq_none]
      intro c hc
      obtain ⟨T, hT, hold, -⟩ := hfirst.of_mem_places hc
      simpa [hold.kind] using hbefore T hT
    rw [findChild, hchildren, List.find?_append, hnone, Option.none_or]
    exact List.find?_cons_of_pos (decide_eq_true hkind)
  have hnamed := hclause.below.1
  have hread := hnamed.dottedName_qualified
  have haccepts : t.kind i ∈ Query.superClassName.accepts := by
    rw [h.kind, Term.kind]
    decide
  have htarget : t.firstChild (i + 1 + Term.sizeAll before) =
      some (i + 1 + Term.sizeAll before + 1) := by
    rw [firstChild, child_eq_getElem?, hclause.children]
    rfl
  rw [superClassName, check_of_accepts haccepts, hfind, Option.bind_some, htarget, Option.bind_some]
  split
  · rw [hread]
    rfl
  · next hdot =>
    rw [hnamed.text_qualified hdot]
    rfl

/-- A term that is written in the middle of accepted steps fills a gap of the whole, and another one
written in its place fills the same gap. -/
theorem exists_context_of_middle {before middle after : List Step}
    (hT : Bracket.word middle = T.word) (h : ofSteps (before ++ (middle ++ after)) = .ok t) :
    ∃ C : Context, C.place = (Bracket.word before).countP Bracket.isOpening ∧
      (C.plug T).WellShaped ∧ t = (C.plug T).tree ∧
      ∀ middle' U, Bracket.word middle' = U.word →
        Bracket.word (before ++ (middle' ++ after)) = (C.plug U).word := by
  obtain ⟨W, hW, hword, rfl⟩ := exists_term_of_ofSteps h
  rw [Bracket.word_append, Bracket.word_append, hT] at hword
  obtain ⟨C, hplace, rfl, hother⟩ := Term.exists_context hword
  refine ⟨C, hplace, hW, rfl, fun middle' U hU => ?_⟩
  rw [Bracket.word_append, Bracket.word_append, hU, hother]

theorem exists_holds_of_middle {before middle after : List Step}
    (hT : Bracket.word middle = T.word) (h : ofSteps (before ++ (middle ++ after)) = .ok t) :
    ∃ q, Holds t q ((Bracket.word before).countP Bracket.isOpening) T := by
  obtain ⟨C, hplace, -, rfl, -⟩ := exists_context_of_middle hT h
  rw [← hplace, ← Nat.zero_add C.place]
  exact Context.exists_holds_of_plug (holds_tree _)

theorem exists_ofSteps_naming {before after : List Step} {other : String}
    (h : ofSteps (before ++ (Step.naming k text line other nameLine ++ after)) = .ok t)
    (hk : k.Takes name) :
    ∃ t', ofSteps (before ++ (Step.naming k text line name nameLine ++ after)) = .ok t' := by
  obtain ⟨C, -, hC, -, hother⟩ := exists_context_of_middle (Term.word_naming ..) h
  have hnaming : (Term.naming k text line name nameLine).WellShaped :=
    Term.wellShaped_naming (Term.fault_naming_of_takes hk)
  exact ⟨_, ofSteps_of_wellShaped (hother _ _ (Term.word_naming ..))
    (Context.wellShaped_plug hC rfl rfl hnaming)⟩

theorem ofSteps_naming_star {before after : List Step} {other : String}
    (h : ofSteps (before ++ (Step.naming k text line other nameLine ++ after)) = .ok t)
    (hk : k.holdsName = true) :
    ofSteps (before ++ (Step.naming k text line "*" nameLine ++ after)) =
      .error (.malformed k line "declaration has no qualified name") := by
  obtain ⟨C, -, hC, -, hother⟩ := exists_context_of_middle (Term.word_naming ..) h
  have hstar : (Term.naming k text line "*" nameLine).rootError =
      some (.malformed k line "declaration has no qualified name") :=
    Term.rootError_naming_star hk
  have hfind : (C.plug (.naming k text line "*" nameLine)).subterms.findSome? Term.rootError =
      some (.malformed k line "declaration has no qualified name") := by
    refine Context.findSome?_plug (U := .naming k text line "*" nameLine) hC rfl rfl
      ⟨_, List.mem_cons_self, hstar⟩ ?_
    intro V hV
    rw [Term.naming, Term.qualified_star, Term.subterms, List.mem_cons] at hV
    rcases hV with rfl | hV
    · exact .inr hstar
    · left
      rw [Term.subtermsAll, Term.subtermsAll, List.append_nil, Term.token, Term.subterms,
        Term.subtermsAll, List.mem_singleton] at hV
      rw [hV]
      rfl
  rw [ofSteps_of_word (hother _ _ (Term.word_naming ..)), hfind]

/-- A name comes back from the tree as it was given to the builder, whatever stands between its
dots. A node that takes the name is accepted with it as its only child, alone and wherever the
steps are accepted with some other name there; the child is a chain with a leaf for each segment
and reads as the name, and the name of a declaration is read off it. A declaration of a lone star
is malformed. And wherever a name is written, there it can be read. -/
theorem dotted_names_round_trip (name : String) (k : Kind) (text : Option String)
    (line nameLine : Nat) :
    (k.Takes name →
      ∃ t, ofSteps (Step.naming k text line name nameLine) = .ok t ∧ t.children root = [1] ∧
        t.Spells 1 name nameLine ∧ (k.holdsName = true → t.qualifiedName root = .ok name)) ∧
    (k.holdsName = true → ofSteps (Step.naming k text line "*" nameLine) =
      .error (.malformed k line "declaration has no qualified name")) ∧
    (∀ before after n, n = (Bracket.word before).countP Bracket.isOpening →
      (∀ t, ofSteps (before ++ (Step.naming k text line name nameLine ++ after)) = .ok t →
        t.kind n = k ∧ t.children n = [n + 1] ∧ t.Spells (n + 1) name nameLine ∧
          (k.holdsName = true → name ≠ "*" ∧ t.qualifiedName n = .ok name)) ∧
      (∀ t, ofSteps (before ++ (.qualified name nameLine :: after)) = .ok t →
        t.Spells n name nameLine) ∧
      ∀ other t, ofSteps (before ++ (Step.naming k text line other nameLine ++ after)) = .ok t →
        (k.Takes name →
          ∃ t', ofSteps (before ++ (Step.naming k text line name nameLine ++ after)) = .ok t') ∧
        (k.holdsName = true →
          ofSteps (before ++ (Step.naming k text line "*" nameLine ++ after)) =
            .error (.malformed k line "declaration has no qualified name"))) := by
  refine ⟨?_, ?_, ?_⟩
  · intro hk
    have hnaming : (Term.naming k text line name nameLine).WellShaped :=
      Term.wellShaped_naming (Term.fault_naming_of_takes hk)
    have hholds := holds_tree (Term.naming k text line name nameLine)
    refine ⟨_, ofSteps_of_wellShaped (Term.word_naming ..) hnaming, hholds.children,
      hholds.below.1.spells, fun hholder => ?_⟩
    rcases hk with ⟨-, hname⟩ | hshapeless
    · exact hholds.qualifiedName_naming hholder hname
    · revert hholder hshapeless
      cases k <;> exact nofun
  · intro hk
    have hx : k.Takes "" := .inl ⟨hk, by decide⟩
    have hnaming : (Term.naming k text line "" nameLine).WellShaped :=
      Term.wellShaped_naming (Term.fault_naming_of_takes hx)
    have hok := ofSteps_of_wellShaped (Term.word_naming ..) hnaming
    rw [← List.nil_append (Step.naming ..), ← List.append_nil (Step.naming ..)] at hok ⊢
    exact ofSteps_naming_star hok hk
  · rintro before after n rfl
    refine ⟨fun t ht => ?_, fun t ht => ?_, fun other t ht => ⟨exists_ofSteps_naming ht,
      ofSteps_naming_star ht⟩⟩
    · obtain ⟨q, hq⟩ := exists_holds_of_middle (Term.word_naming ..) ht
      refine ⟨hq.kind, hq.children, hq.below.1.spells, fun hk => ?_⟩
      have hname : name ≠ "*" := by
        rintro rfl
        rw [ofSteps_naming_star ht hk] at ht
        cases ht
      exact ⟨hname, hq.qualifiedName_naming hk hname⟩
    · have hword : Bracket.word [.qualified name nameLine] =
          (Term.qualified name nameLine).word := by
        rw [Term.word_qualified, Bracket.word, List.flatMap_singleton]
        rfl
      obtain ⟨q, hq⟩ := exists_holds_of_middle hword ht
      exact hq.spells

theorem dotted_names_round_trip_degenerate :
    (∃ t, ofSteps (Step.naming .packageDef none 2 ".a..*" 2) = .ok t ∧
      t.qualifiedName root = .ok ".a..*") ∧
    ∃ t, ofSteps ([.start .compilationUnit none 1] ++ (Step.naming .packageDef none 2 ".a..*" 2 ++
        (Step.naming .extendsClause none 3 "*" 3 ++ [.finish]))) = .ok t ∧
      t.qualifiedName 1 = .ok ".a..*" ∧ t.children 9 = [10] ∧ t.dottedName 10 = "*" ∧
      ofSteps ([.start .compilationUnit none 1] ++ (Step.naming .packageDef none 2 "*" 2 ++
        (Step.naming .extendsClause none 3 "*" 3 ++ [.finish]))) =
        .error (.malformed .packageDef 2 "declaration has no qualified name") := by
  obtain ⟨hpackage, -, hanywhere⟩ := dotted_names_round_trip ".a..*" .packageDef none 2 2
  obtain ⟨-, -, hclause⟩ := dotted_names_round_trip "*" .extendsClause none 3 3
  constructor
  · obtain ⟨t, ht, -, -, hname⟩ := hpackage (.inl ⟨rfl, by decide⟩)
    exact ⟨t, ht, hname rfl⟩
  · have h : ∃ t, ofSteps ([.start .compilationUnit none 1] ++
        (Step.naming .packageDef none 2 ".a..*" 2 ++
          (Step.naming .extendsClause none 3 "*" 3 ++ [.finish]))) = .ok t := ⟨_, rfl⟩
    obtain ⟨t, ht⟩ := h
    obtain ⟨hread, -, hchange⟩ := hanywhere [.start .compilationUnit none 1]
      (Step.naming .extendsClause none 3 "*" 3 ++ [.finish]) 1 rfl
    obtain ⟨-, -, -, hname⟩ := hread t ht
    obtain ⟨hread', -⟩ := hclause ([.start .compilationUnit none 1] ++
      Step.naming .packageDef none 2 ".a..*" 2) [.finish] 9 rfl
    obtain ⟨-, hchildren, hspells, -⟩ := hread' t ht
    exact ⟨t, ht, (hname rfl).2, hchildren, hspells.reads, (hchange _ t ht).2 rfl⟩

end Tree

end ArchLint.Syntax
