import ArchLint.Proofs.Java.Legality
import ArchLint.Proofs.Java.Pending
import ArchLint.Proofs.Java.Sites

/-!
# Trees without their comments

Two trees differ only in comments if they are the same once the comments are taken out. Most
questions that the lowering asks about the children of a node overlook comments, so that a tree and
its bare form give the same answer. Two do not: which child names a generic type, and which is the
type of a spread parameter. There a comment in front of the type would be taken for it.
-/

namespace ArchLint.Java

def Kind.isWritten (k : Kind) : Bool :=
  k.isLiteral || k matches .token | .identifier | .typeIdentifier | .underscorePattern |
    .integralType | .floatingPointType | .booleanType | .voidType

namespace Cst

mutual

def decEq : (c d : Cst) → Decidable (c = d)
  | .node kind field line text children, .node kind' field' line' text' children' =>
    match decEqAll children children' with
    | isTrue h => decidable_of_iff (kind = kind' ∧ field = field' ∧ line = line' ∧ text = text')
        (by simp [h])
    | isFalse h => isFalse fun heq => h (Cst.node.inj heq).2.2.2.2

def decEqAll : (cs ds : List Cst) → Decidable (cs = ds)
  | [], [] => isTrue rfl
  | [], _ :: _ | _ :: _, [] => isFalse nofun
  | c :: cs, d :: ds =>
    match decEq c d, decEqAll cs ds with
    | isTrue h, isTrue hs => isTrue (by rw [h, hs])
    | isFalse h, _ => isFalse fun heq => h (List.cons.inj heq).1
    | _, isFalse hs => isFalse fun heq => hs (List.cons.inj heq).2

end

instance : DecidableEq Cst := decEq

mutual

/-- The node without the comments inside it, and without the texts that its parts tell anyway. -/
def bare : Cst → Cst
  | .node kind field line text children =>
    .node kind field line (if kind.isWritten then text else "") (bareAll children)

def bareAll : List Cst → List Cst
  | [] => []
  | c :: cs => if c.isComment then bareAll cs else bare c :: bareAll cs

end

def opensWithType (c : Cst) : Bool :=
  (c.children.takeWhile fun d => d.kind ∉ Grammar.plainTypes).all fun d => !d.isComment

/-- In generic types and in spread parameters no comment stands in front of the type. -/
def clearsTypes (c : Cst) : Bool :=
  c.everywhere fun d => d.kind ∉ [.genericType, .spreadParameter] || d.opensWithType

def clearsGenerics (c : Cst) : Bool :=
  c.everywhere fun d => d.kind ≠ .genericType || d.opensWithType

/-- A conforming tree in which no comment can be taken for a type. -/
structure Tidy (c : Cst) : Prop where
  conforms : c.conforms = true
  clear : c.clearsTypes = true

variable {c d : Cst} {f : Field} {p : Cst → Bool}

@[simp] theorem kind_bare (c : Cst) : c.bare.kind = c.kind := by
  cases c
  rfl

@[simp] theorem field_bare (c : Cst) : c.bare.field = c.field := by
  cases c
  rfl

@[simp] theorem line_bare (c : Cst) : c.bare.line = c.line := by
  cases c
  rfl

theorem text_bare (h : c.kind.isWritten = true) : c.bare.text = c.text := by
  cases c
  exact if_pos h

theorem bareAll_eq (cs : List Cst) :
    bareAll cs = (cs.filter fun d => !d.isComment).map bare := by
  induction cs with
  | nil => rfl
  | cons c cs ih =>
    rw [bareAll, ih, List.filter_cons]
    cases c.isComment <;> rfl

theorem children_bare (c : Cst) : c.bare.children = c.parts.map bare := by
  obtain ⟨kind, field, line, text, children⟩ := c
  exact bareAll_eq children

@[simp] theorem isComment_bare (c : Cst) : c.bare.isComment = c.isComment := by
  rw [isComment, isComment, kind_bare]

@[simp] theorem isNamed_bare (c : Cst) : c.bare.isNamed = c.isNamed := by
  rw [isNamed, isNamed, kind_bare]

@[simp] theorem isAnnotating_bare (c : Cst) : c.bare.isAnnotating = c.isAnnotating := by
  rw [isAnnotating, isAnnotating, kind_bare]

namespace Tidy

theorem child (hc : c.Tidy) (hd : d ∈ c.children) : d.Tidy :=
  ⟨conforms_child hc.conforms hd, (everywhere_iff.mp hc.clear).2 d hd⟩

theorem get? (hc : c.Tidy) (hd : c.get? f = some d) : d.Tidy :=
  hc.child (mem_of_get? hd).1

theorem named (hc : c.Tidy) (hd : d ∈ c.named) : d.Tidy :=
  hc.child (List.mem_filter.mp hd).1

theorem opensWithType (hc : c.Tidy) (hk : c.kind ∈ [.genericType, .spreadParameter]) :
    c.opensWithType = true := by
  have h := (everywhere_iff.mp hc.clear).1
  rw [Bool.or_eq_true] at h
  exact h.resolve_left fun hout => of_decide_eq_true hout hk

end Tidy

/-- No comment is an answer to the question, and children answer it as they do without comments. -/
structure Overlooks (c : Cst) (p : Cst → Bool) : Prop where
  comment : ∀ d ∈ c.children, d.isComment = true → p d = false
  bare : ∀ d ∈ c.children, p d.bare = p d

theorem Overlooks.filter_parts (h : c.Overlooks p) : c.parts.filter p = c.children.filter p := by
  rw [parts, List.filter_filter]
  refine List.filter_congr fun d hd => ?_
  cases hcomment : d.isComment with
  | false => simp
  | true => simp [h.comment d hd hcomment]

theorem Overlooks.filter_children (h : c.Overlooks p) :
    c.bare.children.filter p = (c.children.filter p).map Cst.bare := by
  rw [children_bare, List.filter_map, ← h.filter_parts]
  refine congrArg _ (List.filter_congr fun d hd => ?_)
  exact h.bare d (List.mem_filter.mp hd).1

theorem Overlooks.find?_children (h : c.Overlooks p) :
    c.bare.children.find? p = (c.children.find? p).map Cst.bare := by
  rw [← List.head?_filter, h.filter_children, List.head?_map, List.head?_filter]

theorem Overlooks.any_children (h : c.Overlooks p) : c.bare.children.any p = c.children.any p := by
  have hfound := congrArg Option.isSome h.find?_children
  rwa [Option.isSome_map, List.isSome_find?, List.isSome_find?] at hfound

theorem overlooks_kind (c : Cst) {q : Kind → Bool} (hline : q .lineComment = false)
    (hblock : q .blockComment = false) : c.Overlooks fun d => q d.kind := by
  constructor
  · intro d _ hcomment
    rcases Kind.isComment_iff.mp hcomment with hk | hk
    · simp [hk, hline]
    · simp [hk, hblock]
  · intro d _
    rw [kind_bare]

theorem overlooks_token (c : Cst) (mark : String) :
    c.Overlooks fun d => d.kind = .token && d.text == mark := by
  constructor
  · intro d _ hcomment
    rcases Kind.isComment_iff.mp hcomment with hk | hk <;> simp [hk]
  · intro d _
    rw [kind_bare]
    by_cases hk : d.kind = .token
    · rw [text_bare (by rw [hk]; rfl)]
    · simp [hk]

theorem overlooks_role (hc : c.conforms = true) (f : Field) :
    c.Overlooks fun d => d.field = some f := by
  constructor
  · intro d hd hcomment
    rw [decide_eq_false_iff_not]
    intro hf
    rw [isComment_of_field hc hd hf] at hcomment
    cases hcomment
  · intro d _
    rw [field_bare]

theorem get?_bare (hc : c.conforms = true) (f : Field) :
    c.bare.get? f = (c.get? f).map Cst.bare :=
  (overlooks_role hc f).find?_children

theorem isComment_of_get? (hc : c.conforms = true) (hd : c.get? f = some d) :
    d.isComment = false :=
  isComment_of_field hc (mem_of_get? hd).1 (mem_of_get? hd).2

theorem getAll_bare (hc : c.conforms = true) (f : Field) :
    c.bare.getAll f = (c.getAll f).map Cst.bare :=
  (overlooks_role hc f).filter_children

theorem named_bare (c : Cst) :
    c.bare.named = (c.named.filter fun d => !d.isComment).map Cst.bare := by
  rw [named, children_bare, List.filter_map, parts, named, List.filter_filter, List.filter_filter]
  refine congrArg _ (List.filter_congr fun d _ => ?_)
  simp [Bool.and_comm]

theorem filter_named_bare (c : Cst) {q : Kind → Bool} (hline : q .lineComment = false)
    (hblock : q .blockComment = false) :
    (c.bare.named.filter fun d => q d.kind) =
      (c.named.filter fun d => q d.kind).map Cst.bare := by
  rw [named, named, List.filter_filter, List.filter_filter]
  exact (c.overlooks_kind (q := fun k => q k && k ≠ .token) (by simp [hline])
    (by simp [hblock])).filter_children

theorem find?_named_bare (c : Cst) {q : Kind → Bool} (hline : q .lineComment = false)
    (hblock : q .blockComment = false) :
    (c.bare.named.find? fun d => q d.kind) = (c.named.find? fun d => q d.kind).map Cst.bare := by
  rw [← List.head?_filter, filter_named_bare c hline hblock, List.head?_map, List.head?_filter]

/-- A child is a comment or of one of the kinds that the grammar has there. -/
theorem isComment_or_of_slots {q : Kind → Bool} (hc : c.conforms = true)
    (h : ((Grammar.content c.kind).slots.all fun s => s.kinds.all q) = true)
    (hd : d ∈ c.children) : d.isComment = true ∨ q d.kind = true := by
  rcases exists_slot_of_mem (fits_parts hc) hd with hcomment | ⟨s, hs, -, hkind⟩
  · exact .inl hcomment
  · exact .inr (List.all_eq_true.mp (List.all_eq_true.mp h s hs) d.kind hkind)

theorem isComment_of_find? (hc : c.opensWithType = true)
    (hp : ∀ d, d.kind ∈ Grammar.plainTypes → p d = true) (hd : c.children.find? p = some d) :
    d.isComment = false := by
  obtain ⟨-, before, after, hchildren, hbefore⟩ := List.find?_eq_some_iff_append.mp hd
  by_cases hk : d.kind ∈ Grammar.plainTypes
  · revert hk
    unfold isComment
    cases d.kind <;> decide
  · rw [Cst.opensWithType, List.all_eq_true] at hc
    have hmem : d ∈ c.children.takeWhile fun d => d.kind ∉ Grammar.plainTypes := by
      rw [hchildren, List.takeWhile_append_of_pos]
      · rw [List.takeWhile_cons_of_pos (by simpa using hk)]
        exact List.mem_append_right _ List.mem_cons_self
      · intro e he
        have hne := hbefore e he
        simp only [decide_eq_true_eq]
        intro hek
        rw [hp e hek] at hne
        cases hne
    simpa using hc d hmem

/-- The search finds what it finds without the comments. -/
theorem find?_children_of_opensWithType (hc : c.opensWithType = true)
    (hp : ∀ d, d.kind ∈ Grammar.plainTypes → p d = true) (hbare : ∀ d, p d.bare = p d) :
    c.children.find? p = c.parts.find? p ∧
      c.bare.children.find? p = (c.children.find? p).map Cst.bare := by
  have hparts : c.children.find? p = c.parts.find? p := by
    rw [parts]
    cases hd : c.children.find? p with
    | none =>
      rw [List.find?_eq_none] at hd
      exact (List.find?_eq_none.mpr fun d hmem => hd d (List.mem_filter.mp hmem).1).symm
    | some d =>
      have hcomment := isComment_of_find? hc hp hd
      obtain ⟨hpd, before, after, hchildren, hbefore⟩ := List.find?_eq_some_iff_append.mp hd
      refine (List.find?_eq_some_iff_append.mpr ⟨hpd, before.filter fun d => !d.isComment,
        after.filter fun d => !d.isComment, ?_, ?_⟩).symm
      · rw [hchildren, List.filter_append, List.filter_cons, hcomment]
        rfl
      · exact fun e he => hbefore e (List.mem_filter.mp he).1
  refine ⟨hparts, ?_⟩
  rw [children_bare, List.find?_map, hparts]
  congr 2
  funext d
  exact hbare d

def isSpreadType (d : Cst) : Bool :=
  d.isNamed = true ∧ (!(d.kind matches .modifiers | .variableDeclarator)) = true

open Content in
/-- The type of a spread parameter is where the grammar puts it. -/
theorem exists_type_of_spread (hc : c.Tidy) (hk : c.kind = .spreadParameter) :
    ∃ type, Plan.parameterType c = some type ∧ type.kind ∈ Grammar.plainTypes ∧
      Plan.parameterType c.bare = some type.bare := by
  have hsearch (e : Cst) (he : e.kind = .spreadParameter) :
      Plan.parameterType e = e.children.find? isSpreadType := by
    rw [Plan.parameterType, he]
    exact List.find?_filter
  have hstops : ∀ d : Cst, d.kind ∈ Grammar.plainTypes → isSpreadType d = true := by
    intro d
    unfold isSpreadType isNamed
    cases d.kind <;> decide
  obtain ⟨hparts, hbare⟩ := find?_children_of_opensWithType (hc.opensWithType (by simp [hk])) hstops
    fun d => by simp [isSpreadType]
  have hfits := fits_parts hc.conforms
  rw [hk] at hfits
  replace hfits : Fits (.seq Grammar.modified (.seq (Content.node Grammar.plainTypes)
    (all [token "...", Grammar.annotated, Content.node [.variableDeclarator]]))) c.parts := hfits
  obtain ⟨before, after, hsplit, hbefore, hafter⟩ := fits_seq.mp hfits
  obtain ⟨types, rest, rfl, htypes, -⟩ := fits_seq.mp hafter
  obtain ⟨type, rfl, hadmits⟩ := fits_child.mp htypes
  have hplain : type.kind ∈ Grammar.plainTypes := (Slot.admits_iff.mp hadmits).2.1
  have hfound : c.parts.find? isSpreadType = some type := by
    rw [hsplit, List.find?_append, List.singleton_append,
      List.find?_cons_of_pos (hstops type hplain)]
    rcases fits_alt.mp hbefore with hnone | hsome
    · rw [fits_empty.mp hnone]
      rfl
    · obtain ⟨list, rfl, hadmits⟩ := fits_child.mp hsome
      have hlist : list.kind = .modifiers := List.mem_singleton.mp (Slot.admits_iff.mp hadmits).2.1
      simp [isSpreadType, hlist]
  rw [hsearch c hk, hsearch c.bare (c.kind_bare.trans hk), hbare, hparts, hfound]
  exact ⟨type, rfl, hplain, rfl⟩

def nameable : List Kind :=
  Grammar.types ++ Grammar.names ++ [.catchType]

def isSegment (k : Kind) : Bool :=
  k ≠ .token && !k.isAnnotating && !k.isComment

theorem firstTypeName_eq (cs : List Cst) :
    firstTypeName cs = ((cs.find? fun d => d.isNamed && d.kind ≠ .typeArguments).map
      typeName).getD "" := by
  induction cs with
  | nil => simp [firstTypeName]
  | cons c cs ih =>
    rw [firstTypeName, List.find?_cons, ih]
    cases c.isNamed && decide (c.kind ≠ .typeArguments) <;> rfl

theorem elementTypeName_eq (cs : List Cst) :
    elementTypeName cs = ((cs.find? fun d => d.field = some .element).map typeName).getD "" := by
  induction cs with
  | nil => simp [elementTypeName]
  | cons c cs ih =>
    rw [elementTypeName, List.find?_cons]
    split
    · next h => simp [h]
    · next h => simp [h, ih]

theorem hasTypePart_eq (cs : List Cst) : hasTypePart cs = cs.any fun d => isSegment d.kind := by
  induction cs with
  | nil => simp [hasTypePart]
  | cons c cs ih =>
    rw [hasTypePart, ih, List.any_cons]
    rfl

theorem lastTypeName_eq (cs : List Cst) :
    lastTypeName cs = ((cs.filter fun d => isSegment d.kind).getLast?.map typeName).getD "" := by
  induction cs with
  | nil => simp [lastTypeName]
  | cons c cs ih =>
    have hsegment : (c.isNamed && !c.isAnnotating && !c.isComment) = isSegment c.kind := rfl
    rw [lastTypeName, hasTypePart_eq, hsegment, List.filter_cons]
    cases hc : isSegment c.kind with
    | false => simpa using ih
    | true =>
      by_cases hany : (cs.any fun d => isSegment d.kind) = true
      · -- the last one is among the others
        have hne : (cs.filter fun d => isSegment d.kind) ≠ [] := by
          obtain ⟨d, hd, hseg⟩ := List.any_eq_true.mp hany
          exact List.ne_nil_of_mem (List.mem_filter.mpr ⟨hd, hseg⟩)
        simp only [hany, Bool.not_true, Bool.and_false, Bool.false_eq_true, if_false, if_true]
        rw [ih, List.getLast?_cons, List.getLast?_eq_some_getLast hne]
        rfl
      · have hnil : (cs.filter fun d => isSegment d.kind) = [] := by
          rw [List.filter_eq_nil_iff]
          intro d hd hseg
          exact hany (List.any_eq_true.mpr ⟨d, hd, hseg⟩)
        simp [hany, hnil]

theorem typeName_eq (c : Cst) :
    c.typeName = match c.kind with
      | .genericType => firstTypeName c.children
      | .scopedTypeIdentifier | .scopedIdentifier => ".".intercalate (segmentNames c.children)
      | .arrayType => elementTypeName c.children
      | .annotatedType | .catchType => lastTypeName c.children
      | _ => c.text := by
  obtain ⟨kind, field, line, text, children⟩ := c
  rw [typeName.eq_def]
  rfl

theorem kind_of_segment (hc : c.conforms = true)
    (hk : c.kind ∈ [.scopedTypeIdentifier, .scopedIdentifier, .annotatedType, .catchType])
    (hd : d ∈ c.children.filter fun d => isSegment d.kind) : d.kind ∈ nameable := by
  have hslots : ∀ k ∈ [Kind.scopedTypeIdentifier, .scopedIdentifier, .annotatedType, .catchType],
      ((Grammar.content k).slots.all fun s => s.kinds.all fun k =>
        !isSegment k || nameable.contains k) = true := by decide
  obtain ⟨hmem, hsegment⟩ := List.mem_filter.mp hd
  rcases isComment_or_of_slots hc (hslots c.kind hk) hmem with hcomment | hcase
  · rw [isComment] at hcomment
    simp [isSegment, hcomment] at hsegment
  · simpa [hsegment] using hcase

/-- The name of a type does not depend on comments. -/
theorem typeName_bare {c : Cst} (hc : c.Tidy) (hk : c.kind ∈ nameable) :
    c.bare.typeName = c.typeName := by
  have hinner : ∀ d ∈ c.children, d.kind ∈ nameable → d.bare.typeName = d.typeName :=
    fun d hd => typeName_bare (hc.child hd)
  have hsegments := (c.overlooks_kind (q := isSegment) rfl rfl).filter_children
  have hnames (hkind : c.kind ∈ [.scopedTypeIdentifier, .scopedIdentifier, .annotatedType,
      .catchType]) :
      ∀ d ∈ c.children.filter fun d => isSegment d.kind, d.bare.typeName = d.typeName :=
    fun d hd => hinner d (List.mem_filter.mp hd).1 (kind_of_segment hc.conforms hkind hd)
  rw [typeName_eq, typeName_eq, kind_bare]
  cases hkind : c.kind with
  | genericType =>
    have hopens := hc.opensWithType (by simp [hkind])
    have hstops : ∀ d : Cst, d.kind ∈ Grammar.plainTypes →
        (d.isNamed && d.kind ≠ .typeArguments) = true := by
      intro d
      unfold isNamed
      cases d.kind <;> decide
    have hfind := (find?_children_of_opensWithType hopens hstops fun d => by simp).2
    simp only [firstTypeName_eq, hfind, Option.map_map]
    refine congrArg (Option.getD · "") (Option.map_congr fun d hd => ?_)
    have hmem := List.mem_of_find?_eq_some hd
    have hfound := List.find?_some hd
    have hslots : ((Grammar.content c.kind).slots.all fun s => s.kinds.all fun k =>
        k = .typeArguments || nameable.contains k) = true := by
      rw [hkind]
      decide
    rcases isComment_or_of_slots hc.conforms hslots hmem with hcomment | hcase
    · rw [isComment_of_find? hopens hstops hd] at hcomment
      cases hcomment
    · rw [Bool.and_eq_true, decide_eq_true_eq] at hfound
      exact hinner d hmem (by simpa [hfound.2] using hcase)
  | scopedTypeIdentifier | scopedIdentifier =>
    have hlist := hnames (by simp [hkind])
    have hsame : segmentNames c.bare.children = segmentNames c.children := by
      rw [segmentNames_eq, segmentNames_eq]
      exact (congrArg _ hsegments).trans (List.map_map.trans (List.map_congr_left hlist))
    exact congrArg ".".intercalate hsame
  | arrayType =>
    have hget := get?_bare hc.conforms .element
    simp only [elementTypeName_eq]
    rw [get?] at hget
    rw [hget, Option.map_map]
    refine congrArg (Option.getD · "") (Option.map_congr fun d hd => ?_)
    have hkinds : ∀ k ∈ Grammar.kindsIn .arrayType (some .element), k ∈ nameable := by decide
    have hchild := kind_of_get? hc.conforms hd
    rw [hkind] at hchild
    exact hinner d (mem_of_get? hd).1 (hkinds d.kind hchild)
  | annotatedType | catchType =>
    have hlist := hnames (by simp [hkind])
    simp only [lastTypeName_eq, hsegments, List.getLast?_map, Option.map_map]
    refine congrArg (Option.getD · "") (Option.map_congr fun d hd => ?_)
    exact hlist d (List.mem_of_getLast? hd)
  | integralType | floatingPointType | booleanType | voidType | typeIdentifier | identifier =>
    exact text_bare (by rw [hkind]; rfl)
  | _ =>
    rw [hkind] at hk
    exact absurd hk (by decide)
termination_by c.weight
decreasing_by exact weight_lt_of_mem_children hd

end Cst

end ArchLint.Java
