import ArchLint.Proofs.Syntax.Navigation
import ArchLint.Proofs.Syntax.Soundness

/-!
# What stands below what

In the tree of a Java source some kinds of node occur in few places. `Kind.admits` lists them, a
term is arranged if all its nodes keep to the list, and in the tree of an arranged term the list
decides what the parent of a node can be.
-/

namespace ArchLint.Syntax

def Kind.isClause (k : Kind) : Bool :=
  k matches .extendsClause | .implementsClause

def Kind.isNaming (k : Kind) : Bool :=
  k matches .ident | .dot | .star

def Kind.isMember (k : Kind) : Bool :=
  k matches .variableDef | .methodDef | .ctorDef | .classDef | .interfaceDef | .enumDef | .slist |
    .other

def Kind.headsClass (k : Kind) : Bool :=
  k matches .modifiers | .ident | .extendsClause | .implementsClause | .objBlock

/-- A node of the first kind may have a child of the second. Elsewhere anything goes but
parameters, which stand in a list under what takes them, or in a clause that catches. -/
def Kind.admits : Kind → Kind → Bool
  | .classDef, k => k.headsClass
  | .objBlock, k => k.isMember
  | .extendsClause, k | .implementsClause, k => k.isNaming
  | .ident, _ => false
  | .parameters, k => k = .parameterDef
  | .methodDef, k | .ctorDef, k | .lambda, k => k ≠ .parameterDef
  | .other, k => k ≠ .parameters
  | _, k => k ≠ .parameterDef && k ≠ .parameters

namespace Term

/-- All nodes stand where their kind allows, and clauses hold names only. -/
structure Arranged (T : Term) : Prop where
  admitted : ∀ U ∈ T.subterms, ∀ V ∈ U.children, U.kind.admits V.kind = true
  clause : ∀ U ∈ T.subterms, U.kind.isClause = true → ∀ V ∈ U.children, ∃ name line,
    V = qualified name line

theorem arranged_node {kind : Kind} {text : Option String} {line : Nat} {children : List Term}
    (hchildren : ∀ T ∈ children, T.Arranged) (hkinds : ∀ T ∈ children, kind.admits T.kind = true)
    (hclause : kind.isClause = true → ∀ T ∈ children, ∃ name line, T = qualified name line) :
    (node kind text line children).Arranged := by
  constructor
  · intro U hU
    rw [subterms, List.mem_cons, mem_subtermsAll] at hU
    rcases hU with rfl | ⟨T, hT, hU⟩
    · exact hkinds
    · exact (hchildren T hT).admitted U hU
  · intro U hU
    rw [subterms, List.mem_cons, mem_subtermsAll] at hU
    rcases hU with rfl | ⟨T, hT, hU⟩
    · exact hclause
    · exact (hchildren T hT).clause U hU

theorem arranged_childless (kind : Kind) (text : Option String) (line : Nat) :
    (node kind text line []).Arranged :=
  arranged_node (List.forall_mem_nil _) (List.forall_mem_nil _) fun _ => List.forall_mem_nil _

/-- A term that is a name through and through. -/
structure Names (T : Term) : Prop where
  arranged : T.Arranged
  naming : ∀ U ∈ T.subterms, U.kind.isNaming = true

theorem Names.kind {T : Term} (h : T.Names) : T.kind.isNaming = true := by
  refine h.naming T ?_
  cases T
  exact List.mem_cons_self

theorem names_segment (name : List Char) (line : Nat) : (segment name line).Names := by
  have hleaf (kind : Kind) (text : String) (hk : kind.isNaming = true) :
      (token kind text line).Names := by
    refine ⟨arranged_childless kind _ line, fun U hU => ?_⟩
    rw [List.mem_singleton.mp hU]
    exact hk
  rcases segment_eq name line with ⟨-, h⟩ | ⟨-, h⟩
  · rw [h]
    exact hleaf .star _ rfl
  · rw [h]
    exact hleaf .ident _ rfl

theorem names_dot {inner : Term} (hinner : inner.Names) (name : List Char) (line : Nat) :
    (node .dot none line [inner, segment name line]).Names := by
  have hsegment := names_segment name line
  have hopen : ∀ k : Kind, k.isNaming = true → Kind.dot.admits k = true := by
    intro k
    cases k <;> decide
  constructor
  · refine arranged_node ?_ ?_ nofun
    · intro T hT
      rcases List.mem_pair.mp hT with rfl | rfl
      · exact hinner.arranged
      · exact hsegment.arranged
    · intro T hT
      rcases List.mem_pair.mp hT with rfl | rfl
      · exact hopen _ hinner.kind
      · exact hopen _ hsegment.kind
  · intro U hU
    rw [subterms, List.mem_cons, mem_subtermsAll] at hU
    rcases hU with rfl | ⟨T, hT, hU⟩
    · rfl
    · rcases List.mem_pair.mp hT with rfl | rfl
      · exact hinner.naming U hU
      · exact hsegment.naming U hU

theorem names_qualified (name : String) (line : Nat) : (qualified name line).Names := by
  have hfoldl (rest : List (List Char)) {inner : Term} (hinner : inner.Names) :
      (rest.foldl (fun inner s => node .dot none line [inner, segment s line]) inner).Names := by
    induction rest generalizing inner with
    | nil => exact hinner
    | cons s rest ih => exact ih (names_dot hinner s line)
  rw [qualified]
  split
  · exact names_segment [] line
  · next first rest _ => exact hfoldl rest (names_segment first line)

end Term

namespace Tree

variable {t : Tree} {T : Term} {b d p : Nat}

theorem IsLayout.admits_of_parent (h : t.IsLayout T) (hT : T.Arranged) (hp : t.parent d = some p) :
    (t.kind p).admits (t.kind d) = true := by
  obtain ⟨q, U, hU, hp, V, hV, hd⟩ := h.exists_placed hp
  rw [hp.kind, hd.kind]
  exact hT.admitted U hU V hV

theorem IsLayout.isNaming_of_above (h : t.IsLayout T) (hT : T.Arranged)
    (hb : (t.kind b).isClause = true) (hd : t.Above b d) : (t.kind d).isNaming = true := by
  have hsize := Nat.lt_trans (h.above_lt hd) hd.lt_size
  obtain ⟨q, U, hU, hholds⟩ := h.exists_subterm hsize
  obtain ⟨hlt, hle⟩ := (h.above_iff_lt hholds).mp hd
  rw [size_eq_succ U] at hle
  obtain ⟨q', V, hV, hdV⟩ := hholds.below.exists_subterm (Nat.succ_le_of_lt hlt) (by omega)
  obtain ⟨W, hW, hVW⟩ := Term.mem_subtermsAll.mp hV
  rw [hholds.kind] at hb
  obtain ⟨name, line, rfl⟩ := hT.clause U hU hb W hW
  rw [hdV.kind]
  exact (Term.names_qualified name line).naming V hVW

theorem Above.exists_child (h : t.Above b d) :
    ∃ c, t.parent c = some b ∧ (c = d ∨ t.Above c d) := by
  induction h with
  | @parent d hp => exact ⟨d, hp, .inl rfl⟩
  | @further p d hp _ ih =>
    obtain ⟨c, hc, rfl | hcp⟩ := ih
    · exact ⟨c, hc, .inr (.parent hp)⟩
    · exact ⟨c, hc, .inr (.further hp hcp)⟩

end Tree

end ArchLint.Syntax
