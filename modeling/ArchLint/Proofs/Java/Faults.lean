import ArchLint.Java

/-!
# The first fault

The search for a fault keeps a row of trees that are still to be searched and passes over those that
contain none. What it passes over holds nothing to be found, so it finds what a search through all
nodes in pre-order finds, and a source with a fault is refused at the line of the first one.
-/

namespace ArchLint.Java

namespace Cst

mutual

def nodes : Cst → List Cst
  | .node k f l t cs => .node k f l t cs :: nodesAll cs

def nodesAll : List Cst → List Cst
  | [] => []
  | c :: cs => nodes c ++ nodesAll cs

end

def isFault (c : Cst) : Bool :=
  c.kind.isFault

/-- `d` is a fault in `c`, and no node in front of it is one. -/
structure FirstFault (c d : Cst) : Prop where
  fault : d.isFault = true
  first : ∃ before after, c.nodes = before ++ d :: after ∧ ∀ b ∈ before, b.isFault = false

theorem nodes_eq (c : Cst) : c.nodes = c :: nodesAll c.children := by
  cases c
  rw [nodes, children]

theorem nodesAll_append (cs ds : List Cst) : nodesAll (cs ++ ds) = nodesAll cs ++ nodesAll ds := by
  induction cs with
  | nil => rfl
  | cons c cs ih => rw [List.cons_append, nodesAll, nodesAll, ih, List.append_assoc]

variable {c d : Cst} {n : Nat}

theorem firstFault_iff : c.FirstFault d ↔ c.nodes.find? isFault = some d := by
  constructor
  · rintro ⟨hfault, before, after, hnodes, hbefore⟩
    apply List.find?_eq_some_iff_append.mpr
    refine ⟨hfault, before, after, hnodes, ?_⟩
    intro b hb
    rw [hbefore b hb]
    rfl
  · intro h
    obtain ⟨hfault, before, after, hnodes, hbefore⟩ := List.find?_eq_some_iff_append.mp h
    refine ⟨hfault, before, after, hnodes, ?_⟩
    intro b hb
    simpa using hbefore b hb

mutual

theorem hasFault_iff : ∀ {c : Cst}, c.hasFault = true ↔ ∃ d ∈ c.nodes, d.isFault = true
  | .node k f l t cs => by
    rw [hasFault, nodes, Bool.or_eq_true, anyFault_iff]
    simp [isFault, kind]

theorem anyFault_iff : ∀ {cs : List Cst}, anyFault cs = true ↔ ∃ d ∈ nodesAll cs, d.isFault = true
  | [] => by
    simp [anyFault, nodesAll]
  | c :: cs => by
    rw [anyFault, nodesAll, Bool.or_eq_true, hasFault_iff, anyFault_iff]
    simp only [List.mem_append, or_and_right, exists_or]

end

theorem find?_nodes_of_not_hasFault (h : ¬ c.hasFault = true) : c.nodes.find? isFault = none := by
  apply List.find?_eq_none.mpr
  intro d hd hfault
  exact h (hasFault_iff.mpr ⟨d, hd, hfault⟩)

/-- Whatever is still to be searched, the search finds in it what the full search finds among all
nodes of it. -/
theorem firstFaultAmong_eq (pending : List Cst) :
    firstFaultAmong pending = ((nodesAll pending).find? isFault).map line := by
  fun_induction firstFaultAmong pending with
  | case1 => rfl
  | case2 c rest hfault =>
    have hfound : (nodesAll (c :: rest)).find? isFault = some c := by
      rw [nodesAll, nodes_eq]
      exact List.find?_cons_of_pos hfault
    rw [hfound, Option.map_some]
  | case3 c rest hfault hinside ih =>
    -- the node itself is no fault, and right behind it come the nodes of its children
    have honward : (nodesAll (c :: rest)).find? isFault =
        (nodesAll (c.children ++ rest)).find? isFault := by
      rw [nodesAll, nodes_eq, nodesAll_append]
      exact List.find?_cons_of_neg hfault
    rw [ih, honward]
  | case4 c rest hfault hclean ih =>
    have hpassed : (nodesAll (c :: rest)).find? isFault = (nodesAll rest).find? isFault := by
      rw [nodesAll, List.find?_append, find?_nodes_of_not_hasFault hclean, Option.none_or]
    rw [ih, hpassed]

theorem firstFaultLine_eq (c : Cst) : c.firstFaultLine = (c.nodes.find? isFault).map line := by
  rw [firstFaultLine, firstFaultAmong_eq, nodesAll, nodesAll, List.append_nil]

example : firstFaultLine (.node .program none 1 "" [.node .token none 1 "" [],
    .node .block none 2 "" [.node .missing none 3 "" []], .node .error none 2 "" []]) =
      some 3 := by
  rw [firstFaultLine_eq]
  rfl

theorem firstFaultLine_eq_some_iff :
    c.firstFaultLine = some n ↔ ∃ d, c.FirstFault d ∧ d.line = n := by
  rw [firstFaultLine_eq, Option.map_eq_some_iff]
  simp only [firstFault_iff]

theorem exists_firstFault_iff : (∃ d, c.FirstFault d) ↔ c.hasFault = true := by
  simp only [firstFault_iff]
  rw [← Option.isSome_iff_exists, List.find?_isSome, hasFault_iff]

theorem firstFaultLine_eq_none_iff : c.firstFaultLine = none ↔ c.hasFault = false := by
  constructor
  · intro hnone
    apply Bool.eq_false_iff.mpr
    intro hfault
    obtain ⟨d, hd⟩ := exists_firstFault_iff.mpr hfault
    have hline := firstFaultLine_eq_some_iff.mpr ⟨d, hd, rfl⟩
    rw [hnone] at hline
    cases hline
  · intro hclean
    rw [firstFaultLine_eq, find?_nodes_of_not_hasFault (Bool.eq_false_iff.mp hclean),
      Option.map_none]

theorem toTree_ne_syntaxFault (c : Cst) (n : Nat) : c.toTree ≠ .error (.syntaxFault n) := by
  intro h
  rw [toTree] at h
  split at h
  · cases h
  · split at h
    · cases h
    · cases h

end Cst

/-- The search that passes over trees without a fault finds the first fault among all nodes in
pre-order, and it finds one exactly if the tree contains one. So a source is refused for a fault
exactly if its concrete tree contains one, with the line of the first; no line has to be made up. -/
theorem first_fault_exact (c : Cst) (source : String) :
    (∀ n, c.firstFaultLine = some n ↔ ∃ d, c.FirstFault d ∧ d.line = n) ∧
    (c.hasFault = true ↔ ∃ d ∈ c.nodes, d.isFault = true) ∧
    ((∃ d, c.FirstFault d) ↔ c.hasFault = true) ∧
    (c.firstFaultLine = none ↔ c.hasFault = false) ∧
    ∀ n, parse source = .error (.syntaxFault n) ↔
      ∃ d, (Parser.parse source).FirstFault d ∧ d.line = n := by
  refine ⟨fun n => Cst.firstFaultLine_eq_some_iff, Cst.hasFault_iff, Cst.exists_firstFault_iff,
    Cst.firstFaultLine_eq_none_iff, ?_⟩
  intro n
  rw [← Cst.firstFaultLine_eq_some_iff, parse]
  by_cases hfault : (Parser.parse source).hasFault = true
  · obtain ⟨d, hd⟩ := Cst.exists_firstFault_iff.mpr hfault
    have hline : (Parser.parse source).firstFaultLine = some d.line :=
      Cst.firstFaultLine_eq_some_iff.mpr ⟨d, hd, rfl⟩
    rw [hline, if_pos hfault]
    simp
  · have hnone : (Parser.parse source).firstFaultLine = none :=
      Cst.firstFaultLine_eq_none_iff.mpr (Bool.eq_false_iff.mpr hfault)
    rw [hnone, if_neg hfault]
    constructor
    · intro h
      exact absurd h (Cst.toTree_ne_syntaxFault _ n)
    · exact nofun

end ArchLint.Java
