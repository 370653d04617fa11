import Mathlib.Data.List.Induction
import ArchLint.Proofs.Syntax.Layout

/-!
# Bracket words

Every sequence of steps is a word of two kinds of brackets: one that opens a labelled node and one
that closes the innermost open node. The word alone says how deep the nesting is at each point,
how many nodes stand at the top, and whether a node was closed while nothing was open.
-/

namespace ArchLint.Syntax

inductive Bracket where
  | opening (kind : Kind) (text : Option String) (line : Nat)
  | closing
  deriving DecidableEq, Repr

namespace Bracket

def isOpening : Bracket → Bool
  | .opening _ _ _ => true
  | .closing => false

def leaf (kind : Kind) (text : Option String) (line : Nat) : List Bracket :=
  [.opening kind text line, .closing]

def segment (name : List Char) (line : Nat) : List Bracket :=
  if name = ['*'] then leaf .star (some "*") line
  else leaf .ident (some (String.ofList name)) line

/-- One node per dot, opened in advance; each segment but the first closes one. -/
def qualified (name : String) (line : Nat) : List Bracket :=
  match Text.segments '.' name.toList with
  | [] => []
  | first :: rest =>
    List.replicate rest.length (.opening .dot none line) ++
      (segment first line ++ rest.flatMap fun s => segment s line ++ [.closing])

end Bracket

def Step.brackets : Step → List Bracket
  | .start kind text line => [.opening kind text line]
  | .finish => [.closing]
  | .leaf kind text line => Bracket.leaf kind text line
  | .qualified name line => Bracket.qualified name line
  | .declaration kind type name line =>
    .opening kind none line :: (Bracket.leaf .modifiers none line ++
      (.opening .type none line :: (Bracket.leaf .ident (some type) line ++
        (.closing :: Bracket.leaf .ident (some name) line))))

namespace Bracket

def word (steps : List Step) : List Bracket :=
  steps.flatMap Step.brackets

theorem word_cons (s : Step) (steps : List Step) :
    word (s :: steps) = s.brackets ++ word steps := by
  simp [word]

theorem word_append (steps after : List Step) :
    word (steps ++ after) = word steps ++ word after :=
  List.flatMap_append

/-- The number of open nodes after a word. Closing with nothing open changes nothing. -/
def depth (w : List Bracket) : Nat :=
  w.foldl (fun d b => if b.isOpening then d + 1 else d - 1) 0

def Overcloses (w : List Bracket) : Prop :=
  ∃ u v, w = u ++ .closing :: v ∧ depth u = 0

def rootCount (w : List Bracket) : Nat :=
  (List.range w.length).countP fun n => w[n]?.any isOpening && depth (w.take n) = 0

@[simp] theorem depth_nil : depth [] = 0 := rfl

theorem depth_concat (w : List Bracket) (b : Bracket) :
    depth (w ++ [b]) = if b.isOpening then depth w + 1 else depth w - 1 := by
  simp [depth]

theorem not_overcloses_nil : ¬ Overcloses [] := by
  rintro ⟨u, v, h, _⟩
  simp at h

theorem overcloses_concat (w : List Bracket) (b : Bracket) :
    Overcloses (w ++ [b]) ↔ Overcloses w ∨ (b = .closing ∧ depth w = 0) := by
  constructor
  · rintro ⟨u, v, h, hu⟩
    rcases List.eq_nil_or_concat v with rfl | ⟨v, c, rfl⟩
    · obtain ⟨rfl, hb⟩ := List.append_inj' h rfl
      exact Or.inr ⟨by simpa using hb, hu⟩
    · rw [List.concat_eq_append, ← List.cons_append, ← List.append_assoc] at h
      exact Or.inl ⟨u, v, (List.append_inj' h rfl).1, hu⟩
  · rintro (⟨u, v, rfl, hu⟩ | ⟨rfl, hw⟩)
    · exact ⟨u, v ++ [b], by simp, hu⟩
    · exact ⟨w, [], rfl, hw⟩

theorem rootCount_concat (w : List Bracket) (b : Bracket) :
    rootCount (w ++ [b]) = rootCount w + if b.isOpening && depth w = 0 then 1 else 0 := by
  have inner : (List.range w.length).countP
      (fun n => (w ++ [b])[n]?.any isOpening && depth ((w ++ [b]).take n) = 0) = rootCount w := by
    apply List.countP_congr
    intro n hn
    have hlt := List.mem_range.mp hn
    rw [List.getElem?_append_left hlt, List.take_append_of_le_length (Nat.le_of_lt hlt)]
  rw [rootCount, List.length_append, List.length_singleton, List.range_succ, List.countP_append,
    inner]
  simp [List.countP_cons]

theorem depth_le_countP (w : List Bracket) : depth w ≤ w.countP isOpening := by
  induction w using List.reverseRecOn with
  | nil => exact Nat.le_refl 0
  | append_singleton w b ih =>
    rw [depth_concat, List.countP_append]
    cases b <;> simp [isOpening] <;> omega

theorem rootCount_le_countP (w : List Bracket) : rootCount w ≤ w.countP isOpening := by
  induction w using List.reverseRecOn with
  | nil => exact Nat.le_refl 0
  | append_singleton w b ih =>
    rw [rootCount_concat, List.countP_append]
    cases b <;> simp [isOpening]
    · split <;> omega
    · exact ih

end Bracket

namespace Term

mutual

/-- The brackets of a term in pre-order. -/
def word : Term → List Bracket
  | .node kind text line children => .opening kind text line :: (wordAll children ++ [.closing])

def wordAll : List Term → List Bracket
  | [] => []
  | t :: ts => word t ++ wordAll ts

end

theorem wordAll_append (ts us : List Term) : wordAll (ts ++ us) = wordAll ts ++ wordAll us := by
  induction ts with
  | nil => rfl
  | cons t ts ih => simp [wordAll, ih]

mutual

theorem word_stepsOnto : ∀ (t : Term) (rest : List Step),
    Bracket.word (t.stepsOnto rest) = t.word ++ Bracket.word rest
  | .node kind text line children, rest => by
    have h := word_stepsOntoAll children (.finish :: rest)
    simpa [stepsOnto, word, Bracket.word, Step.brackets] using h

theorem word_stepsOntoAll : ∀ (ts : List Term) (rest : List Step),
    Bracket.word (stepsOntoAll ts rest) = wordAll ts ++ Bracket.word rest
  | [], _ => rfl
  | t :: ts, rest => by
    rw [stepsOntoAll, word_stepsOnto t, word_stepsOntoAll ts, wordAll, List.append_assoc]

end

/-- The pre-order steps of a term spell its word. -/
theorem word_steps (t : Term) : Bracket.word t.steps = t.word := by
  rw [steps, word_stepsOnto]
  exact List.append_nil _

end Term

end ArchLint.Syntax
