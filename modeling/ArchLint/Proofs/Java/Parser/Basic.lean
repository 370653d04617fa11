import ArchLint.Java.Parser.Basic
import ArchLint.Proofs.Java.Bare
import ArchLint.Proofs.Java.Lines

/-!
# Parsers keep the order of lines

A parser puts lexemes together and never moves one past another. What it has in hand and what is
still ahead form one sequence of pieces; reading on merges neighbours of that sequence into nodes,
and may drop a line, but keeps the order.
-/

namespace ArchLint.Java

namespace Cst

/-- Aligned, and without a comment in front of a generic type. -/
structure Settled (c : Cst) : Prop where
  aligned : c.Aligned
  clear : c.clearsGenerics = true

theorem settled_iff {c : Cst} :
    c.Settled ↔ (∀ d ∈ c.children.head?,
        d.line = c.line ∧ (c.kind = .assignmentExpression → d.field = some .left)) ∧
      (c.kind = .genericType → c.opensWithType = true) ∧ ∀ d ∈ c.children, d.Settled := by
  obtain ⟨kind, field, line, text, children⟩ := c
  constructor
  · rintro ⟨⟨hfirst, haligned⟩, hclear⟩
    obtain ⟨hopens, hchildren⟩ := everywhere_iff.mp hclear
    refine ⟨hfirst, fun hk => ?_, fun d hd => ⟨haligned d hd, hchildren d hd⟩⟩
    simpa [hk] using hopens
  · rintro ⟨hfirst, hopens, hchildren⟩
    refine ⟨.node hfirst fun d hd => (hchildren d hd).aligned,
      everywhere_iff.mpr ⟨?_, fun d hd => (hchildren d hd).clear⟩⟩
    by_cases hk : kind = .genericType
    · simp [hopens hk]
    · simp [Cst.kind, hk]

theorem settled_leaf (kind : Kind) (field : Option Field) (line : Nat) (text : String) :
    (node kind field line text []).Settled :=
  settled_iff.mpr ⟨by simp [children], fun _ => rfl, by simp [children]⟩

end Cst

namespace Piece

def lines (p : Piece) : List Nat :=
  p.leading.flatMap Cst.lines ++ p.tree.lines

def Settled (p : Piece) : Prop :=
  (∀ c ∈ p.leading, c.Settled) ∧ p.tree.Settled

def AllSettled (ps : List Piece) : Prop :=
  ∀ p ∈ ps, p.Settled

/-- The new pieces are settled if the old ones are, and their lines come in the same order. -/
def Kept (old new : List Piece) : Prop :=
  AllSettled old → AllSettled new ∧ (new.flatMap lines).Sublist (old.flatMap lines)

variable {old old' new new' mid parts : List Piece} {p : Piece} {kind : Kind}

@[simp] theorem allSettled_nil : AllSettled [] :=
  List.forall_mem_nil _

@[simp] theorem allSettled_cons : AllSettled (p :: parts) ↔ p.Settled ∧ AllSettled parts :=
  List.forall_mem_cons

@[simp] theorem allSettled_append :
    AllSettled (old ++ new) ↔ AllSettled old ∧ AllSettled new :=
  List.forall_mem_append

@[simp] theorem kept_iff : Kept old new ↔
    (AllSettled old → AllSettled new ∧ (new.flatMap lines).Sublist (old.flatMap lines)) :=
  Iff.rfl

theorem Kept.refl (ps : List Piece) : Kept ps ps :=
  fun h => ⟨h, List.Sublist.refl _⟩

theorem Kept.trans (h : Kept old mid) (h' : Kept mid new) : Kept old new := by
  intro hold
  obtain ⟨hmid, hlines⟩ := h hold
  obtain ⟨hnew, hlines'⟩ := h' hmid
  exact ⟨hnew, hlines'.trans hlines⟩

theorem Kept.append (h : Kept old new) (h' : Kept old' new') :
    Kept (old ++ old') (new ++ new') := by
  intro hold
  rw [allSettled_append] at hold
  obtain ⟨hnew, hlines⟩ := h hold.1
  obtain ⟨hnew', hlines'⟩ := h' hold.2
  rw [allSettled_append, List.flatMap_append, List.flatMap_append]
  exact ⟨⟨hnew, hnew'⟩, hlines.append hlines'⟩

@[simp] theorem lines_as (p : Piece) (f : Field) : (p.as f).lines = p.lines := by
  obtain ⟨leading, kind, field, line, text, children⟩ := p
  cases children with
  | nil => simp [lines, as, Cst.withField]
  | cons c cs => simp [lines, as, Cst.withField, Cst.lines_node]

@[simp] theorem settled_as (p : Piece) (f : Field) : (p.as f).Settled ↔ p.Settled := by
  obtain ⟨leading, kind, field, line, text, children⟩ := p
  rw [Settled, Settled, Cst.settled_iff, Cst.settled_iff]
  rfl

theorem field_as (p : Piece) (f : Field) : (p.as f).tree.field = some f := by
  obtain ⟨leading, kind, field, line, text, children⟩ := p
  rfl

theorem kind_node (kind : Kind) (ps : List Piece) : (node kind ps).tree.kind = kind := by
  cases ps <;> rfl

@[simp] theorem lines_withText (p : Piece) (text : String) :
    (p.withText text).lines = p.lines := by
  obtain ⟨leading, kind, field, line, old, children⟩ := p
  cases children with
  | nil => simp [lines, withText]
  | cons c cs => simp [lines, withText, Cst.lines_node]

@[simp] theorem settled_withText (p : Piece) (text : String) :
    (p.withText text).Settled ↔ p.Settled := by
  obtain ⟨leading, kind, field, line, old, children⟩ := p
  rw [Settled, Settled, Cst.settled_iff, Cst.settled_iff]
  rfl

@[simp] theorem lines_leaf (kind : Kind) (l : Lexeme) :
    (leaf kind l).lines = l.comments.flatMap Cst.lines ++ [l.line] := by
  simp [lines, leaf]

@[simp] theorem settled_leaf (kind : Kind) (l : Lexeme) :
    (leaf kind l).Settled ↔ ∀ c ∈ l.comments, c.Settled :=
  and_iff_left (Cst.settled_leaf _ _ _ _)

theorem lines_parts (ps : List Piece) :
    (ps.flatMap fun q => q.leading ++ [q.tree]).flatMap Cst.lines = ps.flatMap lines := by
  rw [List.flatMap_assoc]
  simp only [List.flatMap_append, List.flatMap_singleton]
  rfl

theorem settled_parts (ps : List Piece) :
    (∀ c ∈ ps.flatMap fun q => q.leading ++ [q.tree], c.Settled) ↔ AllSettled ps := by
  simp only [List.forall_mem_flatMap, List.forall_mem_append, List.forall_mem_singleton, AllSettled,
    Settled]

@[simp] theorem lines_node (kind : Kind) (hparts : parts ≠ []) :
    (node kind parts).lines = parts.flatMap lines := by
  cases parts with
  | nil => exact absurd rfl hparts
  | cons p ps => simp [node, lines, Cst.lines_node, lines_parts]

theorem settled_cons (hfirst : kind = .assignmentExpression → p.tree.field = some .left)
    (hopens : kind = .genericType → p.tree.kind ∈ Grammar.plainTypes) (ps : List Piece) :
    (node kind (p :: ps)).Settled ↔ AllSettled (p :: ps) := by
  have hinner : (∀ c ∈ p.tree :: ps.flatMap fun q => q.leading ++ [q.tree], c.Settled) ↔
      p.tree.Settled ∧ AllSettled ps := by
    rw [List.forall_mem_cons, settled_parts]
  rw [allSettled_cons]
  constructor
  · rintro ⟨hleading, hnode⟩
    obtain ⟨htree, hps⟩ := hinner.mp (Cst.settled_iff.mp hnode).2.2
    exact ⟨⟨hleading, htree⟩, hps⟩
  · rintro ⟨⟨hleading, htree⟩, hps⟩
    refine ⟨hleading, Cst.settled_iff.mpr ⟨?_, fun hk => ?_, hinner.mpr ⟨htree, hps⟩⟩⟩
    · rintro c ⟨⟩
      exact ⟨rfl, hfirst⟩
    · rw [Cst.opensWithType, node, Cst.children,
        List.takeWhile_cons_of_neg (by simpa using hopens hk)]
      rfl

@[simp] theorem settled_node (hparts : parts ≠ [])
    (hkind : kind ∉ [.assignmentExpression, .genericType]) :
    (node kind parts).Settled ↔ AllSettled parts := by
  simp only [List.mem_cons, List.not_mem_nil, or_false, not_or] at hkind
  cases parts with
  | nil => exact absurd rfl hparts
  | cons p ps => exact settled_cons (fun h => absurd h hkind.1) (fun h => absurd h hkind.2) ps

end Piece

namespace Parser

open Piece (Kept)

/-- The lexemes ahead, each as a piece of its own. -/
def upcoming (ls : List Lexeme) : List Piece :=
  ls.map (.leaf .token)

/-- With the pieces `given` in hand, the parser goes on to have those that `made` finds in its
answer, and keeps the order. -/
def Reads {α : Type} (given : List Piece) (p : Parser α) (made : α → List Piece) : Prop :=
  ∀ ls a rest, p ls = .ok (a, rest) → Kept (given ++ upcoming ls) (made a ++ upcoming rest)

/-- The parser takes nothing. -/
def Looks {α : Type} (p : Parser α) : Prop :=
  ∀ ls a rest, p ls = .ok (a, rest) → rest = ls

def Returns {α : Type} (p : Parser α) (P : α → Prop) : Prop :=
  ∀ ls a rest, p ls = .ok (a, rest) → P a

abbrev one (p : Piece) : List Piece := [p]

abbrev some? (o : Option Piece) : List Piece := o.toList

variable {α β : Type} {given old new : List Piece} {made : α → List Piece}
  {made' : β → List Piece} {p p' : Parser α} {q : α → Parser β} {a : α}

theorem bind_ok {ls rest : List Lexeme} {b : β} (h : (p >>= q) ls = .ok (b, rest)) :
    ∃ a mid, p ls = .ok (a, mid) ∧ q a mid = .ok (b, rest) := by
  cases hp : p ls with
  | error e =>
    have : (p >>= q) ls = .error e := by simp [bind, StateT.bind, Except.bind, hp]
    rw [this] at h
    cases h
  | ok result =>
    refine ⟨result.1, result.2, rfl, ?_⟩
    rw [← h]
    simp [bind, StateT.bind, Except.bind, hp]

theorem Reads.seq (hp : Reads given p made) (hq : ∀ a, Reads (made a) (q a) made') :
    Reads given (p >>= q) made' := by
  intro ls b rest h
  obtain ⟨a, mid, ha, hb⟩ := bind_ok h
  exact (hp ls a mid ha).trans (hq a mid b rest hb)

/-- Pieces further back in hand stay there. -/
theorem Reads.behind (more : List Piece) (h : Reads given p made) :
    Reads (more ++ given) p fun a => more ++ made a := by
  intro ls a rest ha
  rw [List.append_assoc, List.append_assoc]
  exact (Kept.refl more).append (h ls a rest ha)

/-- One thing after the other. -/
theorem Reads.bind (hp : Reads [] p made) (hq : ∀ a, Reads (given ++ made a) (q a) made') :
    Reads given (p >>= q) made' := by
  have hall := hp.behind given
  rw [List.append_nil] at hall
  exact hall.seq hq

theorem Reads.bind_of {P : α → Prop} (hp : Reads [] p made) (hP : Returns p P)
    (hq : ∀ a, P a → Reads (given ++ made a) (q a) made') : Reads given (p >>= q) made' := by
  intro ls b rest h
  obtain ⟨a, mid, ha, hb⟩ := bind_ok h
  have hstep := hp.behind given ls a mid ha
  rw [List.append_nil] at hstep
  exact hstep.trans (hq a (hP ls a mid ha) mid b rest hb)

theorem Looks.bind (hp : Looks p) (hq : ∀ a, Reads given (q a) made') :
    Reads given (p >>= q) made' := by
  intro ls b rest h
  obtain ⟨a, mid, ha, hb⟩ := bind_ok h
  rw [hp ls a mid ha] at hb
  exact hq a ls b rest hb

theorem Reads.pure (hkept : Kept given (made a)) : Reads given (Pure.pure a) made := by
  rintro ls b rest ⟨⟩
  exact hkept.append (Kept.refl _)

theorem Reads.listed {p : Parser Piece} (h : Reads [] p one) : Reads [] (do return [← p]) id :=
  h.bind fun _ => .pure (by simp)

theorem Reads.pass (h : Reads given (q a) made') : Reads given (Pure.pure a >>= q) made' :=
  h

theorem Reads.of_kept (h : Reads new p made) (hkept : Kept given new) : Reads given p made :=
  fun ls a rest ha => (hkept.append (Kept.refl _)).trans (h ls a rest ha)

theorem Reads.fail : Reads given (fail : Parser α) made := by
  rintro ls a rest ⟨⟩

theorem Reads.fail_bind : Reads given (Parser.fail >>= q) made' := by
  rintro ls b rest ⟨⟩

theorem Reads.ite {c : Prop} [Decidable c] (hp : Reads given p made) (hp' : Reads given p' made) :
    Reads given (if c then p else p') made := by
  split
  · exact hp
  · exact hp'

theorem looks_peek : Looks peek := by
  rintro ls a rest ⟨⟩
  rfl

theorem looks_get : Looks (get : Parser (List Lexeme)) := by
  rintro ls a rest ⟨⟩
  rfl

theorem looks_ahead (test : List Lexeme → Bool) : Looks (ahead test) := by
  rintro ls a rest ⟨⟩
  rfl

theorem looks_succeeds (p : Parser α) : Looks (succeeds p) := by
  intro ls a rest h
  rw [succeeds] at h
  split at h
  · cases h
    rfl
  · cases h
    rfl

theorem looks_atKeyword (text : String) : Looks (atKeyword text) := by
  rintro ls a rest ⟨⟩
  rfl

theorem looks_atMark (text : String) : Looks (atMark text) := by
  rintro ls a rest ⟨⟩
  rfl

theorem reads_next (kind : Kind) : Reads [] next fun l => [.leaf kind l] := by
  intro ls l rest h
  cases ls with
  | nil => cases h
  | cons head tail =>
    simp only [next] at h
    split at h
    · cases h
    · cases h
      simp [upcoming]

theorem reads_leafIf (kind : Kind) (test : Lexeme → Bool) : Reads [] (leafIf kind test) one :=
  looks_peek.bind fun _ => .ite ((reads_next kind).bind fun _ => .pure (by simp)) .fail

theorem returns_leafIf (kind : Kind) (test : Lexeme → Bool) :
    Returns (leafIf kind test) (·.tree.kind = kind) := by
  intro ls p rest h
  obtain ⟨first, mid, -, htaken⟩ := bind_ok h
  split at htaken
  · obtain ⟨l, _, -, ⟨⟩⟩ := bind_ok htaken
    rfl
  · cases htaken

theorem reads_keyword (text : String) : Reads [] (keyword text) one :=
  reads_leafIf _ _

theorem reads_mark (text : String) : Reads [] (mark text) one :=
  reads_leafIf _ _

theorem reads_identifier : Reads [] identifier one :=
  reads_leafIf _ _

theorem reads_keywordLeaf (kind : Kind) (text : String) : Reads [] (keywordLeaf kind text) one :=
  reads_leafIf _ _

theorem reads_attempt (h : Reads [] p made) : Reads [] (attempt p) (·.elim [] made) := by
  intro ls o rest ho
  rw [attempt] at ho
  split at ho
  · next ha =>
    cases ho
    exact h ls _ _ ha
  · cases ho
    exact Kept.refl _

theorem reads_attempt_piece {p : Parser Piece} (h : Reads [] p one) :
    Reads [] (attempt p) some? := by
  intro ls o rest ho
  have hkept := reads_attempt h ls o rest ho
  cases o with
  | none => exact hkept
  | some piece => exact hkept

theorem reads_optionalIf (test : Lexeme → Bool) {p : Parser (List Piece)} (h : Reads [] p id) :
    Reads [] (optionalIf test p) id :=
  looks_peek.bind fun _ => .ite h (.pure (by simp))

theorem reads_manyWhile (test : List Lexeme → Bool) {p : Parser (List Piece)}
    (h : Reads [] p id) (limit : Nat) (done : Array Piece) :
    Reads done.toList (manyWhile test p limit done) id := by
  induction limit generalizing done with
  | zero => exact .fail
  | succ limit ih =>
    intro ls parts rest hparts
    simp only [manyWhile] at hparts
    split at hparts
    · split at hparts
      · next more mid hmore =>
        -- One turn adds to what is in hand, and the other turns start from there.
        have hturn := h.behind done.toList ls more mid hmore
        have hturns := ih (done ++ more) mid parts rest hparts
        rw [List.append_nil] at hturn
        rw [Array.toList_appendList] at hturns
        exact hturn.trans hturns
      · cases hparts
    · cases hparts
      exact Kept.refl _

theorem reads_many (test : List Lexeme → Bool) {p : Parser (List Piece)} (h : Reads [] p id)
    (limit : Nat) : Reads [] (manyWhile test p limit #[]) id :=
  reads_manyWhile test h limit #[]

theorem reads_commaSeparated (limit : Nat) {p : Parser (List Piece)} (h : Reads [] p id) :
    Reads [] (commaSeparated limit p) id := by
  refine h.seq fun first => reads_manyWhile _ ?_ limit first.toArray
  exact (reads_mark ",").bind fun _ => h.bind fun _ => .pure (by simp)

theorem returns_manyWhile (test : List Lexeme → Bool) (p : Parser (List Piece)) (limit : Nat)
    {done : Array Piece} (hdone : done.toList ≠ []) :
    Returns (manyWhile test p limit done) (· ≠ []) := by
  induction limit generalizing done with
  | zero => rintro ls parts rest ⟨⟩
  | succ limit ih =>
    intro ls parts rest hparts
    simp only [manyWhile] at hparts
    split at hparts
    · split at hparts
      · next more mid _ => exact ih (by simp [hdone]) mid parts rest hparts
      · cases hparts
    · cases hparts
      exact hdone

theorem returns_commaSeparated (limit : Nat) {p : Parser (List Piece)} (hp : Returns p (· ≠ [])) :
    Returns (commaSeparated limit p) (· ≠ []) := by
  intro ls parts rest hparts
  obtain ⟨first, mid, hfirst, hmore⟩ := bind_ok hparts
  exact returns_manyWhile _ _ limit (hp ls first mid hfirst) mid parts rest hmore

end Parser

end ArchLint.Java
