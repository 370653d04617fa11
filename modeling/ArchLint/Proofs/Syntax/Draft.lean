import ArchLint.Proofs.Syntax.Bracket

/-!
# Drafts

A half-built tree without numbers: the open nodes, each with the finished terms in front of it,
and the finished terms under the innermost open node. `Represents` is the invariant that ties a
builder to the draft of the same brackets: the arena is the pre-order layout of the draft with
every open node closed where it stands.
-/

namespace ArchLint.Syntax

/-- An open node and the finished terms in front of it under the same parent. -/
structure Frame where
  kind : Kind
  text : Option String
  line : Nat
  before : List Term

structure Draft where
  frames : List Frame := []
  terms : List Term := []
  overclosed : Bool := false

namespace Draft

open Term (places sizeAll layoutAll wordAll)

def step : Draft → Bracket → Draft
  | ⟨frames, terms, overclosed⟩, .opening kind text line =>
    ⟨⟨kind, text, line, terms⟩ :: frames, [], overclosed⟩
  | ⟨f :: frames, terms, overclosed⟩, .closing =>
    ⟨frames, f.before ++ [.node f.kind f.text f.line terms], overclosed⟩
  | ⟨[], terms, _⟩, .closing => ⟨[], terms, true⟩

def run (w : List Bracket) : Draft :=
  w.foldl step {}

def offset : List Frame → Nat
  | [] => 0
  | f :: fs => offset fs + sizeAll f.before + 1

def openedIds : List Frame → List Nat
  | [] => []
  | f :: fs => (offset fs + sizeAll f.before) :: openedIds fs

/-- The nodes in front of the offset. The innermost open node has the given children so far; the
last child of any other open node is the next open one. -/
def openNodes : List Frame → List Nat → List Node
  | [], _ => []
  | f :: fs, ids =>
    openNodes fs (places (offset fs) f.before ++ [offset fs + sizeAll f.before]) ++
      layoutAll (openedIds fs).head? (offset fs) f.before ++
        [⟨f.kind, f.text, f.line, (openedIds fs).head?, ids.toArray⟩]

/-- The number of terms at the top when `n` terms stand under the innermost open node. -/
def topCount : List Frame → Nat → Nat
  | [], n => n
  | f :: fs, _ => topCount fs (f.before.length + 1)

def nodes (d : Draft) : List Node :=
  openNodes d.frames (places (offset d.frames) d.terms) ++
    layoutAll (openedIds d.frames).head? (offset d.frames) d.terms

def openWord : List Frame → List Bracket
  | [] => []
  | f :: fs => openWord fs ++ wordAll f.before ++ [.opening f.kind f.text f.line]

def word (d : Draft) : List Bracket :=
  openWord d.frames ++ wordAll d.terms

theorem run_concat (w : List Bracket) (b : Bracket) : run (w ++ [b]) = (run w).step b := by
  simp [run]

theorem length_openNodes (fs : List Frame) (ids : List Nat) :
    (openNodes fs ids).length = offset fs := by
  induction fs generalizing ids with
  | nil => rfl
  | cons f fs ih =>
    simp [openNodes, offset, ih, Term.length_layoutAll, Nat.add_assoc]

theorem length_nodes (d : Draft) : d.nodes.length = offset d.frames + sizeAll d.terms := by
  simp [nodes, length_openNodes, Term.length_layoutAll]

theorem modify_append_cons {α : Type} {before : List α} {i : Nat} (h : before.length = i) (a : α)
    (after : List α) (f : α → α) :
    (before ++ a :: after).modify i f = before ++ f a :: after := by
  induction before generalizing i with
  | nil =>
    subst h
    rfl
  | cons c before ih =>
    subst h
    simpa using ih rfl

theorem nodes_opening_nil (kind : Kind) (text : Option String) (line : Nat) (terms : List Term)
    (o : Bool) :
    nodes (step ⟨[], terms, o⟩ (.opening kind text line)) =
      nodes ⟨[], terms, o⟩ ++ [⟨kind, text, line, none, #[]⟩] := by
  simp [step, nodes, openNodes, openedIds, offset, places, layoutAll]

/-- Opening a node under `f` adds it to the children of `f` and changes no other node. -/
theorem nodes_opening_cons (kind : Kind) (text : Option String) (line : Nat) (f : Frame)
    (fs : List Frame) (terms : List Term) (o : Bool) :
    nodes (step ⟨f :: fs, terms, o⟩ (.opening kind text line)) =
      ((nodes ⟨f :: fs, terms, o⟩).modify (offset fs + sizeAll f.before) fun n =>
        { n with children := n.children.push (offset (f :: fs) + sizeAll terms) }) ++
      [⟨kind, text, line, some (offset fs + sizeAll f.before), #[]⟩] := by
  have hlen : (openNodes fs (places (offset fs) f.before ++ [offset fs + sizeAll f.before]) ++
      layoutAll (openedIds fs).head? (offset fs) f.before).length =
        offset fs + sizeAll f.before := by
    rw [List.length_append, length_openNodes, Term.length_layoutAll]
  have hnodes : nodes ⟨f :: fs, terms, o⟩ =
      (openNodes fs (places (offset fs) f.before ++ [offset fs + sizeAll f.before]) ++
        layoutAll (openedIds fs).head? (offset fs) f.before) ++
      ⟨f.kind, f.text, f.line, (openedIds fs).head?,
        (places (offset (f :: fs)) terms).toArray⟩ ::
      layoutAll (some (offset fs + sizeAll f.before)) (offset (f :: fs)) terms := by
    simp [nodes, openNodes, openedIds]
  rw [hnodes, modify_append_cons hlen]
  simp [step, nodes, openNodes, openedIds, offset, places, layoutAll]

theorem nodes_closing (f : Frame) (fs : List Frame) (terms : List Term) (o : Bool) :
    nodes (step ⟨f :: fs, terms, o⟩ .closing) = nodes ⟨f :: fs, terms, o⟩ := by
  simp [step, nodes, openNodes, openedIds, offset, Term.places_append, Term.layoutAll_append,
    places, layoutAll, Term.layout]

end Draft

namespace Builder

def bracket (b : Builder) : Bracket → Builder
  | .opening kind text line => b.start kind text line
  | .closing => b.finishNode

def write (b : Builder) (w : List Bracket) : Builder :=
  w.foldl bracket b

@[simp] theorem write_nil (b : Builder) : b.write [] = b := rfl

@[simp] theorem write_cons (b : Builder) (c : Bracket) (w : List Bracket) :
    b.write (c :: w) = (b.bracket c).write w := rfl

theorem write_append (b : Builder) (u v : List Bracket) :
    b.write (u ++ v) = (b.write u).write v := by
  simp [write]

theorem push_eq_write (b : Builder) (kind : Kind) (text : Option String) (line : Nat) :
    b.push kind text line = b.write (Bracket.leaf kind text line) := by
  rcases b with ⟨nodes, _ | ⟨p, opened⟩, roots, unbalanced⟩ <;> rfl

theorem segment_eq_write (b : Builder) (name : List Char) (line : Nat) :
    b.segment name line = b.write (Bracket.segment name line) := by
  unfold segment Bracket.segment
  split <;> exact push_eq_write b _ _ line

theorem startDots_eq_write (b : Builder) (line n : Nat) :
    b.startDots line n = b.write (List.replicate n (.opening .dot none line)) := by
  induction n generalizing b with
  | zero => rfl
  | succ n ih => rw [startDots, ih, List.replicate_succ, write_cons, bracket]

theorem closeSegments_eq_write (b : Builder) (line : Nat) (rest : List (List Char)) :
    rest.foldl (fun b s => (b.segment s line).finishNode) b =
      b.write (rest.flatMap fun s => Bracket.segment s line ++ [.closing]) := by
  induction rest generalizing b with
  | nil => rfl
  | cons s rest ih =>
    rw [List.foldl_cons, ih, List.flatMap_cons, write_append, write_append, segment_eq_write]
    rfl

theorem qualified_eq_write (b : Builder) (name : String) (line : Nat) :
    b.qualified name line = b.write (Bracket.qualified name line) := by
  unfold qualified Bracket.qualified
  cases Text.segments '.' name.toList with
  | nil => rfl
  | cons first rest =>
    dsimp only
    rw [closeSegments_eq_write, segment_eq_write, startDots_eq_write, write_append, write_append]

theorem step_eq_write (b : Builder) (s : Step) : b.step s = b.write s.brackets := by
  cases s with
  | start kind text line => rfl
  | finish => rfl
  | leaf kind text line => exact push_eq_write b kind text line
  | qualified name line => exact qualified_eq_write b name line
  | declaration kind type name line =>
    simp only [step, declaration, push_eq_write, Step.brackets, write_cons, write_append, bracket]

theorem run_eq_write (steps : List Step) : run steps = empty.write (Bracket.word steps) := by
  suffices h : ∀ b : Builder, steps.foldl step b = b.write (Bracket.word steps) from h empty
  induction steps with
  | nil => exact fun b => rfl
  | cons s steps ih =>
    intro b
    rw [List.foldl_cons, ih, step_eq_write, Bracket.word_cons, write_append]

end Builder

/-- The builder stands where the draft stands. -/
structure Represents (d : Draft) (b : Builder) : Prop where
  nodes : b.nodes.toList = d.nodes
  opened : b.opened = Draft.openedIds d.frames
  roots : b.roots = Draft.topCount d.frames d.terms.length
  unbalanced : b.unbalanced = d.overclosed

namespace Represents

open Term (places sizeAll layoutAll)

variable {d : Draft} {b : Builder}

theorem empty : Represents {} Builder.empty := by
  constructor <;> rfl

theorem size_nodes (h : Represents d b) :
    b.nodes.size = Draft.offset d.frames + sizeAll d.terms := by
  rw [← Array.length_toList, h.nodes, Draft.length_nodes]

theorem opening (h : Represents d b) (kind : Kind) (text : Option String) (line : Nat) :
    Represents (d.step (.opening kind text line)) (b.start kind text line) := by
  have hsize := h.size_nodes
  obtain ⟨frames, terms, overclosed⟩ := d
  obtain ⟨nodes, opened, roots, unbalanced⟩ := b
  obtain ⟨hnodes, rfl, hroots, hunbalanced⟩ := h
  cases frames with
  | nil =>
    constructor
    · rw [Draft.nodes_opening_nil, ← hnodes]
      simp [Builder.start, Builder.push, Draft.openedIds]
    · simpa [Builder.start, Builder.push, Draft.step, Draft.openedIds, Draft.offset] using hsize
    · simpa [Builder.start, Builder.push, Draft.step, Draft.topCount, Draft.openedIds] using hroots
    · simpa [Builder.start, Builder.push, Draft.step, Draft.openedIds] using hunbalanced
  | cons f fs =>
    constructor
    · rw [Draft.nodes_opening_cons, ← hnodes]
      simp [Builder.start, Builder.push, Draft.openedIds, hsize]
    · simpa [Builder.start, Builder.push, Draft.step, Draft.openedIds, Draft.offset] using hsize
    · simpa [Builder.start, Builder.push, Draft.step, Draft.topCount, Draft.openedIds] using hroots
    · simpa [Builder.start, Builder.push, Draft.step, Draft.openedIds] using hunbalanced

theorem closing (h : Represents d b) : Represents (d.step .closing) b.finishNode := by
  obtain ⟨frames, terms, overclosed⟩ := d
  obtain ⟨nodes, opened, roots, unbalanced⟩ := b
  obtain ⟨hnodes, rfl, hroots, hunbalanced⟩ := h
  cases frames with
  | nil => exact ⟨hnodes, rfl, hroots, rfl⟩
  | cons f fs =>
    refine ⟨hnodes.trans (Draft.nodes_closing f fs terms overclosed).symm, rfl, ?_, hunbalanced⟩
    simpa [Builder.finishNode, Draft.step, Draft.topCount, Draft.openedIds] using hroots

theorem step (h : Represents d b) (c : Bracket) : Represents (d.step c) (b.bracket c) := by
  cases c with
  | opening kind text line => exact h.opening kind text line
  | closing => exact h.closing

theorem write (h : Represents d b) (w : List Bracket) :
    Represents (w.foldl Draft.step d) (b.write w) := by
  induction w generalizing d b with
  | nil => exact h
  | cons c w ih => exact ih (h.step c)

/-- After any steps the builder stands where the draft of their word stands. -/
theorem run (steps : List Step) :
    Represents (Draft.run (Bracket.word steps)) (Builder.run steps) := by
  rw [Builder.run_eq_write]
  exact empty.write _

end Represents

namespace Draft

open Term (sizeAll wordAll)

theorem length_frames_step (d : Draft) (b : Bracket) :
    (d.step b).frames.length =
      if b.isOpening then d.frames.length + 1 else d.frames.length - 1 := by
  rcases d with ⟨_ | ⟨f, fs⟩, terms, o⟩ <;> cases b <;> rfl

theorem overclosed_step (d : Draft) (b : Bracket) :
    (d.step b).overclosed = true ↔
      d.overclosed = true ∨ (b = .closing ∧ d.frames.length = 0) := by
  rcases d with ⟨_ | ⟨f, fs⟩, terms, o⟩ <;> cases b <;> simp [step]

theorem topCount_step (d : Draft) (b : Bracket) :
    topCount (d.step b).frames (d.step b).terms.length =
      topCount d.frames d.terms.length +
        if b.isOpening && d.frames.length = 0 then 1 else 0 := by
  rcases d with ⟨_ | ⟨f, fs⟩, terms, o⟩ <;> cases b <;>
    simp [step, topCount, Bracket.isOpening]

theorem length_nodes_step (d : Draft) (b : Bracket) :
    (d.step b).nodes.length = d.nodes.length + if b.isOpening then 1 else 0 := by
  rcases d with ⟨_ | ⟨f, fs⟩, terms, o⟩ <;> cases b <;>
    simp [step, length_nodes, offset, sizeAll, Bracket.isOpening, Term.sizeAll_append, Term.size]
  omega

theorem word_step {d : Draft} {b : Bracket} (h : (d.step b).overclosed = false) :
    (d.step b).word = d.word ++ [b] := by
  rcases d with ⟨_ | ⟨f, fs⟩, terms, o⟩ <;> cases b <;>
    simp_all [step, word, openWord, wordAll, Term.word, Term.wordAll_append]

theorem length_frames_run (w : List Bracket) : (run w).frames.length = Bracket.depth w := by
  induction w using List.reverseRecOn with
  | nil => rfl
  | append_singleton w b ih => rw [run_concat, length_frames_step, ih, Bracket.depth_concat]

theorem overclosed_run (w : List Bracket) :
    (run w).overclosed = true ↔ Bracket.Overcloses w := by
  induction w using List.reverseRecOn with
  | nil => simpa [run] using Bracket.not_overcloses_nil
  | append_singleton w b ih =>
    rw [run_concat, overclosed_step, ih, length_frames_run, Bracket.overcloses_concat]

instance (w : List Bracket) : Decidable (Bracket.Overcloses w) :=
  decidable_of_iff _ (overclosed_run w)

theorem topCount_run (w : List Bracket) :
    topCount (run w).frames (run w).terms.length = Bracket.rootCount w := by
  induction w using List.reverseRecOn with
  | nil => rfl
  | append_singleton w b ih =>
    rw [run_concat, topCount_step, ih, length_frames_run, Bracket.rootCount_concat]

theorem length_nodes_run (w : List Bracket) :
    (run w).nodes.length = w.countP Bracket.isOpening := by
  induction w using List.reverseRecOn with
  | nil => rfl
  | append_singleton w b ih =>
    rw [run_concat, length_nodes_step, ih, List.countP_append]
    simp [List.countP_cons]

/-- A draft remembers the whole word, as long as nothing was closed in vain. -/
theorem word_run {w : List Bracket} (h : ¬ Bracket.Overcloses w) : (run w).word = w := by
  induction w using List.reverseRecOn with
  | nil => rfl
  | append_singleton w b ih =>
    have hstep : ((run w).step b).overclosed = false := by
      rw [← run_concat, ← Bool.not_eq_true, overclosed_run]
      exact h
    have hw : ¬ Bracket.Overcloses w := by
      intro hw
      exact h ((Bracket.overcloses_concat w b).mpr (Or.inl hw))
    rw [run_concat, word_step hstep, ih hw]

mutual

theorem foldl_word : ∀ (T : Term) (d : Draft),
    T.word.foldl step d = ⟨d.frames, d.terms ++ [T], d.overclosed⟩
  | .node kind text line children, ⟨frames, terms, o⟩ => by
    rw [Term.word, List.foldl_cons, List.foldl_append, step, foldl_wordAll children]
    rfl

theorem foldl_wordAll : ∀ (Ts : List Term) (d : Draft),
    (wordAll Ts).foldl step d = ⟨d.frames, d.terms ++ Ts, d.overclosed⟩
  | [], ⟨frames, terms, o⟩ => by
    simp [wordAll]
  | T :: Ts, d => by
    rw [wordAll, List.foldl_append, foldl_word T d, foldl_wordAll Ts]
    simp

end

theorem run_word (T : Term) : run T.word = ⟨[], [T], false⟩ :=
  foldl_word T {}

end Draft

end ArchLint.Syntax
