import ArchLint.Proofs.Syntax.Navigation
import ArchLint.Proofs.Text.Lines
import ArchLint.Syntax.Dump

/-!
# What an outline tells

An outline has a line for every node, in pre-order and indented by the number of nodes above. A
line tells depth, kind, line and text of its node, whatever characters the text has besides line
feeds, and depths in pre-order tell which nodes are above which. So trees with one outline are one
tree.
-/

namespace ArchLint.Syntax

/-- What an outline says of a node. -/
structure Entry where
  depth : Nat
  kind : Kind
  text : Option String
  line : Nat
  deriving DecidableEq

namespace Entry

def quoted : Option String → List Char
  | some text => " `".toList ++ (text.toList ++ ['`'])
  | none => []

def details (e : Entry) : List Char :=
  ' ' :: '@' :: (Nat.toDigits 10 e.line ++ quoted e.text)

def written (e : Entry) : List Char :=
  List.replicate (2 * e.depth) ' ' ++ (e.kind.tag.toList ++ e.details)

end Entry

theorem Kind.ofTag?_tag (k : Kind) : ofTag? k.tag = some k := by
  cases k <;> decide

theorem Kind.tag_injective {k k' : Kind} (h : k.tag = k'.tag) : k = k' := by
  have hk := k.ofTag?_tag
  rw [h, k'.ofTag?_tag] at hk
  exact (Option.some.inj hk).symm

def Kind.isTagPart (c : Char) : Bool :=
  c ≠ ' ' && c ≠ '\n'

theorem Kind.isTagPart_of_mem (k : Kind) : ∀ c ∈ k.tag.toList, isTagPart c = true := by
  rw [← List.all_eq_true]
  cases k <;> decide

theorem Kind.tag_ne_nil (k : Kind) : k.tag.toList ≠ [] := by
  cases k <;> decide

/-- The text is cut where the first character stands that is not of one sort. -/
structure Parted (p : Char → Bool) (front back : List Char) : Prop where
  front : ∀ c ∈ front, p c = true
  back : ∀ c ∈ back.head?, p c = false

theorem Parted.takeWhile_eq {p : Char → Bool} {front back : List Char}
    (h : Parted p front back) : (front ++ back).takeWhile p = front := by
  rw [List.takeWhile_append_of_pos h.front]
  cases back with
  | nil => exact List.append_nil _
  | cons c back => rw [List.takeWhile_cons_of_neg (by simp [h.back c rfl]), List.append_nil]

theorem Parted.unique {p : Char → Bool} {front back front' back' : List Char}
    (h : Parted p front back) (h' : Parted p front' back')
    (heq : front ++ back = front' ++ back') : front = front' ∧ back = back' := by
  have hfront : front = front' := by rw [← h.takeWhile_eq, heq, h'.takeWhile_eq]
  exact ⟨hfront, List.append_cancel_left (hfront ▸ heq)⟩

namespace Entry

variable {e e' : Entry}

theorem parted_indentation (e : Entry) :
    Parted (· = ' ') (List.replicate (2 * e.depth) ' ') (e.kind.tag.toList ++ e.details) := by
  constructor
  · intro c hc
    exact decide_eq_true (List.eq_of_mem_replicate hc)
  · intro c hc
    rw [List.head?_append_of_ne_nil _ e.kind.tag_ne_nil] at hc
    have hpart := e.kind.isTagPart_of_mem c (List.mem_of_head? hc)
    simp only [Kind.isTagPart, Bool.and_eq_true, decide_eq_true_eq] at hpart
    exact decide_eq_false hpart.1

theorem parted_tag (e : Entry) : Parted Kind.isTagPart e.kind.tag.toList e.details := by
  refine ⟨e.kind.isTagPart_of_mem, ?_⟩
  rintro c ⟨⟩
  rfl

theorem parted_line (e : Entry) :
    Parted Char.isDigit (Nat.toDigits 10 e.line) (quoted e.text) := by
  constructor
  · exact fun c hc => Nat.isDigit_of_mem_toDigits (by decide) (by decide) hc
  · cases e.text with
    | none => nofun
    | some text =>
      rintro c ⟨⟩
      rfl

theorem quoted_injective {text text' : Option String} (h : quoted text = quoted text') :
    text = text' := by
  cases text with
  | none =>
    cases text' with
    | none => rfl
    | some text' => cases h
  | some text =>
    cases text' with
    | none => cases h
    | some text' =>
      rw [String.toList_inj.mp (List.append_cancel_right (List.append_cancel_left h))]

theorem not_mem_written (h : ∀ text ∈ e.text, '\n' ∉ text.toList) : '\n' ∉ e.written := by
  have hindentation := e.parted_indentation.front '\n'
  have htag := e.kind.isTagPart_of_mem '\n'
  have hline := e.parted_line.front '\n'
  have hquoted : '\n' ∉ quoted e.text := by
    cases htext : e.text with
    | none => exact List.not_mem_nil
    | some text => simp [quoted, h text htext]
  intro hmem
  rw [written, details] at hmem
  simp only [List.mem_append, List.mem_cons] at hmem
  rcases hmem with hmem | hmem | hmem | hmem | hmem | hmem
  · cases hindentation hmem
  · cases htag hmem
  · cases hmem
  · cases hmem
  · cases hline hmem
  · exact hquoted hmem

theorem getLast?_written (e : Entry) : ∀ c ∈ e.written.getLast?, c.isDigit = true ∨ c = '`' := by
  have hne : Nat.toDigits 10 e.line ++ quoted e.text ≠ [] :=
    List.append_ne_nil_of_left_ne_nil Nat.toDigits_ne_nil _
  have hlast : e.written.getLast? = (Nat.toDigits 10 e.line ++ quoted e.text).getLast? := by
    rw [written, details, ← List.append_assoc, List.append_cons, List.append_cons,
      List.getLast?_append_of_ne_nil _ hne]
  intro c hc
  rw [hlast] at hc
  cases htext : e.text with
  | none =>
    rw [htext, quoted, List.append_nil] at hc
    exact .inl (e.parted_line.front c (List.mem_of_getLast? hc))
  | some text =>
    rw [htext, quoted, ← List.append_assoc, ← List.append_assoc, List.getLast?_concat] at hc
    exact .inr (Option.mem_some_iff.mp hc).symm

/-- A line tells all that an outline says of its node. -/
theorem written_injective (h : e.written = e'.written) : e = e' := by
  obtain ⟨hindentation, hrest⟩ := e.parted_indentation.unique e'.parted_indentation h
  obtain ⟨htag, hdetails⟩ := e.parted_tag.unique e'.parted_tag hrest
  obtain ⟨hline, hquoted⟩ := e.parted_line.unique e'.parted_line
    (List.cons.inj (List.cons.inj hdetails).2).2
  have hdepth : e.depth = e'.depth := by
    have hlength := congrArg List.length hindentation
    simp only [List.length_replicate] at hlength
    omega
  have hnumber : e.line = e'.line := by
    rw [← Nat.ofDigitChars_ten_toDigits (n := e.line), hline, Nat.ofDigitChars_ten_toDigits]
  have hkind := Kind.tag_injective (String.toList_inj.mp htag)
  obtain ⟨depth, kind, text, line⟩ := e
  obtain ⟨depth', kind', text', line'⟩ := e'
  rw [Entry.mk.injEq]
  exact ⟨hdepth, hkind, quoted_injective hquoted, hnumber⟩

end Entry

namespace Term

mutual

def entries (depth : Nat) : Term → List Entry
  | .node kind text line children => ⟨depth, kind, text, line⟩ :: entriesAll (depth + 1) children

def entriesAll (depth : Nat) : List Term → List Entry
  | [] => []
  | T :: Ts => entries depth T ++ entriesAll depth Ts

end

/-- What follows the nodes of a term at this depth: the outline goes on no deeper. -/
def Returns (depth : Nat) (rest : List Entry) : Prop :=
  ∀ e ∈ rest.head?, e.depth ≤ depth

variable {depth : Nat} {rest rest' : List Entry}

theorem head?_entries (depth : Nat) (T : Term) (rest : List Entry) :
    (entries depth T ++ rest).head? = some ⟨depth, T.kind, T.text, T.line⟩ := by
  obtain ⟨kind, text, line, children⟩ := T
  rfl

theorem returns_entriesAll (Ts : List Term) (h : ∀ e ∈ rest.head?, e.depth < depth) :
    Returns depth (entriesAll depth Ts ++ rest) := by
  intro e he
  cases Ts with
  | nil => exact Nat.le_of_lt (h e he)
  | cons T Ts =>
    rw [entriesAll, List.append_assoc, head?_entries] at he
    obtain rfl := Option.mem_some_iff.mp he
    exact Nat.le_refl depth

theorem not_returned {T : Term} {Ts : List Term}
    (h : rest = entriesAll depth (T :: Ts) ++ rest')
    (hrest : ∀ e ∈ rest.head?, e.depth < depth) : False := by
  rw [h, entriesAll, List.append_assoc, head?_entries] at hrest
  exact Nat.lt_irrefl _ (hrest _ rfl)

mutual

/-- The entries of a term tell the term and where it ends. -/
theorem entries_injective : ∀ {T U : Term} {depth : Nat} {rest rest' : List Entry},
    entries depth T ++ rest = entries depth U ++ rest' → Returns depth rest →
      Returns depth rest' → T = U ∧ rest = rest'
  | .node kind text line children, .node kind' text' line' children', depth, rest, rest', h,
      hrest, hrest' => by
    obtain ⟨hentry, hchildren⟩ := List.cons.inj h
    obtain ⟨rfl, rfl⟩ := entriesAll_injective hchildren
      (fun e he => Nat.lt_succ_of_le (hrest e he)) fun e he => Nat.lt_succ_of_le (hrest' e he)
    cases hentry
    exact ⟨rfl, rfl⟩

theorem entriesAll_injective : ∀ {Ts Us : List Term} {depth : Nat} {rest rest' : List Entry},
    entriesAll depth Ts ++ rest = entriesAll depth Us ++ rest' →
      (∀ e ∈ rest.head?, e.depth < depth) → (∀ e ∈ rest'.head?, e.depth < depth) →
        Ts = Us ∧ rest = rest'
  | [], [], _, _, _, h, _, _ => ⟨rfl, h⟩
  | [], _ :: _, _, _, _, h, hrest, _ => (not_returned h hrest).elim
  | _ :: _, [], _, _, _, h, _, hrest' => (not_returned h.symm hrest').elim
  | T :: Ts, U :: Us, depth, rest, rest', h, hrest, hrest' => by
    rw [entriesAll, entriesAll, List.append_assoc, List.append_assoc] at h
    obtain ⟨rfl, hmore⟩ := entries_injective h (returns_entriesAll Ts hrest)
      (returns_entriesAll Us hrest')
    obtain ⟨rfl, rfl⟩ := entriesAll_injective hmore hrest hrest'
    exact ⟨rfl, rfl⟩

end

end Term

namespace Tree

open Term (places sizeAll)

def entry (t : Tree) (i : Nat) : Entry :=
  ⟨(t.ancestors i).length, t.kind i, t.text i, t.line i⟩

variable {t : Tree} {W : Term}

theorem IsLayout.depth_of_parent (h : t.IsLayout W) {n p : Nat} (hp : t.parent n = some p) :
    (t.ancestors n).length = (t.ancestors p).length + 1 := by
  rw [h.ancestors_eq (lt_size_of_parent hp) hp, List.length_cons]

mutual

theorem Holds.outlineOnto (h : t.IsLayout W) : ∀ {T : Term} {parent : Option Nat} {i : Nat},
    Holds t parent i T → ∀ rest, t.outlineOnto i (t.ancestors i).length rest =
      (List.range' i T.size).map (fun n => (n, (t.ancestors n).length)) ++ rest
  | .node kind text line children, parent, i, hi, rest => by
    rw [Tree.outlineOnto, hi.children, range'_size, List.map_cons, List.cons_append]
    exact congrArg _ (hi.2.outlineOnto h (Nat.lt_succ_self i) rest)

theorem HoldsAll.outlineOnto (h : t.IsLayout W) : ∀ {Ts : List Term} {i j : Nat},
    HoldsAll t (some j) i Ts → j < i → ∀ rest,
      (places i Ts).foldr (fun c rest => if j < c ∧ c < t.size then
        t.outlineOnto c ((t.ancestors j).length + 1) rest else rest) rest =
        (List.range' i (sizeAll Ts)).map (fun n => (n, (t.ancestors n).length)) ++ rest
  | [], _, _, _, _, _ => rfl
  | T :: Ts, i, j, hi, hj, rest => by
    rw [places, List.foldr_cons, if_pos ⟨hj, hi.1.lt_size⟩, hi.2.outlineOnto h (by omega) rest,
      ← h.depth_of_parent hi.1.parent_eq, hi.1.outlineOnto h, sizeAll, ← List.range'_append_1,
      List.map_append, List.append_assoc]

end

mutual

theorem Holds.entries (h : t.IsLayout W) : ∀ {T : Term} {parent : Option Nat} {i : Nat},
    Holds t parent i T → (List.range' i T.size).map t.entry = T.entries (t.ancestors i).length
  | .node kind text line children, parent, i, hi => by
    rw [range'_size, List.map_cons, Term.entries, entry, hi.kind, hi.text, hi.line]
    exact congrArg _ (hi.2.entries h)

theorem HoldsAll.entries (h : t.IsLayout W) : ∀ {Ts : List Term} {i j : Nat},
    HoldsAll t (some j) i Ts → (List.range' i (sizeAll Ts)).map t.entry =
      Term.entriesAll ((t.ancestors j).length + 1) Ts
  | [], _, _, _ => rfl
  | T :: Ts, i, j, hi => by
    rw [sizeAll, ← List.range'_append_1, List.map_append, hi.1.entries h, hi.2.entries h,
      h.depth_of_parent hi.1.parent_eq, Term.entriesAll]

end

def OneLined (t : Tree) : Prop :=
  ∀ i < t.size, ∀ text ∈ t.text i, '\n' ∉ text.toList

instance (t : Tree) : Decidable t.OneLined :=
  inferInstanceAs (Decidable (∀ i < t.size, ∀ text ∈ t.text i, '\n' ∉ text.toList))

theorem toList_dumpLine (t : Tree) (i : Nat) :
    (t.dumpLine i (t.ancestors i).length).toList = (t.entry i).written ++ ['\n'] := by
  rw [dumpLine, entry, Entry.written, Entry.details]
  cases t.text i <;> simp [Entry.quoted, String.toList_append, Nat.repr]

theorem IsLayout.depth_root (h : t.IsLayout W) : (t.ancestors root).length = 0 := by
  rw [ancestors, h.holds.parent_eq]
  rfl

theorem IsLayout.outline_eq (h : t.IsLayout W) :
    t.outline = (List.range t.size).map fun i => (i, (t.ancestors i).length) := by
  have houtline := h.holds.outlineOnto h []
  rw [h.depth_root, List.append_nil, ← h.size] at houtline
  rw [outline, houtline, List.range_eq_range', root]

theorem IsLayout.toList_dump (h : t.IsLayout W) : t.dump.toList =
    (List.range t.size).flatMap fun i => (t.entry i).written ++ ['\n'] := by
  rw [dump, h.outline_eq, String.toList_join, List.map_map, List.flatMap_map]
  exact List.flatMap_congr fun i _ => t.toList_dumpLine i

theorem OneLined.not_mem_written (h : t.OneLined) {i : Nat} (hi : i < t.size) :
    '\n' ∉ (t.entry i).written :=
  Entry.not_mem_written (h i hi)

theorem OneLined.lines_flatMap (h : t.OneLined) {is : List Nat} (his : ∀ i ∈ is, i < t.size) :
    Text.lines (is.flatMap fun i => (t.entry i).written ++ ['\n']) =
      is.map fun i => (t.entry i).written := by
  induction is with
  | nil => rfl
  | cons i is ih =>
    obtain ⟨hi, his⟩ := List.forall_mem_cons.mp his
    have hlast : ∀ c ∈ (t.entry i).written.getLast?, c ≠ '\r' := by
      rintro c hc rfl
      rcases (t.entry i).getLast?_written _ hc with hdigit | hquote
      · cases hdigit
      · cases hquote
    rw [List.flatMap_cons, List.append_assoc, List.singleton_append,
      Text.lines_append_newline (h.not_mem_written hi) hlast, ih his, List.map_cons]

theorem IsLayout.lines_dump (h : t.IsLayout W) (hl : t.OneLined) :
    Text.lines t.dump.toList = (List.range t.size).map fun i => (t.entry i).written := by
  rw [h.toList_dump]
  exact hl.lines_flatMap fun i hi => List.mem_range.mp hi

theorem IsLayout.entries_eq (h : t.IsLayout W) :
    (List.range t.size).map t.entry = W.entries 0 := by
  rw [← h.depth_root, ← h.holds.entries h, ← h.size, List.range_eq_range', root]

/-- Depths and labels in pre-order tell the whole tree. -/
theorem eq_of_map_entry {t u : Tree} (ht : t.Finished) (hu : u.Finished)
    (h : (List.range t.size).map t.entry = (List.range u.size).map u.entry) : t = u := by
  obtain ⟨_, ht⟩ := ht
  obtain ⟨_, hu⟩ := hu
  obtain ⟨T, -, -, rfl⟩ := exists_term_of_ofSteps ht
  obtain ⟨U, -, -, rfl⟩ := exists_term_of_ofSteps hu
  rw [(isLayout_tree T).entries_eq, (isLayout_tree U).entries_eq] at h
  rw [← List.append_nil (T.entries 0), ← List.append_nil (U.entries 0)] at h
  rw [(Term.entries_injective h nofun nofun).1]

/-- Finished trees whose texts have no line feeds are told apart by their outlines: if these are the
same, all nodes agree in kind, text, line, parent and children. The outline of such a tree has a
line for each node, in their order, indented by two blanks for every node above. -/
theorem dump_determines {t u : Tree} (ht : t.Finished) (hu : u.Finished) (htl : t.OneLined)
    (hul : u.OneLined) :
    (t.dump = u.dump → t = u) ∧
      Text.lines t.dump.toList = (List.range t.size).map fun i => (t.entry i).written := by
  obtain ⟨T, -, hT⟩ := ht.exists_isLayout
  obtain ⟨U, -, hU⟩ := hu.exists_isLayout
  refine ⟨fun hdump => eq_of_map_entry ht hu ?_, hT.lines_dump htl⟩
  have hlines : ((List.range t.size).map t.entry).map Entry.written =
      ((List.range u.size).map u.entry).map Entry.written := by
    rw [List.map_map, List.map_map]
    exact (hT.lines_dump htl).symm.trans ((congrArg (Text.lines ·.toList) hdump).trans
      (hU.lines_dump hul))
  exact List.map_injective_iff.mpr (fun _ _ h => Entry.written_injective h) hlines

theorem dump_determines_depth :
    ∃ t u : Tree, t.Finished ∧ u.Finished ∧ t.OneLined ∧ u.OneLined ∧ t.dump ≠ u.dump ∧
      (List.range t.size).map (fun i => (t.kind i, t.text i, t.line i)) =
        (List.range u.size).map (fun i => (u.kind i, u.text i, u.line i)) ∧
      Text.lines t.dump.toList =
        ["COMPILATION_UNIT @1", "  SLIST @1", "    LITERAL @2 `x` @3  IDENT`"].map String.toList := by
  have h : ∃ t u : Tree,
      ofSteps [.start .compilationUnit none 1, .start .slist none 1,
        .leaf .literal (some "x` @3  IDENT") 2, .finish, .finish] = .ok t ∧
      ofSteps [.start .compilationUnit none 1, .leaf .slist none 1,
        .leaf .literal (some "x` @3  IDENT") 2, .finish] = .ok u ∧
      t.OneLined ∧ u.OneLined ∧ t ≠ u ∧
      (List.range t.size).map (fun i => (t.kind i, t.text i, t.line i)) =
        (List.range u.size).map (fun i => (u.kind i, u.text i, u.line i)) ∧
      (List.range t.size).map (fun i => (t.entry i).written) =
        ["COMPILATION_UNIT @1", "  SLIST @1", "    LITERAL @2 `x` @3  IDENT`"].map String.toList :=
    ⟨_, _, rfl, rfl, by decide, by decide, by decide, rfl, by cbv⟩
  obtain ⟨t, u, ht, hu, htl, hul, hne, hlabels, hlines⟩ := h
  obtain ⟨hsame, hdump⟩ := dump_determines ⟨_, ht⟩ ⟨_, hu⟩ htl hul
  exact ⟨t, u, ⟨_, ht⟩, ⟨_, hu⟩, htl, hul, fun h => hne (hsame h), hlabels, hdump.trans hlines⟩

end Tree

end ArchLint.Syntax
