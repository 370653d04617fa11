import Mathlib.Data.List.DropRight
import ArchLint.Text.Blank
import ArchLint.Text.Segment

/-!
# Cutting texts

What remains of a text when blanks are taken off its ends, where a word first occurs in it, and
what stands between the occurrences of a separator. Each is said of the text alone, and the
operations find exactly that.
-/

namespace ArchLint.Text

variable {sep c : Char} {word cs left right before rest : List Char}

def AllBlank (cs : List Char) : Prop :=
  ∀ c ∈ cs, isBlank c = true

instance (cs : List Char) : Decidable (AllBlank cs) :=
  List.decidableBAll _ cs

def EndsBare (cs : List Char) : Prop :=
  ∀ c ∈ cs.getLast?, isBlank c = false

theorem trimRight_eq (cs : List Char) : trimRight cs = cs.rdropWhile isBlank := rfl

theorem endsBare_iff : EndsBare cs ↔ trimRight cs = cs := by
  rw [trimRight_eq, List.rdropWhile_eq_self_iff]
  constructor
  · intro h hne hblank
    rw [h _ (List.getLast?_eq_some_getLast hne)] at hblank
    cases hblank
  · intro h c hc
    obtain ⟨hne, rfl⟩ := List.mem_getLast?_eq_getLast hc
    exact Bool.eq_false_iff.mpr (h hne)

theorem endsBare_trimRight (cs : List Char) : EndsBare (trimRight cs) := by
  rw [endsBare_iff]
  exact List.rdropWhile_idempotent _ _

theorem endsBare_trim (cs : List Char) : EndsBare (trim cs) :=
  endsBare_trimRight _

theorem EndsBare.of_append (h : EndsBare (left ++ right)) : EndsBare right := by
  intro c hc
  apply h
  rw [List.getLast?_append, Option.mem_def.mp hc]
  rfl

theorem endsBare_append_singleton (hc : isBlank c = false) : EndsBare (cs ++ [c]) := by
  intro d hd
  rw [List.getLast?_concat, Option.mem_some_iff] at hd
  rwa [← hd]

theorem EndsBare.dropWhile (h : EndsBare cs) : EndsBare (cs.dropWhile isBlank) := by
  rw [← List.takeWhile_append_dropWhile (p := isBlank) (l := cs)] at h
  exact h.of_append

theorem EndsBare.trim_eq (h : EndsBare cs) : trim cs = cs.dropWhile isBlank :=
  endsBare_iff.mp h.dropWhile

theorem trimRight_append_blank (hright : AllBlank right) :
    trimRight (cs ++ right) = trimRight cs := by
  rw [trimRight, List.reverse_append, List.dropWhile_append_of_pos]
  · rfl
  · intro c hc
    exact hright c (List.mem_reverse.mp hc)

theorem trimRight_append_cons (hc : isBlank c = false) (left right : List Char) :
    trimRight (left ++ c :: right) = left ++ c :: trimRight right := by
  have hne : ¬ isBlank c = true := by simp [hc]
  rw [trimRight, trimRight, List.reverse_append, List.reverse_cons, List.append_assoc,
    List.singleton_append, List.dropWhile_append]
  split
  · next hempty =>
    rw [List.dropWhile_cons_of_neg hne, List.isEmpty_iff.mp hempty]
    simp
  · simp

theorem trim_pad (hleft : AllBlank left) (hright : AllBlank right) :
    trim (left ++ (cs ++ right)) = trim cs := by
  rw [trim, trim, List.dropWhile_append_of_pos hleft, List.dropWhile_append]
  split
  · next hempty =>
    have hnil : right.dropWhile isBlank = [] := by
      rw [List.dropWhile_eq_nil_iff]
      exact hright
    rw [hnil, List.isEmpty_iff.mp hempty]
  · exact trimRight_append_blank hright

theorem trim_trimRight (cs : List Char) : trim (trimRight cs) = trim cs := by
  have hblank : AllBlank (cs.rtakeWhile isBlank) := fun c hc => List.mem_rtakeWhile_imp hc
  have hpad : trim ([] ++ (trimRight cs ++ cs.rtakeWhile isBlank)) = trim (trimRight cs) :=
    trim_pad (List.forall_mem_nil _) hblank
  rwa [List.nil_append, trimRight_eq, List.rdropWhile_append_rtakeWhile, eq_comm] at hpad

theorem trim_blank (h : AllBlank cs) : trim cs = [] := by
  rw [trim, List.dropWhile_eq_nil_iff.mpr h]
  rfl

theorem trim_cons_of_bare (hc : isBlank c = false) (h : EndsBare (c :: cs)) :
    trim (c :: cs) = c :: cs := by
  rw [h.trim_eq, List.dropWhile_cons_of_neg (by simp [hc])]

/-- A word that does not begin with a blank is met behind the blanks at the front. -/
theorem dropWhile_eq_append_iff (hc : isBlank c = false) :
    cs.dropWhile isBlank = c :: rest ↔ ∃ blanks, AllBlank blanks ∧ cs = blanks ++ c :: rest := by
  constructor
  · intro h
    refine ⟨cs.takeWhile isBlank, fun d hd => List.mem_takeWhile_imp hd, ?_⟩
    rw [← h, List.takeWhile_append_dropWhile]
  · rintro ⟨blanks, hblanks, rfl⟩
    rw [List.dropWhile_append_of_pos hblanks, List.dropWhile_cons_of_neg (by simp [hc])]

/-- `word` occurs in `cs` between `before` and `rest`, and nowhere further to the front. -/
structure FirstAt (word cs before rest : List Char) : Prop where
  occurs : cs = before ++ (word ++ rest)
  first : ∀ before' rest', cs = before' ++ (word ++ rest') → before.length ≤ before'.length

theorem FirstAt.unique {before' rest' : List Char} (h : FirstAt word cs before rest)
    (h' : FirstAt word cs before' rest') : before = before' ∧ rest = rest' := by
  have hlength : before.length = before'.length :=
    Nat.le_antisymm (h.first _ _ h'.occurs) (h'.first _ _ h.occurs)
  obtain ⟨hbefore, hrest⟩ := List.append_inj (h.occurs.symm.trans h'.occurs) hlength
  exact ⟨hbefore, List.append_cancel_left hrest⟩

theorem firstAt_nil (rest : List Char) : FirstAt word (word ++ rest) [] rest :=
  ⟨rfl, fun _ _ _ => Nat.zero_le _⟩

theorem firstAt_cons (h : word.isPrefixOf? (c :: cs) = none) :
    FirstAt word (c :: cs) (c :: before) rest ↔ FirstAt word cs before rest := by
  have hshift : ∀ before' rest', c :: cs = before' ++ (word ++ rest') →
      ∃ b, before' = c :: b ∧ cs = b ++ (word ++ rest') := by
    intro before' rest' hcs
    cases before' with
    | nil =>
      rw [List.isPrefixOf?_eq_some_iff_append_eq.mpr (show word ++ rest' = c :: cs from hcs.symm)]
        at h
      cases h
    | cons b before' =>
      obtain ⟨rfl, htail⟩ := List.cons.inj hcs
      exact ⟨before', rfl, htail⟩
  constructor
  · intro hfirst
    refine ⟨(List.cons.inj hfirst.occurs).2, fun before' rest' hcs => ?_⟩
    exact Nat.le_of_succ_le_succ (hfirst.first (c :: before') rest' (by rw [hcs]; rfl))
  · intro hfirst
    refine ⟨by rw [hfirst.occurs]; rfl, fun before' rest' hcs => ?_⟩
    obtain ⟨b, rfl, hb⟩ := hshift before' rest' hcs
    exact Nat.succ_le_succ (hfirst.first b rest' hb)

theorem firstAt_of_splitFirst (h : splitFirst word cs = some (before, rest)) :
    FirstAt word cs before rest := by
  induction cs generalizing before with
  | nil =>
    obtain ⟨r, hr, heq⟩ := Option.map_eq_some_iff.mp h
    obtain ⟨rfl, rfl⟩ := Prod.mk.inj heq
    have hword : FirstAt word (word ++ r) [] r := firstAt_nil r
    rwa [List.isPrefixOf?_eq_some_iff_append_eq.mp hr] at hword
  | cons c cs ih =>
    rw [splitFirst] at h
    cases hstart : word.isPrefixOf? (c :: cs) with
    | some r =>
      rw [hstart] at h
      cases h
      have hword : FirstAt word (word ++ rest) [] rest := firstAt_nil rest
      rwa [List.isPrefixOf?_eq_some_iff_append_eq.mp hstart] at hword
    | none =>
      rw [hstart] at h
      obtain ⟨⟨b, r⟩, hsplit, heq⟩ := Option.map_eq_some_iff.mp h
      cases heq
      exact (firstAt_cons hstart).mpr (ih hsplit)

theorem exists_splitFirst (h : cs = before ++ (word ++ rest)) :
    ∃ split, splitFirst word cs = some split := by
  induction cs generalizing before with
  | nil =>
    obtain ⟨rfl, hword⟩ := List.append_eq_nil_iff.mp h.symm
    obtain ⟨rfl, rfl⟩ := List.append_eq_nil_iff.mp hword
    exact ⟨_, rfl⟩
  | cons c cs ih =>
    rw [splitFirst]
    cases hstart : word.isPrefixOf? (c :: cs) with
    | some r => exact ⟨_, rfl⟩
    | none =>
      cases before with
      | nil =>
        rw [List.isPrefixOf?_eq_some_iff_append_eq.mpr (show word ++ rest = c :: cs from h.symm)]
          at hstart
        cases hstart
      | cons b before =>
        obtain ⟨split, hsplit⟩ := ih (List.cons.inj h).2
        exact ⟨_, by rw [hsplit]; rfl⟩

theorem splitFirst_eq_some_iff :
    splitFirst word cs = some (before, rest) ↔ FirstAt word cs before rest := by
  constructor
  · exact firstAt_of_splitFirst
  · intro h
    obtain ⟨⟨b, r⟩, hsplit⟩ := exists_splitFirst h.occurs
    obtain ⟨rfl, rfl⟩ := h.unique (firstAt_of_splitFirst hsplit)
    exact hsplit

theorem firstAt_singleton_iff :
    FirstAt [c] cs before rest ↔ cs = before ++ c :: rest ∧ c ∉ before := by
  constructor
  · intro h
    refine ⟨h.occurs, fun hmem => ?_⟩
    obtain ⟨b, r, rfl⟩ := List.append_of_mem hmem
    have hle := h.first b (r ++ c :: rest) (by rw [h.occurs]; simp)
    rw [List.length_append, List.length_cons] at hle
    omega
  · rintro ⟨rfl, hnot⟩
    refine ⟨rfl, fun before' rest' hcs => ?_⟩
    by_contra hlt
    apply hnot
    have hget := congrArg (fun l => l[before'.length]?) hcs
    simp only [List.singleton_append, List.getElem?_append_right (Nat.le_refl _), Nat.sub_self,
      List.getElem?_cons_zero] at hget
    rw [List.getElem?_append_left (Nat.lt_of_not_le hlt)] at hget
    exact List.mem_of_getElem? hget

theorem splitFirst_singleton_eq_some_iff :
    splitFirst [c] cs = some (before, rest) ↔ cs = before ++ c :: rest ∧ c ∉ before := by
  rw [splitFirst_eq_some_iff, firstAt_singleton_iff]

/-- What a text first shows it also shows with more behind it. -/
theorem FirstAt.append (h : FirstAt word (before ++ word) before []) (rest : List Char) :
    FirstAt word (before ++ (word ++ rest)) before rest := by
  refine ⟨rfl, fun before' rest' hcs => ?_⟩
  by_contra hlt
  -- an earlier occurrence would end before `rest` begins
  have hlength : (before' ++ word).length ≤ (before ++ word).length := by
    simp only [List.length_append]
    omega
  have hstart : before' ++ word <+: before ++ word := by
    apply List.prefix_of_prefix_length_le ?_ ?_ hlength
    · exact before ++ (word ++ rest)
    · exact ⟨rest', by rw [hcs]; simp⟩
    · exact ⟨rest, by simp⟩
  obtain ⟨more, hmore⟩ := hstart
  exact hlt (h.first before' more (by rw [← hmore]; simp))

/-- The text is made of these pieces, in this order, with `sep` between them and in none of
them. -/
structure Cut (sep : Char) (cs : List Char) (pieces : List (List Char)) : Prop where
  joined : joinSegments sep pieces = cs
  nonempty : pieces ≠ []
  free : ∀ piece ∈ pieces, sep ∉ piece

theorem joinSegments_consSegment (c : Char) {pieces : List (List Char)} (h : pieces ≠ []) :
    joinSegments sep (consSegment c pieces) = c :: joinSegments sep pieces := by
  rcases pieces with _ | ⟨s, _ | ⟨t, ts⟩⟩
  · exact absurd rfl h
  · rfl
  · rfl

theorem joinSegments_append {pieces more : List (List Char)} (h : pieces ≠ [])
    (h' : more ≠ []) :
    joinSegments sep (pieces ++ more) =
      joinSegments sep pieces ++ sep :: joinSegments sep more := by
  induction pieces with
  | nil => exact absurd rfl h
  | cons piece pieces ih =>
    cases pieces with
    | nil =>
      cases more with
      | nil => exact absurd rfl h'
      | cons next rest => rfl
    | cons next rest =>
      have hrest := ih (List.cons_ne_nil next rest)
      rw [List.cons_append] at hrest
      rw [List.cons_append, List.cons_append, joinSegments, hrest, joinSegments, List.append_assoc]
      rfl

theorem segments_cons (sep c : Char) (cs : List Char) :
    segments sep (c :: cs) =
      if c = sep then [] :: segments sep cs else consSegment c (segments sep cs) := rfl

theorem segments_ne_nil (sep : Char) (cs : List Char) : segments sep cs ≠ [] := by
  cases cs with
  | nil => exact List.cons_ne_nil _ _
  | cons c cs =>
    rw [segments_cons]
    split
    · exact List.cons_ne_nil _ _
    · cases segments sep cs <;> exact List.cons_ne_nil _ _

theorem cut_segments (sep : Char) (cs : List Char) : Cut sep cs (segments sep cs) := by
  induction cs with
  | nil => exact ⟨rfl, List.cons_ne_nil _ _, by simp [segments]⟩
  | cons c cs ih =>
    rw [segments_cons]
    split
    · next hc =>
      subst hc
      refine ⟨?_, List.cons_ne_nil _ _, ?_⟩
      · have hjoined := ih.joined
        cases hs : segments c cs with
        | nil => exact absurd hs (segments_ne_nil c cs)
        | cons s ss =>
          rw [hs] at hjoined
          rw [joinSegments, hjoined]
          rfl
      · intro piece hpiece
        rcases List.mem_cons.mp hpiece with rfl | hpiece
        · exact List.not_mem_nil
        · exact ih.free piece hpiece
    · next hc =>
      refine ⟨?_, ?_, ?_⟩
      · rw [joinSegments_consSegment c ih.nonempty, ih.joined]
      · cases segments sep cs <;> exact List.cons_ne_nil _ _
      · cases hs : segments sep cs with
        | nil => exact absurd hs (segments_ne_nil sep cs)
        | cons s ss =>
          intro piece hpiece
          rcases List.mem_cons.mp hpiece with rfl | hpiece
          · have hfree := ih.free s (by rw [hs]; exact List.mem_cons_self)
            simp [hfree, Ne.symm hc]
          · exact ih.free piece (by rw [hs]; exact List.mem_cons_of_mem _ hpiece)

theorem eq_of_segments_eq_singleton {s : List Char} (h : segments sep cs = [s]) : s = cs := by
  have hjoined := (cut_segments sep cs).joined
  rwa [h] at hjoined

/-- A piece without separator is the beginning of the first segment. -/
theorem segments_append {s : List Char} (hs : sep ∉ s) (cs : List Char) :
    segments sep (s ++ sep :: cs) = s :: segments sep cs := by
  induction s with
  | nil => rw [List.nil_append, segments_cons, if_pos rfl]
  | cons c s ih =>
    rw [List.mem_cons, not_or] at hs
    rw [List.cons_append, segments_cons, if_neg (Ne.symm hs.1), ih hs.2]
    rfl

theorem segments_of_not_mem {s : List Char} (hs : sep ∉ s) : segments sep s = [s] := by
  induction s with
  | nil => rfl
  | cons c s ih =>
    rw [List.mem_cons, not_or] at hs
    rw [segments_cons, if_neg (Ne.symm hs.1), ih hs.2]
    rfl

theorem segments_append_sep (left right : List Char) :
    segments sep (left ++ sep :: right) = segments sep left ++ segments sep right := by
  induction left with
  | nil => rw [List.nil_append, segments_cons, if_pos rfl]; rfl
  | cons c left ih =>
    rw [List.cons_append, segments_cons, segments_cons, ih]
    split
    · rfl
    · cases hs : segments sep left with
      | nil => exact absurd hs (segments_ne_nil sep left)
      | cons s ss => rfl

/-- There is one way to cut a text. -/
theorem Cut.segments_eq {pieces : List (List Char)} (h : Cut sep cs pieces) :
    segments sep cs = pieces := by
  obtain ⟨rfl, hne, hfree⟩ := h
  induction pieces with
  | nil => exact absurd rfl hne
  | cons s pieces ih =>
    have hs := hfree s List.mem_cons_self
    cases pieces with
    | nil => exact segments_of_not_mem hs
    | cons t ts =>
      rw [joinSegments, segments_append hs, ih (List.cons_ne_nil _ _)]
      intro piece hpiece
      exact hfree piece (List.mem_cons_of_mem _ hpiece)

theorem dropEnding?_eq_some_iff {ending : List Char} :
    dropEnding? ending cs = some before ↔ cs = before ++ ending := by
  rw [dropEnding?, Option.map_eq_some_iff]
  constructor
  · rintro ⟨rest, hrest, rfl⟩
    have happend := List.isPrefixOf?_eq_some_iff_append_eq.mp hrest
    rw [← List.reverse_inj, ← happend]
    simp
  · rintro rfl
    refine ⟨before.reverse, ?_, List.reverse_reverse _⟩
    rw [List.isPrefixOf?_eq_some_iff_append_eq, List.reverse_append]

theorem isSome_dropEnding? {ending : List Char} :
    (dropEnding? ending cs).isSome = true ↔ ending <:+ cs := by
  rw [Option.isSome_iff_exists]
  simp only [dropEnding?_eq_some_iff]
  constructor
  · rintro ⟨before, rfl⟩
    exact List.suffix_append before ending
  · rintro ⟨before, rfl⟩
    exact ⟨before, rfl⟩

theorem segments_injective {cs ds : List Char} (h : segments sep cs = segments sep ds) :
    cs = ds := by
  rw [← (cut_segments sep cs).joined, h, (cut_segments sep ds).joined]

/-- The first segments of a text are those of the text itself or of what a separator follows. -/
theorem segments_prefix_iff {base : List Char} :
    segments sep base <+: segments sep cs ↔ cs = base ∨ ∃ more, cs = base ++ sep :: more := by
  constructor
  · rintro ⟨pieces, hpieces⟩
    by_cases hnil : pieces = []
    · left
      rw [hnil, List.append_nil] at hpieces
      exact (segments_injective hpieces).symm
    · right
      have hjoined := (cut_segments sep cs).joined
      rw [← hpieces, joinSegments_append (segments_ne_nil sep base) hnil,
        (cut_segments sep base).joined] at hjoined
      exact ⟨_, hjoined.symm⟩
  · rintro (rfl | ⟨more, rfl⟩)
    · exact List.prefix_rfl
    · rw [segments_append_sep]
      exact List.prefix_append _ _

theorem segments_suffix_iff {base : List Char} :
    segments sep base <:+ segments sep cs ↔ cs = base ∨ ∃ front, cs = front ++ sep :: base := by
  constructor
  · rintro ⟨pieces, hpieces⟩
    by_cases hnil : pieces = []
    · left
      rw [hnil, List.nil_append] at hpieces
      exact (segments_injective hpieces).symm
    · right
      have hjoined := (cut_segments sep cs).joined
      rw [← hpieces, joinSegments_append hnil (segments_ne_nil sep base),
        (cut_segments sep base).joined] at hjoined
      exact ⟨_, hjoined.symm⟩
  · rintro (rfl | ⟨front, rfl⟩)
    · exact List.suffix_rfl
    · rw [segments_append_sep]
      exact List.suffix_append _ _

end ArchLint.Text
