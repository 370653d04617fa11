import Mathlib.Data.Finset.Insert
import ArchLint.Allowance
import ArchLint.Proofs.Text.Cutting

/-!
# Directives

The grammar of a directive is said of the text of the first line comment alone. The reader finds
a directive exactly where the grammar has one, and reads back whatever names and reason were
written, with any blanks around them.
-/

namespace ArchLint.Allowance

open Text

variable {line code comment body rest : List Char} {pieces : List (List Char)}

/-- The parts of a line with a directive: the code in front of the comment, the comment, the text
between the parentheses and the text behind them. -/
structure Directive (line code comment body rest : List Char) : Prop where
  first : FirstAt "//".toList line code comment
  form : ∃ blanks, AllBlank blanks ∧ trim comment =
    "archcheck:".toList ++ (blanks ++ ("allow(".toList ++ (body ++ ')' :: rest)))
  closed : ')' ∉ body

/-- One of the pieces between the commas holds this name. -/
def Lists (body : List Char) (name : String) : Prop :=
  ∃ pieces, Cut ',' body pieces ∧ ∃ piece ∈ pieces, trim piece ≠ [] ∧ name.toList = trim piece

def GivesReason (rest : List Char) (reason : String) : Prop :=
  ∃ blanks more, AllBlank blanks ∧ trim rest =
      "reason=".toList ++ (blanks ++ '"' :: (reason.toList ++ '"' :: more)) ∧
    '"' ∉ reason.toList

theorem mem_eraseReps_loop {x a : String} {as acc : List String} :
    x ∈ List.eraseRepsBy.loop (· == ·) a as acc ↔ x ∈ acc ∨ x = a ∨ x ∈ as := by
  induction as generalizing a acc with
  | nil =>
    rw [List.eraseRepsBy.loop, List.mem_reverse, List.mem_cons]
    simp [or_comm]
  | cons b as ih =>
    rw [List.eraseRepsBy.loop]
    by_cases hab : a = b
    · subst hab
      simp [ih]
    · rw [beq_eq_false_iff_ne.mpr hab]
      simp [ih, or_left_comm, or_assoc]

theorem pairwise_eraseReps_loop {a : String} {as acc : List String}
    (hacc : (acc.reverse ++ [a]).Pairwise (· < ·))
    (has : (a :: as).Pairwise fun x y => ¬ y < x) :
    (List.eraseRepsBy.loop (· == ·) a as acc).Pairwise (· < ·) := by
  induction as generalizing a acc with
  | nil =>
    rw [List.eraseRepsBy.loop, List.reverse_cons]
    exact hacc
  | cons b as ih =>
    rw [List.eraseRepsBy.loop]
    obtain ⟨hle, has⟩ := List.pairwise_cons.mp has
    by_cases hab : a = b
    · subst hab
      rw [beq_self_eq_true]
      exact ih hacc has
    · have hlt : a < b := by
        by_contra hnot
        exact hab (String.le_antisymm (String.not_lt.mp (hle b List.mem_cons_self))
          (String.not_lt.mp hnot))
      rw [beq_eq_false_iff_ne.mpr hab]
      refine ih ?_ has
      rw [List.reverse_cons, List.pairwise_append]
      refine ⟨hacc, List.pairwise_singleton _ _, fun x hx y hy => ?_⟩
      rw [List.mem_singleton.mp hy]
      rcases List.mem_append.mp hx with hx | hx
      · exact String.lt_trans ((List.pairwise_append.mp hacc).2.2 x hx a List.mem_cons_self) hlt
      · rwa [List.mem_singleton.mp hx]

theorem mem_nameSet {name : String} {names : List String} :
    name ∈ nameSet names ↔ name ∈ names := by
  have hsort : (name ∈ names.mergeSort fun a b => !decide (b < a)) ↔ name ∈ names :=
    List.mem_mergeSort
  rw [nameSet, ← hsort]
  cases names.mergeSort fun a b => !decide (b < a) with
  | nil => rfl
  | cons a as =>
    rw [List.mem_cons]
    exact mem_eraseReps_loop.trans (by simp)

theorem pairwise_nameSet (names : List String) : (nameSet names).Pairwise (· < ·) := by
  have hsorted : (names.mergeSort fun a b => !decide (b < a)).Pairwise fun x y => ¬ y < x := by
    have hle : ∀ a b : String, (!decide (b < a)) = true ↔ a ≤ b := by
      intro a b
      rw [Bool.not_eq_true', decide_eq_false_iff_not, String.not_lt]
    refine (List.pairwise_mergeSort ?_ ?_ names).imp fun h => ?_
    · intro a b c hab hbc
      rw [hle] at hab hbc ⊢
      exact String.le_trans hab hbc
    · intro a b
      rw [Bool.or_eq_true, hle, hle]
      exact String.le_total a b
    · exact String.not_lt.mpr ((hle _ _).mp h)
  rw [nameSet]
  cases hs : names.mergeSort fun a b => !decide (b < a) with
  | nil => exact List.Pairwise.nil
  | cons a as =>
    rw [hs] at hsorted
    exact pairwise_eraseReps_loop (List.pairwise_singleton _ _) hsorted

theorem mem_names {name : String} : name ∈ names body ↔ Lists body name := by
  have hpiece : ∀ piece : List Char,
      (if piece = [] then none else some (String.ofList piece)) = some name ↔
        piece ≠ [] ∧ name.toList = piece := by
    intro piece
    rw [Option.ite_none_left_eq_some, Option.some_inj, ← String.toList_inj, String.toList_ofList,
      @eq_comm _ piece name.toList]
  rw [names, List.mem_filterMap]
  constructor
  · rintro ⟨_, htrimmed, heq⟩
    obtain ⟨piece, hmem, rfl⟩ := List.mem_map.mp htrimmed
    exact ⟨segments ',' body, cut_segments ',' body, piece, hmem, (hpiece _).mp heq⟩
  · rintro ⟨pieces, hcut, piece, hmem, hname⟩
    rw [hcut.segments_eq]
    exact ⟨trim piece, List.mem_map_of_mem hmem, (hpiece _).mpr hname⟩

theorem names_cons_of_blank {c : Char} (hc : isBlank c = true) (cs : List Char) :
    names (c :: cs) = names cs := by
  have hcomma : c ≠ ',' := by
    rintro rfl
    cases hc
  rw [names, names, segments_cons, if_neg hcomma]
  cases segments ',' cs with
  | nil =>
    have hblank : trim [c] = [] := trim_blank (List.forall_mem_singleton.mpr hc)
    simp [consSegment, hblank]
  | cons s ss =>
    have hskip : trim (c :: s) = trim s := by
      rw [trim, trim, List.dropWhile_cons_of_pos hc]
    rw [consSegment, List.map_cons, List.map_cons, hskip]

theorem names_dropWhile (body : List Char) : names (body.dropWhile isBlank) = names body := by
  induction body with
  | nil => rfl
  | cons c cs ih =>
    cases hc : isBlank c with
    | true => rw [List.dropWhile_cons_of_pos hc, ih, names_cons_of_blank hc]
    | false => rw [List.dropWhile_cons_of_neg (by simp [hc])]

theorem after?_eq_some_iff {word : String} {cs rest : List Char} :
    after? word cs = some rest ↔ cs = word.toList ++ rest := by
  rw [after?, List.isPrefixOf?_eq_some_iff_append_eq, eq_comm]

theorem after?_trim_eq_some_iff {word : String} {c : Char} {w cs rest : List Char}
    (hcs : EndsBare cs) (hword : word.toList = c :: w) (hc : isBlank c = false) :
    after? word (trim cs) = some rest ↔
      ∃ blanks, AllBlank blanks ∧ cs = blanks ++ (word.toList ++ rest) := by
  rw [after?_eq_some_iff, hcs.trim_eq, hword]
  exact dropWhile_eq_append_iff hc

theorem reason?_eq_some_iff {reason : String} :
    reason? rest = some reason ↔ GivesReason rest reason := by
  have hbare : ∀ text, trim rest = "reason=".toList ++ text → EndsBare text := by
    intro text htext
    exact (htext ▸ endsBare_trim rest).of_append
  constructor
  · intro h
    obtain ⟨text, htext, h⟩ := Option.bind_eq_some_iff.mp h
    obtain ⟨quoted, hquoted, h⟩ := Option.bind_eq_some_iff.mp h
    obtain ⟨⟨inside, more⟩, hsplit, hinside⟩ := Option.bind_eq_some_iff.mp h
    rw [after?_eq_some_iff] at htext
    obtain ⟨blanks, hblanks, rfl⟩ :=
      (after?_trim_eq_some_iff (hbare text htext) rfl rfl).mp hquoted
    obtain ⟨rfl, hfree⟩ := splitFirst_singleton_eq_some_iff.mp hsplit
    obtain rfl := Option.some.inj hinside
    have hreason : (String.ofList inside).toList = inside := String.toList_ofList
    rw [GivesReason, hreason]
    exact ⟨blanks, more, hblanks, htext, hfree⟩
  · rintro ⟨blanks, more, hblanks, htext, hfree⟩
    have hquoted : after? "\"" (trim (blanks ++ '"' :: (reason.toList ++ '"' :: more))) =
        some (reason.toList ++ '"' :: more) :=
      (after?_trim_eq_some_iff (hbare _ htext) rfl rfl).mpr ⟨blanks, hblanks, rfl⟩
    have hsplit : splitFirst ['"'] (reason.toList ++ '"' :: more) = some (reason.toList, more) :=
      splitFirst_singleton_eq_some_iff.mpr ⟨rfl, hfree⟩
    rw [reason?, after?_eq_some_iff.mpr htext, Option.bind_eq_bind, Option.bind_some, hquoted]
    simp [hsplit]

theorem parse?_of_directive (h : Directive line code comment body rest) :
    parse? line =
      if nameSet (names body) = [] then none else some ⟨nameSet (names body), reason? rest⟩ := by
  obtain ⟨hfirst, ⟨blanks, hblanks, hform⟩, hclosed⟩ := h
  have hdirective := (hform ▸ endsBare_trim comment).of_append
  have hlist : EndsBare (body ++ ')' :: rest) := hdirective.of_append.of_append
  have hallow : after? "allow(" (trim (blanks ++ ("allow(".toList ++ (body ++ ')' :: rest)))) =
      some (body ++ ')' :: rest) :=
    (after?_trim_eq_some_iff hdirective rfl rfl).mpr ⟨blanks, hblanks, rfl⟩
  -- the reader drops the blanks in front of the list, which changes no name
  have hsplit : splitFirst [')'] (trim (body ++ ')' :: rest)) =
      some (body.dropWhile isBlank, rest) := by
    rw [splitFirst_singleton_eq_some_iff, hlist.trim_eq]
    constructor
    · rw [List.dropWhile_append]
      split
      · next hempty =>
        rw [List.isEmpty_iff.mp hempty]
        rfl
      · rfl
    · intro hmem
      exact hclosed (List.dropWhile_subset _ hmem)
  have hcomment : splitFirst ['/', '/'] line = some (code, comment) :=
    splitFirst_eq_some_iff.mpr hfirst
  rw [parse?, hcomment]
  simp only [Option.bind_eq_bind, Option.bind_some]
  rw [after?_eq_some_iff.mpr hform, Option.bind_some, hallow, Option.bind_some, hsplit,
    Option.bind_some, names_dropWhile]

theorem exists_directive_of_parse? {a : Allowance} (h : parse? line = some a) :
    ∃ code comment body rest, Directive line code comment body rest := by
  obtain ⟨⟨code, comment⟩, hfirst, h⟩ := Option.bind_eq_some_iff.mp h
  obtain ⟨text, htext, h⟩ := Option.bind_eq_some_iff.mp h
  obtain ⟨list, hlist, h⟩ := Option.bind_eq_some_iff.mp h
  obtain ⟨⟨body, rest⟩, hsplit, -⟩ := Option.bind_eq_some_iff.mp h
  rw [after?_eq_some_iff] at htext
  have hbare : EndsBare text := (htext ▸ endsBare_trim comment).of_append
  obtain ⟨blanks, hblanks, rfl⟩ := (after?_trim_eq_some_iff hbare rfl rfl).mp hlist
  obtain ⟨hbody, hfree⟩ := splitFirst_singleton_eq_some_iff.mp hsplit
  rw [hbare.of_append.of_append.trim_eq] at hbody
  -- the blanks that were trimmed off the list belong to the text between the parentheses
  have hwhole : list = list.takeWhile isBlank ++ body ++ ')' :: rest := by
    rw [List.append_assoc, ← hbody, List.takeWhile_append_dropWhile]
  refine ⟨code, comment, list.takeWhile isBlank ++ body, rest, splitFirst_eq_some_iff.mp hfirst,
    ⟨blanks, hblanks, by rw [← hwhole]; exact htext⟩, ?_⟩
  rw [List.mem_append, not_or]
  refine ⟨fun hmem => ?_, hfree⟩
  cases List.mem_takeWhile_imp hmem

/-- A line has an allowance if and only if a directive on it lists a name. -/
theorem exists_parse?_iff (line : List Char) :
    (∃ a, parse? line = some a) ↔ ∃ code comment body rest,
      Directive line code comment body rest ∧ ∃ name, Lists body name := by
  constructor
  · rintro ⟨a, ha⟩
    obtain ⟨code, comment, body, rest, h⟩ := exists_directive_of_parse? ha
    refine ⟨code, comment, body, rest, h, ?_⟩
    rw [parse?_of_directive h, Option.ite_none_left_eq_some] at ha
    obtain ⟨name, hname⟩ := List.exists_mem_of_ne_nil _ ha.1
    exact ⟨name, mem_names.mp (mem_nameSet.mp hname)⟩
  · rintro ⟨code, comment, body, rest, h, name, hname⟩
    have hne := List.ne_nil_of_mem (mem_nameSet.mpr (mem_names.mpr hname))
    exact ⟨_, by rw [parse?_of_directive h, if_neg hne]⟩

/-- What an allowance holds is what the directive says. -/
structure Holds (a : Allowance) (names : String → Prop) (reason : String → Prop) : Prop where
  sorted : a.rules.Pairwise (· < ·)
  mem_rules : ∀ name, name ∈ a.rules ↔ names name
  reason_eq : ∀ q, a.reason = some q ↔ reason q

theorem holds_of_parse? {a : Allowance} (ha : parse? line = some a)
    (h : Directive line code comment body rest) : a.Holds (Lists body) (GivesReason rest) := by
  rw [parse?_of_directive h, Option.ite_none_left_eq_some] at ha
  obtain rfl := Option.some.inj ha.2
  refine ⟨pairwise_nameSet _, fun name => ?_, fun q => reason?_eq_some_iff⟩
  exact mem_nameSet.trans mem_names

def Padded (text cs : List Char) : Prop :=
  ∃ left right, AllBlank left ∧ AllBlank right ∧ cs = left ++ (text ++ right)

structure Listable (name : String) : Prop where
  nonempty : name ≠ ""
  trimmed : trim name.toList = name.toList
  comma : ',' ∉ name.toList
  parenthesis : ')' ∉ name.toList

structure WritesNames (names : Finset String) (body : List Char) (pieces : List (List Char)) :
    Prop where
  joined : body = joinSegments ',' pieces
  piece : ∀ piece ∈ pieces, ∃ name ∈ names, Padded name.toList piece
  name : ∀ name ∈ names, ∃ piece ∈ pieces, Padded name.toList piece

/-- A reason as it is written behind the parentheses, or the blanks in its place. -/
def WritesReason : Option String → List Char → Prop
  | none, tail => AllBlank tail
  | some q, tail => ∃ blanks, AllBlank blanks ∧
    Padded ("reason=".toList ++ (blanks ++ '"' :: (q.toList ++ ['"']))) tail

def Writes (names : Finset String) (reason : Option String) (comment : List Char) : Prop :=
  ∃ left gap body pieces tail, AllBlank left ∧ AllBlank gap ∧ WritesNames names body pieces ∧
    WritesReason reason tail ∧ comment =
      left ++ ("archcheck:".toList ++ (gap ++ ("allow(".toList ++ (body ++ ')' :: tail))))

theorem AllBlank.not_mem {cs : List Char} {c : Char} (h : AllBlank cs) (hc : isBlank c = false) :
    c ∉ cs := by
  intro hmem
  rw [h c hmem] at hc
  cases hc

theorem Padded.not_mem {text cs : List Char} {c : Char} (h : Padded text cs)
    (hc : isBlank c = false) (htext : c ∉ text) : c ∉ cs := by
  obtain ⟨left, right, hleft, hright, rfl⟩ := h
  simp [htext, AllBlank.not_mem hleft hc, AllBlank.not_mem hright hc]

theorem Padded.trim_eq {text cs : List Char} (h : Padded text cs) : trim cs = trim text := by
  obtain ⟨left, right, hleft, hright, rfl⟩ := h
  exact trim_pad hleft hright

theorem not_mem_joinSegments {sep c : Char} (hc : c ≠ sep) (h : ∀ piece ∈ pieces, c ∉ piece) :
    c ∉ joinSegments sep pieces := by
  induction pieces with
  | nil => exact List.not_mem_nil
  | cons s pieces ih =>
    obtain ⟨hs, hrest⟩ := List.forall_mem_cons.mp h
    cases pieces with
    | nil => exact hs
    | cons t ts => simp [joinSegments, hs, hc, ih hrest]

namespace WritesNames

variable {names : Finset String}

theorem cut (h : WritesNames names body pieces) (hne : names.Nonempty)
    (hnames : ∀ name ∈ names, Listable name) : Cut ',' body pieces := by
  refine ⟨h.joined.symm, ?_, fun piece hpiece => ?_⟩
  · obtain ⟨name, hname⟩ := hne
    obtain ⟨piece, hpiece, -⟩ := h.name name hname
    exact List.ne_nil_of_mem hpiece
  · obtain ⟨name, hname, hpad⟩ := h.piece piece hpiece
    exact hpad.not_mem rfl (hnames name hname).comma

theorem lists_iff (h : WritesNames names body pieces) (hne : names.Nonempty)
    (hnames : ∀ name ∈ names, Listable name) (name : String) :
    Lists body name ↔ name ∈ names := by
  have htrim : ∀ n ∈ names, ∀ piece, Padded n.toList piece → trim piece = n.toList := by
    intro n hn piece hpad
    rw [hpad.trim_eq, (hnames n hn).trimmed]
  constructor
  · rintro ⟨pieces', hcut, piece, hpiece, -, hname⟩
    rw [← hcut.segments_eq, (h.cut hne hnames).segments_eq] at hpiece
    obtain ⟨n, hn, hpad⟩ := h.piece piece hpiece
    rw [htrim n hn piece hpad, String.toList_inj] at hname
    rwa [hname]
  · intro hname
    obtain ⟨piece, hpiece, hpad⟩ := h.name name hname
    refine ⟨pieces, h.cut hne hnames, piece, hpiece, ?_, (htrim name hname piece hpad).symm⟩
    rw [htrim name hname piece hpad]
    intro hnil
    exact (hnames name hname).nonempty (String.toList_eq_nil_iff.mp hnil)

theorem closed (h : WritesNames names body pieces) (hnames : ∀ name ∈ names, Listable name) :
    ')' ∉ body := by
  rw [h.joined]
  refine not_mem_joinSegments (by decide) fun piece hpiece => ?_
  obtain ⟨name, hname, hpad⟩ := h.piece piece hpiece
  exact hpad.not_mem rfl (hnames name hname).parenthesis

end WritesNames

theorem WritesReason.reason?_eq {reason : Option String} {tail : List Char}
    (h : WritesReason reason tail) (hfree : ∀ q ∈ reason, '"' ∉ q.toList) :
    reason? (trimRight tail) = reason := by
  cases reason with
  | none =>
    rw [Option.eq_none_iff_forall_ne_some]
    intro q hq
    obtain ⟨blanks, more, -, htext, -⟩ := reason?_eq_some_iff.mp hq
    rw [trim_trimRight, trim_blank h] at htext
    cases htext
  | some q =>
    obtain ⟨blanks, hblanks, hpad⟩ := h
    have hbare : EndsBare ("reason=".toList ++ (blanks ++ '"' :: (q.toList ++ ['"']))) := by
      have hend : EndsBare ("reason=".toList ++ (blanks ++ '"' :: q.toList) ++ ['"']) :=
        endsBare_append_singleton rfl
      simpa using hend
    rw [reason?_eq_some_iff]
    refine ⟨blanks, [], hblanks, ?_, hfree q rfl⟩
    rw [trim_trimRight]
    exact hpad.trim_eq.trans (trim_cons_of_bare rfl hbare)

theorem Writes.exists_directive {names : Finset String} {reason : Option String}
    (h : Writes names reason comment) (hnames : ∀ name ∈ names, Listable name)
    (hcode : FirstAt "//".toList (code ++ "//".toList) code []) :
    ∃ body pieces tail, WritesNames names body pieces ∧ WritesReason reason tail ∧
      Directive (code ++ ("//".toList ++ comment)) code comment body (trimRight tail) := by
  obtain ⟨left, gap, body, pieces, tail, hleft, hgap, hbody, htail, rfl⟩ := h
  refine ⟨body, pieces, tail, hbody, htail, hcode.append _, ⟨gap, hgap, ?_⟩, hbody.closed hnames⟩
  rw [trim, List.dropWhile_append_of_pos hleft]
  have htrim :
      trimRight ("archcheck:".toList ++ (gap ++ ("allow(".toList ++ body)) ++ ')' :: tail) =
        "archcheck:".toList ++ (gap ++ ("allow(".toList ++ body)) ++ ')' :: trimRight tail :=
    trimRight_append_cons rfl _ _
  simp only [List.append_assoc] at htrim
  exact htrim

/-- The reader accepts a line if and only if its first comment is a directive that lists a name,
and then holds the names and the reason of that directive; and whatever is written is read back. -/
theorem parse?_reads_directives :
    (∀ line, (∃ a, parse? line = some a) ↔ ∃ code comment body rest,
      Directive line code comment body rest ∧ ∃ name, Lists body name) ∧
    (∀ line a code comment body rest, parse? line = some a →
      Directive line code comment body rest → a.Holds (Lists body) (GivesReason rest)) ∧
    ∀ code comment names reason, FirstAt "//".toList (code ++ "//".toList) code [] →
      names.Nonempty → (∀ name ∈ names, Listable name) → (∀ q ∈ reason, '"' ∉ q.toList) →
      Writes names reason comment →
      ∃ a, parse? (code ++ ("//".toList ++ comment)) = some a ∧
        a.Holds (· ∈ names) (reason = some ·) := by
  refine ⟨exists_parse?_iff, fun _ _ _ _ _ _ => holds_of_parse?, ?_⟩
  intro code comment names reason hcode hne hnames hfree hwrites
  obtain ⟨body, pieces, tail, hbody, htail, h⟩ := hwrites.exists_directive hnames hcode
  have hlists := hbody.lists_iff hne hnames
  obtain ⟨name, hname⟩ := hne
  obtain ⟨a, ha⟩ := (exists_parse?_iff _).mpr ⟨_, _, _, _, h, name, (hlists name).mpr hname⟩
  have hholds := holds_of_parse? ha h
  refine ⟨a, ha, hholds.sorted, fun n => (hholds.mem_rules n).trans (hlists n), fun q => ?_⟩
  rw [hholds.reason_eq q, ← reason?_eq_some_iff, htail.reason?_eq hfree]

def padded : List Char :=
  "\u3000archcheck:\u00a0allow( b\u2003,\ta,b) reason=\u2028\"why\" ".toList

theorem writes_padded : Writes {"a", "b"} (some "why") padded := by
  have hb : Padded "b".toList " b\u2003".toList := ⟨[' '], ['\u2003'], by decide, by decide, rfl⟩
  have ha : Padded "a".toList "\ta".toList := ⟨['\t'], [], by decide, by decide, rfl⟩
  have hbare : Padded "b".toList "b".toList := ⟨[], [], by decide, by decide, rfl⟩
  have hlist : WritesNames {"a", "b"} " b\u2003,\ta,b".toList
      [" b\u2003".toList, "\ta".toList, "b".toList] := by
    refine ⟨rfl, ?_, ?_⟩
    · rw [List.forall_mem_cons, List.forall_mem_cons, List.forall_mem_singleton]
      exact ⟨⟨"b", by simp, hb⟩, ⟨"a", by simp, ha⟩, ⟨"b", by simp, hbare⟩⟩
    · simp only [Finset.forall_mem_insert, Finset.mem_singleton, forall_eq]
      exact ⟨⟨_, by simp, ha⟩, ⟨_, by simp, hb⟩⟩
  have hreason : WritesReason (some "why") " reason=\u2028\"why\" ".toList :=
    ⟨['\u2028'], by decide, [' '], [' '], by decide, by decide, rfl⟩
  exact ⟨['\u3000'], ['\u00a0'], _, _, _, by decide, by decide, hlist, hreason, rfl⟩

theorem parse?_reads_directives_padded :
    ∃ a code comment body rest,
      parse? ("x / y; ".toList ++ ("//".toList ++ padded)) = some a ∧
      Directive ("x / y; ".toList ++ ("//".toList ++ padded)) code comment body rest ∧
      a.Holds (Lists body) (GivesReason rest) ∧
      a.Holds (· ∈ ({"a", "b"} : Finset String)) (some "why" = some ·) := by
  have hnames : ∀ name ∈ ({"a", "b"} : Finset String), Listable name := by
    simp only [Finset.forall_mem_insert, Finset.mem_singleton, forall_eq]
    constructor <;> exact ⟨by decide, by decide, by decide, by decide⟩
  have hcode : FirstAt "//".toList ("x / y; ".toList ++ "//".toList) "x / y; ".toList [] :=
    splitFirst_eq_some_iff.mp (by decide)
  obtain ⟨a, ha, hholds⟩ := parse?_reads_directives.2.2 "x / y; ".toList padded {"a", "b"}
    (some "why") hcode (Finset.insert_nonempty _ _) hnames (by simp) writes_padded
  obtain ⟨code, comment, body, rest, hdirective, -⟩ := (parse?_reads_directives.1 _).mp ⟨a, ha⟩
  exact ⟨a, code, comment, body, rest, ha, hdirective,
    parse?_reads_directives.2.1 _ a code comment body rest ha hdirective, hholds⟩

end ArchLint.Allowance
