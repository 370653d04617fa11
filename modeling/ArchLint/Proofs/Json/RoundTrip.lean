import Mathlib.Data.List.TakeWhile
import ArchLint.Json.Parser
import ArchLint.Json.Printer

/-!
# JSON that is written and read

What the printer writes, the reader reads back. For the parts of a value this is said with any text
behind them and any blanks in front, so that the parts of an array or an object can be put together.
-/

namespace ArchLint.Json

/-- The values that the printer writes without loss. -/
inductive Exact : Json → Prop where
  | null : Exact .null
  | bool (b : Bool) : Exact (.bool b)
  | number {n : Nat} (h : n < Nat.pow 2 64) : Exact (.number n)
  | string (s : String) : Exact (.string s)
  | array {items : List Json} (h : ∀ j ∈ items, Exact j) : Exact (.array items)
  | object {members : List (String × Json)} (h : ∀ m ∈ members, Exact m.2) :
    Exact (.object members)

theorem mapM_map_eq_some {α β : Type} {f : α → β} {g : β → Option α} {l : List α}
    (h : ∀ a ∈ l, g (f a) = some a) : (l.map f).mapM g = some l := by
  induction l with
  | nil => rfl
  | cons a l ih =>
    obtain ⟨ha, hl⟩ := List.forall_mem_cons.mp h
    rw [List.map_cons, List.mapM_cons, ha, ih hl]
    rfl

namespace Reader

variable {α β : Type} {c : Char} {cs blanks rest done : List Char}

theorem bind_eq {m : Reader α} {g : α → Reader β} {a : α} (h : m cs = some (a, rest)) :
    (m >>= g) cs = g a rest := by
  show (m cs >>= fun p => g p.1 p.2) = g a rest
  rw [h]
  rfl

theorem run_eq {m m' : Reader α} {p : Option (α × List Char)} (heq : m = m') (h : m' cs = p) :
    m cs = p := by
  rw [heq, h]

def Blank (cs : List Char) : Prop :=
  ∀ c ∈ cs, isSpace c = true

theorem blank_newline (level : Nat) : Blank (newline level) := by
  intro c hc
  rcases List.mem_cons.mp hc with rfl | hc
  · rfl
  · rw [List.eq_of_mem_replicate hc]
    rfl

theorem dropWhile_blank (hblanks : Blank blanks) (hc : isSpace c = false) :
    (blanks ++ c :: cs).dropWhile isSpace = c :: cs := by
  rw [List.dropWhile_append_of_pos hblanks, List.dropWhile_cons_of_neg (by simp [hc])]

theorem peek_blank (hblanks : Blank blanks) (hc : isSpace c = false) :
    peek (blanks ++ c :: cs) = some (some c, c :: cs) := by
  simp only [peek, dropWhile_blank hblanks hc, List.head?_cons]

theorem mark_blank (hblanks : Blank blanks) (hc : isSpace c = false) :
    mark c (blanks ++ c :: cs) = some ((), cs) := by
  simp only [mark, dropWhile_blank hblanks hc, if_pos]

theorem blank_nil : Blank [] :=
  List.forall_mem_nil _

theorem peek_cons (hc : isSpace c = false) : peek (c :: cs) = some (some c, c :: cs) :=
  peek_blank blank_nil hc

theorem mark_cons (hc : isSpace c = false) : mark c (c :: cs) = some ((), cs) :=
  mark_blank blank_nil hc

theorem hexValue_digitChar : ∀ n < 16, Text.hexValue (Nat.digitChar n) = some n := by
  decide

theorem hexNumber_control (h : c.toNat < 0x20) :
    Text.hexNumber ['0', '0', Nat.digitChar (c.toNat / 16), Nat.digitChar (c.toNat % 16)] =
      some c.toNat := by
  have hzero : Text.hexValue '0' = some 0 := rfl
  have hhigh := hexValue_digitChar (c.toNat / 16) (by omega)
  have hlow := hexValue_digitChar (c.toNat % 16) (by omega)
  simp only [Text.hexNumber, List.foldlM_cons, List.foldlM_nil, hzero, hhigh, hlow,
    Option.map_some, Option.bind_eq_bind, Option.bind_some]
  congr 1
  omega

theorem pushUnit_control (h : c.toNat < 0x20) :
    (Progress.mk done none true).pushUnit c.toNat = ⟨c :: done, none, true⟩ := by
  have hhigh : isHighSurrogate c.toNat = false := by simp [isHighSurrogate]; omega
  have hlow : isLowSurrogate c.toNat = false := by simp [isLowSurrogate]; omega
  simp [Progress.pushUnit, hhigh, hlow, Char.ofNat_toNat]

theorem stringTail_cons {s : Progress} (hquote : c ≠ '"') (hbackslash : c ≠ '\\')
    (hcontrol : ¬ c.toNat < 0x20) : stringTail s (c :: cs) = stringTail (s.push c) cs := by
  rw [stringTail.eq_def]
  split
  case h_1 heq => cases heq
  case h_2 heq => exact absurd (List.cons.inj heq).1 hquote
  case h_3 heq => exact absurd (List.cons.inj heq).1 hbackslash
  case h_4 heq => exact absurd (List.cons.inj heq).1 hbackslash
  case h_5 heq =>
    obtain ⟨rfl, rfl⟩ := List.cons.inj heq
    simp [hcontrol, hbackslash]

/-- One character is read back from the way it is written. -/
theorem stringTail_escapeChar (c : Char) (done cs : List Char) :
    stringTail ⟨done, none, true⟩ (escapeChar c ++ cs) =
      stringTail ⟨c :: done, none, true⟩ cs := by
  unfold escapeChar
  split
  case h_8 c hquote hbackslash _ _ _ _ _ =>
    split
    · next hcontrol =>
      simp only [List.cons_append, List.nil_append]
      rw [stringTail, hexNumber_control hcontrol]
      simp only [Option.bind_eq_bind, Option.bind_some, pushUnit_control hcontrol]
    · next hcontrol => exact stringTail_cons hquote hbackslash hcontrol
  all_goals rfl

theorem stringTail_flatMap (text done rest : List Char) :
    stringTail ⟨done, none, true⟩ (text.flatMap escapeChar ++ '"' :: rest) =
      some (some (String.ofList (done.reverse ++ text)), rest) := by
  induction text generalizing done with
  | nil => simp [stringTail, Progress.finish]
  | cons c text ih =>
    rw [List.flatMap_cons, List.append_assoc, stringTail_escapeChar, ih]
    simp

theorem string_quote (hblanks : Blank blanks) (s : String) (rest : List Char) :
    string (blanks ++ (quote s ++ rest)) = some (some s, rest) := by
  have hquote : quote s ++ rest = '"' :: (s.toList.flatMap escapeChar ++ '"' :: rest) := by
    simp [quote]
  rw [string, hquote, bind_eq (mark_blank hblanks rfl), stringTail_flatMap]
  simp

/-- A text that does not carry on a number. -/
def Stops (rest : List Char) : Prop :=
  ∀ c ∈ rest.head?, c.isDigit = false ∧ c ≠ '.' ∧ c ≠ 'e' ∧ c ≠ 'E'

theorem stops_cons (h : c.isDigit = false ∧ c ≠ '.' ∧ c ≠ 'e' ∧ c ≠ 'E') : Stops (c :: cs) := by
  intro d hd
  obtain rfl := Option.mem_some_iff.mp hd
  exact h

theorem Blank.stops (h : Blank cs) : Stops cs := by
  intro c hc
  have hspace := h c (List.mem_of_head? hc)
  simp only [isSpace, Bool.or_eq_true, decide_eq_true_eq] at hspace
  rcases hspace with ((rfl | rfl) | rfl) | rfl <;> decide

theorem stops_blank (hblanks : Blank blanks)
    (hc : c.isDigit = false ∧ c ≠ '.' ∧ c ≠ 'e' ∧ c ≠ 'E') : Stops (blanks ++ c :: cs) := by
  cases blanks with
  | nil => exact stops_cons hc
  | cons b blanks => exact stops_cons (hblanks.stops b rfl)

theorem Stops.span (h : Stops rest) :
    rest.takeWhile Char.isDigit = [] ∧ rest.dropWhile Char.isDigit = rest := by
  cases rest with
  | nil => exact ⟨rfl, rfl⟩
  | cons c rest =>
    have hc : ¬ c.isDigit = true := by simp [(h c rfl).1]
    exact ⟨List.takeWhile_cons_of_neg hc, List.dropWhile_cons_of_neg hc⟩

theorem digits_append {ds : List Char} (hne : ds ≠ []) (hds : ∀ d ∈ ds, d.isDigit = true)
    (hrest : Stops rest) : digits (ds ++ rest) = some (ds, rest) := by
  have htake : (ds ++ rest).takeWhile Char.isDigit = ds := by
    rw [List.takeWhile_append_of_pos hds, hrest.span.1, List.append_nil]
  have hdrop : (ds ++ rest).dropWhile Char.isDigit = rest := by
    rw [List.dropWhile_append_of_pos hds, hrest.span.2]
  rw [digits, htake, hdrop]
  cases ds with
  | nil => exact absurd rfl hne
  | cons d ds => rfl

theorem toDigits_leads (n : Nat) :
    ∃ d ds, Nat.toDigits 10 n = d :: ds ∧ (d = '0' → ds = []) := by
  induction n using Nat.strongRecOn with
  | ind n ih =>
    rw [Nat.toDigits_eq_if (by decide)]
    split
    · exact ⟨_, [], rfl, fun _ => rfl⟩
    · next hn =>
      obtain ⟨d, ds, hds, hzero⟩ := ih (n / 10) (by omega)
      refine ⟨d, ds ++ [Nat.digitChar (n % 10)], by rw [hds]; rfl, ?_⟩
      rintro rfl
      have hvalue : Nat.ofDigitChars 10 (Nat.toDigits 10 (n / 10)) 0 = n / 10 :=
        Nat.ofDigitChars_ten_toDigits
      rw [hds, hzero rfl] at hvalue
      have : n / 10 = 0 := hvalue.symm
      omega

theorem isDigit_toDigits (n : Nat) : ∀ d ∈ Nat.toDigits 10 n, d.isDigit = true :=
  fun _ => Nat.isDigit_of_mem_toDigits (by decide) (by decide)

theorem wholeDigits_toDigits (n : Nat) (hrest : Stops rest) :
    wholeDigits (Nat.toDigits 10 n ++ rest) = some (Nat.toDigits 10 n, rest) := by
  have hdigits := digits_append Nat.toDigits_ne_nil (isDigit_toDigits n) hrest
  obtain ⟨d, ds, hds, hzero⟩ := toDigits_leads n
  rw [hds] at hdigits ⊢
  by_cases hd : d = '0'
  · obtain rfl := hzero hd
    subst hd
    cases rest with
    | nil => rfl
    | cons c rest =>
      show (if c.isDigit then none else some (['0'], c :: rest)) = _
      rw [(hrest c rfl).1]
      rfl
  · rw [List.cons_append] at hdigits ⊢
    rw [wholeDigits.eq_def]
    split
    · next heq => exact absurd (List.cons.inj heq).1 hd
    · exact hdigits

theorem fraction_of_stops (h : Stops rest) : fraction rest = some (false, rest) := by
  rw [fraction.eq_def]
  split
  · exact absurd rfl (h _ rfl).2.1
  · rfl

theorem exponent_of_stops (h : Stops rest) : exponent rest = some (false, rest) := by
  rw [exponent.eq_def]
  split
  · exact absurd rfl (h _ rfl).2.2.1
  · exact absurd rfl (h _ rfl).2.2.2
  · rfl

theorem number_toDigits {n : Nat} (hn : n < Nat.pow 2 64) (hrest : Stops rest) :
    number (Nat.toDigits 10 n ++ rest) = some (.number n, rest) := by
  have hvalue : value10 (Nat.toDigits 10 n) = n :=
    Nat.ofDigitChars_eq_foldl.symm.trans Nat.ofDigitChars_ten_toDigits
  have hunsigned : unsignedNumber (Nat.toDigits 10 n ++ rest) = some (.number n, rest) := by
    rw [unsignedNumber, bind_eq (wholeDigits_toDigits n hrest), bind_eq (fraction_of_stops hrest),
      bind_eq (exponent_of_stops hrest), hvalue, if_neg]
    · rfl
    · simpa using hn
  obtain ⟨d, ds, hds, -⟩ := toDigits_leads n
  have hdigit := isDigit_toDigits n d (by rw [hds]; exact List.mem_cons_self)
  rw [number.eq_def]
  split
  · next heq =>
    rw [hds] at heq
    rw [(List.cons.inj heq).1] at hdigit
    cases hdigit
  · exact hunsigned

/-- The reader finds the value in the text, behind blanks and before whatever ends it. -/
def Reads (r : Reader Json) (text : List Char) (j : Json) : Prop :=
  ∀ blanks rest, Blank blanks → Stops rest → r (blanks ++ (text ++ rest)) = some (j, rest)

theorem items_write {r : Reader Json} {level n : Nat} {item : Json} {items done : List Json}
    {close : List Char} (hitem : Reads r (write level item) item)
    (hitems : ∀ j ∈ items, Reads r (write level j) j) (hn : items.length < n)
    (hblanks : Blank blanks) (hclose : Blank close) :
    Reader.items r n done (blanks ++ (write level item ++
        (writeItems level items ++ (close ++ ']' :: rest)))) =
      some (done.reverse ++ item :: items, rest) := by
  induction items generalizing n item done blanks with
  | nil =>
    obtain ⟨n, rfl⟩ := Nat.exists_eq_succ_of_ne_zero (Nat.ne_of_gt hn)
    have hstops : Stops (close ++ ']' :: rest) := stops_blank hclose (by decide)
    rw [Reader.items, writeItems, List.nil_append, bind_eq (hitem blanks _ hblanks hstops),
      bind_eq (peek_blank hclose rfl)]
    show (mark ']' >>= _) _ = _
    rw [bind_eq (mark_cons rfl), List.reverse_cons]
    rfl
  | cons next items ih =>
    obtain ⟨n, rfl⟩ := Nat.exists_eq_succ_of_ne_zero (Nat.ne_zero_of_lt hn)
    obtain ⟨hnext, hitems⟩ := List.forall_mem_cons.mp hitems
    rw [Reader.items, writeItems]
    simp only [List.cons_append, List.append_assoc]
    rw [bind_eq (hitem blanks _ hblanks (stops_cons (by decide))), bind_eq (peek_cons rfl)]
    show (mark ',' >>= _) _ = _
    rw [bind_eq (mark_cons rfl), ih hnext hitems (Nat.lt_of_succ_lt_succ hn) (blank_newline level)]
    simp

def writeMember (level : Nat) (m : String × Json) : List Char :=
  quote m.1 ++ (':' :: ' ' :: write level m.2)

theorem member_write {r : Reader Json} {level : Nat} {m : String × Json}
    (hm : Reads r (write level m.2) m.2) (hblanks : Blank blanks) (hrest : Stops rest)
    (g : Option String → Json → Reader β) :
    (do let key ← string; mark ':'; let v ← r; g key v)
        (blanks ++ (writeMember level m ++ rest)) = g (some m.1) m.2 rest := by
  have hvalue : r (' ' :: (write level m.2 ++ rest)) = some (m.2, rest) :=
    hm [' '] rest (List.forall_mem_singleton.mpr rfl) hrest
  rw [writeMember, List.append_assoc, bind_eq (string_quote hblanks m.1 _), List.cons_append,
    bind_eq (mark_cons rfl), List.cons_append, bind_eq hvalue]

theorem members_write {r : Reader Json} {level n : Nat} {m : String × Json}
    {ms : List (String × Json)} {done : List (Option String × Json)} {close : List Char}
    (hm : Reads r (write level m.2) m.2) (hms : ∀ m ∈ ms, Reads r (write level m.2) m.2)
    (hn : ms.length < n) (hblanks : Blank blanks) (hclose : Blank close) :
    members r n done (blanks ++ (writeMember level m ++
        (writeMembers level ms ++ (close ++ '\x7d' :: rest)))) =
      some (done.reverse ++ (m :: ms).map fun m => (some m.1, m.2), rest) := by
  induction ms generalizing n m done blanks with
  | nil =>
    obtain ⟨n, rfl⟩ := Nat.exists_eq_succ_of_ne_zero (Nat.ne_of_gt hn)
    rw [members, writeMembers, List.nil_append,
      member_write hm hblanks (stops_blank hclose (by decide)), bind_eq (peek_blank hclose rfl)]
    show (mark '\x7d' >>= _) _ = _
    rw [bind_eq (mark_cons rfl), List.reverse_cons]
    rfl
  | cons next ms ih =>
    obtain ⟨n, rfl⟩ := Nat.exists_eq_succ_of_ne_zero (Nat.ne_zero_of_lt hn)
    obtain ⟨hnext, hms⟩ := List.forall_mem_cons.mp hms
    have hmembers : writeMembers level (next :: ms) =
        ',' :: (newline level ++ (writeMember level next ++ writeMembers level ms)) := by
      simp [writeMembers, writeMember]
    rw [members, hmembers]
    simp only [List.cons_append, List.append_assoc]
    rw [member_write hm hblanks (stops_cons (by decide)), bind_eq (peek_cons rfl)]
    show (mark ',' >>= _) _ = _
    rw [bind_eq (mark_cons rfl), ih hnext hms (Nat.lt_of_succ_lt_succ hn) (blank_newline level)]
    simp

theorem objectOf_map (ms : List (String × Json)) :
    objectOf (ms.map fun m => (some m.1, m.2)) = .object ms := by
  rw [objectOf, mapM_map_eq_some]
  intro m _
  rfl

theorem length_le_writeItems (level : Nat) (items : List Json) :
    items.length ≤ (writeItems level items).length ∧
      ∀ j ∈ items, (write level j).length ≤ (writeItems level items).length := by
  induction items with
  | nil => exact ⟨Nat.le_refl 0, List.forall_mem_nil _⟩
  | cons item items ih =>
    simp only [writeItems, List.length_append, List.length_cons, List.forall_mem_cons]
    refine ⟨by omega, by omega, fun j hj => ?_⟩
    have := ih.2 j hj
    omega

theorem length_le_writeMembers (level : Nat) (ms : List (String × Json)) :
    ms.length ≤ (writeMembers level ms).length ∧
      ∀ m ∈ ms, (write level m.2).length ≤ (writeMembers level ms).length := by
  induction ms with
  | nil => exact ⟨Nat.le_refl 0, List.forall_mem_nil _⟩
  | cons m ms ih =>
    simp only [writeMembers, List.length_append, List.length_cons, List.forall_mem_cons]
    refine ⟨by omega, by omega, fun m hm => ?_⟩
    have := ih.2 m hm
    omega

theorem isSpace_of_isDigit (h : c.isDigit = true) : isSpace c = false := by
  by_contra hspace
  simp only [isSpace, Bool.not_eq_false, Bool.or_eq_true, decide_eq_true_eq] at hspace
  rcases hspace with ((rfl | rfl) | rfl) | rfl <;> cases h

theorem write_head {j : Json} (hj : Exact j) (level : Nat) :
    ∃ d tail, write level j = d :: tail ∧ isSpace d = false ∧ d ≠ ']' := by
  cases hj with
  | null => exact ⟨'n', _, rfl, rfl, by decide⟩
  | bool b =>
    cases b
    · exact ⟨'f', _, rfl, rfl, by decide⟩
    · exact ⟨'t', _, rfl, rfl, by decide⟩
  | @number n _ =>
    obtain ⟨d, ds, hds, -⟩ := toDigits_leads n
    have hdigit := isDigit_toDigits n d (by rw [hds]; exact List.mem_cons_self)
    refine ⟨d, ds, by rw [write, hds], isSpace_of_isDigit hdigit, ?_⟩
    rintro rfl
    cases hdigit
  | string s => exact ⟨'"', _, rfl, rfl, by decide⟩
  | @array items _ =>
    cases items
    · exact ⟨'[', _, rfl, rfl, by decide⟩
    · exact ⟨'[', _, rfl, rfl, by decide⟩
  | @object ms _ =>
    cases ms
    · exact ⟨'\x7b', _, rfl, rfl, by decide⟩
    · exact ⟨'\x7b', _, rfl, rfl, by decide⟩

theorem value_blank {limit depth : Nat} (hblanks : Blank blanks) (hc : isSpace c = false) :
    value limit depth (blanks ++ c :: cs) = value limit depth (c :: cs) := by
  cases depth with
  | zero => rfl
  | succ depth => rw [value, bind_eq (peek_blank hblanks hc), bind_eq (peek_cons hc)]

/-- It is enough to read a value without blanks in front. -/
theorem reads_write {limit depth level : Nat} {j : Json} (hj : Exact j)
    (h : ∀ rest, Stops rest → value limit depth (write level j ++ rest) = some (j, rest)) :
    Reads (value limit depth) (write level j) j := by
  intro blanks rest hblanks hrest
  obtain ⟨d, tail, hd, hspace, -⟩ := write_head hj level
  rw [← h rest hrest, hd, List.cons_append, value_blank hblanks hspace]

section Value

variable {limit depth level : Nat}

theorem value_number {n : Nat} (hn : n < Nat.pow 2 64) (hrest : Stops rest) :
    value limit (depth + 1) (write level (.number n) ++ rest) = some (.number n, rest) := by
  have hnumber := number_toDigits hn hrest
  obtain ⟨d, ds, hds, -⟩ := toDigits_leads n
  have hdigit := isDigit_toDigits n d (by rw [hds]; exact List.mem_cons_self)
  rw [hds] at hnumber
  rw [value, write, hds, List.cons_append, bind_eq (peek_cons (isSpace_of_isDigit hdigit))]
  refine run_eq ?_ hnumber
  -- no other value begins with a digit
  split
  case h_7 => rfl
  all_goals
    next heq =>
    obtain rfl := Option.some.inj heq
    cases hdigit

theorem value_string (s : String) (rest : List Char) :
    value limit (depth + 1) (write level (.string s) ++ rest) = some (.string s, rest) := by
  have hquote : quote s ++ rest = '"' :: (s.toList.flatMap escapeChar ++ '"' :: rest) := by
    simp [quote]
  have hstring : string (quote s ++ rest) = some (some s, rest) := string_quote blank_nil s rest
  rw [hquote] at hstring
  rw [value, write, hquote, bind_eq (peek_cons rfl)]
  show (string >>= _) _ = _
  rw [bind_eq hstring]
  rfl

theorem value_array {item : Json} {items : List Json} (hhead : Exact item)
    (hitem : Reads (value limit depth) (write (level + 1) item) item)
    (hitems : ∀ j ∈ items, Reads (value limit depth) (write (level + 1) j) j)
    (hlimit : items.length < limit) (rest : List Char) :
    value limit (depth + 1) (write level (.array (item :: items)) ++ rest) =
      some (.array (item :: items), rest) := by
  obtain ⟨d, tail, hd, hspace, hclose⟩ := write_head hhead (level + 1)
  have htext : write level (.array (item :: items)) ++ rest = '[' :: (newline (level + 1) ++
      d :: (tail ++ (writeItems (level + 1) items ++ (newline level ++ ']' :: rest)))) := by
    simp [write, hd]
  have hread : Reader.items (value limit depth) limit []
      (d :: (tail ++ (writeItems (level + 1) items ++ (newline level ++ ']' :: rest)))) =
        some (item :: items, rest) := by
    rw [← List.cons_append, ← hd]
    exact items_write hitem hitems hlimit blank_nil (blank_newline level)
  have harray : (do return .array (← Reader.items (value limit depth) limit []) : Reader Json)
      (d :: (tail ++ (writeItems (level + 1) items ++ (newline level ++ ']' :: rest)))) =
        some (.array (item :: items), rest) := bind_eq hread
  rw [value, htext, bind_eq (peek_cons rfl)]
  show (mark '[' >>= _) _ = _
  rw [bind_eq (mark_cons rfl), bind_eq (peek_blank (blank_newline _) hspace)]
  refine run_eq ?_ harray
  split
  · next heq => exact absurd (Option.some.inj heq) hclose
  · rfl

theorem value_object {m : String × Json} {ms : List (String × Json)}
    (hm : Reads (value limit depth) (write (level + 1) m.2) m.2)
    (hms : ∀ m ∈ ms, Reads (value limit depth) (write (level + 1) m.2) m.2)
    (hlimit : ms.length < limit) (rest : List Char) :
    value limit (depth + 1) (write level (.object (m :: ms)) ++ rest) =
      some (.object (m :: ms), rest) := by
  have htext : write level (.object (m :: ms)) ++ rest = '\x7b' :: (newline (level + 1) ++
      (writeMember (level + 1) m ++ (writeMembers (level + 1) ms ++
        (newline level ++ '\x7d' :: rest)))) := by
    simp [write, writeMember]
  have hread : members (value limit depth) limit [] (writeMember (level + 1) m ++
      (writeMembers (level + 1) ms ++ (newline level ++ '\x7d' :: rest))) =
        some ((m :: ms).map fun m => (some m.1, m.2), rest) :=
    members_write hm hms hlimit blank_nil (blank_newline level)
  obtain ⟨tail, htail⟩ : ∃ tail, writeMember (level + 1) m = '"' :: tail := ⟨_, rfl⟩
  rw [htail, List.cons_append] at hread
  rw [value, htext, htail, List.cons_append, bind_eq (peek_cons rfl)]
  show (mark '\x7b' >>= _) _ = _
  rw [bind_eq (mark_cons rfl), bind_eq (peek_blank (blank_newline _) rfl)]
  show (members _ _ _ >>= _) _ = _
  rw [bind_eq hread, objectOf_map]
  rfl

/-- Given a limit and a depth of at least the length of the text, a value is read back. -/
theorem value_write {j : Json} (hj : Exact j) (hdepth : (write level j).length ≤ depth)
    (hlimit : (write level j).length ≤ limit) : Reads (value limit depth) (write level j) j := by
  induction depth generalizing level j with
  | zero =>
    obtain ⟨d, tail, hd, -, -⟩ := write_head hj level
    rw [hd] at hdepth
    exact absurd hdepth (Nat.not_succ_le_zero _)
  | succ depth ih =>
    apply reads_write hj
    intro rest hrest
    -- a part of a value is written in fewer characters than the value
    cases hj with
    | null => rfl
    | bool b => cases b <;> rfl
    | number hn => exact value_number hn hrest
    | string s => exact value_string s rest
    | @array items hitems =>
      cases items with
      | nil => rfl
      | cons item items =>
        obtain ⟨hitem, hitems⟩ := List.forall_mem_cons.mp hitems
        obtain ⟨hcount, hlengths⟩ := length_le_writeItems (level + 1) items
        simp only [write, List.length_append, List.length_cons] at hdepth hlimit
        apply value_array hitem
        · exact ih hitem (by omega) (by omega)
        · intro j hj
          have hle := hlengths j hj
          exact ih (hitems j hj) (by omega) (by omega)
        · omega
    | @object ms hms =>
      cases ms with
      | nil => rfl
      | cons m ms =>
        obtain ⟨hm, hms⟩ := List.forall_mem_cons.mp hms
        obtain ⟨hcount, hlengths⟩ := length_le_writeMembers (level + 1) ms
        simp only [write, List.length_append, List.length_cons] at hdepth hlimit
        apply value_object
        · exact ih hm (by omega) (by omega)
        · intro m hm
          have hle := hlengths m hm
          exact ih (hms m hm) (by omega) (by omega)
        · omega

end Value

end Reader

/-- A value that is printed exactly is read back, also with blanks behind it. -/
theorem parse?_print {j : Json} {text : String} (hj : Exact j)
    (htext : Reader.Blank text.toList) : parse? (j.print ++ text) = some j := by
  have hlist : (j.print ++ text).toList = [] ++ (j.write 0 ++ text.toList) := by
    rw [String.toList_append, print, String.toList_ofList, List.nil_append]
  have hlength : (j.write 0).length ≤ (j.print ++ text).toList.length + 1 := by
    rw [hlist, List.nil_append, List.length_append]
    omega
  have hread := Reader.value_write hj hlength hlength [] text.toList Reader.blank_nil htext.stops
  have hrest : text.toList.dropWhile Reader.isSpace = [] := List.dropWhile_eq_nil_iff.mpr htext
  rw [← hlist] at hread
  rw [parse?]
  simp only [hread, Option.bind_eq_bind, Option.bind_some, hrest]
  rfl

end ArchLint.Json
