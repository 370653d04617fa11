import ArchLint.Java.Content

/-!
# What a content model describes

`Fits m cs` reads a content model as a description of sequences of children, and `accepts` decides
it one child at a time. Two things can be read off a model without looking at any sequence: the
places where a child may stand (`slots`), and the orders in which children in given roles may
follow each other (`orders`).
-/

namespace ArchLint.Java

def Cst.playsOneOf (roles : List Field) (c : Cst) : Bool :=
  roles.any fun f => c.field = some f

theorem Slot.admits_iff {s : Slot} {c : Cst} :
    s.admits c = true ↔
      c.field = s.field ∧ c.kind ∈ s.kinds ∧ (c.kind ≠ .token ∨ c.text ∈ s.texts) := by
  simp [admits, and_assoc]

namespace Content

/-- The children, in this order, are a sequence that the model describes. -/
inductive Fits : Content → List Cst → Prop where
  | empty : Fits .empty []
  | child {s : Slot} {c : Cst} : s.admits c = true → Fits (.child s) [c]
  | seq {a b : Content} {cs ds : List Cst} : Fits a cs → Fits b ds → Fits (.seq a b) (cs ++ ds)
  | left {a b : Content} {cs : List Cst} : Fits a cs → Fits (.alt a b) cs
  | right {a b : Content} {cs : List Cst} : Fits b cs → Fits (.alt a b) cs
  | stop {a : Content} : Fits (.many a) []
  | more {a : Content} {cs ds : List Cst} : Fits a cs → Fits (.many a) ds →
      Fits (.many a) (cs ++ ds)

def slots : Content → List Slot
  | .never | .empty => []
  | .child s => [s]
  | .seq a b | .alt a b => a.slots ++ b.slots
  | .many a => a.slots

/-- The orders in which children in one of these roles may stand, children in other roles left
out. Roles that are repeated without bound are left out as well; see `bounded`. -/
def orders (roles : List Field) : Content → List (List (Option Field))
  | .never => []
  | .empty | .many _ => [[]]
  | .child s => if roles.any (fun f => s.field = some f) then [[s.field]] else [[]]
  | .seq a b => (a.orders roles).flatMap fun v => (b.orders roles).map (v ++ ·)
  | .alt a b => a.orders roles ++ b.orders roles

def bounded (roles : List Field) : Content → Bool
  | .never | .empty | .child _ => true
  | .seq a b | .alt a b => a.bounded roles && b.bounded roles
  | .many a => a.slots.all fun s => !roles.any fun f => s.field = some f

variable {m a b : Content} {cs ds : List Cst} {c : Cst}

theorem not_fits_never : ¬ Fits .never cs := nofun

@[simp] theorem fits_empty : Fits .empty cs ↔ cs = [] :=
  ⟨fun | .empty => rfl, fun h => h ▸ .empty⟩

@[simp] theorem fits_child {s : Slot} : Fits (.child s) cs ↔ ∃ c, cs = [c] ∧ s.admits c = true := by
  constructor
  · intro h
    cases h with
    | child h => exact ⟨_, rfl, h⟩
  · rintro ⟨c, rfl, h⟩
    exact .child h

@[simp] theorem fits_alt : Fits (.alt a b) cs ↔ Fits a cs ∨ Fits b cs := by
  constructor
  · intro h
    cases h with
    | left h => exact .inl h
    | right h => exact .inr h
  · rintro (h | h)
    · exact .left h
    · exact .right h

@[simp] theorem fits_seq :
    Fits (.seq a b) cs ↔ ∃ xs ys, cs = xs ++ ys ∧ Fits a xs ∧ Fits b ys := by
  constructor
  · intro h
    cases h with
    | seq ha hb => exact ⟨_, _, rfl, ha, hb⟩
  · rintro ⟨xs, ys, rfl, ha, hb⟩
    exact .seq ha hb

theorem nullable_iff : m.nullable = true ↔ Fits m [] := by
  induction m with
  | never => simp [nullable, not_fits_never]
  | empty => simp [nullable]
  | child s => simp [nullable]
  | seq a b iha ihb => simp [nullable, iha, ihb, and_assoc]
  | alt a b iha ihb => simp [nullable, iha, ihb]
  | many a _ => exact ⟨fun _ => .stop, fun _ => rfl⟩

theorem fits_andThen : Fits (andThen a b) cs ↔ Fits (.seq a b) cs := by
  rw [andThen.eq_def]
  split
  · simp [not_fits_never]
  · simp only [fits_seq, fits_empty]
    constructor
    · intro h
      exact ⟨[], cs, rfl, rfl, h⟩
    · rintro ⟨xs, ys, rfl, rfl, h⟩
      exact h
  · rfl

theorem fits_orElse : Fits (orElse a b) cs ↔ Fits (.alt a b) cs := by
  rw [orElse.eq_def]
  split
  · simp [not_fits_never]
  · simp [not_fits_never]
  · rfl

theorem fits_many_cons :
    Fits (.many a) (c :: cs) ↔ ∃ xs ys, cs = xs ++ ys ∧ Fits a (c :: xs) ∧ Fits (.many a) ys := by
  constructor
  · intro h
    generalize hm : Content.many a = m at h
    generalize hcs : c :: cs = all at h
    induction h with
    | empty | child _ | seq _ _ _ _ | left _ _ | right _ _ => cases hm
    | stop => cases hcs
    | @more a' xs ys hx hy _ ihy =>
      cases hm
      -- a first round without children is passed over
      cases xs with
      | nil => exact ihy rfl hcs
      | cons x xs =>
        cases hcs
        exact ⟨xs, ys, rfl, hx, hy⟩
  · rintro ⟨xs, ys, rfl, hx, hy⟩
    exact .more hx hy

theorem fits_after : Fits (m.after c) cs ↔ Fits m (c :: cs) := by
  induction m generalizing cs with
  | never => simp [after, not_fits_never]
  | empty => simp [after, not_fits_never]
  | child s =>
    rw [after]
    split
    · next h =>
      rw [fits_empty, fits_child]
      constructor
      · rintro rfl
        exact ⟨c, rfl, h⟩
      · rintro ⟨d, hd, -⟩
        exact (List.cons.inj hd).2
    · next h =>
      refine iff_of_false not_fits_never fun hc => ?_
      obtain ⟨d, hd, hs⟩ := fits_child.mp hc
      exact h ((List.cons.inj hd).1 ▸ hs)
  | alt a b iha ihb => rw [after, fits_orElse, fits_alt, fits_alt, iha, ihb]
  | many a ih => simp only [after, fits_andThen, fits_seq, ih, fits_many_cons]
  | seq a b iha ihb =>
    have hfirst : Fits (andThen (a.after c) b) cs ↔
        ∃ xs ys, cs = xs ++ ys ∧ Fits a (c :: xs) ∧ Fits b ys := by
      simp only [fits_andThen, fits_seq, iha]
    have hsplit : Fits (.seq a b) (c :: cs) ↔
        Fits (andThen (a.after c) b) cs ∨ (Fits a [] ∧ Fits b (c :: cs)) := by
      rw [fits_seq, hfirst]
      constructor
      · rintro ⟨xs, ys, hcs, hx, hy⟩
        cases xs with
        | nil => exact .inr ⟨hx, by rwa [hcs]⟩
        | cons x xs =>
          cases hcs
          exact .inl ⟨xs, ys, rfl, hx, hy⟩
      · rintro (⟨xs, ys, rfl, hx, hy⟩ | ⟨hx, hy⟩)
        · exact ⟨c :: xs, ys, rfl, hx, hy⟩
        · exact ⟨[], c :: cs, rfl, hx, hy⟩
    rw [hsplit, after]
    split
    · next h => simp only [fits_orElse, fits_alt, ihb, nullable_iff.mp h, true_and]
    · next h => simp only [mt nullable_iff.mpr h, false_and, or_false]

/-- Matching decides the description. -/
theorem accepts_iff_fits : m.accepts cs = true ↔ Fits m cs := by
  induction cs generalizing m with
  | nil => exact nullable_iff
  | cons c cs ih => exact ih.trans fits_after

theorem Fits.exists_slot (h : Fits m cs) (hc : c ∈ cs) : ∃ s ∈ m.slots, s.admits c = true := by
  induction h with
  | empty | stop => cases hc
  | @child s d hs =>
    rw [List.mem_singleton.mp hc]
    exact ⟨s, List.mem_singleton_self s, hs⟩
  | seq _ _ iha ihb =>
    rcases List.mem_append.mp hc with hc | hc
    · obtain ⟨s, hs, had⟩ := iha hc
      exact ⟨s, List.mem_append_left _ hs, had⟩
    · obtain ⟨s, hs, had⟩ := ihb hc
      exact ⟨s, List.mem_append_right _ hs, had⟩
  | left _ ih =>
    obtain ⟨s, hs, had⟩ := ih hc
    exact ⟨s, List.mem_append_left _ hs, had⟩
  | right _ ih =>
    obtain ⟨s, hs, had⟩ := ih hc
    exact ⟨s, List.mem_append_right _ hs, had⟩
  | more _ _ iha ihb =>
    rcases List.mem_append.mp hc with hc | hc
    · exact iha hc
    · exact ihb hc

/-- The roles that the children play, in one of the orders that the model has for them. -/
theorem Fits.map_field_mem_orders {roles : List Field} (h : Fits m cs)
    (hm : m.bounded roles = true) :
    (cs.filter (Cst.playsOneOf roles)).map Cst.field ∈ m.orders roles := by
  induction h with
  | empty | stop => exact List.mem_singleton_self _
  | @child s c hs =>
    have hfield : c.playsOneOf roles = roles.any fun f => s.field = some f := by
      rw [Cst.playsOneOf, (Slot.admits_iff.mp hs).1]
    rw [orders, List.filter_cons, List.filter_nil, hfield]
    split
    · rw [List.map_singleton, (Slot.admits_iff.mp hs).1]
      exact List.mem_singleton_self _
    · exact List.mem_singleton_self _
  | seq _ _ iha ihb =>
    obtain ⟨ha, hb⟩ := Bool.and_eq_true_iff.mp hm
    rw [List.filter_append, List.map_append, orders, List.mem_flatMap]
    exact ⟨_, iha ha, List.mem_map_of_mem (ihb hb)⟩
  | left _ ih => exact List.mem_append_left _ (ih (Bool.and_eq_true_iff.mp hm).1)
  | right _ ih => exact List.mem_append_right _ (ih (Bool.and_eq_true_iff.mp hm).2)
  | @more a cs ds ha hd _ _ =>
    have hnone : (cs ++ ds).filter (Cst.playsOneOf roles) = [] := by
      rw [List.filter_eq_nil_iff]
      intro c hc hplays
      obtain ⟨s, hs, had⟩ := (Fits.more ha hd).exists_slot hc
      have hslot := List.all_eq_true.mp hm s hs
      rw [Cst.playsOneOf, (Slot.admits_iff.mp had).1] at hplays
      simp [hplays] at hslot
    rw [hnone]
    exact List.mem_singleton_self _

end Content

end ArchLint.Java
