import Mathlib.Data.List.Basic
import ArchLint.Java.Parser
import ArchLint.Proofs.Java.Content

/-!
# Conforming trees

What the grammar says about the children of a node, in the form in which the lowering asks for
them: the kinds that a child in a role can have, that a role is always filled, and that children
in certain roles are exactly the answers to asking for one role after the other.
-/

namespace ArchLint.Java

/-- Children in these roles stand in this order, and in each role at most one. -/
def Content.ordered (m : Content) (roles : List Field) : Bool :=
  decide roles.Nodup && m.bounded roles &&
    (m.orders roles).all fun order => order.isSublist (roles.map some)

namespace Grammar

def kindsIn (k : Kind) (role : Option Field) : List Kind :=
  ((content k).slots.filter fun s => s.field = role).flatMap Slot.kinds

/-- Inside a node of kind `k` there is always a child in this role. -/
def requires (k : Kind) (role : Field) : Bool :=
  (content k).bounded [role] && ((content k).orders [role]).all fun order => !order.isEmpty

end Grammar

theorem filterMap_find?_field {roles : List Field} (hn : roles.Nodup) {ds : List Cst}
    (h : (ds.map Cst.field).Sublist (roles.map some)) :
    (roles.filterMap fun f => ds.find? fun d => d.field = some f) = ds := by
  induction roles generalizing ds with
  | nil => simpa using h
  | cons f roles ih =>
    obtain ⟨hf, hn⟩ := List.nodup_cons.mp hn
    cases ds with
    | nil => simp
    | cons d ds =>
      by_cases hd : d.field = some f
      · -- the first role is the first child's, and no later role is
        have hrest : (ds.map Cst.field).Sublist (roles.map some) := by
          rw [List.map_cons, List.map_cons, hd] at h
          exact List.cons_sublist_cons.mp h
        have hfirst : ((d :: ds).find? fun e => e.field = some f) = some d := by simp [hd]
        have hlater : (roles.filterMap fun g => (d :: ds).find? fun e => e.field = some g) =
            roles.filterMap fun g => ds.find? fun e => e.field = some g := by
          refine List.filterMap_congr fun g hg => ?_
          have hne : d.field ≠ some g := by
            rw [hd]
            rintro ⟨⟩
            exact hf hg
          simp [hne]
        simp only [List.filterMap_cons, hfirst, hlater, ih hn hrest]
      · -- the first role is played by none of the children
        have hall : ((d :: ds).map Cst.field).Sublist (roles.map some) := by
          rw [List.map_cons, List.map_cons] at h
          rcases List.sublist_cons_iff.mp h with h | ⟨r, hr, -⟩
          · exact h
          · exact absurd (List.cons.inj hr).1 hd
        have hnone : ((d :: ds).find? fun e => e.field = some f) = none := by
          rw [List.find?_eq_none]
          intro e he hplays
          obtain ⟨g, hg, hge⟩ := List.mem_map.mp (hall.subset (List.mem_map_of_mem he))
          rw [of_decide_eq_true hplays] at hge
          exact hf (Option.some.inj hge ▸ hg)
        simp only [List.filterMap_cons, hnone, ih hn hall]

theorem Kind.isComment_iff {k : Kind} :
    k.isComment = true ↔ k = .lineComment ∨ k = .blockComment := by
  unfold isComment
  split <;> simp_all

namespace Cst

variable {c d : Cst} {f : Field}

theorem allConform_iff {cs : List Cst} : allConform cs = true ↔ ∀ c ∈ cs, c.conforms = true := by
  induction cs with
  | nil => simp [allConform]
  | cons c cs ih => simp [allConform, ih]

theorem conforms_iff :
    c.conforms = true ↔ c.fitsGrammar = true ∧ ∀ d ∈ c.children, d.conforms = true := by
  obtain ⟨kind, field, line, text, children⟩ := c
  rw [conforms, Bool.and_eq_true, allConform_iff]
  rfl

theorem conforms_child (hc : c.conforms = true) (hd : d ∈ c.children) : d.conforms = true :=
  (conforms_iff.mp hc).2 d hd

mutual

theorem misfit?_eq_none_iff : ∀ {c : Cst}, c.misfit? = none ↔ c.conforms = true
  | .node k f l t cs => by
    rw [misfit?, conforms, Bool.and_eq_true]
    by_cases hfits : fitsGrammar (.node k f l t cs) = true
    · rw [if_pos hfits, misfitAmong?_eq_none_iff]
      exact ⟨fun h => ⟨hfits, h⟩, fun h => h.2⟩
    · rw [if_neg hfits]
      exact ⟨nofun, fun h => absurd h.1 hfits⟩

theorem misfitAmong?_eq_none_iff :
    ∀ {cs : List Cst}, misfitAmong? cs = none ↔ allConform cs = true
  | [] => by
    simp [misfitAmong?, allConform]
  | c :: cs => by
    rw [misfitAmong?, allConform, Bool.and_eq_true, ← misfit?_eq_none_iff,
      ← misfitAmong?_eq_none_iff]
    cases misfit? c with
    | none => exact ⟨fun h => ⟨rfl, h⟩, fun h => h.2⟩
    | some line => exact ⟨nofun, fun h => absurd h.1 nofun⟩

end

theorem mem_of_get? (h : c.get? f = some d) : d ∈ c.children ∧ d.field = some f :=
  ⟨List.mem_of_find?_eq_some h, by simpa using List.find?_some h⟩

theorem fits_parts (hc : c.conforms = true) : (Grammar.content c.kind).Fits c.parts := by
  have h := (conforms_iff.mp hc).1
  rw [fitsGrammar, Bool.and_eq_true, Bool.and_eq_true] at h
  exact Content.accepts_iff_fits.mp h.1.1

theorem hasLegalText (hc : c.conforms = true) : Grammar.hasLegalText c = true := by
  have h := (conforms_iff.mp hc).1
  rw [fitsGrammar, Bool.and_eq_true, Bool.and_eq_true] at h
  exact h.1.2

theorem isComment_of_field (hc : c.conforms = true) (hd : d ∈ c.children)
    (hf : d.field = some f) : d.isComment = false := by
  have h := (conforms_iff.mp hc).1
  rw [fitsGrammar, Bool.and_eq_true] at h
  have hd := List.all_eq_true.mp h.2 d hd
  rw [hf] at hd
  simpa using hd

/-- A child is a comment or stands at one of the places that the grammar has. -/
theorem exists_slot_of_mem {m : Content} (hm : m.Fits c.parts) (hd : d ∈ c.children) :
    d.isComment = true ∨ ∃ s ∈ m.slots, d.field = s.field ∧ d.kind ∈ s.kinds := by
  cases hcomment : d.isComment with
  | true => exact .inl rfl
  | false =>
    obtain ⟨s, hs, hadmits⟩ := hm.exists_slot (List.mem_filter.mpr ⟨hd, by simp [hcomment]⟩)
    obtain ⟨hfield, hkind, -⟩ := Slot.admits_iff.mp hadmits
    exact .inr ⟨s, hs, hfield, hkind⟩

theorem kind_of_field (hc : c.conforms = true) (hd : d ∈ c.children) (hf : d.field = some f) :
    d.kind ∈ Grammar.kindsIn c.kind (some f) := by
  rcases exists_slot_of_mem (fits_parts hc) hd with hcomment | ⟨s, hs, hfield, hkind⟩
  · rw [isComment_of_field hc hd hf] at hcomment
    cases hcomment
  · rw [Grammar.kindsIn, List.mem_flatMap]
    exact ⟨s, List.mem_filter.mpr ⟨hs, by simp [← hfield, hf]⟩, hkind⟩

theorem kind_of_get? (hc : c.conforms = true) (h : c.get? f = some d) :
    d.kind ∈ Grammar.kindsIn c.kind (some f) :=
  kind_of_field hc (mem_of_get? h).1 (mem_of_get? h).2

theorem get?_eq_none (hc : c.conforms = true) (hf : Grammar.kindsIn c.kind (some f) = []) :
    c.get? f = none := by
  cases hd : c.get? f with
  | none => rfl
  | some d =>
    have hkind := kind_of_get? hc hd
    rw [hf] at hkind
    cases hkind

theorem filter_playsOneOf_parts (hc : c.conforms = true) (roles : List Field) :
    c.parts.filter (playsOneOf roles) = c.children.filter (playsOneOf roles) := by
  rw [parts, List.filter_filter]
  refine List.filter_congr fun d hd => ?_
  cases hplays : d.playsOneOf roles with
  | false => simp
  | true =>
    obtain ⟨f, -, hf⟩ := List.any_eq_true.mp hplays
    simp [isComment_of_field hc hd (of_decide_eq_true hf)]

/-- The children in roles that the grammar orders, got by asking for the roles in that order. -/
theorem filter_playsOneOf (hc : c.conforms = true) {m : Content} (hm : m.Fits c.parts)
    {roles : List Field} (ho : m.ordered roles = true) :
    c.children.filter (playsOneOf roles) = roles.filterMap c.get? := by
  rw [Content.ordered, Bool.and_eq_true, Bool.and_eq_true, decide_eq_true_eq] at ho
  obtain ⟨⟨hnodup, hbounded⟩, horders⟩ := ho
  have hmem := hm.map_field_mem_orders hbounded
  rw [filter_playsOneOf_parts hc] at hmem
  have hsub := List.isSublist_iff_sublist.mp (List.all_eq_true.mp horders _ hmem)
  rw [← filterMap_find?_field hnodup hsub]
  refine List.filterMap_congr fun f hf => ?_
  rw [List.find?_filter, get?]
  congr 1
  funext d
  by_cases hd : d.field = some f
  · have hplays : d.playsOneOf roles = true := List.any_eq_true.mpr ⟨f, hf, by simp [hd]⟩
    simp [hd, hplays]
  · simp [hd]

theorem filter_playsOneOf_singleton (c : Cst) (f : Field) :
    c.children.filter (playsOneOf [f]) = c.getAll f := by
  refine List.filter_congr fun d _ => ?_
  simp [playsOneOf]

theorem getAll_eq (hc : c.conforms = true)
    (ho : (Grammar.content c.kind).ordered [f] = true) : c.getAll f = (c.get? f).toList := by
  rw [← filter_playsOneOf_singleton, filter_playsOneOf hc (fits_parts hc) ho]
  cases hd : c.get? f <;> simp [hd]

theorem exists_get? (hc : c.conforms = true) (hr : Grammar.requires c.kind f = true) :
    ∃ d, c.get? f = some d := by
  rw [Grammar.requires, Bool.and_eq_true] at hr
  have hmem := (fits_parts hc).map_field_mem_orders hr.1
  rw [filter_playsOneOf_parts hc] at hmem
  have hne := List.all_eq_true.mp hr.2 _ hmem
  cases hget : c.get? f with
  | some d => exact ⟨d, rfl⟩
  | none =>
    have hnil : c.children.filter (playsOneOf [f]) = [] := by
      rw [List.filter_eq_nil_iff]
      intro d hd hplays
      exact List.find?_eq_none.mp hget d hd (by simpa [playsOneOf] using hplays)
    simp [hnil] at hne

end Cst

theorem Parser.hasFault_faulty (line : Nat) : (faulty line).hasFault = true :=
  rfl

/-- A source gives a fault, or else what was read of it, which conforms to the grammar. -/
theorem Parser.faulty_or_conforms (source : String) :
    (∃ line, parse source = faulty line) ∨
      (parse source).conforms = true ∧ ∃ rest,
        file ((lexemes source).length + 4) (lexemes source) = .ok (parse source, rest) := by
  unfold parse
  dsimp only
  split
  · exact .inl ⟨_, rfl⟩
  · next rest h =>
    split
    · exact .inl ⟨_, rfl⟩
    · next hfits => exact .inr ⟨Cst.misfit?_eq_none_iff.mp hfits, rest, h⟩

/-- Whatever is read without a fault conforms to the grammar. -/
theorem Parser.conforms_parse {source : String} (h : ¬ (parse source).hasFault = true) :
    (parse source).conforms = true := by
  obtain ⟨line, hfaulty⟩ | ⟨hc, -⟩ := faulty_or_conforms source
  · rw [hfaulty] at h
    exact absurd (hasFault_faulty line) h
  · exact hc

end ArchLint.Java
