import ArchLint.Java.Parser
import ArchLint.Proofs.Java.Pending

/-!
# How deep lowering goes

Lowering a node lowers the nodes that its plan leaves open, and so on. `Cst.visits` lists the nodes
in the order in which they are lowered, each with the number of nodes that are being lowered around
it, and `Cst.descend` is the lowering as a run with a counter, which passes over a node where the
counter has reached the limit. The lowering with a limit on the depth answers what this run answers.
-/

namespace ArchLint.Java

open Syntax (Term Tree)

/-- The nodes that are lowered when `c` is, in the order in which that begins, each with the number
of nodes that are being lowered around it; `depth` of them are around `c`. -/
def Cst.visits (depth : Nat) (c : Cst) : List (Nat × Cst) :=
  (depth, c) :: (Plan.pendingAll (Plan.ofCst c)).attach.flatMap fun ⟨d, _⟩ =>
    d.visits (depth + 1)
termination_by c.weight
decreasing_by exact (Plan.inside_of_pending ‹_›).weight_lt

theorem Cst.visits_eq (depth : Nat) (c : Cst) :
    c.visits depth =
      (depth, c) :: (Plan.pendingAll (Plan.ofCst c)).flatMap (Cst.visits (depth + 1)) := by
  rw [visits]
  simp

/-- What is known while a file is being lowered. -/
structure Progress where
  depth : Nat := 0
  deepest : Nat := 0
  tooDeep : Option Nat := none

namespace Progress

def enter (s : Progress) : Progress :=
  { s with depth := s.depth + 1, deepest := max s.deepest (s.depth + 1) }

def leave (s : Progress) : Progress :=
  { s with depth := s.depth - 1 }

def skip (s : Progress) (line : Nat) : Progress :=
  { s with tooDeep := s.tooDeep.or (some line) }

theorem depth_enter (s : Progress) : s.enter.depth = s.depth + 1 := rfl

theorem deepest_enter (s : Progress) : s.enter.deepest = max s.deepest (s.depth + 1) := rfl

theorem depth_leave (s : Progress) : s.leave.depth = s.depth - 1 := rfl

end Progress

namespace Plan

mutual

def load : Plan → Nat
  | .node _ _ _ parts => loadAll parts
  | .done _ => 0
  | .hole c => c.weight

def loadAll : List Plan → Nat
  | [] => 0
  | p :: ps => max (load p) (loadAll ps)

end

mutual

theorem load_lt {n : Nat} (hn : 0 < n) : ∀ {p : Plan}, p.Leaves (·.weight < n) → p.load < n
  | .node _ _ _ _, h => loadAll_lt hn (forall_mem_pendingAll.mp h)
  | .done _, _ => hn
  | .hole c, h => h c (List.mem_singleton_self c)

theorem loadAll_lt {n : Nat} (hn : 0 < n) :
    ∀ {ps : List Plan}, (∀ p ∈ ps, p.Leaves (·.weight < n)) → loadAll ps < n
  | [], _ => hn
  | _ :: _, h => Nat.max_lt.mpr
      ⟨load_lt hn (h _ List.mem_cons_self),
        loadAll_lt hn fun q hq => h q (List.mem_cons_of_mem _ hq)⟩

end

theorem loadAll_ofCst (c : Cst) : loadAll (ofCst c) < c.weight := by
  refine loadAll_lt (by rw [c.weight_eq]; omega) fun p hp => ?_
  exact ((form_ofCst c).leaves p hp).imp fun d => Cst.Inside.weight_lt

end Plan

mutual

/-- Lowers a node, or passes over it where the counter has reached the limit. -/
def Cst.descend (limit : Option Nat) (c : Cst) (s : Progress) : List Term × Progress :=
  if limit.any (· ≤ s.depth) then ([], s.skip c.line)
  else
    let (ts, s) := Plan.descendAll limit (Plan.ofCst c) s.enter
    (ts, s.leave)
termination_by (c.weight, 0)
decreasing_by exact Prod.Lex.left _ _ (Plan.loadAll_ofCst c)

def Plan.descend (limit : Option Nat) (p : Plan) (s : Progress) : List Term × Progress :=
  match p with
  | .node kind text line parts =>
    let (ts, s) := Plan.descendAll limit parts s
    ([.node kind text line ts], s)
  | .done T => ([T], s)
  | .hole c => c.descend limit s
termination_by (p.load, sizeOf p)
decreasing_by
  · exact Prod.Lex.right _ (by rw [Plan.node.sizeOf_spec]; omega)
  · exact Prod.Lex.right _ (by rw [Plan.hole.sizeOf_spec]; omega)

def Plan.descendAll (limit : Option Nat) (ps : List Plan) (s : Progress) : List Term × Progress :=
  match ps with
  | [] => ([], s)
  | p :: ps =>
    let (ts, s) := p.descend limit s
    let (us, s) := Plan.descendAll limit ps s
    (ts ++ us, s)
termination_by (Plan.loadAll ps, sizeOf ps)
decreasing_by
  · exact Prod.Lex.right' _ (Nat.le_max_left _ _) (by rw [List.cons.sizeOf_spec]; omega)
  · exact Prod.Lex.right' _ (Nat.le_max_right _ _) (by rw [List.cons.sizeOf_spec]; omega)

end

def Cst.descendAll (limit : Option Nat) (program : Cst) : Term × Progress :=
  let (ts, s) := Plan.descendAll limit (Plan.holes program.named) {}
  (.node .compilationUnit none 1 ts, s)

def failure : Except TooDeep (List Term) → Option Nat
  | .ok _ => none
  | .error e => some e.line

namespace Plan

variable {lower : Cst → Except TooDeep (List Term)}

theorem failure_fill_node (kind : Syntax.Kind) (text : Option String) (line : Nat)
    (parts : List Plan) :
    failure (fill lower (.node kind text line parts)) = failure (fillAll lower parts) := by
  rw [fill]
  cases fillAll lower parts <;> rfl

theorem failure_fillAll_cons (p : Plan) (ps : List Plan) :
    failure (fillAll lower (p :: ps)) =
      (failure (fill lower p)).or (failure (fillAll lower ps)) := by
  rw [fillAll]
  cases fill lower p with
  | error e => rfl
  | ok us => cases fillAll lower ps <;> rfl

mutual

theorem failure_fill :
    ∀ p : Plan, failure (fill lower p) = p.pending.findSome? fun d => failure (lower d)
  | .node kind text line parts => by
    rw [failure_fill_node, pending, failure_fillAll]
  | .done T => rfl
  | .hole c => by
    rw [pending, List.findSome?_singleton]
    rfl

theorem failure_fillAll :
    ∀ ps : List Plan, failure (fillAll lower ps) =
      (pendingAll ps).findSome? fun d => failure (lower d)
  | [] => rfl
  | p :: ps => by
    rw [failure_fillAll_cons, pendingAll, List.findSome?_append, failure_fill, failure_fillAll]

end

end Plan

/-- The line of the first visit at this depth or deeper. -/
def firstBeyond (limit : Nat) (visits : List (Nat × Cst)) : Option Nat :=
  (visits.find? fun v => limit ≤ v.1).map fun v => v.2.line

theorem firstBeyond_flatMap (limit : Nat) (cs : List Cst) (f : Cst → List (Nat × Cst)) :
    firstBeyond limit (cs.flatMap f) = cs.findSome? fun c => firstBeyond limit (f c) := by
  rw [firstBeyond, List.find?_flatMap, List.map_findSome?]
  rfl

/-- Lowering fails at the first node that it would visit beyond its depth. -/
theorem Cst.failure_lower (depth around : Nat) (c : Cst) :
    failure (c.lower depth) = firstBeyond (around + depth) (c.visits around) := by
  induction depth generalizing around c with
  | zero =>
    rw [visits_eq, firstBeyond, List.find?_cons_of_pos (by simp)]
    rfl
  | succ depth ih =>
    have hshift : around + (depth + 1) = around + 1 + depth := by omega
    rw [lower, Plan.failure_fillAll, visits_eq, firstBeyond,
      List.find?_cons_of_neg (by simp), ← firstBeyond, firstBeyond_flatMap, hshift]
    exact congrArg (List.findSome? · _) (funext fun d => ih (around + 1) d)

section Unlimited

variable {lower : Cst → Except TooDeep (List Term)}

mutual

theorem Plan.descend_none (h : ∀ (c : Cst) (ts : List Term), lower c = .ok ts →
      ∀ s, (c.descend none s).1 = ts) :
    ∀ {p : Plan} {ts : List Term}, p.fill lower = .ok ts → ∀ s, (p.descend none s).1 = ts
  | .node kind text line parts, ts, hts, s => by
    rw [Plan.fill] at hts
    cases hr : Plan.fillAll lower parts with
    | error e => simp [hr] at hts
    | ok us =>
      simp only [hr, Except.ok.injEq] at hts
      rw [Plan.descend, ← hts, ← Plan.descendAll_none h hr s]
  | .done T, ts, hts, s => by
    rw [Plan.fill] at hts
    rw [Plan.descend]
    exact Except.ok.inj hts
  | .hole c, ts, hts, s => by
    rw [Plan.fill] at hts
    rw [Plan.descend]
    exact h c ts hts s

theorem Plan.descendAll_none (h : ∀ (c : Cst) (ts : List Term), lower c = .ok ts →
      ∀ s, (c.descend none s).1 = ts) :
    ∀ {ps : List Plan} {ts : List Term}, Plan.fillAll lower ps = .ok ts →
      ∀ s, (Plan.descendAll none ps s).1 = ts
  | [], ts, hts, s => by
    rw [Plan.fillAll] at hts
    rw [Plan.descendAll]
    exact Except.ok.inj hts
  | p :: ps, ts, hts, s => by
    rw [Plan.fillAll] at hts
    cases hr : p.fill lower with
    | error e => simp [hr] at hts
    | ok us =>
      cases hrs : Plan.fillAll lower ps with
      | error e => simp [hr, hrs] at hts
      | ok vs =>
        simp only [hr, hrs, Except.ok.injEq] at hts
        rw [Plan.descendAll, ← hts, ← Plan.descend_none h hr s, ← Plan.descendAll_none h hrs]

end

end Unlimited

/-- What a lowering that does not fail gives is what the run without a limit gives. -/
theorem Cst.descend_none {depth : Nat} {c : Cst} {ts : List Term} (h : c.lower depth = .ok ts)
    (s : Progress) : (c.descend none s).1 = ts := by
  induction depth generalizing c ts s with
  | zero => cases h
  | succ depth ih =>
    rw [descend]
    exact Plan.descendAll_none (fun d us hd s => ih hd s) h s.enter

/-- A run from `s` answers as the lowering `r` does: its terms are those of `r`, it notes the node
at which `r` fails if it has not noted one yet, and its counter never passes the limit and is back
where it was. -/
structure Progress.Answers (limit : Nat) (s : Progress) (r : Except TooDeep (List Term))
    (out : List Term × Progress) : Prop where
  terms : ∀ ts, r = .ok ts → out.1 = ts
  tooDeep : out.2.tooDeep = s.tooDeep.or (failure r)
  deepest : out.2.deepest ≤ max s.deepest limit
  depth : out.2.depth = s.depth

section Limited

variable {limit depth : Nat} {lower : Cst → Except TooDeep (List Term)}

mutual

theorem Plan.answers_fill (h : ∀ (c : Cst) (s : Progress), s.depth = depth →
      s.Answers limit (lower c) (c.descend (some limit) s)) :
    ∀ (p : Plan) (s : Progress), s.depth = depth →
      s.Answers limit (p.fill lower) (p.descend (some limit) s)
  | .node kind text line parts, s, hs => by
    have hparts := Plan.answers_fillAll h parts s hs
    rw [Plan.descend]
    refine ⟨?_, ?_, hparts.deepest, hparts.depth⟩
    · intro ts hts
      rw [Plan.fill] at hts
      cases hr : Plan.fillAll lower parts with
      | error e => simp [hr] at hts
      | ok us =>
        simp only [hr, Except.ok.injEq] at hts
        rw [← hts, ← hparts.terms us hr]
    · rw [Plan.failure_fill_node]
      exact hparts.tooDeep
  | .done T, s, _ => by
    rw [Plan.descend]
    exact ⟨fun ts hts => Except.ok.inj hts, (Option.or_none).symm, Nat.le_max_left _ _, rfl⟩
  | .hole c, s, hs => by
    rw [Plan.descend, Plan.fill]
    exact h c s hs

theorem Plan.answers_fillAll (h : ∀ (c : Cst) (s : Progress), s.depth = depth →
      s.Answers limit (lower c) (c.descend (some limit) s)) :
    ∀ (ps : List Plan) (s : Progress), s.depth = depth →
      s.Answers limit (Plan.fillAll lower ps) (Plan.descendAll (some limit) ps s)
  | [], s, _ => by
    rw [Plan.descendAll]
    exact ⟨fun ts hts => Except.ok.inj hts, (Option.or_none).symm, Nat.le_max_left _ _, rfl⟩
  | p :: ps, s, hs => by
    have hp := Plan.answers_fill h p s hs
    have hps := Plan.answers_fillAll h ps (p.descend (some limit) s).2 (hp.depth.trans hs)
    rw [Plan.descendAll]
    refine ⟨?_, ?_, ?_, hps.depth.trans hp.depth⟩
    · intro ts hts
      rw [Plan.fillAll] at hts
      cases hr : p.fill lower with
      | error e => simp [hr] at hts
      | ok us =>
        cases hrs : Plan.fillAll lower ps with
        | error e => simp [hr, hrs] at hts
        | ok vs =>
          simp only [hr, hrs, Except.ok.injEq] at hts
          rw [← hts, ← hp.terms us hr, ← hps.terms vs hrs]
    · rw [Plan.failure_fillAll_cons, ← Option.or_assoc, ← hp.tooDeep]
      exact hps.tooDeep
    · have hfirst := hp.deepest
      have hrest := hps.deepest
      simp only
      omega

end

end Limited

theorem Cst.answers_lower {limit depth : Nat} (c : Cst) (s : Progress)
    (hs : s.depth + depth = limit) :
    s.Answers limit (c.lower depth) (c.descend (some limit) s) := by
  induction depth generalizing c s with
  | zero =>
    rw [descend, if_pos (by simp; omega)]
    exact ⟨nofun, rfl, Nat.le_max_left _ _, rfl⟩
  | succ depth ih =>
    have hfill := Plan.answers_fillAll (fun d s' hs' => ih d s' (by omega)) (Plan.ofCst c) s.enter
      s.depth_enter
    rw [descend, if_neg (by simp; omega)]
    refine ⟨hfill.terms, hfill.tooDeep, ?_, ?_⟩
    · have hdeepest := hfill.deepest
      rw [Progress.deepest_enter] at hdeepest
      exact Nat.le_trans hdeepest (by omega)
    · rw [Progress.depth_leave, hfill.depth, Progress.depth_enter, Nat.add_sub_cancel]

def Cst.allVisits (program : Cst) : List (Nat × Cst) :=
  program.named.flatMap (Cst.visits 0)

theorem Cst.failure_fillAll_named (program : Cst) :
    failure (Plan.fillAll (Cst.lower maxDepth) (Plan.holes program.named)) =
      firstBeyond maxDepth program.allVisits := by
  rw [Plan.failure_fillAll, Plan.pendingAll_holes, allVisits, firstBeyond_flatMap]
  refine congrArg (List.findSome? · _) (funext fun c => ?_)
  rw [failure_lower maxDepth 0, Nat.zero_add]

theorem Cst.answers_named (program : Cst) :
    Progress.Answers maxDepth {} (Plan.fillAll (Cst.lower maxDepth) (Plan.holes program.named))
      (Plan.descendAll (some maxDepth) (Plan.holes program.named) {}) :=
  Plan.answers_fillAll (fun c s hs => Cst.answers_lower c s (by rw [hs, Nat.zero_add])) _ _
    (rfl : ({} : Progress).depth = 0)

theorem Cst.toTerm_eq_error {program : Cst} {e : TooDeep} :
    program.toTerm = .error e ↔ firstBeyond maxDepth program.allVisits = some e.line := by
  rw [← failure_fillAll_named, toTerm]
  cases Plan.fillAll (Cst.lower maxDepth) (Plan.holes program.named) with
  | ok ts => simp [failure]
  | error e' =>
    obtain ⟨line⟩ := e
    obtain ⟨line'⟩ := e'
    simp [failure]

theorem Cst.toTree_eq_nestingTooDeep {program : Cst} {line limit : Nat} :
    program.toTree = .error (.nestingTooDeep line limit) ↔
      limit = maxDepth ∧ program.toTerm = .error ⟨line⟩ := by
  rw [toTree]
  cases program.toTerm with
  | error e =>
    obtain ⟨line'⟩ := e
    simp only [Except.error.injEq, ParseError.nestingTooDeep.injEq, TooDeep.mk.injEq]
    constructor
    · rintro ⟨rfl, rfl⟩
      exact ⟨rfl, rfl⟩
    · rintro ⟨rfl, rfl⟩
      exact ⟨rfl, rfl⟩
  | ok T =>
    simp only
    split <;> simp

theorem Cst.toTerm_eq_ok {program : Cst} (h : firstBeyond maxDepth program.allVisits = none) :
    program.toTerm = .ok (program.descendAll none).1 := by
  cases hterm : program.toTerm with
  | error e =>
    rw [toTerm_eq_error.mp hterm] at h
    cases h
  | ok T =>
    rw [toTerm] at hterm
    split at hterm
    · next ts hts =>
      cases hterm
      rw [descendAll, ← Plan.descendAll_none (fun c us hc => Cst.descend_none hc) hts {}]
    · cases hterm

theorem Plan.pending_enclose (inner : Plan) (level : Cst) :
    (enclose inner level).pending =
      inner.pending ++ level.named.filter (·.field ≠ some .left) := by
  rw [enclose, pending, pendingAll, pendingAll_holes]

/-- However many levels a chain has, none of their operands is lost from sight. -/
theorem Plan.mem_pending_foldl_enclose {outer : List Cst} {p : Plan} {d : Cst}
    (h : d ∈ p.pending ∨ ∃ level ∈ outer, d ∈ level.named ∧ d.field ≠ some .left) :
    d ∈ (outer.foldl enclose p).pending := by
  induction outer generalizing p with
  | nil => simpa using h
  | cons level outer ih =>
    refine ih ?_
    rw [pending_enclose, List.mem_append]
    rcases h with h | ⟨level', hlevel, hd, hleft⟩
    · exact .inl (.inl h)
    · rcases List.mem_cons.mp hlevel with rfl | hlevel
      · exact .inl (.inr (List.mem_filter.mpr ⟨hd, by simpa using hleft⟩))
      · exact .inr ⟨level', hlevel, hd, hleft⟩

theorem Cst.visits_chain {depth : Nat} {c level d : Cst} (hc : c.kind = .binaryExpression)
    (hlevel : level ∈ c.spine) (hd : d ∈ level.named) (hleft : d.field ≠ some .left) :
    (depth + 1, d) ∈ c.visits depth := by
  have hpending : d ∈ (Plan.chain c).pending := by
    rw [Plan.chain]
    rw [← List.mem_reverse] at hlevel
    split
    · next hspine => simp [hspine] at hlevel
    · next innermost outer hspine =>
      rw [hspine] at hlevel
      refine Plan.mem_pending_foldl_enclose ?_
      rcases List.mem_cons.mp hlevel with rfl | hlevel
      · rw [Plan.operator, Plan.pending, Plan.pendingAll_holes]
        exact .inl hd
      · exact .inr ⟨level, hlevel, hd, hleft⟩
  have hplan : Plan.ofCst c = [Plan.chain c] := by
    rw [Plan.ofCst, hc]
    rfl
  rw [visits_eq, hplan, Plan.pendingAll_singleton]
  refine List.mem_cons_of_mem _ (List.mem_flatMap.mpr ⟨d, hpending, ?_⟩)
  rw [visits_eq]
  exact List.mem_cons_self

/-- The limit on the depth is exact. A file is refused if and only if some node lies inside 512
others that are being lowered, at the line of the first such node; any other file is lowered as
without a limit. The refusal is what a run with a counter notes that passes over such nodes; the
counter never passes 512 and is back at zero in the end. All levels of a chain of operators
count as one. -/
theorem Cst.toTree_depth_exact (program : Cst) :
    (∀ line limit, program.toTree = .error (.nestingTooDeep line limit) ↔ limit = 512 ∧
      ∃ v, (program.allVisits.find? fun v => 512 ≤ v.1) = some v ∧ v.2.line = line) ∧
    ((∀ v ∈ program.allVisits, v.1 < 512) →
      program.toTree = (Tree.ofTerm (program.descendAll none).1).mapError .tree) ∧
    (program.toTerm = match (program.descendAll (some 512)).2.tooDeep with
      | none => .ok (program.descendAll (some 512)).1
      | some line => .error ⟨line⟩) ∧
    (program.descendAll (some 512)).2.deepest ≤ 512 ∧
    (program.descendAll (some 512)).2.depth = 0 ∧
    ∀ (depth : Nat) (c level d : Cst), c.kind = .binaryExpression → level ∈ c.spine →
      d ∈ level.named → d.field ≠ some .left → (depth + 1, d) ∈ c.visits depth := by
  have hanswers := answers_named program
  refine ⟨fun line limit => ?_, fun h => ?_, ?_, ?_, hanswers.depth, ?_⟩
  · rw [toTree_eq_nestingTooDeep, toTerm_eq_error, firstBeyond, Option.map_eq_some_iff]
    rfl
  · have hnone : firstBeyond maxDepth program.allVisits = none := by
      rw [firstBeyond, Option.map_eq_none_iff, List.find?_eq_none]
      intro v hv
      exact fun hdeep => Nat.not_le_of_lt (h v hv) (of_decide_eq_true hdeep)
    rw [toTree, toTerm_eq_ok hnone]
    simp only
    cases Tree.ofTerm (program.descendAll none).1 <;> rfl
  · have htooDeep : (program.descendAll (some 512)).2.tooDeep =
        failure (Plan.fillAll (Cst.lower maxDepth) (Plan.holes program.named)) := hanswers.tooDeep
    rw [htooDeep, toTerm]
    cases hts : Plan.fillAll (Cst.lower maxDepth) (Plan.holes program.named) with
    | error e => rfl
    | ok ts => simp only [failure, descendAll, ← hanswers.terms ts hts]; rfl
  · exact hanswers.deepest
  · exact fun depth c level d hc hlevel hd hleft => visits_chain hc hlevel hd hleft

theorem Cst.toTree_depth_exact_parentheses :
    let name := Cst.node .identifier none 2 "x" []
    let enclose := fun c : Cst => Cst.node .parenthesizedExpression none 1 "" [c]
    let deep := Cst.node .program none 1 "" [Nat.repeat enclose 512 name]
    let flat := Cst.node .program none 1 "" [enclose name]
    (deep.toTree = .error (.nestingTooDeep 2 512) ∧
      ∃ v, (deep.allVisits.find? fun v => 512 ≤ v.1) = some v ∧ v.2.line = 2) ∧
    (∀ v ∈ flat.allVisits, v.1 < 512) ∧
      flat.toTree = (Tree.ofTerm (flat.descendAll none).1).mapError .tree := by
  intro name enclose deep flat
  have hfailure : failure (Plan.fillAll (Cst.lower maxDepth) (Plan.holes deep.named)) = some 2 := by
    decide +kernel
  rw [failure_fillAll_named] at hfailure
  have hdeep : deep.toTree = .error (.nestingTooDeep 2 512) :=
    toTree_eq_nestingTooDeep.mpr ⟨rfl, toTerm_eq_error.mpr hfailure⟩
  have hflat : ∀ v ∈ flat.allVisits, v.1 < 512 := by
    have hvisits : flat.allVisits = [(0, enclose name), (1, name)] := by
      simp [flat, allVisits, named, children, enclose, name, isNamed, kind, visits_eq,
        Plan.ofCst, Plan.pendingAll_holes, Plan.pendingAll, Plan.pending, Plan.ident, Plan.token,
        Kind.isLiteral]
    simp [hvisits]
  exact ⟨⟨hdeep, (((toTree_depth_exact deep).1 2 512).mp hdeep).2⟩, hflat,
    (toTree_depth_exact flat).2.1 hflat⟩

end ArchLint.Java
