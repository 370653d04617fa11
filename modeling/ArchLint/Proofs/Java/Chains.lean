import ArchLint.Proofs.Java.Bare
import ArchLint.Proofs.Java.Depth

/-!
# Chains of operators, by two loops and by recursion

A left-nested chain is lowered by two loops over its levels: one opens a node for each level, from
the outermost to the innermost, and one goes back out, lowers what each level has beside the level
inside it, and closes it. The scheme that lowers a left operand as it lowers its parent makes the
same calls in the same order. It only gives up earlier, since each of its levels is one deeper.
-/

namespace ArchLint

namespace Syntax.Term

def stepsAll (ts : List Term) : List Step :=
  stepsOntoAll ts []

mutual

theorem stepsOnto_eq_append : ∀ (t : Term) (rest : List Step),
    t.stepsOnto rest = t.stepsOnto [] ++ rest
  | .node kind text line children, rest => by
    rw [stepsOnto, stepsOnto, stepsOntoAll_eq_append children (.finish :: rest),
      stepsOntoAll_eq_append children [.finish]]
    simp

theorem stepsOntoAll_eq_append : ∀ (ts : List Term) (rest : List Step),
    stepsOntoAll ts rest = stepsAll ts ++ rest
  | [], rest => rfl
  | t :: ts, rest => by
    rw [stepsAll, stepsOntoAll, stepsOntoAll, stepsOnto_eq_append t (stepsOntoAll ts rest),
      stepsOnto_eq_append t (stepsOntoAll ts []), stepsOntoAll_eq_append ts rest, stepsAll]
    simp

end

theorem stepsAll_append (ts us : List Term) : stepsAll (ts ++ us) = stepsAll ts ++ stepsAll us := by
  induction ts with
  | nil => rfl
  | cons t ts ih =>
    rw [List.cons_append, stepsAll, stepsAll, stepsOntoAll, stepsOntoAll, stepsOnto_eq_append,
      stepsOnto_eq_append t (stepsOntoAll ts []), List.append_assoc]
    exact congrArg _ ih

theorem stepsAll_node (kind : Kind) (text : Option String) (line : Nat) (ts : List Term) :
    stepsAll [.node kind text line ts] = .start kind text line :: (stepsAll ts ++ [.finish]) := by
  rw [stepsAll, stepsOntoAll, stepsOntoAll, stepsOnto, stepsOntoAll_eq_append]

end Syntax.Term

namespace Java

open Syntax (Step Term)

namespace Cst

def calls (depth : Nat) (c : Cst) : Except TooDeep (List Step) :=
  (c.lower depth).map Term.stepsAll

def callAll (call : Cst → Except TooDeep (List Step)) : List Cst → Except TooDeep (List Step)
  | [] => pure []
  | d :: ds => do
    let first ← call d
    let rest ← callAll call ds
    return first ++ rest

def opening (level : Cst) : Step :=
  .start .operator (some level.operatorText) level.line

/-- The second loop: from the innermost level outwards, lowers the named children of a level but for
the level that was closed before it, and closes the level. -/
def closeLevels (call : Cst → Except TooDeep (List Step)) (inner : Option Cst) :
    List Cst → Except TooDeep (List Step)
  | [] => pure []
  | level :: outer => do
    let operands ← callAll call (level.named.filter fun d => some d ≠ inner)
    let rest ← closeLevels call (some level) outer
    return operands ++ .finish :: rest

/-- All levels are opened first, from the outermost to the innermost. -/
def twoLoops (call : Cst → Except TooDeep (List Step)) (c : Cst) :
    Except TooDeep (List Step) := do
  let rest ← closeLevels call none c.spine.reverse
  return c.spine.map opening ++ rest

def isInnerLevel (d : Cst) : Bool :=
  d.field = some .left && d.kind = .binaryExpression

/-- Opens a level, lowers its named children in order, a level on the left in this same way, and
closes it. Every level is one deeper than the level around it. -/
def levelByLevel (call : Nat → Cst → Except TooDeep (List Step)) :
    Nat → Cst → Except TooDeep (List Step)
  | 0, c => .error ⟨c.line⟩
  | depth + 1, c => do
    let inside ← callAll
      (fun d => if d.isInnerLevel then levelByLevel call depth d else call depth d) c.named
    return opening c :: (inside ++ [.finish])

mutual

/-- The nodes of a chain that are no levels of it, in the order of the source. -/
def operands : Cst → List Cst
  | .node _ _ _ _ children => operandsAmong children

def operandsAmong : List Cst → List Cst
  | [] => []
  | d :: ds =>
    if d.isInnerLevel then operands d ++ operandsAmong ds
    else if d.isNamed then d :: operandsAmong ds
    else operandsAmong ds

end

/-- Comments stand behind the first child of every level. -/
def StartsWithOperands (c : Cst) : Prop :=
  ∀ level ∈ c.spine, ∀ d, level.children.head? = some d → d.isComment = false

theorem exists_lower_of_calls {depth : Nat} {c : Cst} {steps : List Step}
    (h : c.calls depth = .ok steps) :
    ∃ ts, c.lower depth = .ok ts ∧ Term.stepsAll ts = steps := by
  rw [calls] at h
  cases hts : c.lower depth with
  | error e =>
    rw [hts] at h
    cases h
  | ok ts =>
    rw [hts] at h
    exact ⟨ts, rfl, Except.ok.inj h⟩

variable {call : Cst → Except TooDeep (List Step)}

theorem callAll_congr {call' : Cst → Except TooDeep (List Step)} {ds : List Cst}
    (h : ∀ d ∈ ds, call d = call' d) : callAll call ds = callAll call' ds := by
  induction ds with
  | nil => rfl
  | cons d ds ih =>
    rw [callAll, callAll, h d List.mem_cons_self, ih fun e he => h e (List.mem_cons_of_mem _ he)]

theorem callAll_extend {call' : Cst → Except TooDeep (List Step)} {ds : List Cst}
    {steps : List Step} (h : ∀ d ∈ ds, ∀ s, call d = .ok s → call' d = .ok s)
    (hds : callAll call ds = .ok steps) : callAll call' ds = .ok steps := by
  induction ds generalizing steps with
  | nil => exact hds
  | cons d ds ih =>
    rw [callAll] at hds ⊢
    cases hd : call d with
    | error e =>
      rw [hd] at hds
      cases hds
    | ok first =>
      cases hrest : callAll call ds with
      | error e =>
        rw [hd, hrest] at hds
        cases hds
      | ok rest =>
        rw [hd, hrest] at hds
        rw [h d List.mem_cons_self first hd, ih (fun e he => h e (List.mem_cons_of_mem _ he)) hrest]
        exact hds

theorem exists_left {c : Cst} (hc : c.conforms = true) (hkind : c.kind = .binaryExpression) :
    ∃ before left after, c.children = before ++ left :: after ∧ c.get? .left = some left ∧
      left.isNamed = true ∧ (∀ d ∈ before, d.isComment = true) ∧
      ∀ d ∈ before ++ after, d.field ≠ some .left := by
  have hfits := fits_parts hc
  rw [hkind] at hfits
  obtain ⟨_, rest, hparts, hfirst, -⟩ := Content.fits_seq.mp hfits
  obtain ⟨first, rfl, hadmits⟩ := Content.fits_child.mp hfirst
  have hplays := (Slot.admits_iff.mp hadmits).1
  obtain ⟨left, hget⟩ := exists_get? hc (show Grammar.requires c.kind .left = true by
    rw [hkind]
    decide)
  obtain ⟨-, before, after, hchildren, hbefore⟩ := List.find?_eq_some_iff_append.mp hget
  have hfield := (mem_of_get? hget).2
  have hnot : ∀ d ∈ before, d.field ≠ some .left := fun d hd => by simpa using hbefore d hd
  refine ⟨before, left, after, hchildren, hget, ?_, ?_, ?_⟩
  · have hnamed : ∀ k ∈ Grammar.kindsIn .binaryExpression (some .left), k ≠ .token := by decide
    have hmem := kind_of_get? hc hget
    rw [hkind] at hmem
    exact decide_eq_true (hnamed _ hmem)
  · -- a part in front of it would be the first, which plays its role
    have hnone : (before.filter fun d => !d.isComment) = [] := by
      rw [parts, hchildren, List.filter_append] at hparts
      cases hpart : before.filter fun d => !d.isComment with
      | nil => rfl
      | cons d ds =>
        have hd : d ∈ before.filter fun d => !d.isComment := by
          rw [hpart]
          exact List.mem_cons_self
        rw [hpart] at hparts
        rw [(List.cons.inj hparts).1] at hd
        exact absurd hplays (hnot first (List.mem_filter.mp hd).1)
    intro d hd
    simpa using List.filter_eq_nil_iff.mp hnone d hd
  · have hall := getAll_eq hc (show (Grammar.content c.kind).ordered [.left] = true by
      rw [hkind]
      decide)
    have hnil : (before.filter fun d => d.field = some .left) = [] :=
      List.filter_eq_nil_iff.mpr fun d hd => by simpa using hnot d hd
    rw [getAll, hchildren, hget, List.filter_append, hnil, List.nil_append,
      List.filter_cons_of_pos (by simp [hfield])] at hall
    have hafter := List.filter_eq_nil_iff.mp (List.cons.inj hall).2
    intro d hd
    rcases List.mem_append.mp hd with hd | hd
    · exact hnot d hd
    · simpa using hafter d hd

/-- The children of a level that starts with its left operand. -/
structure IsLevel (c left : Cst) (others : List Cst) : Prop where
  children : c.children = left :: others
  get : c.get? .left = some left
  named : left.isNamed = true
  others : ∀ d ∈ others, d.field ≠ some .left

theorem exists_isLevel {c : Cst} (hc : c.conforms = true) (hkind : c.kind = .binaryExpression)
    (hfirst : ∀ d, c.children.head? = some d → d.isComment = false) :
    ∃ left others, c.IsLevel left others := by
  obtain ⟨before, left, after, hchildren, hget, hnamed, hcomments, hothers⟩ := exists_left hc hkind
  cases before with
  | nil => exact ⟨left, after, hchildren, hget, hnamed, hothers⟩
  | cons d before =>
    have hd : d.isComment = false := hfirst d (by rw [hchildren]; rfl)
    rw [hcomments d List.mem_cons_self] at hd
    cases hd

namespace IsLevel

variable {c left : Cst} {others : List Cst}

theorem named_eq (h : c.IsLevel left others) : c.named = left :: others.filter isNamed := by
  rw [Cst.named, h.children, List.filter_cons_of_pos h.named]

theorem isInnerLevel_left (h : c.IsLevel left others) :
    left.isInnerLevel = decide (left.kind = .binaryExpression) := by
  simp [isInnerLevel, (mem_of_get? h.get).2]

theorem isInnerLevel_others (h : c.IsLevel left others) {d : Cst} (hd : d ∈ others) :
    d.isInnerLevel = false := by
  simp [isInnerLevel, h.others d hd]

theorem filter_ne_left (h : c.IsLevel left others) :
    (c.named.filter fun d => some d ≠ some left) = others.filter isNamed := by
  rw [h.named_eq, List.filter_cons_of_neg (by simp)]
  refine List.filter_eq_self.mpr fun d hd => decide_eq_true fun heq => ?_
  rw [Option.some.inj heq] at hd
  exact h.others left (List.mem_filter.mp hd).1 (mem_of_get? h.get).2

theorem filter_field_ne_left (h : c.IsLevel left others) :
    (c.named.filter fun d => d.field ≠ some .left) = others.filter isNamed := by
  rw [h.named_eq, List.filter_cons_of_neg (by simp [(mem_of_get? h.get).2])]
  exact List.filter_eq_self.mpr fun d hd => by simpa using h.others d (List.mem_filter.mp hd).1

theorem operandsAmong_others (h : c.IsLevel left others) :
    operandsAmong others = others.filter isNamed := by
  have hothers : ∀ d ∈ others, d.isInnerLevel = false := fun d hd => h.isInnerLevel_others hd
  clear h
  induction others with
  | nil => rfl
  | cons d ds ih =>
    rw [operandsAmong, if_neg (by simp [hothers d List.mem_cons_self]),
      ih fun e he => hothers e (List.mem_cons_of_mem _ he)]
    cases hd : d.isNamed with
    | true => simp [hd]
    | false => simp [hd]

theorem operands_eq (c : Cst) : c.operands = operandsAmong c.children := by
  cases c
  rfl

theorem operands_single (h : c.IsLevel left others) (hsingle : left.kind ≠ .binaryExpression) :
    c.operands = c.named := by
  rw [operands_eq, h.children, operandsAmong, if_neg (by simp [h.isInnerLevel_left, hsingle]),
    if_pos h.named, h.operandsAmong_others, h.named_eq]

theorem operands_around (h : c.IsLevel left others) (hbinary : left.kind = .binaryExpression) :
    c.operands = left.operands ++ others.filter isNamed := by
  rw [operands_eq c, h.children, operandsAmong, if_pos (by simp [h.isInnerLevel_left, hbinary]),
    h.operandsAmong_others]

end IsLevel

/-- A conforming level of a chain, all of whose levels start with their operand. -/
structure IsChain (c : Cst) : Prop where
  conforms : c.conforms = true
  kind : c.kind = .binaryExpression
  starts : c.StartsWithOperands

theorem IsChain.exists_isLevel {c : Cst} (h : c.IsChain) :
    ∃ left others, c.IsLevel left others := by
  obtain ⟨inner, hspine⟩ := c.exists_spine_eq
  refine Cst.exists_isLevel h.conforms h.kind (h.starts c ?_)
  rw [hspine]
  exact List.mem_cons_self

theorem IsChain.left {c left : Cst} (h : c.IsChain) (hleft : c.get? .left = some left)
    (hbinary : left.kind = .binaryExpression) : left.IsChain where
  conforms := conforms_child h.conforms (mem_of_get? hleft).1
  kind := hbinary
  starts := by
    intro level hlevel
    refine h.starts level ?_
    rw [spine_around hleft hbinary]
    exact List.mem_cons_of_mem _ hlevel

theorem closeLevels_concat (inner : Option Cst) (levels : List Cst) (last c : Cst) :
    closeLevels call inner (levels ++ [last] ++ [c]) = (do
      let rest ← closeLevels call inner (levels ++ [last])
      let operands ← callAll call (c.named.filter fun d => some d ≠ some last)
      return rest ++ operands ++ [.finish]) := by
  induction levels generalizing inner with
  | nil =>
    simp only [List.nil_append, List.cons_append, closeLevels]
    simp
  | cons level levels ih =>
    simp only [List.cons_append, closeLevels, ih]
    simp

theorem twoLoops_single {c : Cst} (hspine : c.spine = [c]) :
    c.twoLoops call = (do
      let inside ← callAll call c.named
      return opening c :: (inside ++ [.finish])) := by
  rw [twoLoops, hspine]
  simp [closeLevels]

theorem twoLoops_around {c left : Cst} {others : List Cst} (h : c.IsLevel left others)
    (hbinary : left.kind = .binaryExpression) :
    c.twoLoops call = (do
      let inner ← left.twoLoops call
      let rest ← callAll call (others.filter isNamed)
      return opening c :: (inner ++ rest ++ [.finish])) := by
  obtain ⟨inner, hspine⟩ := left.exists_spine_eq
  have hreverse : c.spine.reverse = inner.reverse ++ [left] ++ [c] := by
    rw [spine_around h.get hbinary, hspine]
    simp
  rw [twoLoops, hreverse, closeLevels_concat, h.filter_ne_left, twoLoops,
    spine_around h.get hbinary, hspine]
  simp

theorem levelByLevel_single {c left : Cst} {others : List Cst} (h : c.IsLevel left others)
    (hsingle : left.kind ≠ .binaryExpression)
    (call : Nat → Cst → Except TooDeep (List Step)) (depth : Nat) :
    c.levelByLevel call (depth + 1) = (do
      let inside ← callAll (call depth) c.named
      return opening c :: (inside ++ [.finish])) := by
  have hinside : callAll (fun d => if d.isInnerLevel then levelByLevel call depth d
      else call depth d) c.named = callAll (call depth) c.named := by
    refine callAll_congr fun d hd => ?_
    rw [h.named_eq] at hd
    rcases List.mem_cons.mp hd with rfl | hd
    · simp [h.isInnerLevel_left, hsingle]
    · simp [h.isInnerLevel_others (List.mem_filter.mp hd).1]
  rw [levelByLevel, hinside]

theorem levelByLevel_around {c left : Cst} {others : List Cst} (h : c.IsLevel left others)
    (hbinary : left.kind = .binaryExpression)
    (call : Nat → Cst → Except TooDeep (List Step)) (depth : Nat) :
    c.levelByLevel call (depth + 1) = (do
      let inner ← left.levelByLevel call depth
      let rest ← callAll (call depth) (others.filter isNamed)
      return opening c :: (inner ++ rest ++ [.finish])) := by
  have hrest :
      callAll (fun d => if d.isInnerLevel then levelByLevel call depth d else call depth d)
        (others.filter isNamed) = callAll (call depth) (others.filter isNamed) := by
    refine callAll_congr fun d hd => ?_
    simp [h.isInnerLevel_others (List.mem_filter.mp hd).1]
  rw [levelByLevel, h.named_eq, callAll, hrest]
  simp [h.isInnerLevel_left, hbinary]

/-- With a depth for each level, the recursion makes the calls of the two loops and fails where
they fail. -/
theorem levelByLevel_eq_twoLoops {c : Cst} (hc : c.IsChain) {depth : Nat}
    (hdepth : c.spine.length ≤ depth) :
    c.levelByLevel (fun _ => call) depth = c.twoLoops call := by
  induction depth generalizing c with
  | zero => exact absurd (List.length_eq_zero_iff.mp (by omega)) c.spine_ne_nil
  | succ depth ih =>
    obtain ⟨left, others, hlevel⟩ := hc.exists_isLevel
    by_cases hbinary : left.kind = .binaryExpression
    · have hinner : left.spine.length ≤ depth := by
        rw [spine_around hlevel.get hbinary, List.length_cons] at hdepth
        omega
      rw [levelByLevel_around hlevel hbinary, twoLoops_around hlevel hbinary,
        ih (hc.left hlevel.get hbinary) hinner]
    · have hspine : c.spine = [c] := by
        refine spine_single fun d hd => ?_
        cases hd.symm.trans hlevel.get
        exact hbinary
      rw [levelByLevel_single hlevel hbinary, twoLoops_single hspine]

theorem length_spine_le_of_levelByLevel {c : Cst} (hc : c.IsChain)
    {call : Nat → Cst → Except TooDeep (List Step)} {depth : Nat} {steps : List Step}
    (h : c.levelByLevel call depth = .ok steps) : c.spine.length ≤ depth := by
  induction depth generalizing c steps with
  | zero => cases h
  | succ depth ih =>
    obtain ⟨left, others, hlevel⟩ := hc.exists_isLevel
    by_cases hbinary : left.kind = .binaryExpression
    · rw [levelByLevel_around hlevel hbinary] at h
      cases hinner : left.levelByLevel call depth with
      | error e =>
        rw [hinner] at h
        cases h
      | ok inner =>
        have hle := ih (hc.left hlevel.get hbinary) hinner
        rw [spine_around hlevel.get hbinary, List.length_cons]
        omega
    · have hspine : c.spine = [c] := by
        refine spine_single fun d hd => ?_
        cases hd.symm.trans hlevel.get
        exact hbinary
      simp [hspine]

/-- Operands that answer at every depth as they do at the greatest change no answer. -/
theorem levelByLevel_extend {call : Nat → Cst → Except TooDeep (List Step)}
    {call' : Cst → Except TooDeep (List Step)} {c : Cst} {depth : Nat} {steps : List Step}
    (hcall : ∀ k < depth, ∀ d s, call k d = .ok s → call' d = .ok s)
    (h : c.levelByLevel call depth = .ok steps) :
    c.levelByLevel (fun _ => call') depth = .ok steps := by
  induction depth generalizing c steps with
  | zero => exact h
  | succ depth ih =>
    rw [levelByLevel] at h ⊢
    cases hinside : callAll (fun d => if d.isInnerLevel then levelByLevel call depth d
        else call depth d) c.named with
    | error e =>
      rw [hinside] at h
      cases h
    | ok inside =>
      rw [hinside] at h
      rw [callAll_extend _ hinside]
      · exact h
      · intro d _ s hd
        split at hd
        · next hinner =>
          rw [if_pos hinner]
          exact ih (fun k hk => hcall k (by omega)) hd
        · next hinner =>
          rw [if_neg hinner]
          exact hcall depth (by omega) d s hd

end Cst

namespace Plan

def fillCalls (lower : Cst → Except TooDeep (List Term)) (ps : List Plan) :
    Except TooDeep (List Step) :=
  (fillAll lower ps).map Term.stepsAll

variable {lower : Cst → Except TooDeep (List Term)}

theorem fillCalls_cons (p : Plan) (ps : List Plan) :
    fillCalls lower (p :: ps) = (do
      let first ← fillCalls lower [p]
      let rest ← fillCalls lower ps
      return first ++ rest) := by
  simp only [fillCalls, fillAll]
  cases fill lower p with
  | error e => rfl
  | ok ts =>
    cases fillAll lower ps with
    | error e => rfl
    | ok us =>
      refine congrArg Except.ok ?_
      rw [List.append_nil, Term.stepsAll_append]

theorem fillCalls_node (kind : Syntax.Kind) (text : Option String) (line : Nat)
    (parts : List Plan) :
    fillCalls lower [.node kind text line parts] = (do
      let inside ← fillCalls lower parts
      return .start kind text line :: (inside ++ [.finish])) := by
  simp only [fillCalls, fillAll, fill]
  cases fillAll lower parts with
  | error e => rfl
  | ok ts =>
    refine congrArg Except.ok ?_
    rw [List.append_nil, Term.stepsAll_node]

theorem fillCalls_holes (ds : List Cst) :
    fillCalls lower (holes ds) =
      Cst.callAll (fun d => (lower d).map Term.stepsAll) ds := by
  induction ds with
  | nil => rfl
  | cons d ds ih =>
    have hfirst : fillCalls lower [.hole d] = (lower d).map Term.stepsAll := by
      simp only [fillCalls, fillAll, fill]
      cases lower d with
      | error e => rfl
      | ok ts => simp only [List.append_nil]
    rw [holes, List.map_cons, fillCalls_cons, hfirst, Cst.callAll, ← ih]
    rfl

theorem fillCalls_chain {depth : Nat} {c : Cst} (hc : c.IsChain) :
    fillCalls (Cst.lower depth) [chain c] = c.twoLoops (Cst.calls depth) := by
  revert hc
  refine chain_induction (motive := fun c p => c.IsChain →
    fillCalls (Cst.lower depth) [p] = c.twoLoops (Cst.calls depth)) ?_ ?_ c
  · intro c hsingle hc
    rw [operator, fillCalls_node, fillCalls_holes, Cst.twoLoops_single (Cst.spine_single hsingle)]
    rfl
  · intro c left inner hget hbinary ih hc
    obtain ⟨left', others, hlevel⟩ := hc.exists_isLevel
    cases hget.symm.trans hlevel.get
    rw [enclose, hlevel.filter_field_ne_left, fillCalls_node, fillCalls_cons,
      ih (hc.left hget hbinary), fillCalls_holes, Cst.twoLoops_around hlevel hbinary]
    simp [Cst.opening]
    rfl

theorem pending_chain {c : Cst} (hc : c.IsChain) : (chain c).pending = c.operands := by
  revert hc
  refine chain_induction (motive := fun c p => c.IsChain → p.pending = c.operands) ?_ ?_ c
  · intro c hsingle hc
    obtain ⟨left, others, hlevel⟩ := hc.exists_isLevel
    rw [operator, pending, pendingAll_holes, hlevel.operands_single (hsingle left hlevel.get)]
  · intro c left inner hget hbinary ih hc
    obtain ⟨left', others, hlevel⟩ := hc.exists_isLevel
    cases hget.symm.trans hlevel.get
    rw [pending_enclose, hlevel.filter_field_ne_left, ih (hc.left hget hbinary),
      hlevel.operands_around hbinary]

end Plan

/-- The two loops over a chain and the recursion through its levels make the same calls. Lowering a
chain makes the calls of the two loops; however operands are lowered, the recursion makes the same
calls and fails alike if it has a depth for each level; and with the depth counted at each level it
makes no other calls, though it may give up where the loops do not. The operands are lowered once
each, in the order of the source. -/
theorem Cst.chain_calls_agree {c : Cst} (hc : c.conforms = true)
    (hkind : c.kind = .binaryExpression) (hstarts : c.StartsWithOperands) :
    (∀ depth, c.calls (depth + 1) = c.twoLoops (calls depth)) ∧
    (∀ (call : Cst → Except TooDeep (List Step)) (depth : Nat), c.spine.length ≤ depth →
      c.levelByLevel (fun _ => call) depth = c.twoLoops call) ∧
    (∀ depth steps, c.levelByLevel calls depth = .ok steps → c.calls depth = .ok steps) ∧
    (Plan.chain c).pending = c.operands := by
  have hchain : c.IsChain := ⟨hc, hkind, hstarts⟩
  have hcalls : ∀ depth, c.calls (depth + 1) = c.twoLoops (calls depth) := by
    intro depth
    have hplan : Plan.ofCst c = [Plan.chain c] := by
      rw [Plan.ofCst, hkind]
      rfl
    rw [← Plan.fillCalls_chain hchain, calls, lower, hplan]
    rfl
  refine ⟨hcalls, fun call depth => levelByLevel_eq_twoLoops hchain, ?_,
    Plan.pending_chain hchain⟩
  intro depth steps h
  cases depth with
  | zero => cases h
  | succ depth =>
    have hextend : c.levelByLevel (fun _ => calls depth) (depth + 1) = .ok steps := by
      refine levelByLevel_extend (fun k hk d s hd => ?_) h
      obtain ⟨ts, hts, hs⟩ := exists_lower_of_calls hd
      rw [calls, lower_of_le (by omega) hts, ← hs]
      rfl
    rw [hcalls, ← levelByLevel_eq_twoLoops hchain (length_spine_le_of_levelByLevel hchain h)]
    exact hextend

theorem Cst.chain_calls_agree_mixed :
    let name := fun (role : Field) (text : String) => Cst.node .identifier (some role) 1 text []
    let sign := fun text : String => Cst.node .token (some .operator) 1 text []
    let product := Cst.node .binaryExpression (some .right) 1 ""
      [name .left "b", sign "*", name .right "c"]
    let inner := Cst.node .binaryExpression (some .left) 1 "" [name .left "a", sign "+", product]
    let note := Cst.node .blockComment none 1 "/* n */" []
    let c := Cst.node .binaryExpression none 1 "" [inner, note, sign "+", name .right "d"]
    (c.conforms = true ∧ c.kind = .binaryExpression ∧ c.StartsWithOperands) ∧
    (c.spine.length ≤ 2 ∧ c.levelByLevel (fun _ => calls 2) 2 = c.twoLoops (calls 2)) ∧
    c.calls 4 = .ok
      [ .start .operator (some "+") 1, .start .operator (some "+") 1,
        .start .ident (some "a") 1, .finish,
        .start .operator (some "*") 1, .start .ident (some "b") 1, .finish,
        .start .ident (some "c") 1, .finish, .finish, .finish,
        .start .ident (some "d") 1, .finish, .finish ] ∧
    (Plan.chain c).pending = [name .left "a", product, note, name .right "d"] := by
  intro name sign product inner note c
  have hspine : c.spine = [c, inner] := by
    rw [spine_around (rfl : c.get? .left = some inner) rfl, spine_single (c := inner)]
    intro left hleft
    cases hleft
    decide
  have hc : c.conforms = true := by decide +kernel
  have hstarts : c.StartsWithOperands := by
    intro level hlevel d hd
    rw [hspine] at hlevel
    rcases List.mem_cons.mp hlevel with rfl | hlevel
    · cases hd
      rfl
    · rw [List.mem_singleton.mp hlevel] at hd
      cases hd
      rfl
  have hlength : c.spine.length ≤ 2 := by rw [hspine]; decide
  obtain ⟨-, hagree, hcalls, hpending⟩ := chain_calls_agree hc rfl hstarts
  refine ⟨⟨hc, rfl, hstarts⟩, ⟨hlength, hagree (calls 2) 2 hlength⟩, hcalls 4 _ ?_, hpending⟩
  have hproduct : product.calls 2 = .ok
      [ .start .operator (some "*") 1, .start .ident (some "b") 1, .finish,
        .start .ident (some "c") 1, .finish, .finish ] := by
    have hplan : Plan.ofCst product = [Plan.operator product] := by
      rw [← Plan.chain_single (c := product)]
      · rfl
      · intro left hleft
        cases hleft
        decide
    rw [calls, lower, hplan]
    rfl
  have hinside : callAll (calls 2) inner.named = .ok
      (.start .ident (some "a") 1 :: .finish ::
        [ .start .operator (some "*") 1, .start .ident (some "b") 1, .finish,
          .start .ident (some "c") 1, .finish, .finish ]) := by
    rw [show inner.named = [name .left "a", product] from rfl, callAll, callAll, hproduct]
    rfl
  have houter : c.IsLevel inner [note, sign "+", name .right "d"] := ⟨rfl, rfl, rfl, by decide⟩
  have hlevel : inner.IsLevel (name .left "a") [sign "+", product] := ⟨rfl, rfl, rfl, by decide⟩
  rw [levelByLevel_around houter rfl, levelByLevel_single hlevel (by decide), hinside]
  rfl

end Java

end ArchLint
