import DaceLowering.Graph
import Mathlib.Logic.Function.Iterate
import Mathlib.Data.Nat.Find
import Mathlib.Data.List.Nodup
import Mathlib.Data.List.Perm.Subperm

/-!
# The common dominator of a buffer's access states

`_get_dominator_and_postdominator(sdfg, accesses)` (`framecode.py`) places a buffer whose
size depends on a symbol bound by control flow: it is allocated at a block that dominates
every access state and freed at one that post-dominates them all.  It reads the tables of
`utils.get_control_flow_block_dominators` (immediate dominators, dominator sets, and the
same for post-dominators), adds every access state to its own set, and climbs the
immediate-dominator chain of the first access state (the post-dominator chain of the last)
until it reaches a block in the set of every access state, raising `NotImplementedError`
at a block that is its own immediate dominator.

The tables are inputs.  The theorem of this module assumes only what they are: the
immediate-dominator map is a forest, and a block's dominator set together with the block
is its chain in that forest.  Under that assumption the loops stop, raise exactly when no
common dominator exists, and otherwise return the nearest one.
-/

namespace DaceLowering

/-! ### The model -/

/-- `for state in states: alldoms[state].add(state)`. -/
def addSelf (states : List Nat) (sets : Nat → List Nat) (n : Nat) : List Nat :=
  if n ∈ states then n :: sets n else sets n

/-- One `while` loop of `_get_dominator_and_postdominator`: climb `up` from `b` while some
    access state's set misses `b`, raising `err` at a block that is its own image. -/
def climbToCommon (up : Nat → Nat) (sets : Nat → List Nat) (states : List Nat)
    (err : PyError) : Nat → Nat → Except PyError Nat
  | 0, _ => .error .outOfFuel
  | fuel + 1, b =>
    if states.any fun n => b ∉ sets n then
      if up b = b then .error err else climbToCommon up sets states err fuel (up b)
    else .ok b

/-- The exception raised when no block dominates every access state of `name`. -/
def dominatorError (name : String) : PyError :=
  .notImplementedError
    ("Could not find an appropriate dominator for allocation of \"" ++ name ++ "\"")

/-- The exception raised when no block post-dominates every access state of `name`. -/
def postdominatorError (name : String) : PyError :=
  .notImplementedError
    ("Could not find an appropriate post-dominator for deallocation of \"" ++ name ++ "\"")

/-- `_get_dominator_and_postdominator(sdfg, accesses)`; `fuel` bounds each loop. -/
def getDominatorAndPostdominator (fuel : Nat) (g : SDFG) :
    List (Nat × InstNode) → Except PyError (Nat × Nat)
  | [] => .error .indexError
  | a :: rest => do
    let states := (a :: rest).map (·.1)
    let name := a.2.data.full
    let startState ← climbToCommon g.idom (addSelf states g.alldoms) states
      (dominatorError name) fuel a.1
    let endState ← climbToCommon g.ipostdom (addSelf states g.allpostdoms) states
      (postdominatorError name) fuel ((a :: rest).getLast (List.cons_ne_nil _ _)).1
    pure (startState, endState)

/-! ### What the dominator tables are -/

/-- `c` is on `n`'s chain of immediate (post-)dominators, `n` included. -/
def OnChain (up : Nat → Nat) (c n : Nat) : Prop := ∃ k, up^[k] n = c

/-- Following `up` from any block reaches a root, a block that is its own image. -/
def IsForest (up : Nat → Nat) : Prop := ∀ b, ∃ k, up (up^[k] b) = up^[k] b

/-- A block's set, with the block added, is exactly its chain. -/
def ChainSets (up : Nat → Nat) (sets : Nat → List Nat) : Prop :=
  ∀ n c, (c ∈ sets n ∨ c = n) ↔ OnChain up c n

/-- `c` (post-)dominates every access state. -/
def CommonTo (sets : Nat → List Nat) (states : List Nat) (c : Nat) : Prop :=
  ∀ n ∈ states, c ∈ sets n ∨ c = n

/-- `c` is a common (post-)dominator that every other common one (post-)dominates. -/
def NearestCommon (sets : Nat → List Nat) (states : List Nat) (c : Nat) : Prop :=
  CommonTo sets states c ∧ ∀ c', CommonTo sets states c' → c' ∈ sets c ∨ c' = c

/-! ### One loop -/

section Climb

variable {up : Nat → Nat} {sets : Nat → List Nat} {states : List Nat} {err : PyError}

theorem climbToCommon_found {b : Nat} (hb : ∀ n ∈ states, b ∈ sets n) (fuel : Nat) :
    climbToCommon up sets states err (fuel + 1) b = .ok b := by
  have : (states.any fun n => b ∉ sets n) = false := by simpa using hb
  rw [climbToCommon, this]
  rfl

theorem climbToCommon_root {b : Nat} (hb : ¬ ∀ n ∈ states, b ∈ sets n) (hr : up b = b)
    (fuel : Nat) : climbToCommon up sets states err (fuel + 1) b = .error err := by
  have : (states.any fun n => b ∉ sets n) = true := by simpa using hb
  rw [climbToCommon, if_pos this, if_pos hr]

/-- `k` steps of the loop, none of them stopping. -/
theorem climbToCommon_run (k : Nat) : ∀ b fuel,
    (∀ j < k, (¬ ∀ n ∈ states, up^[j] b ∈ sets n) ∧ up (up^[j] b) ≠ up^[j] b) →
    climbToCommon up sets states err (fuel + k) b =
      climbToCommon up sets states err fuel (up^[k] b) := by
  induction k with
  | zero => intro b fuel _; rfl
  | succ k ih =>
    intro b fuel h
    have h0 := h 0 (Nat.succ_pos k)
    have hany : (states.any fun n => b ∉ sets n) = true := by simpa using h0.1
    have hmove : up b ≠ b := h0.2
    have hstep : climbToCommon up sets states err (fuel + k + 1) b =
        climbToCommon up sets states err (fuel + k) (up b) := by
      rw [climbToCommon, if_pos hany, if_neg hmove]
    rw [← Nat.add_assoc, hstep, ih (up b) fuel fun j hj => by
      simpa only [← Function.iterate_succ_apply] using h (j + 1) (Nat.succ_lt_succ hj)]
    rfl

/-- With the access states added to their own sets, the loop's membership test is
    `CommonTo`, which the chain hypothesis turns into chain membership. -/
theorem mem_addSelf_iff (hs : ChainSets up sets) (c : Nat) :
    (∀ n ∈ states, c ∈ addSelf states sets n) ↔ ∀ n ∈ states, OnChain up c n := by
  refine forall₂_congr fun n hn => ?_
  rw [← hs, addSelf, if_pos hn, List.mem_cons, or_comm]

/-- **One loop.**  Started from an access state `b`, the loop stops with enough fuel: at
    the nearest common block when one exists, raising `err` when none does. -/
theorem climbToCommon_spec (hf : IsForest up) (hs : ChainSets up sets) {b : Nat}
    (hb : b ∈ states) : ∃ bound, ∀ fuel, bound ≤ fuel →
      match climbToCommon up (addSelf states sets) states err fuel b with
      | .ok d => NearestCommon sets states d
      | .error e => e = err ∧ ¬ ∃ c, CommonTo sets states c := by
  classical
  have hcommon : ∀ c, CommonTo sets states c ↔ ∀ n ∈ states, OnChain up c n :=
    fun c => forall₂_congr fun n _ => hs n c
  have hmem : ∀ c, (∀ n ∈ states, c ∈ addSelf states sets n) ↔ CommonTo sets states c :=
    fun c => (mem_addSelf_iff hs c).trans (hcommon c).symm
  -- every common block is on `b`'s chain
  have hon : ∀ c, CommonTo sets states c → ∃ k, up^[k] b = c :=
    fun c hc => (hcommon c).1 hc b hb
  have hroot := hf b
  by_cases hex : ∃ k, CommonTo sets states (up^[k] b)
  · let j := Nat.find hex
    have hj : CommonTo sets states (up^[j] b) := Nat.find_spec hex
    have hbefore : ∀ i < j, (¬ ∀ n ∈ states, up^[i] b ∈ addSelf states sets n) ∧
        up (up^[i] b) ≠ up^[i] b := by
      intro i hi
      refine ⟨fun h => Nat.find_min hex hi ((hmem _).1 h), fun hfix => ?_⟩
      have : up^[j] b = up^[i] b := by
        rw [← Nat.sub_add_cancel hi.le, Function.iterate_add_apply,
          Function.iterate_fixed hfix]
      exact Nat.find_min hex hi (this ▸ hj)
    refine ⟨j + 1, fun fuel hfuel => ?_⟩
    obtain ⟨m, rfl⟩ := Nat.exists_eq_add_of_le hfuel
    rw [show j + 1 + m = m + 1 + j by omega, climbToCommon_run j b _ hbefore,
      climbToCommon_found ((hmem _).2 hj)]
    refine ⟨hj, fun c' hc' => ?_⟩
    obtain ⟨k, rfl⟩ := hon c' hc'
    have hjk : j ≤ k := Nat.find_min' hex hc'
    refine (hs _ _).2 ⟨k - j, ?_⟩
    rw [← Function.iterate_add_apply, Nat.sub_add_cancel hjk]
  · push_neg at hex
    let r0 := Nat.find hroot
    have hr0 : up (up^[r0] b) = up^[r0] b := Nat.find_spec hroot
    have hnot : ∀ i, ¬ ∀ n ∈ states, up^[i] b ∈ addSelf states sets n :=
      fun i h => hex i ((hmem _).1 h)
    refine ⟨r0 + 1, fun fuel hfuel => ?_⟩
    obtain ⟨m, rfl⟩ := Nat.exists_eq_add_of_le hfuel
    rw [show r0 + 1 + m = m + 1 + r0 by omega,
      climbToCommon_run r0 b _ fun i hi => ⟨hnot i, Nat.find_min hroot hi⟩,
      climbToCommon_root (hnot r0) hr0]
    exact ⟨rfl, fun ⟨c, hc⟩ => by obtain ⟨k, rfl⟩ := hon c hc; exact hex k hc⟩

end Climb

/-! ### The loops stop within the blocks -/

/-- What the planner's fuel for the two loops relies on: every state is a block, the
    immediate (post-)dominator of a block is a block, and both maps are forests. -/
structure SDFG.DominatorsClosed (g : SDFG) : Prop where
  states_in : ∀ st ∈ g.states, st.id ∈ g.blocks
  idom_in : ∀ b ∈ g.blocks, g.idom b ∈ g.blocks
  ipostdom_in : ∀ b ∈ g.blocks, g.ipostdom b ∈ g.blocks
  idom_forest : IsForest g.idom
  ipostdom_forest : IsForest g.ipostdom

section Bound

variable {up : Nat → Nat} {blocks : List Nat}

theorem iterate_mem (hin : ∀ b ∈ blocks, up b ∈ blocks) {b : Nat} (hb : b ∈ blocks) :
    ∀ i, up^[i] b ∈ blocks
  | 0 => hb
  | i + 1 => by rw [Function.iterate_succ_apply']; exact hin _ (iterate_mem hin hb i)

/-- Before the chain from `b` first reaches a root, at step `k`, it visits no block twice:
    a repeat would make the chain periodic, and the root would be a block before it. -/
theorem iterate_ne_of_lt_root {b k : Nat} (hk : ∀ i < k, up (up^[i] b) ≠ up^[i] b)
    (hroot : up (up^[k] b) = up^[k] b) {i j : Nat} (hi : i < k) (hij : i < j)
    (heq : up^[i] b = up^[j] b) : False := by
  have hper : up^[j - i] (up^[i] b) = up^[i] b := by
    rw [← Function.iterate_add_apply, Nat.sub_add_cancel hij.le, heq]
  have hcyc : up^[(j - i) * k] (up^[i] b) = up^[i] b := by
    rw [Function.iterate_mul]
    exact Function.iterate_fixed hper k
  have hle : k ≤ (j - i) * k := Nat.le_mul_of_pos_left k (by omega)
  have hfix : up^[i] b = up^[k] b :=
    calc up^[i] b = up^[(j - i) * k] (up^[i] b) := hcyc.symm
      _ = up^[(j - i) * k + i - k] (up^[k] b) := by
        rw [← Function.iterate_add_apply, ← Function.iterate_add_apply]
        congr 1
        omega
      _ = up^[k] b := Function.iterate_fixed hroot _
  exact hk i hi (by rw [hfix]; exact hroot)

/-- A chain that stays among the blocks reaches its first root within as many steps as
    there are blocks. -/
theorem root_le_length (hin : ∀ b ∈ blocks, up b ∈ blocks) {b k : Nat} (hb : b ∈ blocks)
    (hk : ∀ i < k, up (up^[i] b) ≠ up^[i] b) (hroot : up (up^[k] b) = up^[k] b) :
    k ≤ blocks.length := by
  have hnd : ((List.range k).map fun i => up^[i] b).Nodup :=
    (List.nodup_range k).map_on fun i hi j hj heq => by
      simp only [List.mem_range] at hi hj
      rcases lt_trichotomy i j with h | h | h
      · exact (iterate_ne_of_lt_root hk hroot hi h heq).elim
      · exact h
      · exact (iterate_ne_of_lt_root hk hroot hj h heq.symm).elim
  simpa using (hnd.subperm fun x hx => by
    obtain ⟨i, -, rfl⟩ := List.mem_map.1 hx
    exact iterate_mem hin hb i).length_le

/-- With one more step than there are blocks, a loop started at a block raises nothing but
    its own exception. -/
theorem climbToCommon_error_eq (hf : IsForest up) (hin : ∀ b ∈ blocks, up b ∈ blocks)
    {sets : Nat → List Nat} {states : List Nat} {err e : PyError} {b : Nat} (hb : b ∈ blocks)
    (h : climbToCommon up sets states err (blocks.length + 1) b = .error e) : e = err := by
  classical
  have hex : ∃ j, (∀ n ∈ states, up^[j] b ∈ sets n) ∨ up (up^[j] b) = up^[j] b :=
    (hf b).imp fun _ h => .inr h
  have hbefore : ∀ i < Nat.find hex,
      (¬ ∀ n ∈ states, up^[i] b ∈ sets n) ∧ up (up^[i] b) ≠ up^[i] b :=
    fun i hi => not_or.1 (Nat.find_min hex hi)
  -- the loop stops at the first common block or root, no later than the first root
  have hj : Nat.find hex ≤ blocks.length :=
    (Nat.find_min' hex (.inr (Nat.find_spec (hf b)))).trans
      (root_le_length hin hb (fun i hi => Nat.find_min (hf b) hi) (Nat.find_spec (hf b)))
  rw [show blocks.length + 1 = (blocks.length - Nat.find hex) + 1 + Nat.find hex by omega,
    climbToCommon_run _ b _ hbefore] at h
  by_cases hc : ∀ n ∈ states, up^[Nat.find hex] b ∈ sets n
  · rw [climbToCommon_found hc] at h
    cases h
  · rw [climbToCommon_root hc ((Nat.find_spec hex).resolve_left hc)] at h
    cases h
    rfl

end Bound

/-! ### Both loops -/

/-- **`_get_dominator_and_postdominator`.**  For a non-empty list of access instances and
    dominator tables that hold the exact dominator sets, the function returns with enough
    fuel.  It raises `NotImplementedError` exactly when the access states have no common
    dominator, or no common post-dominator; otherwise it returns the nearest common
    dominator and the nearest common post-dominator. -/
theorem getDominatorAndPostdominator_spec (g : SDFG) (accesses : List (Nat × InstNode))
    (hne : accesses ≠ []) (hf : IsForest g.idom) (hd : ChainSets g.idom g.alldoms)
    (hpf : IsForest g.ipostdom) (hpd : ChainSets g.ipostdom g.allpostdoms) :
    ∃ bound, ∀ fuel, bound ≤ fuel →
      match getDominatorAndPostdominator fuel g accesses with
      | .ok (d, pd) =>
        NearestCommon g.alldoms (accesses.map (·.1)) d ∧
          NearestCommon g.allpostdoms (accesses.map (·.1)) pd
      | .error e =>
        (e = dominatorError (accesses.head hne).2.data.full ∧
            ¬ ∃ c, CommonTo g.alldoms (accesses.map (·.1)) c) ∨
          (e = postdominatorError (accesses.head hne).2.data.full ∧
            (∃ c, CommonTo g.alldoms (accesses.map (·.1)) c) ∧
            ¬ ∃ c, CommonTo g.allpostdoms (accesses.map (·.1)) c) := by
  obtain ⟨a, rest, rfl⟩ := List.exists_cons_of_ne_nil hne
  have hfirst : a.1 ∈ (a :: rest).map (·.1) := List.mem_map_of_mem _ (List.mem_cons_self _ _)
  have hlast : ((a :: rest).getLast (List.cons_ne_nil _ _)).1 ∈ (a :: rest).map (·.1) :=
    List.mem_map_of_mem _ (List.getLast_mem _)
  obtain ⟨b1, h1⟩ := @climbToCommon_spec g.idom g.alldoms _
    (dominatorError a.2.data.full) hf hd _ hfirst
  obtain ⟨b2, h2⟩ := @climbToCommon_spec g.ipostdom g.allpostdoms _
    (postdominatorError a.2.data.full) hpf hpd _ hlast
  refine ⟨max b1 b2, fun fuel hfuel => ?_⟩
  have e1 := h1 fuel (le_trans (Nat.le_max_left b1 b2) hfuel)
  have e2 := h2 fuel (le_trans (Nat.le_max_right b1 b2) hfuel)
  simp only [getDominatorAndPostdominator, List.head_cons]
  cases hc1 : climbToCommon g.idom (addSelf ((a :: rest).map (·.1)) g.alldoms)
      ((a :: rest).map (·.1)) (dominatorError a.2.data.full) fuel a.1 with
  | error e =>
    rw [hc1] at e1
    exact .inl e1
  | ok d =>
    rw [hc1] at e1
    cases hc2 : climbToCommon g.ipostdom (addSelf ((a :: rest).map (·.1)) g.allpostdoms)
        ((a :: rest).map (·.1)) (postdominatorError a.2.data.full) fuel
        ((a :: rest).getLast (List.cons_ne_nil _ _)).1 with
    | error e =>
      rw [hc2] at e2
      exact .inr ⟨e2.1, ⟨d, e1.1⟩, e2.2⟩
    | ok pd =>
      rw [hc2] at e2
      exact ⟨e1, e2⟩

/-- With the planner's fuel, one more than the number of blocks, the function raises no
    step-bound marker when its access states are blocks. -/
theorem getDominatorAndPostdominator_ne_outOfFuel {g : SDFG} (hd : g.DominatorsClosed)
    {accesses : List (Nat × InstNode)} (hin : ∀ a ∈ accesses, a.1 ∈ g.blocks) :
    getDominatorAndPostdominator (g.blocks.length + 1) g accesses ≠ .error .outOfFuel := by
  intro h
  cases accesses with
  | nil => cases h
  | cons a rest =>
    rcases Except.bind_eq_error.1 h with h | ⟨d, -, h⟩
    · have := climbToCommon_error_eq hd.idom_forest hd.idom_in (hin a (List.mem_cons_self _ _)) h
      simp [dominatorError] at this
    · rcases Except.bind_eq_error.1 h with h | ⟨pd, -, h⟩
      · have := climbToCommon_error_eq hd.ipostdom_forest hd.ipostdom_in
          (hin _ (List.getLast_mem _)) h
        simp [postdominatorError] at this
      · cases h

/-- The tables of one edge `x → y` of a tree: `x` points to `y`, every other block to
    itself. -/
theorem chainSets_edge {x y : Nat} (hxy : x ≠ y) :
    IsForest (fun b => if b = x then y else b) ∧
      ChainSets (fun b => if b = x then y else b) (fun b => if b = x then [y] else []) := by
  have hy : ∀ k, (fun b => if b = x then y else b)^[k] y = y :=
    fun k => Function.iterate_fixed (by simp [hxy.symm]) k
  refine ⟨fun b => ?_, fun n c => ?_⟩
  · by_cases hb : b = x
    · exact ⟨1, by simp [hb, hxy.symm]⟩
    · exact ⟨0, by simp [hb]⟩
  · by_cases hn : n = x
    · subst hn
      constructor
      · rintro (h | rfl)
        · exact ⟨1, by simp only [if_true, List.mem_singleton] at h; simp [h]⟩
        · exact ⟨0, rfl⟩
      · rintro ⟨_ | k, rfl⟩
        · exact .inr rfl
        · exact .inl (by simp [Function.iterate_succ_apply, hy])
    · have hfix : ∀ k, (fun b => if b = x then y else b)^[k] n = n :=
        fun k => Function.iterate_fixed (by simp [hn]) k
      simp only [OnChain, hfix, hn, if_false, List.not_mem_nil, false_or, exists_const]
      exact eq_comm

/-- A two-block control-flow graph `0 → 1`. -/
def twoBlockSDFG : SDFG where
  cfgId := 0
  containers := []
  states := []
  idom := fun b => if b = 1 then 0 else b
  alldoms := fun b => if b = 1 then [0] else []
  ipostdom := fun b => if b = 0 then 1 else b
  allpostdoms := fun b => if b = 0 then [1] else []

theorem getDominatorAndPostdominator_twoBlocks :
    IsForest twoBlockSDFG.idom ∧ ChainSets twoBlockSDFG.idom twoBlockSDFG.alldoms ∧
      IsForest twoBlockSDFG.ipostdom ∧ ChainSets twoBlockSDFG.ipostdom twoBlockSDFG.allpostdoms ∧
      ∃ bound, ∀ fuel, bound ≤ fuel →
        match getDominatorAndPostdominator fuel twoBlockSDFG
            [(0, .fresh { root := "y" }), (1, .fresh { root := "y" })] with
        | .ok (d, pd) =>
          NearestCommon twoBlockSDFG.alldoms [0, 1] d ∧
            NearestCommon twoBlockSDFG.allpostdoms [0, 1] pd
        | .error e =>
          (e = dominatorError "y" ∧ ¬ ∃ c, CommonTo twoBlockSDFG.alldoms [0, 1] c) ∨
            (e = postdominatorError "y" ∧ (∃ c, CommonTo twoBlockSDFG.alldoms [0, 1] c) ∧
              ¬ ∃ c, CommonTo twoBlockSDFG.allpostdoms [0, 1] c) :=
  have hd := chainSets_edge (x := 1) (y := 0) (by decide)
  have hpd := chainSets_edge (x := 0) (y := 1) (by decide)
  ⟨hd.1, hd.2, hpd.1, hpd.2,
    getDominatorAndPostdominator_spec twoBlockSDFG _ (List.cons_ne_nil _ _) hd.1 hd.2 hpd.1 hpd.2⟩

end DaceLowering
