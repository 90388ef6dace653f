import DaceLowering.Climb

/-!
# The bounded loops end on their own

The model bounds each loop and recursion of the planner by a number of steps: the climb
by the size of the program, `_get_schedule`'s walk up through nested SDFGs by the number
of SDFGs, and each loop of `_get_dominator_and_postdominator` by one more than the number
of blocks.  On a well-formed program these bounds are never reached.  The walk of
`_get_schedule` goes up to SDFGs of lower rank only, so any more steps give the same
answer (`getSchedule_fuel_stable`).  The whole planner returns a plan or raises one of
Python's exceptions, never the model's step-bound marker
(`determineAllocationLifetime_ne_outOfFuel`).  So the loops of the source terminate on
such programs, and the model computes what they compute.
-/

namespace DaceLowering

/-! ### The walk of `_get_schedule` -/

/-- The number of SDFGs of the program ranked below `g`. -/
def Program.sdfgsBelow (p : Program) (r : ScopeKey → Nat) (g : SDFG) : Nat :=
  (p.sdfgs.filter fun h => r (.sdfg h.cfgId) < r (.sdfg g.cfgId)).length

theorem Program.sdfgsBelow_lt {p : Program} {r : ScopeKey → Nat} {G g : SDFG}
    (hG : G ∈ p.sdfgs) (hlt : r (.sdfg G.cfgId) < r (.sdfg g.cfgId)) :
    p.sdfgsBelow r G < p.sdfgsBelow r g := by
  have hsub := p.sdfgs.monotone_filter_right (p := fun h => r (.sdfg h.cfgId) < r (.sdfg G.cfgId))
    (q := fun h => r (.sdfg h.cfgId) < r (.sdfg g.cfgId)) fun h hh => by
      simp only [decide_eq_true_eq] at hh ⊢; omega
  refine lt_of_le_of_ne hsub.length_le fun heq => ?_
  -- equal lengths make the filters equal, and then `G` would be ranked below itself
  have hmem : G ∈ p.sdfgs.filter fun h => r (.sdfg h.cfgId) < r (.sdfg G.cfgId) := by
    rw [hsub.eq_of_length heq]
    simpa using ⟨hG, hlt⟩
  simp at hmem

theorem Program.sdfgsBelow_lt_length {p : Program} (r : ScopeKey → Nat) {g : SDFG}
    (hg : g ∈ p.sdfgs) : p.sdfgsBelow r g < p.sdfgs.length :=
  List.length_filter_lt_length_iff_exists.2 ⟨g, hg, by simp⟩

section Walk

variable {p : Program} (hwf : p.WellFormed) {r : ScopeKey → Nat} (hr : p.Ranking r)
include hwf hr

/-- The recursive step of `_get_schedule` out of SDFG `g`, through a nested-SDFG node at
    the top level of the parent state, lands in an SDFG of the program ranked below `g`. -/
theorem Program.WellFormed.parentOwner {g : SDFG} {c : NestedIn} (hg : g ∈ p.sdfgs)
    (hpar : g.parent = some c) (he : p.entryNode c.state c.node = none) :
    ∃ G ∈ p.sdfgs, p.stateOwner? c.state = some G ∧ r (.sdfg G.cfgId) < r (.sdfg g.cfgId) := by
  obtain ⟨G, hG, -, st, hst, hsid, -⟩ := hwf.parent_in g hg c hpar
  obtain ⟨-, G', hown, -⟩ := hwf.state_unique G hG st hst
  rw [hsid] at hown
  obtain ⟨hG', st', hst', hid⟩ := p.mem_of_stateOwner? hown
  have h1 := hr.state_lt G' hG' st' hst'
  have h2 := hr.sdfg_lt g hg c hpar
  rw [hid] at h1
  simp only [Program.enclosing, he, Option.elim_none] at h2
  exact ⟨G', hG', hown, by omega⟩

/-- From a scope of SDFG `g`, `_get_schedule` answers the same for every fuel from any `n`
    above the number of SDFGs ranked below `g`. -/
theorem Program.WellFormed.getSchedule_stable :
    ∀ n (g : SDFG), g ∈ p.sdfgs → p.sdfgsBelow r g < n → ∀ k, p.scopeSdfg? k = some g →
      ∀ fuel, n ≤ fuel → getSchedule p fuel (some k) = getSchedule p n (some k) := by
  intro n
  induction n with
  | zero => intro g _ h; omega
  | succ n ih =>
    intro g hg hn k hk fuel hfuel
    obtain ⟨f, rfl⟩ : ∃ f, fuel = f + 1 := ⟨fuel - 1, by omega⟩
    rw [getSchedule_succ_of_scopeSdfg hk, getSchedule_succ_of_scopeSdfg hk]
    cases hpar : g.parent with
    | none => rfl
    | some c =>
      cases he : p.entryNode c.state c.node with
      | some e => simp only [he]
      | none =>
        simp only [he]
        obtain ⟨G, hG, hown, hlt⟩ := hwf.parentOwner hr hg hpar he
        have := Program.sdfgsBelow_lt hG hlt
        exact ih G hG (by omega) (.state c.state) hown f (by omega)

end Walk

/-- On a well-formed program `_get_schedule` terminates: the number of SDFGs is enough
    fuel, and any more fuel gives the same answer. -/
theorem getSchedule_fuel_stable {p : Program} (hwf : p.WellFormed) (scope : Option ScopeKey)
    {fuel : Nat} (hfuel : p.sdfgs.length ≤ fuel) :
    getSchedule p fuel scope = getSchedule p p.sdfgs.length scope := by
  obtain ⟨r, hr⟩ := hwf.acyclic
  rcases scope with _ | k
  · cases fuel <;> rfl
  cases hk : p.scopeSdfg? k with
  | some g =>
    have hg : g ∈ p.sdfgs := by
      cases k with
      | entry e => cases hk
      | state s => exact (p.mem_of_stateOwner? hk).1
      | sdfg g' => exact (p.mem_of_sdfg? hk).1
    exact hwf.getSchedule_stable hr _ g hg (Program.sdfgsBelow_lt_length r hg) k hk fuel hfuel
  | none =>
    obtain ⟨f, rfl⟩ : ∃ f, fuel = f + 1 := ⟨fuel - 1, by simp [Program.sdfgs] at hfuel; omega⟩
    cases k with
    | entry e => simp
    | state s | sdfg g => simp [Program.sdfgs, getSchedule, hk]

/-- In `kernelNested`, the schedule around SDFG `1` is that of the GPU kernel around its
    nested-SDFG node, for any fuel from two on. -/
theorem getSchedule_fuel_stable_kernelNested :
    getSchedule kernelNested 100 (some (.sdfg 1)) =
        getSchedule kernelNested kernelNested.sdfgs.length (some (.sdfg 1)) ∧
      getSchedule kernelNested kernelNested.sdfgs.length (some (.sdfg 1)) = "GPU_Device" :=
  ⟨getSchedule_fuel_stable kernelNested_wellFormed _ (by decide), rfl⟩

/-! ### The planner -/

/-- The non-free-symbol branch raises no step-bound marker when the SDFG's dominator tables
    are closed. -/
theorem placeBuffer_ne_outOfFuel {env : Env} {p : Program} {g : SDFG} {name : DataName}
    {desc : Data} {cl : Climb} (hd : g.DominatorsClosed) :
    placeBuffer env p g name desc cl (accessInstances g name) ≠ .error .outOfFuel := by
  intro h
  unfold placeBuffer at h
  rcases hfi : firstInstance (accessInstances g name) with ⟨fs, fn⟩
  rcases hli : lastInstance (accessInstances g name) with ⟨ls, ln⟩
  simp only [hfi, hli] at h
  -- every other branch returns `.ok`
  split_ifs at h
  · -- the common dominator and post-dominator of the access states
    rcases Except.bind_eq_error.1 h with h | ⟨_, -, h⟩
    · refine getDominatorAndPostdominator_ne_outOfFuel hd (fun a ha => ?_) h
      obtain ⟨st, hst, hid⟩ := accessInstances_state ha
      exact hid ▸ hd.states_in st hst
    · cases h
  · cases h

/-- One iteration of the planner's loop, on a well-formed program whose dominator tables
    are closed, raises no step-bound marker: the climb from a candidate ends within the
    program's size. -/
theorem Program.WellFormed.planBuffer_ne_outOfFuel {p : Program} (hwf : p.WellFormed)
    (env : Env) {g : SDFG} (hg : g ∈ p.sdfgs) (hd : g.DominatorsClosed) (name : DataName)
    (desc : Data) : planBuffer env p g name desc ≠ .error .outOfFuel := by
  obtain ⟨r, hr⟩ := hwf.acyclic
  intro h
  unfold planBuffer at h
  split at h
  · cases h
  rename_i top _
  rcases hfi : firstInstance (accessInstances g name) with ⟨fs, fn⟩
  simp only [hfi] at h
  by_cases ht : (!top.transient || decide (name.full ∈ g.constants)) = true
  · rw [if_pos ht] at h
    cases h
  rw [if_neg ht] at h
  cases hl : top.lifetime with
  | scope | state | sdfg =>
    simp only [hl] at h
    rcases Except.bind_eq_error.1 h with h | ⟨o, hcand, h⟩
    · exact allocScope_ne_outOfFuel h
    rcases o with _ | ⟨k, st⟩
    · cases h
    rcases Except.bind_eq_error.1 h with h | ⟨cl, -, h⟩
    · obtain ⟨K, hK⟩ := hwf.climbLoop_ok hr _ _ (hwf.allocScope_valid hg hcand)
        (by simpa [Climb.measure] using hr.lt_size k)
      rw [hK] at h
      cases h
    · exact placeBuffer_ne_outOfFuel hd h
  | global | persistent | external =>
    simp only [hl] at h
    split at h <;> cases h

/-- **The planner ends.**  On a well-formed program whose SDFGs have closed dominator
    tables, `determine_allocation_lifetime` returns a plan or raises one of Python's
    exceptions: none of the model's step bounds is reached. -/
theorem determineAllocationLifetime_ne_outOfFuel (env : Env) (p : Program)
    (hwf : p.WellFormed) (hdom : ∀ g ∈ p.sdfgs, g.DominatorsClosed) :
    determineAllocationLifetime env p ≠ .error .outOfFuel := by
  intro h
  obtain ⟨pl, e, he, h⟩ := foldlM_except_error _ _ h
  obtain ⟨g, hg, hc⟩ := List.mem_flatMap.1 he
  obtain ⟨c, -, rfl⟩ := List.mem_map.1 hc
  cases hb : planBuffer env p g c.1 c.2 with
  | error e' =>
    simp only [hb, Except.map, Except.error.injEq] at h
    exact hwf.planBuffer_ne_outOfFuel env hg (hdom g hg) c.1 c.2 (h ▸ hb)
  | ok bp => simp [hb, Except.map] at h

/-- A rank for `loopy`'s scopes: the SDFG, then its states, then entry nodes. -/
def loopyRank : ScopeKey → Nat
  | .sdfg _ => 0
  | .state _ => 1
  | .entry _ => 2

theorem loopy_sdfgs {g : SDFG} (hg : g ∈ loopy.sdfgs) : g = loopy.top := by
  simpa [Program.sdfgs, loopy] using hg

theorem loopy_wellFormed : loopy.WellFormed where
  sdfg_unique g hg := by rw [loopy_sdfgs hg]; rfl
  state_unique g hg st hst := by
    rw [loopy_sdfgs hg] at hst ⊢
    simp only [loopy, List.mem_cons, List.mem_singleton, List.not_mem_nil, or_false] at hst
    rcases hst with rfl | rfl | rfl | rfl
    all_goals exact ⟨rfl, _, rfl, rfl⟩
  scope_closed g hg st hst n hn m hm := by
    rw [loopy_sdfgs hg] at hst
    simp only [loopy, List.mem_cons, List.mem_singleton, List.not_mem_nil, or_false] at hst
    rcases hst with rfl | rfl | rfl | rfl
    all_goals simp only [List.mem_cons, List.mem_singleton, List.not_mem_nil, or_false] at hn
    all_goals (subst hn; cases hm)
  parent_in g hg ctx hpar := by
    rw [loopy_sdfgs hg] at hpar
    cases hpar
  acyclic := ⟨loopyRank, {
    lt_size := fun k => by
      have hs : loopy.size = 8 := rfl
      cases k <;> simp [loopyRank, hs]
    entry_lt := by decide
    state_lt := by decide
    sdfg_lt := fun g hg ctx hpar => by
      rw [loopy_sdfgs hg] at hpar
      cases hpar }⟩

theorem loopy_dominatorsClosed : loopy.top.DominatorsClosed where
  states_in := by decide
  idom_in := by decide
  ipostdom_in := by decide
  -- both maps send the other blocks to themselves, and reach a root in two steps
  idom_forest b := ⟨2, by
    by_cases h : b = 2 ∨ b = 3 ∨ b = 4
    · rcases h with rfl | rfl | rfl <;> rfl
    · simp only [not_or] at h
      simp [loopy, h]⟩
  ipostdom_forest b := ⟨2, by
    by_cases h : b = 1 ∨ b = 2 ∨ b = 3
    · rcases h with rfl | rfl | rfl <;> rfl
    · simp only [not_or] at h
      simp [loopy, h]⟩

/-- `loopy`, whose plan comes from its dominator tables, is well formed with closed tables,
    so its planner run reaches no step bound. -/
theorem determineAllocationLifetime_ne_outOfFuel_loopy :
    loopy.WellFormed ∧ (∀ g ∈ loopy.sdfgs, g.DominatorsClosed) ∧
      determineAllocationLifetime hostEnv loopy ≠ .error .outOfFuel :=
  have hdom : ∀ g ∈ loopy.sdfgs, g.DominatorsClosed := fun _ hg =>
    loopy_sdfgs hg ▸ loopy_dominatorsClosed
  ⟨loopy_wellFormed, hdom,
    determineAllocationLifetime_ne_outOfFuel hostEnv loopy loopy_wellFormed hdom⟩

end DaceLowering
