import DaceLowering.Lifetime

/-!
# The climb to an allocatable scope

When a container cannot be allocated in its candidate scope, `determine_allocation_lifetime`
walks up the scope hierarchy until `_can_allocate` holds.  The spec describes that walk as
the chain of scopes around the container: "entry node, enclosing entry nodes, its state,
its SDFG, then the enclosing entry nodes of that SDFG's nested-SDFG node in the parent
state, that parent state, the parent SDFG, and so on".  `enclosingScope` is that chain,
written from the spec's words; this module compares it with `climbLoop`.

On a well-formed program the loop ends, without error.  It stops at the first scope of
the chain where `_can_allocate` holds, with one exception: it leaves a nested SDFG whose
nested-SDFG node is at the top level of its parent state straight to `None`
(`curstate.entry_node(...)` is `None` there), skipping the parent state and all above it.
The loop also goes from a state directly out of its SDFG; that skips no answer, since an
SDFG and its state give `_can_allocate` the same one.
-/

namespace DaceLowering

/-! ### The chain of enclosing scopes -/

/-- The scope around node `n` of state `s`: its entry node, or the state itself at the top
    level. -/
def Program.enclosing (p : Program) (s n : Nat) : ScopeKey :=
  (p.entryNode s n).elim (.state s) .entry

/-- One step up the chain of scopes around a container.  The record keeps the SDFG and the
    state a scope is reached from, which `_can_allocate` is asked with; the chain ends past
    the top-level SDFG. -/
def enclosingScope (p : Program) (c : Climb) : Option Climb :=
  match c.scope with
  | none => none
  | some (.entry e) => c.state.map fun s => { c with scope := some (p.enclosing s e) }
  | some (.state s) =>
    (p.stateOwner? s).map fun G => ⟨some G.cfgId, some s, some (.sdfg G.cfgId)⟩
  | some (.sdfg g) =>
    ((p.sdfg? g).bind (·.parent)).map fun ctx =>
      ⟨some ctx.sdfg, some ctx.state, some (p.enclosing ctx.state ctx.node)⟩

/-- Whether the chain leaves the SDFG scope `c` through a nested-SDFG node at the top level
    of its parent state, the one step the climb loop takes differently. -/
def leavesAtTopLevel (p : Program) (c : Climb) : Bool :=
  match c.scope with
  | some (.sdfg g) =>
    match (p.sdfg? g).bind (·.parent) with
    | some ctx => (p.entryNode ctx.state ctx.node).isNone
    | none => false
  | _ => false

/-- Along the chain from `c`, `K` is the first scope where `_can_allocate` holds, and the
    chain leaves no SDFG through a top-level nested-SDFG node before it. -/
inductive FirstAllocatable (env : Env) (p : Program) (desc : Data) : Climb → Climb → Prop
  | here {c : Climb} :
    canAllocate env p c.sdfg c.state desc c.scope = true → FirstAllocatable env p desc c c
  | up {c c' K : Climb} :
    canAllocate env p c.sdfg c.state desc c.scope = false → leavesAtTopLevel p c = false →
    enclosingScope p c = some c' → FirstAllocatable env p desc c' K →
    FirstAllocatable env p desc c K

/-- Along the chain from `c`, no scope up to the top-level SDFG has `_can_allocate`, and the
    chain leaves no SDFG through a top-level nested-SDFG node. -/
inductive NoneAllocatable (env : Env) (p : Program) (desc : Data) : Climb → Prop
  | top {c : Climb} {g : Nat} {G : SDFG} :
    canAllocate env p c.sdfg c.state desc c.scope = false → c.scope = some (.sdfg g) →
    p.sdfg? g = some G → G.parent = none → NoneAllocatable env p desc c
  | up {c c' : Climb} :
    canAllocate env p c.sdfg c.state desc c.scope = false → leavesAtTopLevel p c = false →
    enclosingScope p c = some c' → NoneAllocatable env p desc c' → NoneAllocatable env p desc c

/-! ### Well-formed programs -/

/-- A rank on scopes that falls along every step of the chain and stays two below the
    program's size: the containment of entry nodes, states and SDFGs has no cycle. -/
structure Program.Ranking (p : Program) (r : ScopeKey → Nat) : Prop where
  lt_size : ∀ k, r k + 2 ≤ p.size
  entry_lt : ∀ g ∈ p.sdfgs, ∀ st ∈ g.states, ∀ n ∈ st.nodes,
    r (n.scope.elim (.state st.id) .entry) < r (.entry n.id)
  state_lt : ∀ g ∈ p.sdfgs, ∀ st ∈ g.states, r (.sdfg g.cfgId) < r (.state st.id)
  sdfg_lt : ∀ g ∈ p.sdfgs, ∀ ctx, g.parent = some ctx →
    r (p.enclosing ctx.state ctx.node) < r (.sdfg g.cfgId)

/-- The facts about the program the climb relies on: a `cfg_id` and a state handle name one
    SDFG and one state, the scope of a node is a node of its own state, a nested SDFG's
    node lies in its parent state, and the containment is acyclic. -/
structure Program.WellFormed (p : Program) : Prop where
  sdfg_unique : ∀ g ∈ p.sdfgs, p.sdfg? g.cfgId = some g
  state_unique : ∀ g ∈ p.sdfgs, ∀ st ∈ g.states,
    p.state? st.id = some st ∧ ∃ G, p.stateOwner? st.id = some G ∧ G.cfgId = g.cfgId
  scope_closed : ∀ g ∈ p.sdfgs, ∀ st ∈ g.states, ∀ n ∈ st.nodes, ∀ m,
    n.scope = some m → (st.node? m).isSome
  parent_in : ∀ g ∈ p.sdfgs, ∀ ctx, g.parent = some ctx → ∃ G ∈ p.sdfgs,
    G.cfgId = ctx.sdfg ∧ ∃ st ∈ G.states, st.id = ctx.state ∧ (st.node? ctx.node).isSome
  acyclic : ∃ r, p.Ranking r

/-- A climb record the loop can step from: an entry node of its state, a state of its
    SDFG, or an SDFG of the program. -/
def Program.ValidClimb (p : Program) (c : Climb) : Prop :=
  match c.scope with
  | none => True
  | some (.entry e) => ∃ s st G, c.state = some s ∧ p.state? s = some st ∧
      (st.node? e).isSome ∧ p.stateOwner? s = some G ∧ c.sdfg = some G.cfgId
  | some (.state s) => ∃ G, c.state = some s ∧ p.stateOwner? s = some G ∧ c.sdfg = some G.cfgId
  | some (.sdfg g) => (p.sdfg? g).isSome

/-- What the climb has left: one more than the rank of its scope, `0` at `None`. -/
def Climb.measure (r : ScopeKey → Nat) (c : Climb) : Nat :=
  (c.scope.map fun k => r k + 1).getD 0

/-- The scope around a node is read off the node's scope-dictionary entry. -/
theorem Program.enclosing_of_node {p : Program} {s e : Nat} {st : SDFGState} {n : Node}
    (hs : p.state? s = some st) (hn : st.node? e = some n) :
    p.enclosing s e = n.scope.elim (.state s) .entry := by
  simp [Program.enclosing, Program.entryNode, hs, SDFGState.entryNode, hn]

/-- What one step of the chain can do. -/
theorem enclosingScope_eq_some {p : Program} {c c' : Climb} (h : enclosingScope p c = some c') :
    (∃ e s, c.scope = some (.entry e) ∧ c.state = some s ∧
      c' = { c with scope := some (p.enclosing s e) }) ∨
    (∃ s G, c.scope = some (.state s) ∧ p.stateOwner? s = some G ∧
      c' = ⟨some G.cfgId, some s, some (.sdfg G.cfgId)⟩) ∨
    (∃ g G ctx, c.scope = some (.sdfg g) ∧ p.sdfg? g = some G ∧ G.parent = some ctx ∧
      c' = ⟨some ctx.sdfg, some ctx.state, some (p.enclosing ctx.state ctx.node)⟩) := by
  unfold enclosingScope at h
  split at h
  · cases h
  · obtain ⟨s, hs, rfl⟩ := Option.map_eq_some'.1 h
    exact .inl ⟨_, s, ‹_›, hs, rfl⟩
  · obtain ⟨G, hown, rfl⟩ := Option.map_eq_some'.1 h
    exact .inr (.inl ⟨_, G, ‹_›, hown, rfl⟩)
  · obtain ⟨ctx, hctx, rfl⟩ := Option.map_eq_some'.1 h
    obtain ⟨G, hG, hpar⟩ := Option.bind_eq_some.1 hctx
    exact .inr (.inr ⟨_, G, ctx, ‹_›, hG, hpar, rfl⟩)

theorem Climb.measure_of_scope {r : ScopeKey → Nat} {c : Climb} {k : ScopeKey}
    (h : c.scope = some k) : c.measure r = r k + 1 := by
  simp [Climb.measure, h]

section WellFormed

variable {p : Program} (hwf : p.WellFormed)
include hwf

/-- The scope around a node of a state of SDFG `G` is a valid record with `G`. -/
theorem Program.WellFormed.valid_enclosing {s e : Nat} {st : SDFGState} {G : SDFG}
    (hs : p.state? s = some st) (he : (st.node? e).isSome) (hG : p.stateOwner? s = some G) :
    p.ValidClimb ⟨some G.cfgId, some s, some (p.enclosing s e)⟩ := by
  obtain ⟨n, hn⟩ := Option.isSome_iff_exists.1 he
  obtain ⟨g, hg, hst, -⟩ := p.mem_of_state? hs
  rw [p.enclosing_of_node hs hn]
  cases hm : n.scope with
  | none => exact ⟨G, rfl, hG, rfl⟩
  | some m =>
    exact ⟨s, st, G, rfl, hs, hwf.scope_closed g hg st hst n (st.mem_of_node? hn).1 m hm, hG, rfl⟩

/-- The scope around a nested SDFG's node in its parent state is a valid record. -/
theorem Program.WellFormed.valid_parent {G : SDFG} {ctx : NestedIn} (hG : G ∈ p.sdfgs)
    (hpar : G.parent = some ctx) :
    p.ValidClimb ⟨some ctx.sdfg, some ctx.state, some (p.enclosing ctx.state ctx.node)⟩ := by
  obtain ⟨G', hG', hid, st, hst, hsid, hn⟩ := hwf.parent_in G hG ctx hpar
  obtain ⟨hs, G'', hown, hcfg⟩ := hwf.state_unique G' hG' st hst
  rw [hsid] at hs hown
  have hv := hwf.valid_enclosing hs hn hown
  rwa [hcfg, hid] at hv

/-- Where the loop goes out of an SDFG is a valid record. -/
theorem Program.WellFormed.valid_leaveSdfg {G : SDFG} (hG : G ∈ p.sdfgs) :
    p.ValidClimb (leaveSdfg p G) := by
  unfold leaveSdfg
  cases hpar : G.parent with
  | none => trivial
  | some ctx =>
    have hv := hwf.valid_parent hG hpar
    cases he : p.entryNode ctx.state ctx.node with
    | none => simp [Program.ValidClimb, he]
    | some m => simpa [Program.enclosing, he] using hv

/-- Each step of the chain keeps a record valid. -/
theorem Program.WellFormed.enclosingScope_valid {c c' : Climb} (hc : p.ValidClimb c)
    (h : enclosingScope p c = some c') : p.ValidClimb c' := by
  rcases enclosingScope_eq_some h with ⟨e, s, hk, hs, rfl⟩ | ⟨s, G, -, hown, rfl⟩ |
    ⟨g, G, ctx, -, hG, hpar, rfl⟩
  · simp only [Program.ValidClimb, hk] at hc
    obtain ⟨s', st, G, hs', hst, he, hG, hsd⟩ := hc
    cases hs.symm.trans hs'
    simpa [hsd, hs] using hwf.valid_enclosing hst he hG
  · simp [Program.ValidClimb, hwf.sdfg_unique G (p.mem_of_stateOwner? hown).1]
  · exact hwf.valid_parent (p.mem_of_sdfg? hG).1 hpar

end WellFormed

/-- Each step of the chain lowers the measure. -/
theorem Program.Ranking.enclosingScope_lt {p : Program} {r : ScopeKey → Nat} (hr : p.Ranking r)
    {c c' : Climb} (hc : p.ValidClimb c) (h : enclosingScope p c = some c') :
    c'.measure r < c.measure r := by
  rcases enclosingScope_eq_some h with ⟨e, s, hk, hs, rfl⟩ | ⟨s, G, hk, hown, rfl⟩ |
    ⟨g, G, ctx, hk, hG, hpar, rfl⟩
  · simp only [Program.ValidClimb, hk] at hc
    obtain ⟨s', st, -, hs', hst, he, -⟩ := hc
    cases hs.symm.trans hs'
    obtain ⟨n, hn⟩ := Option.isSome_iff_exists.1 he
    obtain ⟨g, hg, hstm, rfl⟩ := p.mem_of_state? hst
    obtain ⟨hnm, rfl⟩ := st.mem_of_node? hn
    have := hr.entry_lt g hg st hstm n hnm
    rw [Climb.measure_of_scope hk, Climb.measure_of_scope (c := { c with scope := _ }) rfl,
      p.enclosing_of_node hst hn]
    omega
  · obtain ⟨hG, st, hst, rfl⟩ := p.mem_of_stateOwner? hown
    have := hr.state_lt G hG st hst
    rw [Climb.measure_of_scope hk, Climb.measure_of_scope rfl]
    omega
  · obtain ⟨hGm, rfl⟩ := p.mem_of_sdfg? hG
    have := hr.sdfg_lt G hGm ctx hpar
    rw [Climb.measure_of_scope hk, Climb.measure_of_scope rfl]
    omega

/-- Leaving an SDFG lands below the SDFG's rank. -/
theorem Program.Ranking.leaveSdfg_measure {p : Program} {r : ScopeKey → Nat} (hr : p.Ranking r)
    {G : SDFG} (hG : G ∈ p.sdfgs) : (leaveSdfg p G).measure r ≤ r (.sdfg G.cfgId) := by
  unfold leaveSdfg
  cases hpar : G.parent with
  | none => simp [Climb.measure]
  | some ctx =>
    have := hr.sdfg_lt G hG ctx hpar
    cases he : p.entryNode ctx.state ctx.node with
    | none => simp [Climb.measure, he]
    | some m =>
      simp only [Program.enclosing, he, Option.elim_some] at this
      rw [Climb.measure_of_scope (k := .entry m) (by simp [he])]
      omega

/-! ### The loop's step against the chain's -/

section Steps

variable {p : Program}

/-- From an entry node the loop steps as the chain does. -/
theorem climbStep_of_entry {c c' : Climb} {e : Nat} (hc : c.scope = some (.entry e))
    (h : enclosingScope p c = some c') : climbStep p c = .ok c' := by
  unfold enclosingScope at h
  rw [hc] at h
  obtain ⟨s, hs, rfl⟩ := Option.map_eq_some'.1 h
  unfold climbStep
  rw [hc, hs]
  cases he : p.entryNode s e <;> simp [Program.enclosing, he]

/-- From a state or an SDFG the loop leaves the SDFG. -/
theorem climbStep_of_sdfgScope {c : Climb} {k : ScopeKey} {G : SDFG} (hc : c.scope = some k)
    (hk : p.scopeSdfg? k = some G) : climbStep p c = .ok (leaveSdfg p G) := by
  unfold climbStep
  rw [hc]
  cases k with
  | entry e => cases hk
  | state s => simp only [hk]
  | sdfg g => simp only [hk]

/-- Leaving an SDFG through a nested-SDFG node inside an entry node is the chain's step. -/
theorem leaveSdfg_eq_enclosingScope {c c' : Climb} {g : Nat} {G : SDFG}
    (hc : c.scope = some (.sdfg g)) (hG : p.sdfg? g = some G)
    (hl : leavesAtTopLevel p c = false) (h : enclosingScope p c = some c') :
    leaveSdfg p G = c' := by
  unfold enclosingScope at h
  unfold leavesAtTopLevel at hl
  rw [hc] at h hl
  simp only [hG, Option.some_bind] at h hl
  obtain ⟨ctx, hpar, rfl⟩ := Option.map_eq_some'.1 h
  obtain ⟨m, hm⟩ := Option.isSome_iff_exists.1 (by simpa [hpar] using hl)
  simp [leaveSdfg, hpar, Program.enclosing, hm]

theorem climbLoop_of_canAllocate {env : Env} {desc : Data} {fuel : Nat} {c : Climb}
    (h : canAllocate env p c.sdfg c.state desc c.scope = true) :
    climbLoop env p desc (fuel + 1) c = .ok c := by
  simp [climbLoop, h]

theorem climbLoop_of_scope_none {env : Env} {desc : Data} {fuel : Nat} {c : Climb}
    (h : c.scope = none) : climbLoop env p desc (fuel + 1) c = .ok c := by
  simp [climbLoop, h]

theorem climbLoop_of_step {env : Env} {desc : Data} {fuel : Nat} {c c' : Climb} {k : ScopeKey}
    (hf : canAllocate env p c.sdfg c.state desc c.scope = false) (hk : c.scope = some k)
    (h : climbStep p c = .ok c') :
    climbLoop env p desc (fuel + 1) c = climbLoop env p desc fuel c' := by
  simp only [climbLoop, hf, Bool.false_eq_true, if_false]
  simp only [hk, h, bind, Except.bind]

end Steps

/-! ### The climb loop on well-formed programs -/

section Loop

variable {p : Program} (hwf : p.WellFormed) {r : ScopeKey → Nat} (hr : p.Ranking r)
  {env : Env} {desc : Data}
include hwf hr

/-- The loop's step from a valid record does not fail, and lands on a valid record of lower
    measure. -/
theorem Program.WellFormed.climbStep_progress {c : Climb} {k : ScopeKey} (hc : p.ValidClimb c)
    (hk : c.scope = some k) :
    ∃ c', climbStep p c = .ok c' ∧ p.ValidClimb c' ∧ c'.measure r < c.measure r := by
  have hv := hc
  simp only [Program.ValidClimb, hk] at hv
  cases k with
  | entry e =>
    obtain ⟨s, -, -, hs, -⟩ := hv
    have h : enclosingScope p c = some { c with scope := some (p.enclosing s e) } := by
      simp [enclosingScope, hk, hs]
    exact ⟨_, climbStep_of_entry hk h, hwf.enclosingScope_valid hc h, hr.enclosingScope_lt hc h⟩
  | state s =>
    obtain ⟨G, -, hown, -⟩ := hv
    obtain ⟨hG, st, hst, rfl⟩ := p.mem_of_stateOwner? hown
    have h1 := hr.leaveSdfg_measure hG
    have h2 := hr.state_lt G hG st hst
    refine ⟨_, climbStep_of_sdfgScope hk hown, hwf.valid_leaveSdfg hG, ?_⟩
    rw [Climb.measure_of_scope hk]
    omega
  | sdfg g =>
    obtain ⟨G, hG⟩ := Option.isSome_iff_exists.1 hv
    obtain ⟨hGm, rfl⟩ := p.mem_of_sdfg? hG
    have h1 := hr.leaveSdfg_measure hGm
    refine ⟨_, climbStep_of_sdfgScope hk hG, hwf.valid_leaveSdfg hGm, ?_⟩
    rw [Climb.measure_of_scope hk]
    omega

/-- The climb loop ends, without error, once its fuel exceeds the measure of the record it
    starts from. -/
theorem Program.WellFormed.climbLoop_ok :
    ∀ fuel (c : Climb), p.ValidClimb c → c.measure r + 1 ≤ fuel →
      ∃ K, climbLoop env p desc fuel c = .ok K := by
  intro fuel
  induction fuel with
  | zero => intro c _ h; omega
  | succ f ih =>
    intro c hc hfuel
    cases hca : canAllocate env p c.sdfg c.state desc c.scope with
    | true => exact ⟨c, climbLoop_of_canAllocate hca⟩
    | false =>
      cases hk : c.scope with
      | none => exact ⟨c, climbLoop_of_scope_none hk⟩
      | some k =>
        obtain ⟨c', hs, hv, hlt⟩ := hwf.climbStep_progress hr hc hk
        rw [climbLoop_of_step hca hk hs]
        exact ih c' hv (by omega)

/-- Where a chain step is not the one the loop takes differently, the loop's run from the
    record is its run from the next scope of the chain.  From a state the loop skips the
    chain's SDFG step, which `_can_allocate` answers as it does the state. -/
theorem Program.WellFormed.climbLoop_up {c c' : Climb} {R : Except PyError Climb}
    (hc : p.ValidClimb c) (hf : canAllocate env p c.sdfg c.state desc c.scope = false)
    (hl : leavesAtTopLevel p c = false) (h : enclosingScope p c = some c')
    (ih : ∀ fuel, c'.measure r + 1 ≤ fuel → climbLoop env p desc fuel c' = R) :
    ∀ fuel, c.measure r + 1 ≤ fuel → climbLoop env p desc fuel c = R := by
  have hlt := hr.enclosingScope_lt hc h
  rintro (_ | f) hfuel
  · omega
  rcases enclosingScope_eq_some h with ⟨e, -, hk, -⟩ | ⟨s, G, hk, hown, hc'⟩ |
    ⟨g, G, -, hk, hG, -⟩
  · rw [climbLoop_of_step hf hk (climbStep_of_entry hk h)]
    exact ih f (by omega)
  · simp only [Program.ValidClimb, hk] at hc
    obtain ⟨G', hst, hown', hsd⟩ := hc
    cases hown.symm.trans hown'
    have hGs := hwf.sdfg_unique G (p.mem_of_stateOwner? hown).1
    have hk' : c'.scope = some (.sdfg G.cfgId) := by rw [hc']
    have hf' : canAllocate env p c'.sdfg c'.state desc c'.scope = false := by
      rw [hc']
      simpa [canAllocate_sdfg_eq_state env p desc hown hGs, hsd, hst, hk] using hf
    rw [climbLoop_of_step hf hk (climbStep_of_sdfgScope hk hown),
      ← climbLoop_of_step hf' hk' (climbStep_of_sdfgScope hk' hGs)]
    exact ih (f + 1) (by omega)
  · rw [climbLoop_of_step hf hk (climbStep_of_sdfgScope hk hG),
      leaveSdfg_eq_enclosingScope hk hG hl h]
    exact ih f (by omega)

/-- The climb loop stops at the first allocatable scope of the chain. -/
theorem Program.WellFormed.climbLoop_of_firstAllocatable {c K : Climb}
    (h : FirstAllocatable env p desc c K) (hc : p.ValidClimb c) :
    ∀ fuel, c.measure r + 1 ≤ fuel → climbLoop env p desc fuel c = .ok K := by
  induction h with
  | here hca =>
    rintro (_ | f) hfuel
    · omega
    · exact climbLoop_of_canAllocate hca
  | up hf hl hs _ ih =>
    exact hwf.climbLoop_up hr hc hf hl hs (ih (hwf.enclosingScope_valid hc hs))

/-- With no allocatable scope on the chain, the climb loop runs past the top-level SDFG. -/
theorem Program.WellFormed.climbLoop_of_noneAllocatable {c : Climb}
    (h : NoneAllocatable env p desc c) (hc : p.ValidClimb c) :
    ∀ fuel, c.measure r + 1 ≤ fuel → climbLoop env p desc fuel c = .ok ⟨none, none, none⟩ := by
  induction h with
  | top hf hk hG hpar =>
    rintro (_ | _ | f) hfuel
    · omega
    · simp [Climb.measure, hk] at hfuel
    · rw [climbLoop_of_step hf hk (climbStep_of_sdfgScope hk hG)]
      simp only [leaveSdfg, hpar]
      exact climbLoop_of_scope_none rfl
  | up hf hl hs _ ih =>
    exact hwf.climbLoop_up hr hc hf hl hs (ih (hwf.enclosingScope_valid hc hs))

end Loop

/-! ### The candidate scope is a valid start -/

/-- A property every step of a fold in `Except` keeps holds of the fold's result. -/
theorem foldlM_except_inv {α β ε : Type} {P : α → Prop} {f : α → β → Except ε α} :
    ∀ (l : List β) (init : α) {res : α}, (∀ a b a', b ∈ l → P a → f a b = .ok a' → P a') →
      P init → l.foldlM f init = .ok res → P res
  | [], init, res, _, h0, h => by cases h; exact h0
  | b :: l, init, res, hstep, h0, h => by
    rw [List.foldlM_cons] at h
    obtain ⟨a, hb, h⟩ := Except.bind_eq_ok.1 h
    exact foldlM_except_inv l a (fun a b a' hb => hstep a b a' (List.mem_cons_of_mem _ hb))
      (hstep init b a (List.mem_cons_self _ _) h0 hb) h

/-- What the `Scope` search keeps true in SDFG `g`: until a second state turns up,
    `curscope` is `curstate` or an entry node of it. -/
def ScopeSearch.InState (g : SDFG) (acc : ScopeSearch) : Prop :=
  acc.multistate = false → ∀ k, acc.curscope = some k → ∃ S ∈ g.states,
    acc.curstate = some S.id ∧ (k = .state S.id ∨ ∃ e, k = .entry e ∧ (S.node? e).isSome)

theorem scopeSearchNode_inState {name : DataName} {g : SDFG} {S : SDFGState} (hS : S ∈ g.states)
    (hclosed : ∀ n ∈ S.nodes, ∀ m, n.scope = some m → (S.node? m).isSome)
    {acc acc' : ScopeSearch} {node : Node} (hn : node ∈ S.nodes) (hacc : acc.InState g)
    (h : scopeSearchNode name S acc node = .ok acc') : acc'.InState g := by
  unfold scopeSearchNode at h
  by_cases hm : acc.multistate = true
  · simp only [hm, if_true, Except.ok.injEq] at h
    exact h ▸ hacc
  simp only [hm, Bool.false_eq_true, if_false] at h
  cases hkind : node.kind with
  | access d =>
    simp only [hkind] at h
    split_ifs at h with hroot hother
    · cases h; exact hacc
    · cases h; intro hms; cases hms
    · split at h
      · cases h
        intro _ k hk
        cases hk
        exact ⟨S, hS, rfl, .inl rfl⟩
      · rename_i e hsc
        have he : (S.node? e).isSome := hclosed node hn e hsc
        split at h
        · cases h
          intro _ k hk
          cases hk
          exact ⟨S, hS, rfl, .inr ⟨e, rfl, he⟩⟩
        · cases h
          intro _ k hk
          obtain ⟨x, hx, rfl⟩ := Option.map_eq_some'.1 hk
          exact ⟨S, hS, rfl, .inr ⟨x, rfl, commonParentScope_node hclosed he hx⟩⟩
        · rename_i k0 hcur hnot
          split_ifs at h
          cases h
          intro _ k hk
          obtain ⟨S', hS', hst, hk'⟩ := hacc (by simpa using hm) k hk
          have : S'.id = S.id := by simpa [hst] using hother
          exact ⟨S', hS', by rw [this], hk'⟩
  | entry _ | nestedSDFG _ | other => simp only [hkind] at h; cases h; exact hacc

/-- The `Scope` search ends with `curscope` in `curstate`, unless it found a second state. -/
theorem scopeLifetimeSearch_inState {g : SDFG} {name : DataName} {res : ScopeSearch}
    (hclosed : ∀ S ∈ g.states, ∀ n ∈ S.nodes, ∀ m, n.scope = some m → (S.node? m).isSome)
    (h : scopeLifetimeSearch g name = .ok res) : res.InState g := by
  refine foldlM_except_inv g.states _ (fun acc S acc' hS hacc hS' => ?_)
    (by simp [ScopeSearch.InState]) h
  exact foldlM_except_inv S.nodes acc
    (fun a n a' hn ha hn' => scopeSearchNode_inState hS (hclosed S hS) hn ha hn') hacc hS'

/-- The `State` search's `curstate` is a state of the list. -/
theorem stateLifetimeSearch_mem {name : DataName} :
    ∀ (cur : Option Nat) (l : List SDFGState) {x : Nat} {b : Bool},
      stateLifetimeSearch name cur l = (some x, b) → cur = some x ∨ ∃ S ∈ l, S.id = x
  | cur, [], _, _, h => by simp only [stateLifetimeSearch, Prod.mk.injEq] at h; exact .inl h.1
  | cur, s :: rest, x, b, h => by
    simp only [stateLifetimeSearch] at h
    split_ifs at h
    · cases cur with
      | some y => simp only [Prod.mk.injEq] at h; exact .inl h.1
      | none =>
        rcases stateLifetimeSearch_mem _ rest h with h | ⟨S, hS, rfl⟩
        · exact .inr ⟨s, List.mem_cons_self _ _, Option.some_inj.1 h⟩
        · exact .inr ⟨S, List.mem_cons_of_mem _ hS, rfl⟩
    · rcases stateLifetimeSearch_mem cur rest h with h | ⟨S, hS, rfl⟩
      · exact .inl h
      · exact .inr ⟨S, List.mem_cons_of_mem _ hS, rfl⟩

/-- On a well-formed program, a candidate scope is a valid start for the climb: the SDFG,
    a state of it, or an entry node of such a state. -/
theorem Program.WellFormed.allocScope_valid {p : Program} (hwf : p.WellFormed) {g : SDFG}
    (hg : g ∈ p.sdfgs) {name : DataName} {top desc : Data} {fs : Option Nat}
    {fn : Option InstNode} {k : ScopeKey} {st : Option Nat}
    (h : allocScope g name top desc fs fn = .ok (some (k, st))) :
    p.ValidClimb ⟨some g.cfgId, st, some k⟩ := by
  have hsdfg : p.ValidClimb ⟨some g.cfgId, st, some (.sdfg g.cfgId)⟩ := by
    simp [Program.ValidClimb, hwf.sdfg_unique g hg]
  have hstate : ∀ S ∈ g.states, ∃ G, p.stateOwner? S.id = some G ∧ some g.cfgId = some G.cfgId :=
    fun S hS => by
      obtain ⟨-, G, hown, hcfg⟩ := hwf.state_unique g hg S hS
      exact ⟨G, hown, by rw [hcfg]⟩
  unfold allocScope at h
  split_ifs at h
  · cases h
  · cases h; exact hsdfg
  · split at h
    · split at h
      · cases h; exact hsdfg
      · rename_i cur hsearch
        obtain ⟨x, rfl, hx⟩ := Option.map_eq_some'.1 (Except.ok.inj h)
        cases hx
        obtain ⟨S, hS, rfl⟩ := (stateLifetimeSearch_mem none g.states hsearch).resolve_left
          (by simp)
        obtain ⟨G, hown, hcfg⟩ := hstate S hS
        exact ⟨G, rfl, hown, hcfg⟩
    · obtain ⟨res, hs, h⟩ := Except.bind_eq_ok.1 h
      split_ifs at h with hms
      · cases h; exact hsdfg
      · obtain ⟨k', hk', hk⟩ := Option.map_eq_some'.1 (Except.ok.inj h)
        cases hk
        obtain ⟨S, hS, hcur, hkS⟩ := scopeLifetimeSearch_inState
          (fun S hS => hwf.scope_closed g hg S hS) hs (by simpa using hms) _ hk'
        obtain ⟨G, hown, hcfg⟩ := hstate S hS
        rcases hkS with rfl | ⟨e, rfl, he⟩
        · exact ⟨G, hcur, hown, hcfg⟩
        · exact ⟨S.id, S, G, hcur, (hwf.state_unique g hg S hS).1, he, hown, hcfg⟩
    · cases h

/-! ### Where allocations are keyed -/

/-- An allocating action is keyed at the scope the climb stopped at, or in the
    non-free-symbol branch at a state (`None` when there is no access instance). -/
theorem placeBuffer_allocate_key {env : Env} {p : Program} {g : SDFG} {name : DataName}
    {desc : Data} {cl : Climb} {insts : List (Nat × InstNode)} {bp : BufferPlan}
    (h : placeBuffer env p g name desc cl insts = .ok bp) {a : Option ScopeKey × Action}
    (ha : a ∈ bp.actions) (hal : a.2.allocate = true) :
    if nonfreeBranch env g desc (cl.scope.getD (.sdfg p.top.cfgId)) insts then
      a.1 = none ∨ ∃ s, a.1 = some (.state s)
    else a.1 = some (cl.scope.getD (.sdfg p.top.cfgId)) := by
  have hstate : ∀ fs : Option Nat, fs.map ScopeKey.state = none ∨
      ∃ s, fs.map ScopeKey.state = some (.state s) := by
    rintro (_ | s) <;> simp
  unfold placeBuffer at h
  rcases hfi : firstInstance insts with ⟨fs, fn⟩
  rcases hli : lastInstance insts with ⟨ls, ln⟩
  simp only [hfi, hli] at h
  split_ifs at h with hnf hne hview hreach
  all_goals simp only [hnf, if_true, if_false, Bool.false_eq_true]
  · cases h
    simp only [List.mem_flatMap, List.mem_cons, List.mem_singleton, List.not_mem_nil, or_false] at ha
    obtain ⟨i, -, rfl | rfl⟩ := ha
    · exact .inr ⟨i.1, rfl⟩
    · cases hal
  -- of the three actions only the second allocates
  · obtain ⟨_, -, h⟩ := Except.bind_eq_ok.1 h
    cases h
    simp only [List.mem_cons, List.mem_singleton, List.not_mem_nil, or_false] at ha
    rcases ha with rfl | rfl | rfl <;> first | exact .inr ⟨_, rfl⟩ | cases hal
  · cases h
    simp only [List.mem_cons, List.mem_singleton, List.not_mem_nil, or_false] at ha
    rcases ha with rfl | rfl | rfl <;> first | exact hstate _ | cases hal
  · cases h
    simp only [List.mem_singleton] at ha
    subst ha
    exact hstate fs
  · cases h
    simp only [List.mem_singleton] at ha
    subst ha
    rfl

/-! ### The climb of a container -/

/-- For a container of `SDFG`, `State` or `Scope` lifetime with a candidate scope, on a
    well-formed program: the climb loop ends without error; it stops at the first
    allocatable scope of the chain when the chain reaches one without leaving an SDFG
    through a top-level nested-SDFG node, and past the top-level SDFG when the chain has
    no allocatable scope and leaves no SDFG that way; an allocating action is keyed where
    the climb stopped, except in the non-free-symbol branch, which keys allocations at
    states. -/
theorem climb_allocation_scope (env : Env) (p : Program) (hwf : p.WellFormed) {g : SDFG}
    (hg : g ∈ p.sdfgs) (name : DataName) (top desc : Data) {k : ScopeKey} {st : Option Nat}
    (hcand : allocScope g name top desc (firstInstance (accessInstances g name)).1
      (firstInstance (accessInstances g name)).2 = .ok (some (k, st))) :
    ∃ cl, climbLoop env p desc p.size ⟨some g.cfgId, st, some k⟩ = .ok cl ∧
      (∀ K, FirstAllocatable env p desc ⟨some g.cfgId, st, some k⟩ K → cl = K) ∧
      (NoneAllocatable env p desc ⟨some g.cfgId, st, some k⟩ → cl = ⟨none, none, none⟩) ∧
      ∀ bp, placeBuffer env p g name desc cl (accessInstances g name) = .ok bp →
        ∀ a ∈ bp.actions, a.2.allocate = true →
          if nonfreeBranch env g desc (cl.scope.getD (.sdfg p.top.cfgId)) (accessInstances g name)
          then a.1 = none ∨ ∃ s, a.1 = some (.state s)
          else a.1 = some (cl.scope.getD (.sdfg p.top.cfgId)) := by
  obtain ⟨r, hr⟩ := hwf.acyclic
  have hc := hwf.allocScope_valid hg hcand
  have hfuel : (⟨some g.cfgId, st, some k⟩ : Climb).measure r + 1 ≤ p.size := by
    simpa [Climb.measure] using hr.lt_size k
  obtain ⟨cl, hcl⟩ := hwf.climbLoop_ok hr _ _ hc hfuel
  refine ⟨cl, hcl, fun K hK => ?_, fun hN => ?_, fun bp hbp a ha hal => placeBuffer_allocate_key hbp ha hal⟩
  · simpa [hcl] using hwf.climbLoop_of_firstAllocatable hr hK hc _ hfuel
  · simpa [hcl] using hwf.climbLoop_of_noneAllocatable hr hN hc _ hfuel

/-- The descriptor of a `CPU_Heap` transient `x` sized by the symbol `N`. -/
def xNonfree : Data :=
  { transient := true, storage := "CPU_Heap", lifetime := .scope, freeSymbols := ["N"] }

/-- SDFG `1` of `kernelNested`: the transient `x`, accessed in its states `2 → 3`. -/
def kernelSdfg : SDFG where
  cfgId := 1
  parent := some ⟨1, 11, 0⟩
  containers := [(xName, xNonfree)]
  states := [{ id := 2, nodes := [{ id := 20, kind := .access xName }] },
    { id := 3, nodes := [{ id := 30, kind := .access xName }] }]
  reachability := fun s => if s = 2 then [3] else []
  blocks := [2, 3]
  idom := fun b => if b = 3 then 2 else b
  alldoms := fun b => if b = 3 then [2] else []
  ipostdom := fun b => if b = 2 then 3 else b
  allpostdoms := fun b => if b = 2 then [3] else []

/-- A GPU kernel around a nested SDFG: top-level state `1` holds the `GPU_Device` map `10`
    around the nested-SDFG node `11` of `kernelSdfg`. -/
def kernelNested : Program where
  top := { cfgId := 0, containers := [], states := [{ id := 1, nodes := [
      { id := 10, kind := .entry "GPU_Device" },
      { id := 11, kind := .nestedSDFG 1, scope := some 10 }] }] }
  nested := [kernelSdfg]

/-- `x` cannot live in the kernel; the climb goes from SDFG `1` through map `10` to state
    `1`, where `x` is declared.  The non-free-symbol branch then allocates `x` at state `2`
    inside the kernel, where `_can_allocate` fails. -/
theorem determineAllocationLifetime_kernelNested :
    determineAllocationLifetime hostEnv kernelNested = .ok {
      toAllocate := [(some (.state 1), ⟨1, none, some (.fresh xName), true, false, false⟩),
        (some (.state 2), ⟨1, some 2, some (.node 20 xName), false, true, false⟩),
        (some (.state 3), ⟨1, some 3, some (.node 30 xName), false, false, true⟩)]
      whereAllocated := [((1, xName), some 0)] } ∧
      canAllocate hostEnv kernelNested (some 1) (some 2) xNonfree (some (.state 2)) = false ∧
      canAllocate hostEnv kernelNested (some 0) (some 1) xNonfree (some (.state 1)) = true :=
  ⟨rfl, rfl, rfl⟩

/-- A rank for `kernelNested`'s scopes, from the top-level SDFG down. -/
def kernelNestedRank : ScopeKey → Nat
  | .sdfg 0 => 0
  | .sdfg _ => 3
  | .state 1 => 1
  | .state _ => 4
  | .entry 10 => 2
  | .entry _ => 5

theorem kernelNested_sdfgs {g : SDFG} (hg : g ∈ kernelNested.sdfgs) :
    g = kernelNested.top ∨ g = kernelSdfg := by
  simpa [Program.sdfgs, kernelNested] using hg

theorem kernelNested_wellFormed : kernelNested.WellFormed where
  sdfg_unique g hg := by rcases kernelNested_sdfgs hg with rfl | rfl <;> rfl
  state_unique g hg st hst := by
    rcases kernelNested_sdfgs hg with rfl | rfl
    all_goals simp only [kernelNested, kernelSdfg, List.mem_cons, List.mem_singleton,
      List.not_mem_nil, or_false] at hst
    all_goals rcases hst with rfl | rfl
    all_goals exact ⟨rfl, _, rfl, rfl⟩
  scope_closed g hg st hst n hn m hm := by
    rcases kernelNested_sdfgs hg with rfl | rfl
    all_goals simp only [kernelNested, kernelSdfg, List.mem_cons, List.mem_singleton,
      List.not_mem_nil, or_false] at hst
    all_goals rcases hst with rfl | rfl
    all_goals simp only [List.mem_cons, List.mem_singleton, List.not_mem_nil, or_false] at hn
    all_goals rcases hn with rfl | rfl
    all_goals cases hm
    rfl
  parent_in g hg ctx hpar := by
    rcases kernelNested_sdfgs hg with rfl | rfl
    · cases hpar
    · cases hpar
      exact ⟨kernelNested.top, by simp, rfl, _, List.mem_singleton_self _, rfl, rfl⟩
  acyclic := ⟨kernelNestedRank, {
    lt_size := fun k => by
      have hk : kernelNestedRank k ≤ 5 := by unfold kernelNestedRank; split <;> omega
      have hs : kernelNested.size = 10 := rfl
      omega
    entry_lt := by decide
    state_lt := by decide
    sdfg_lt := by
      intro g hg ctx hpar
      rcases kernelNested_sdfgs hg with rfl | rfl
      · cases hpar
      · cases hpar
        decide }⟩

/-- On `kernelNested`, whose plan allocates `x` where `_can_allocate` fails, the climb of `x`
    from SDFG `1` stops at state `1`, the first allocatable scope of its chain. -/
theorem climb_allocation_scope_kernelNested :
    kernelNested.WellFormed ∧ kernelSdfg ∈ kernelNested.sdfgs ∧
      allocScope kernelSdfg xName xNonfree xNonfree
        (firstInstance (accessInstances kernelSdfg xName)).1
        (firstInstance (accessInstances kernelSdfg xName)).2 = .ok (some (.sdfg 1, none)) ∧
      climbLoop hostEnv kernelNested xNonfree kernelNested.size ⟨some 1, none, some (.sdfg 1)⟩ =
        .ok ⟨some 0, some 1, some (.state 1)⟩ := by
  have hg : kernelSdfg ∈ kernelNested.sdfgs := by simp [Program.sdfgs, kernelNested]
  have hcand : allocScope kernelSdfg xName xNonfree xNonfree
      (firstInstance (accessInstances kernelSdfg xName)).1
      (firstInstance (accessInstances kernelSdfg xName)).2 = .ok (some (.sdfg 1, none)) := rfl
  obtain ⟨cl, hcl, hfirst, -⟩ := climb_allocation_scope hostEnv kernelNested
    kernelNested_wellFormed hg xName xNonfree xNonfree hcand
  refine ⟨kernelNested_wellFormed, hg, hcand, ?_⟩
  rw [← hfirst ⟨some 0, some 1, some (.state 1)⟩ (.up rfl rfl rfl (.up rfl rfl rfl (.here rfl)))]
  exact hcl

end DaceLowering
