import DaceLowering.Scope
import DaceLowering.Dominators
import Mathlib.Algebra.BigOperators.Group.List

/-!
# `determine_allocation_lifetime`

`DaCeCodeGenerator.determine_allocation_lifetime(top_sdfg)` decides, for every transient
container of the program, where it is declared, allocated and deallocated.  It writes
three things, each only by appending: `to_allocate`, a dictionary from scopes to lists of
actions `(sdfg, state, node, declare, allocate, deallocate)`; `statestruct`, the fields of
the program-wide state struct; and `where_allocated`, from `(sdfg, name)` to an SDFG.
No iteration reads what an earlier one wrote, so the model computes each container's
contribution (`planBuffer`) and appends them in `arrays_recursive` order.

The loop body, in source order:

* the access instances of the container: the `(state, node)` pairs of its access nodes,
  and of the interstate edges around a state that name it, in topological state order;
* `Persistent`, `External` and `Global` containers go to the top-level SDFG;
* otherwise a candidate scope by lifetime (`allocScope`), then the climb loop up the scope
  hierarchy until `_can_allocate` holds (`climbLoop`);
* the non-free-symbol branch, which moves allocation and deallocation to the first and
  last access states, or to their common dominator and post-dominator (`placeBuffer`).
-/

namespace DaceLowering

/-! ### Access instances -/

/-- `access_instances[sdfg.cfg_id][name]`: per state in topological order, the access
    nodes of `name` (when `node.data` is a key of `sdfg.arrays`), then an
    `AccessNode(name)` if `name` is free on an interstate edge around the state. -/
def accessInstances (g : SDFG) (name : DataName) : List (Nat × InstNode) :=
  g.states.flatMap fun s =>
    s.nodes.filterMap (fun n =>
      match n.kind with
      | .access d =>
        if d.full ∈ g.arrayNames ∧ d.full = name.full then some (s.id, .node n.id d) else none
      | _ => none) ++
    if name.full ∈ s.edgeSymbols ∧ name.full ∈ g.arrayNames then [(s.id, .fresh name)] else []

/-- An access instance names a state of the SDFG. -/
theorem accessInstances_state {g : SDFG} {name : DataName} {a : Nat × InstNode}
    (h : a ∈ accessInstances g name) : ∃ st ∈ g.states, a.1 = st.id := by
  simp only [accessInstances, List.mem_flatMap, List.mem_append, List.mem_filterMap] at h
  obtain ⟨st, hst, ⟨n, -, hn⟩ | h⟩ := h
  · split at hn
    · split_ifs at hn
      cases hn
      exact ⟨st, hst, rfl⟩
    · cases hn
  · split_ifs at h
    · simp only [List.mem_singleton] at h
      exact ⟨st, hst, by rw [h]⟩
    · cases h

/-- `access_instances[...].get(name, [(None, None)])[0]`. -/
def firstInstance (insts : List (Nat × InstNode)) : Option Nat × Option InstNode :=
  match insts.head? with
  | some (s, n) => (some s, some n)
  | none => (none, none)

/-- `access_instances[...].get(name, [(None, None)])[-1]`. -/
def lastInstance (insts : List (Nat × InstNode)) : Option Nat × Option InstNode :=
  match insts.getLast? with
  | some (s, n) => (some s, some n)
  | none => (none, none)

/-! ### The candidate scope -/

/-- The `State` lifetime loop over `sdfg.states()`: the first state with an access node
    of `name` (`curstate`), and whether a second one exists (`multistate`). -/
def stateLifetimeSearch (name : DataName) : Option Nat → List SDFGState → Option Nat × Bool
  | cur, [] => (cur, false)
  | cur, s :: rest =>
    if s.nodes.any (·.accesses name) then
      match cur with
      | some _ => (cur, true)
      | none => stateLifetimeSearch name (some s.id) rest
    else stateLifetimeSearch name cur rest

/-- The variables of the `Scope` lifetime loop. -/
structure ScopeSearch where
  curscope : Option ScopeKey
  curstate : Option Nat
  multistate : Bool
  deriving DecidableEq, Repr

/-- The body of the `Scope` lifetime loop for one node of state `s`; once `multistate` is
    set the loops have been left (`break`). -/
def scopeSearchNode (name : DataName) (s : SDFGState) (acc : ScopeSearch) (node : Node) :
    Except PyError ScopeSearch :=
  if acc.multistate then .ok acc
  else
    match node.kind with
    | .access d =>
      if d.root ≠ name.full then .ok acc
      else if acc.curstate.isSome ∧ acc.curstate ≠ some s.id then
        .ok { acc with multistate := true }
      else
        let acc := { acc with curstate := some s.id }
        -- `scope = sdict[node] or state`; a state scope always wins, also over `None`
        match node.scope with
        | none => .ok { acc with curscope := some (.state s.id) }
        | some e =>
          match acc.curscope with
          | none => .ok { acc with curscope := some (.entry e) }
          | some (.entry c) => .ok { acc with curscope := (commonParentScope s e c).map .entry }
          | some _ =>
            -- `if scope in curscope.nodes(): continue`; otherwise `common_parent_scope`
            -- looks a state up in the scope dictionary
            if s.nodes.any (·.id == e) then .ok acc else .error .keyError
    | _ => .ok acc

/-- The `Scope` lifetime search: `multistate` starts as whether `name` is free on an
    interstate edge or used by a control-flow region, then every node of every state. -/
def scopeLifetimeSearch (g : SDFG) (name : DataName) : Except PyError ScopeSearch :=
  g.states.foldlM (fun acc s => s.nodes.foldlM (scopeSearchNode name s) acc)
    ⟨none, none, decide (name.full ∈ g.interstateSymbols) || decide (name.full ∈ g.regionSymbols)⟩

/-- The container `x` of the examples below. -/
def xName : DataName := { root := "x" }

/-- One state holding two maps side by side, each with an access node of the transient
    `x` of (default) `Scope` lifetime. -/
def twoMaps : Program where
  top := {
    cfgId := 0
    containers := [(xName, { transient := true, storage := "CPU_Heap", lifetime := .scope })]
    states := [{ id := 1, nodes := [
      { id := 10, kind := .entry "CPU_Multicore" },
      { id := 11, kind := .access xName, scope := some 10 },
      { id := 12, kind := .entry "CPU_Multicore" },
      { id := 13, kind := .access xName, scope := some 12 }] }] }

/-- The two maps have no common entry node, so `common_parent_scope` answers `None` (the
    state's top level) and `curscope` ends as `None` instead of the state. -/
theorem scopeLifetimeSearch_twoMaps :
    scopeLifetimeSearch twoMaps.top xName = .ok ⟨none, some 1, false⟩ := by rfl

/-- `str(lifetime)`. -/
def AllocationLifetime.str : AllocationLifetime → String
  | .scope => "AllocationLifetime.Scope"
  | .state => "AllocationLifetime.State"
  | .sdfg => "AllocationLifetime.SDFG"
  | .global => "AllocationLifetime.Global"
  | .persistent => "AllocationLifetime.Persistent"
  | .external => "AllocationLifetime.External"

/-- The lifetime cases for a container that is not `Persistent`, `External` or `Global`:
    `(alloc_scope, alloc_state)`, or `none` where the loop `continue`s (unused, or
    `alloc_scope is None`). -/
def allocScope (g : SDFG) (name : DataName) (top desc : Data) (firstState : Option Nat)
    (firstNode : Option InstNode) : Except PyError (Option (ScopeKey × Option Nat)) :=
  if name.full ∈ g.sharedTransients ∨ top.lifetime = .sdfg then
    .ok (if firstNode.isNone then none else some (.sdfg g.cfgId, firstState))
  else
    match top.lifetime with
    | .state =>
      match stateLifetimeSearch name none g.states with
      | (_, true) => .ok (some (.sdfg g.cfgId, none))
      | (cur, false) => .ok (cur.map fun s => (.state s, some s))
    | .scope => do
      let r ← scopeLifetimeSearch g name
      if r.multistate then pure (some (.sdfg g.cfgId, none))
      else pure (r.curscope.map fun k => (k, r.curstate))
    | _ => .error (.typeError ("Unrecognized allocation lifetime \"" ++ desc.lifetime.str ++ "\""))

/-- The `State` loop, once it has a state, only looks for a second one. -/
theorem stateLifetimeSearch_some (name : DataName) (c : Nat) :
    ∀ l : List SDFGState,
      stateLifetimeSearch name (some c) l = (some c, l.any (·.nodes.any (·.accesses name)))
  | [] => rfl
  | s :: rest => by
    by_cases h : s.nodes.any (·.accesses name) <;>
      simp [stateLifetimeSearch, h, stateLifetimeSearch_some name c rest]

/-- The `State` loop finds the first state with an access node of `name`, and whether
    there is a second one. -/
theorem stateLifetimeSearch_none (name : DataName) :
    ∀ l : List SDFGState, stateLifetimeSearch name none l =
      ((l.filter (·.nodes.any (·.accesses name))).head?.map (·.id),
        decide (1 < (l.filter (·.nodes.any (·.accesses name))).length))
  | [] => rfl
  | s :: rest => by
    by_cases h : s.nodes.any (·.accesses name)
    · simp only [stateLifetimeSearch, h, if_true, stateLifetimeSearch_some, List.filter_cons]
      simp [List.any_eq, List.length_pos, List.filter_eq_nil_iff]
    · simp [stateLifetimeSearch, h, stateLifetimeSearch_none name rest, List.filter_cons]

/-- The candidate for a `State` container that is not a shared transient: the state that
    holds its access nodes when one does, the SDFG when several do, and none (the container
    is skipped) when no state does. -/
theorem allocScope_of_stateLifetime (g : SDFG) (name : DataName) (top desc : Data)
    (fs : Option Nat) (fn : Option InstNode) (hsh : name.full ∉ g.sharedTransients)
    (hl : top.lifetime = .state) :
    allocScope g name top desc fs fn =
      .ok (match g.states.filter (·.nodes.any (·.accesses name)) with
        | [] => none
        | [s] => some (.state s.id, some s.id)
        | _ :: _ :: _ => some (.sdfg g.cfgId, none)) := by
  unfold allocScope
  rw [if_neg (by simp [hsh, hl]), hl, stateLifetimeSearch_none]
  cases g.states.filter (·.nodes.any (·.accesses name)) with
  | nil => rfl
  | cons s rest => cases rest <;> simp

/-- A `CPU_Heap` transient `x` of `State` lifetime. -/
def xState : Data := { transient := true, storage := "CPU_Heap", lifetime := .state }

/-- With `State` lifetime, `x` of `twoMaps`, used in state `1` only, has state `1` as its
    candidate. -/
theorem allocScope_of_stateLifetime_twoMaps :
    allocScope twoMaps.top xName xState xState none none = .ok (some (.state 1, some 1)) :=
  allocScope_of_stateLifetime twoMaps.top xName xState xState none none (by decide) rfl

/-- The `Scope` loop raises only where it looks a state up among a state's nodes. -/
theorem scopeSearchNode_error {name : DataName} {s : SDFGState} {acc : ScopeSearch}
    {node : Node} {e : PyError} (h : scopeSearchNode name s acc node = .error e) :
    e = .keyError := by
  unfold scopeSearchNode at h
  dsimp only at h
  -- every branch returns `.ok` but the failed lookup
  repeat' split at h
  all_goals cases h <;> rfl

theorem scopeLifetimeSearch_error {g : SDFG} {name : DataName} {e : PyError}
    (h : scopeLifetimeSearch g name = .error e) : e = .keyError := by
  obtain ⟨acc, S, -, hS⟩ := foldlM_except_error _ _ h
  obtain ⟨_, _, -, hn⟩ := foldlM_except_error _ _ hS
  exact scopeSearchNode_error hn

/-- The candidate scope raises a `TypeError` or a `KeyError`, never a step-bound marker. -/
theorem allocScope_ne_outOfFuel {g : SDFG} {name : DataName} {top desc : Data}
    {fs : Option Nat} {fn : Option InstNode} : allocScope g name top desc fs fn ≠ .error .outOfFuel := by
  intro h
  unfold allocScope at h
  split at h
  · cases h
  · split at h
    · split at h <;> cases h
    · rcases Except.bind_eq_error.1 h with h | ⟨_, -, h⟩
      · cases scopeLifetimeSearch_error h
      · split_ifs at h <;> cases h
    · cases h

/-! ### The climb -/

/-- The variables of the climb loop: `cursdfg`, `curstate`, `curscope`. -/
structure Climb where
  sdfg : Option Nat
  state : Option Nat
  scope : Option ScopeKey
  deriving DecidableEq, Repr

/-- The climb's step out of SDFG `g` ("Go one SDFG up"): to the entry node around its
    nested-SDFG node in the parent state, which is `None` at the parent state's top level,
    or to all-`None` past the top-level SDFG. -/
def leaveSdfg (p : Program) (g : SDFG) : Climb :=
  match g.parent with
  | none => ⟨none, none, none⟩
  | some ctx => ⟨some ctx.sdfg, some ctx.state, (p.entryNode ctx.state ctx.node).map .entry⟩

/-- The body of the climb loop: from an entry node to the entry node around it (or its
    state), and from a state or SDFG out of its SDFG. -/
def climbStep (p : Program) (c : Climb) : Except PyError Climb :=
  match c.scope with
  | none => .ok c
  | some (.entry e) =>
    match c.state with
    | none => .error .attributeError
    | some s =>
      match p.entryNode s e with
      | some m => .ok { c with scope := some (.entry m) }
      | none => .ok { c with scope := some (.state s) }
  | some k =>
    match p.scopeSdfg? k with
    | none => .error .attributeError
    | some g => .ok (leaveSdfg p g)

/-- `while not self._can_allocate(cursdfg, curstate, desc, curscope)`, leaving by `break`
    once `curscope` is `None`; `fuel` bounds the iterations. -/
def climbLoop (env : Env) (p : Program) (desc : Data) : Nat → Climb → Except PyError Climb
  | 0, _ => .error .outOfFuel
  | fuel + 1, c =>
    if canAllocate env p c.sdfg c.state desc c.scope then .ok c
    else
      match c.scope with
      | none => .ok c
      | some _ => climbStep p c >>= climbLoop env p desc fuel

/-! ### Placing the actions -/

/-- An entry of `to_allocate[key]`: `(sdfg, state, node, declare, allocate, deallocate)`. -/
structure Action where
  sdfg : Nat
  state : Option Nat
  node : Option InstNode
  declare : Bool
  allocate : Bool
  deallocate : Bool
  deriving DecidableEq, Repr

/-- What one iteration of the loop writes: the entries it appends to `to_allocate` (with
    their keys; `None` is a key Python accepts), the fields it appends to `statestruct`, and
    the value it stores in `where_allocated[(sdfg, name)]`, if any. -/
structure BufferPlan where
  actions : List (Option ScopeKey × Action) := []
  fields : List String := []
  whereAllocated : Option (Option Nat) := none
  deriving DecidableEq, Repr

/-- The values the reachability test compares: a state, and an access instance, which is a
    `(state, node)` tuple.  A tuple is never equal to a state. -/
inductive PyValue where
  | state (id : Nat)
  | tuple (state : Nat) (node : InstNode)
  deriving DecidableEq, Repr

/-- `curscope if isinstance(curscope, SDFG) else cursdfg`. -/
def whereOf (curscope : Option ScopeKey) (cursdfg : Option Nat) : Option Nat :=
  match curscope with
  | some (.sdfg g) => some g
  | _ => cursdfg

/-- The test of the non-free-symbol branch: `not isinstance(curscope, nodes.EntryNode) and
    utils.is_nonfree_sym_dependent(first_node_instance, desc, first_state_instance,
    fsymbols)`. -/
def nonfreeBranch (env : Env) (g : SDFG) (desc : Data) (curscope : ScopeKey)
    (insts : List (Nat × InstNode)) : Bool :=
  let isEntry : Bool := match curscope with | .entry _ => true | _ => false
  !isEntry && env.isNonfreeSymDependent (firstInstance insts).2 desc (firstInstance insts).1
    g.symbolsAndConstants

/-- The part of the loop body after the climb, from `fsymbols = fsyms[sdfg.cfg_id]` to the
    update of `where_allocated`.  `cl` holds the climb's final variables; `curscope` falls
    back to the top-level SDFG when the climb ended at `None`. -/
def placeBuffer (env : Env) (p : Program) (g : SDFG) (name : DataName) (desc : Data)
    (cl : Climb) (insts : List (Nat × InstNode)) : Except PyError BufferPlan :=
  let (fs, fn) := firstInstance insts
  let (ls, ln) := lastInstance insts
  let curscope : ScopeKey := cl.scope.getD (.sdfg p.top.cfgId)
  if nonfreeBranch env g desc curscope insts then
    if fs ≠ ls then
      if desc.isView then
        .ok { actions := insts.flatMap fun i =>
                [(some (.state i.1), ⟨g.cfgId, some i.1, some i.2, false, true, false⟩),
                 (some (.state i.1), ⟨g.cfgId, some i.1, some i.2, false, false, true⟩)],
              whereAllocated := some cl.sdfg }
      else do
        let reach := (fs.elim [] g.reachability).map PyValue.state
        let (decl, fs', ls') ←
          if insts.any fun i => decide (PyValue.tuple i.1 i.2 ∉ reach) then do
            let (d, pd) ← getDominatorAndPostdominator (g.blocks.length + 1) g insts
            pure (⟨g.cfgId, none, some (.fresh name), true, false, false⟩, some d, some pd)
          else pure (⟨g.cfgId, fs, fn, true, false, false⟩, fs, ls)
        pure { actions := [(some curscope, decl),
                 (fs'.map .state, ⟨g.cfgId, fs', fn, false, true, false⟩),
                 (ls'.map .state, ⟨g.cfgId, ls', ln, false, false, true⟩)],
               whereAllocated := some (whereOf (ls'.map .state) cl.sdfg) }
    else
      .ok { actions := [(fs.map .state, ⟨g.cfgId, fs, fn, true, true, true⟩)],
            whereAllocated := some (whereOf (fs.map .state) cl.sdfg) }
  else
    .ok { actions := [(some curscope, ⟨g.cfgId, fs, fn, true, true, true⟩)],
          whereAllocated := some (whereOf (some curscope) cl.sdfg) }

/-- The state-struct field of a container: `__<cfg_id>_<name>` (the name `desc.as_arg`
    declares). -/
def fieldName (g : SDFG) (name : DataName) : String :=
  "__" ++ toString g.cfgId ++ "_" ++ name.full

/-- One iteration of the loop over `arrays_recursive(include_nested_data=True)`. -/
def planBuffer (env : Env) (p : Program) (g : SDFG) (name : DataName) (desc : Data) :
    Except PyError BufferPlan :=
  match g.array? name.root with
  | none => .error .keyError
  | some top =>
    if !top.transient || decide (name.full ∈ g.constants) then .ok {}
    else
      let insts := accessInstances g name
      let (fs, fn) := firstInstance insts
      match top.lifetime with
      | .persistent | .external =>
        if fn.isNone then .ok {}
        else .ok { actions := [(some (.sdfg p.top.cfgId), ⟨g.cfgId, fs, fn, true, true, true⟩)],
                   fields := if top.storage ≠ "CPU_ThreadLocal" then [fieldName g name] else [],
                   whereAllocated := some (some p.top.cfgId) }
      | .global =>
        if fn.isNone then .ok {}
        else .ok { actions := [(some (.sdfg p.top.cfgId), ⟨g.cfgId, fs, fn, true, true, true⟩)],
                   fields := [fieldName g name],
                   whereAllocated := some (some p.top.cfgId) }
      | _ => do
        match ← allocScope g name top desc fs fn with
        | none => pure {}
        | some (scope, state) =>
          let cl ← climbLoop env p desc p.size ⟨some g.cfgId, state, some scope⟩
          placeBuffer env p g name desc cl insts

/-- The three things the planner writes. -/
structure Plan where
  toAllocate : List (Option ScopeKey × Action) := []
  statestruct : List String := []
  whereAllocated : List ((Nat × DataName) × Option Nat) := []
  deriving DecidableEq, Repr

/-- Append one container's contribution. -/
def Plan.record (pl : Plan) (g : SDFG) (name : DataName) (b : BufferPlan) : Plan where
  toAllocate := pl.toAllocate ++ b.actions
  statestruct := pl.statestruct ++ b.fields
  whereAllocated := pl.whereAllocated ++ (b.whereAllocated.map fun w => ((g.cfgId, name), w)).toList

/-- `DaCeCodeGenerator.determine_allocation_lifetime(top_sdfg)`. -/
def determineAllocationLifetime (env : Env) (p : Program) : Except PyError Plan :=
  p.arraysRecursive.foldlM
    (fun pl e => (planBuffer env p e.1 e.2.1 e.2.2).map (pl.record e.1 e.2.1)) {}

/-! ### Runs on small programs -/

/-- The collaborators as `dace.dtypes` defines them for host storage: host storage and
    `GPU_Global` are allocated from host schedules only, `GPU_Shared` inside GPU kernels;
    the device-level tests fail in host code; an array depends on a non-free symbol when
    one of its symbols is not free in its SDFG. -/
def hostEnv : Env where
  canAllocate st sch :=
    if st ∈ ["CPU_Heap", "CPU_Pinned", "CPU_ThreadLocal", "GPU_Global"] then
      decide (sch ∈ ["CPU_Multicore", "CPU_Persistent", "Sequential", "MPI", "GPU_Default"])
    else if st = "GPU_Shared" then
      decide (sch ∈ ["GPU_Device", "GPU_ThreadBlock", "GPU_ThreadBlock_Dynamic", "GPU_Persistent"])
    else true
  fpgaStorages := ["FPGA_Global", "FPGA_Local", "FPGA_Registers", "FPGA_ShiftRegister"]
  gpuStorages := ["GPU_Global", "GPU_Shared"]
  isDevicelevelFpga _ _ _ := false
  isDevicelevelGpu _ _ _ := false
  isNonfreeSymDependent _ desc _ fsymbols := desc.freeSymbols.any (· ∉ fsymbols)

/-- A transient `x` of `Scope` lifetime that no state accesses and that a control-flow
    region names, as a loop reading `x` in its condition does. -/
def regionOnly : Program where
  top := {
    cfgId := 0
    containers := [(xName, { transient := true, storage := "CPU_Heap", lifetime := .scope })]
    states := [{ id := 1, nodes := [] }]
    regionSymbols := ["x"] }

/-- `x` has two access instances in `twoMaps`, and the plan holds no action at all.  In
    `regionOnly` it has none, and the plan declares, allocates and frees it at the top-level
    SDFG with neither state nor node; no `common_parent_scope` is called there. -/
theorem determineAllocationLifetime_twoMaps_regionOnly :
    (accessInstances twoMaps.top xName = [(1, .node 11 xName), (1, .node 13 xName)] ∧
      determineAllocationLifetime hostEnv twoMaps = .ok {}) ∧
    (accessInstances regionOnly.top xName = [] ∧
      determineAllocationLifetime hostEnv regionOnly =
        .ok { toAllocate := [(some (.sdfg 0), ⟨0, none, none, true, true, true⟩)],
              whereAllocated := [((0, xName), some 0)] }) :=
  ⟨⟨rfl, rfl⟩, rfl, rfl⟩

/-- The state of `threeMaps`: three maps side by side, each with an access node of `x`. -/
def threeMapsState : SDFGState where
  id := 1
  nodes := [
    { id := 10, kind := .entry "CPU_Multicore" },
    { id := 11, kind := .access xName, scope := some 10 },
    { id := 12, kind := .entry "CPU_Multicore" },
    { id := 13, kind := .access xName, scope := some 12 },
    { id := 14, kind := .entry "CPU_Multicore" },
    { id := 15, kind := .access xName, scope := some 14 }]

/-- One SDFG whose single state is `threeMapsState`. -/
def threeMaps : Program where
  top := {
    cfgId := 0
    containers := [(xName, { transient := true, storage := "CPU_Heap", lifetime := .scope })]
    states := [threeMapsState] }

/-- With a third map, `curscope` restarts from `None` at the third access node: `x` is
    declared, allocated and freed inside the third map, whose scope holds neither of the
    other two access nodes. -/
theorem determineAllocationLifetime_threeMaps :
    determineAllocationLifetime hostEnv threeMaps = .ok {
      toAllocate := [(some (.entry 14), ⟨0, some 1, some (.node 11 xName), true, true, true⟩)]
      whereAllocated := [((0, xName), some 0)] } ∧
      threeMapsState.encloses 14 11 = false ∧ threeMapsState.encloses 14 13 = false :=
  ⟨rfl, rfl, rfl⟩

/-- A loop `1 → 2 → 3 → 2`, left from `2` to `4`; the transient `x`, whose shape depends on
    the symbol `N` bound by control flow, is accessed in states `2` and `3`. -/
def loopy : Program where
  top := {
    cfgId := 0
    containers := [(xName, { transient := true, storage := "CPU_Heap", lifetime := .scope,
                             freeSymbols := ["N"] })]
    states := [{ id := 1, nodes := [] },
      { id := 2, nodes := [{ id := 21, kind := .access xName }] },
      { id := 3, nodes := [{ id := 31, kind := .access xName }] },
      { id := 4, nodes := [] }]
    reachability := fun s => if s = 4 then [] else [2, 3, 4]
    blocks := [1, 2, 3, 4]
    idom := fun b => if b = 2 then 1 else if b = 3 ∨ b = 4 then 2 else b
    alldoms := fun b => if b = 2 then [1] else if b = 3 ∨ b = 4 then [2, 1] else []
    ipostdom := fun b => if b = 1 ∨ b = 3 then 2 else if b = 2 then 4 else b
    allpostdoms := fun b => if b = 1 ∨ b = 3 then [2, 4] else if b = 2 then [4] else [] }

/-- Both access states of `x` are reachable from the first one, yet the reachability test
    (a `(state, node)` tuple looked up among states) holds for every instance: the plan
    comes from `_get_dominator_and_postdominator`, declares `x` without an anchor, and
    frees it at the end of state `2`, which state `3` follows. -/
theorem determineAllocationLifetime_loopy :
    (∀ s ∈ [2, 3], s ∈ loopy.top.reachability 2) ∧
      determineAllocationLifetime hostEnv loopy = .ok {
        toAllocate := [(some (.sdfg 0), ⟨0, none, some (.fresh xName), true, false, false⟩),
          (some (.state 2), ⟨0, some 2, some (.node 21 xName), false, true, false⟩),
          (some (.state 2), ⟨0, some 2, some (.node 31 xName), false, false, true⟩)]
        whereAllocated := [((0, xName), some 0)] } := by
  refine ⟨?_, rfl⟩
  decide

/-- Nested SDFGs in a GPU kernel: top-level state `1` holds the `GPU_Device` map `10` around
    the nested-SDFG node `11` of SDFG `1`, whose state `2` holds the nested-SDFG node `20`
    of SDFG `2` at its top level.  SDFG `2` has the `CPU_Heap` transient `x`, sized by the
    non-free symbol `N` and accessed in its states `3 → 4`. -/
def doubleNested : Program where
  top := { cfgId := 0, containers := [], states := [{ id := 1, nodes := [
      { id := 10, kind := .entry "GPU_Device" },
      { id := 11, kind := .nestedSDFG 1, scope := some 10 }] }] }
  nested := [
    { cfgId := 1, containers := [], parent := some ⟨1, 11, 0⟩,
      states := [{ id := 2, nodes := [{ id := 20, kind := .nestedSDFG 2 }] }] },
    { cfgId := 2, parent := some ⟨2, 20, 1⟩,
      containers := [(xName, { transient := true, storage := "CPU_Heap", lifetime := .scope,
                               freeSymbols := ["N"] })]
      states := [{ id := 3, nodes := [{ id := 30, kind := .access xName }] },
        { id := 4, nodes := [{ id := 40, kind := .access xName }] }]
      reachability := fun s => if s = 3 then [4] else []
      blocks := [3, 4]
      idom := fun b => if b = 4 then 3 else b
      alldoms := fun b => if b = 4 then [3] else []
      ipostdom := fun b => if b = 3 then 4 else b
      allpostdoms := fun b => if b = 3 then [4] else [] }]

/-- `x` cannot live in the kernel, and the climb leaves SDFG `2` through a nested-SDFG node
    at the top level of its parent state: `curscope` becomes `None`, then the top-level
    SDFG, where `x` is declared.  `cursdfg` is still SDFG `1`, and that is what
    `where_allocated` records. -/
theorem determineAllocationLifetime_doubleNested :
    determineAllocationLifetime hostEnv doubleNested = .ok {
      toAllocate := [(some (.sdfg 0), ⟨2, none, some (.fresh xName), true, false, false⟩),
        (some (.state 3), ⟨2, some 3, some (.node 30 xName), false, true, false⟩),
        (some (.state 4), ⟨2, some 4, some (.node 40 xName), false, false, true⟩)]
      whereAllocated := [((2, xName), some 1)] } := by rfl

/-! ### Every allocation has its deallocation -/

/-- What one container's actions satisfy: it is declared at most once, and allocated as
    often as it is deallocated. -/
structure BufferPlan.WellPaired (bp : BufferPlan) : Prop where
  declare_le_one : bp.actions.countP (·.2.declare) ≤ 1
  balanced : bp.actions.countP (·.2.allocate) = bp.actions.countP (·.2.deallocate)

/-- Each branch after the climb pairs its allocations with deallocations: a View gets one
    pair per access instance and no declaration, the other branches one declaration. -/
theorem placeBuffer_wellPaired {env : Env} {p : Program} {g : SDFG} {name : DataName}
    {desc : Data} {cl : Climb} {insts : List (Nat × InstNode)} {bp : BufferPlan}
    (h : placeBuffer env p g name desc cl insts = .ok bp) : bp.WellPaired := by
  unfold placeBuffer at h
  rcases hfi : firstInstance insts with ⟨fs, fn⟩
  rcases hli : lastInstance insts with ⟨ls, ln⟩
  simp only [hfi, hli] at h
  split_ifs at h
  · -- a View: an allocation and a deallocation at every access instance
    cases h
    constructor <;> simp [List.flatMap, List.countP_flatten, Function.comp_def, List.countP_cons]
  · -- at the common dominator and post-dominator
    obtain ⟨_, -, h⟩ := Except.bind_eq_ok.1 h
    cases h
    exact ⟨by simp, rfl⟩
  all_goals cases h; exact ⟨by simp, rfl⟩

/-- One iteration of the planner's loop pairs the container's allocations with
    deallocations. -/
theorem planBuffer_wellPaired {env : Env} {p : Program} {g : SDFG} {name : DataName}
    {desc : Data} {bp : BufferPlan} (h : planBuffer env p g name desc = .ok bp) :
    bp.WellPaired := by
  have hnone : BufferPlan.WellPaired {} := ⟨by simp, rfl⟩
  unfold planBuffer at h
  split at h
  · cases h
  rename_i top _
  rcases hfi : firstInstance (accessInstances g name) with ⟨fs, fn⟩
  simp only [hfi] at h
  by_cases ht : (!top.transient || decide (name.full ∈ g.constants)) = true
  · rw [if_pos ht] at h
    cases h
    exact hnone
  rw [if_neg ht] at h
  cases hl : top.lifetime with
  | scope | state | sdfg =>
    simp only [hl] at h
    obtain ⟨o, -, h⟩ := Except.bind_eq_ok.1 h
    rcases o with _ | ⟨scope, state⟩
    · cases h
      exact hnone
    · obtain ⟨cl, -, h⟩ := Except.bind_eq_ok.1 h
      exact placeBuffer_wellPaired h
  | global | persistent | external =>
    simp only [hl] at h
    split at h <;> cases h
    · exact hnone
    · exact ⟨by simp, rfl⟩

/-- The loop over `arrays_recursive`, started from plan `pl₀`, appends the plans of the
    containers, one each and in order. -/
theorem planLoop_eq_flatten {env : Env} {p : Program} :
    ∀ (l : List (SDFG × DataName × Data)) (pl₀ pl : Plan),
      l.foldlM (fun pl e => (planBuffer env p e.1 e.2.1 e.2.2).map (pl.record e.1 e.2.1)) pl₀ =
        .ok pl →
      ∃ bps, List.Forall₂ (fun e bp => planBuffer env p e.1 e.2.1 e.2.2 = .ok bp) l bps ∧
        pl.toAllocate = pl₀.toAllocate ++ (bps.map (·.actions)).flatten
  | [], pl₀, pl, h => by cases h; exact ⟨[], .nil, by simp⟩
  | e :: l, pl₀, pl, h => by
    rw [List.foldlM_cons] at h
    obtain ⟨pl₁, h₁, h⟩ := Except.bind_eq_ok.1 h
    cases hb : planBuffer env p e.1 e.2.1 e.2.2 with
    | error => simp [hb, Except.map] at h₁
    | ok bp =>
      simp only [hb, Except.map, Except.ok.injEq] at h₁
      subst h₁
      obtain ⟨bps, hall, heq⟩ := planLoop_eq_flatten l _ pl h
      exact ⟨bp :: bps, .cons hb hall, by simp [heq, Plan.record]⟩

/-- The container plans of a run, put together, allocate as often as they deallocate. -/
theorem planBuffers_balanced {env : Env} {p : Program} {l : List (SDFG × DataName × Data)}
    {bps : List BufferPlan}
    (h : List.Forall₂ (fun e bp => planBuffer env p e.1 e.2.1 e.2.2 = .ok bp) l bps) :
    (bps.map (·.actions)).flatten.countP (·.2.allocate) =
      (bps.map (·.actions)).flatten.countP (·.2.deallocate) := by
  induction h with
  | nil => rfl
  | cons hb _ ih =>
    simp only [List.map_cons, List.flatten_cons, List.countP_append,
      (planBuffer_wellPaired hb).balanced, ih]

/-- **Every allocation has its deallocation.**  A plan the planner returns is the plans of
    the containers of `arrays_recursive`, one each and in order; each declares its
    container at most once and allocates it as often as it frees it, and so the whole plan
    allocates as often as it deallocates. -/
theorem determineAllocationLifetime_balanced (env : Env) (p : Program) {pl : Plan}
    (h : determineAllocationLifetime env p = .ok pl) :
    (∃ bps : List BufferPlan,
      List.Forall₂ (fun e bp => planBuffer env p e.1 e.2.1 e.2.2 = .ok bp ∧ bp.WellPaired)
        p.arraysRecursive bps ∧
      pl.toAllocate = (bps.map (·.actions)).flatten) ∧
    pl.toAllocate.countP (·.2.allocate) = pl.toAllocate.countP (·.2.deallocate) := by
  obtain ⟨bps, hall, heq⟩ := planLoop_eq_flatten p.arraysRecursive {} pl h
  simp only [List.nil_append] at heq
  refine ⟨⟨bps, hall.imp fun _ _ hb => ⟨hb, planBuffer_wellPaired hb⟩, heq⟩, ?_⟩
  rw [heq]
  exact planBuffers_balanced hall

/-- In `doubleNested`, `x` is declared at the top-level SDFG, allocated at state `3` and
    freed at state `4`: one allocation, one deallocation, in three scopes. -/
theorem determineAllocationLifetime_balanced_doubleNested :
    ∃ pl, determineAllocationLifetime hostEnv doubleNested = .ok pl ∧
      pl.toAllocate.countP (·.2.allocate) = pl.toAllocate.countP (·.2.deallocate) ∧
      pl.toAllocate.length = 3 :=
  ⟨_, rfl, (determineAllocationLifetime_balanced hostEnv doubleNested rfl).2, rfl⟩

end DaceLowering
