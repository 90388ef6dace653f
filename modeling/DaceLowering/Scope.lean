import DaceLowering.Graph

/-!
# Scopes: where a container may be allocated

`to_allocate` is keyed by scopes: an SDFG, a state or a map/consume entry node.  This
module holds the frame code's two queries on a scope, `_get_schedule` and
`_can_allocate`, and the collaborators they call from `dace.dtypes`, `dace.sdfg.scope` and
`dace.sdfg.utils`.  Those collaborators are not part of the frame code; they are the
fields of an `Env`, and every result below holds for every `Env`.

`common_parent_scope` is not part of the frame code either.  The model takes it to be the
lowest common ancestor of two nodes in a state's scope tree, as the spec describes it.
-/

namespace DaceLowering

/-- A key of `to_allocate`: an SDFG (by `cfg_id`), a state or an entry node (by handle). -/
inductive ScopeKey where
  | sdfg (cfgId : Nat)
  | state (id : Nat)
  | entry (id : Nat)
  deriving DecidableEq, Repr

/-- The collaborators the planner calls but does not define:
    `dtypes.can_allocate(storage, schedule)`, `dtypes.FPGA_STORAGES`,
    `dtypes.GPU_STORAGES`, `sdscope.is_devicelevel_fpga/gpu(sdfg, state, node)` and
    `utils.is_nonfree_sym_dependent(node, desc, state, fsymbols)`. -/
structure Env where
  canAllocate : StorageType → ScheduleType → Bool
  fpgaStorages : List StorageType
  gpuStorages : List StorageType
  isDevicelevelFpga : Option Nat → Option Nat → Option Nat → Bool
  isDevicelevelGpu : Option Nat → Option Nat → Option Nat → Bool
  isNonfreeSymDependent : Option InstNode → Data → Option Nat → List String → Bool

/-- `TOP_SCHEDULE` of `_get_schedule`. -/
def topSchedule : ScheduleType := "Sequential"

/-- For an SDFG or a state scope, the SDFG it names:
    `scope if isinstance(scope, SDFG) else scope.parent`. -/
def Program.scopeSdfg? (p : Program) : ScopeKey → Option SDFG
  | .sdfg g => p.sdfg? g
  | .state s => p.stateOwner? s
  | .entry _ => none

/-- The schedule of an entry node (`scope.schedule`). -/
def Program.scheduleOf (p : Program) (n : Nat) : ScheduleType :=
  match (p.node? n).map (·.kind) with
  | some (NodeKind.entry sch) => sch
  | _ => topSchedule

/-- `DaCeCodeGenerator._get_schedule(scope)`.  Only the walk up through nested SDFGs
    recurses; `fuel` bounds it, and the planner passes the number of SDFGs. -/
def getSchedule (p : Program) : Nat → Option ScopeKey → ScheduleType
  | _, none => topSchedule
  | _, some (.entry n) => p.scheduleOf n
  | 0, some _ => topSchedule
  | fuel + 1, some k =>
    match p.scopeSdfg? k with
    | none => topSchedule
    | some g =>
      match g.parent with
      | none => topSchedule
      | some c =>
        match p.entryNode c.state c.node with
        | some e => getSchedule p fuel (some (.entry e))
        | none => getSchedule p fuel (some (.state c.state))

@[simp] theorem getSchedule_entry (p : Program) (fuel e : Nat) :
    getSchedule p fuel (some (.entry e)) = p.scheduleOf e := by
  cases fuel <;> rfl

/-- One step of `_get_schedule` from an SDFG or a state scope of SDFG `g`. -/
theorem getSchedule_succ_of_scopeSdfg {p : Program} {k : ScopeKey} {g : SDFG}
    (hk : p.scopeSdfg? k = some g) (fuel : Nat) :
    getSchedule p (fuel + 1) (some k) =
      match g.parent with
      | none => topSchedule
      | some c =>
        match p.entryNode c.state c.node with
        | some e => p.scheduleOf e
        | none => getSchedule p fuel (some (.state c.state)) := by
  cases k with
  | entry e => cases hk
  | state s | sdfg g' => simp only [getSchedule, hk]

/-- `DaCeCodeGenerator._can_allocate(sdfg, state, desc, scope)`: the schedule test of
    `dtypes.can_allocate`, then the device-level test for FPGA and GPU storage. -/
def canAllocate (env : Env) (p : Program) (sdfg state : Option Nat) (desc : Data)
    (scope : Option ScopeKey) : Bool :=
  if env.canAllocate desc.storage (getSchedule p p.sdfgs.length scope) then true
  else
    let node := match scope with | some (.entry n) => some n | _ => none
    let cstate := match scope with | some (.state s) => some s | _ => state
    let csdfg := match scope with | some (.sdfg g) => some g | _ => sdfg
    if desc.storage ∈ env.fpgaStorages then env.isDevicelevelFpga csdfg cstate node
    else if desc.storage ∈ env.gpuStorages then env.isDevicelevelGpu csdfg cstate node
    else false

/-- An SDFG scope and the scope of one of its states give `_can_allocate` the same
    arguments: the same schedule, and `(sdfg, state, None)` for the device-level test. -/
theorem canAllocate_sdfg_eq_state (env : Env) (p : Program) (desc : Data) {g : SDFG}
    {s : Nat} (hs : p.stateOwner? s = some g) (hg : p.sdfg? g.cfgId = some g) :
    canAllocate env p (some g.cfgId) (some s) desc (some (.sdfg g.cfgId)) =
      canAllocate env p (some g.cfgId) (some s) desc (some (.state s)) := by
  have hsch : ∀ fuel, getSchedule p fuel (some (.sdfg g.cfgId)) =
      getSchedule p fuel (some (.state s)) := by
    intro fuel
    cases fuel with
    | zero => rfl
    | succ fuel => simp only [getSchedule, Program.scopeSdfg?, hs, hg]
  simp only [canAllocate, hsch]

/-! ### Scope trees inside a state -/

/-- The entry nodes around node `n` of state `s`, innermost first, starting with `n`;
    `fuel` bounds the walk. -/
def SDFGState.scopePath (s : SDFGState) : Nat → Nat → List Nat
  | 0, _ => []
  | fuel + 1, n => n :: match s.entryNode n with
    | some m => s.scopePath fuel m
    | none => []

/-- Whether entry node `e` of state `s` is `n` or an entry node around it. -/
def SDFGState.encloses (s : SDFGState) (e n : Nat) : Bool :=
  e ∈ s.scopePath (s.nodes.length + 1) n

/-- Modelled from the spec: `dace.sdfg.scope.common_parent_scope(sdict, a, b)` is not
    under `src/`.  The spec resolves disjoint nested scopes "to their lowest common
    ancestor in the scope tree": a scope counts as its own ancestor, and `none` is the
    state's top level. -/
def commonParentScope (s : SDFGState) (a b : Nat) : Option Nat :=
  let pb := s.scopePath (s.nodes.length + 1) b
  (s.scopePath (s.nodes.length + 1) a).find? (· ∈ pb)

/-- Every entry of a scope path from a node is a node of the state, when scopes are. -/
theorem SDFGState.scopePath_node {s : SDFGState}
    (hclosed : ∀ n ∈ s.nodes, ∀ m, n.scope = some m → (s.node? m).isSome) :
    ∀ fuel e x, (s.node? e).isSome → x ∈ s.scopePath fuel e → (s.node? x).isSome
  | 0, _, _, _, h => by simp [SDFGState.scopePath] at h
  | fuel + 1, e, x, he, h => by
    simp only [SDFGState.scopePath, List.mem_cons] at h
    rcases h with rfl | h
    · exact he
    · cases hm : s.entryNode e with
      | none => simp [hm] at h
      | some m =>
        rw [hm] at h
        obtain ⟨n, hn⟩ := Option.isSome_iff_exists.1 he
        have hsc : n.scope = some m := by simpa [SDFGState.entryNode, hn] using hm
        exact scopePath_node hclosed fuel m x (hclosed n (s.mem_of_node? hn).1 m hsc) h

/-- The common parent scope of a node is a node of the state. -/
theorem commonParentScope_node {s : SDFGState}
    (hclosed : ∀ n ∈ s.nodes, ∀ m, n.scope = some m → (s.node? m).isSome) {a b x : Nat}
    (ha : (s.node? a).isSome) (h : commonParentScope s a b = some x) : (s.node? x).isSome :=
  s.scopePath_node hclosed _ a x ha (List.mem_of_find?_eq_some h)

end DaceLowering
