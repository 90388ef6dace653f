import Mathlib.Data.List.Basic
import Mathlib.Algebra.Order.Ring.Nat

/-!
# The stateful dataflow graph as the frame code generator reads it

`DaCeCodeGenerator.determine_allocation_lifetime` (`dace/codegen/targets/framecode.py`)
walks a top-level SDFG, its nested SDFGs, their states and the dataflow nodes of each
state.  This module records the parts of that graph the planner reads: data descriptors
(transient flag, storage, lifetime, whether a View), access / entry / nested-SDFG nodes
with their scope-dictionary parent, the states of each SDFG in
`blockorder_topological_sort` order, the symbols used on interstate edges and by
control-flow regions, and where each nested SDFG sits in its parent state.

Python compares graph objects by identity, so states and nodes are named by handles
(`Nat`) and SDFGs by their `cfg_id`.  The analyses DaCe runs before planning
(`StateReachability` and the tables of `get_control_flow_block_dominators`) are stored as
their results.
-/

namespace DaceLowering

/-! ### Descriptors -/

/-- `dtypes.AllocationLifetime`. -/
inductive AllocationLifetime where
  | scope | state | sdfg | global | persistent | external
  deriving DecidableEq, Repr

/-- A member of `dtypes.StorageType`, by its name (`"CPU_Heap"`, `"GPU_Shared"`, ...). -/
abbrev StorageType := String

/-- A member of `dtypes.ScheduleType`, by its name (`"Sequential"`, `"GPU_Device"`, ...). -/
abbrev ScheduleType := String

/-- A container name as `arrays_recursive(include_nested_data=True)` yields it: a top-level
    container `A`, or a structure member `A.b.c` (root `A`, member path `[b, c]`).  The
    parts are identifiers, so comparing these is comparing the dotted strings. -/
structure DataName where
  root : String
  members : List String := []
  deriving DecidableEq, Repr

/-- The dotted string Python holds for the name. -/
def DataName.full (n : DataName) : String := ".".intercalate (n.root :: n.members)

/-- The fields of a `data.Data` descriptor that the frame code reads. -/
structure Data where
  transient : Bool
  storage : StorageType
  lifetime : AllocationLifetime
  /-- `isinstance(desc, data.View)` -/
  isView : Bool := false
  /-- `desc.free_symbols` (shape, strides, offsets) -/
  freeSymbols : List String := []
  /-- `desc.total_size`, under the values the size symbols take -/
  totalSize : Nat := 0
  /-- `desc.dtype.bytes` -/
  bytes : Nat := 0
  deriving DecidableEq, Repr

/-! ### Dataflow nodes and states -/

/-- The dataflow nodes the planner tells apart. -/
inductive NodeKind where
  | access (data : DataName)
  | entry (schedule : ScheduleType)
  | nestedSDFG (cfgId : Nat)
  | other
  deriving DecidableEq, Repr

/-- A node with `state.scope_dict()[node]`, the innermost entry node around it
    (`none` at the top level of its state). -/
structure Node where
  id : Nat
  kind : NodeKind
  scope : Option Nat := none
  deriving DecidableEq, Repr

/-- A state: its nodes, and the free symbols of the interstate edges around it
    (`state.parent_graph.all_edges(state)`). -/
structure SDFGState where
  id : Nat
  nodes : List Node
  edgeSymbols : List String := []
  deriving DecidableEq, Repr

/-- Whether `n` is an access node of exactly `name` (`n.data == name`). -/
def Node.accesses (n : Node) (name : DataName) : Bool :=
  match n.kind with
  | .access d => d.full == name.full
  | _ => false

/-- `node.root_data`, for an access node. -/
def Node.rootData? (n : Node) : Option String :=
  match n.kind with
  | .access d => some d.root
  | _ => none

/-- `state.node(id)`. -/
def SDFGState.node? (s : SDFGState) (n : Nat) : Option Node := s.nodes.find? (·.id == n)

/-- `state.entry_node(node)`, i.e. `state.scope_dict()[node]`. -/
def SDFGState.entryNode (s : SDFGState) (n : Nat) : Option Nat := (s.node? n).bind (·.scope)

/-- The access node an access instance or a planned action carries: a node of the state,
    or one the planner builds as `nodes.AccessNode(name)`.  Both know their `data`. -/
inductive InstNode where
  | node (id : Nat) (data : DataName)
  | fresh (data : DataName)
  deriving DecidableEq, Repr

/-- `node.data`. -/
def InstNode.data : InstNode → DataName
  | .node _ d => d
  | .fresh d => d

/-! ### SDFGs and the program -/

/-- Where a nested SDFG sits: `sdfg.parent` (a state), `sdfg.parent_nsdfg_node` and
    `sdfg.parent_sdfg`. -/
structure NestedIn where
  state : Nat
  node : Nat
  sdfg : Nat
  deriving DecidableEq, Repr

/-- One SDFG of the program. -/
structure SDFG where
  cfgId : Nat
  /-- `sdfg.arrays` with structure members expanded, in the order
      `arrays_recursive(include_nested_data=True)` yields them -/
  containers : List (DataName × Data)
  /-- the names in `sdfg.constants_prop` -/
  constants : List String := []
  /-- `sdfg.shared_transients(check_toplevel=False, include_nested_data=True)` -/
  sharedTransients : List String := []
  /-- `symbols_and_constants(sdfg)`, the symbols free in this SDFG -/
  symbolsAndConstants : List String := []
  /-- the states, in `blockorder_topological_sort(sdfg, ignore_nonstate_blocks=True)` order -/
  states : List SDFGState
  /-- the free symbols of `sdfg.all_interstate_edges()` -/
  interstateSymbols : List String := []
  /-- the symbols of `cfg.used_symbols(all_symbols=True, with_contents=False)` over
      `sdfg.all_control_flow_regions()` -/
  regionSymbols : List String := []
  parent : Option NestedIn := none
  /-- `StateReachability` for this SDFG: the states reachable from a state -/
  reachability : Nat → List Nat := fun _ => []
  /-- the control-flow blocks the dominator tables range over -/
  blocks : List Nat := []
  idom : Nat → Nat := fun b => b
  alldoms : Nat → List Nat := fun _ => []
  ipostdom : Nat → Nat := fun b => b
  allpostdoms : Nat → List Nat := fun _ => []

/-- `sdfg.arrays[name]`, for a top-level name. -/
def SDFG.array? (g : SDFG) (root : String) : Option Data :=
  (g.containers.find? fun c => c.1 == { root := root }).map (·.2)

/-- `sdfg.arrays.keys()`. -/
def SDFG.arrayNames (g : SDFG) : List String :=
  g.containers.filterMap fun c => if c.1.members = [] then some c.1.root else none

/-- A top-level SDFG with its nested SDFGs, in `all_sdfgs_recursive()` order. -/
structure Program where
  top : SDFG
  nested : List SDFG := []

/-- `top_sdfg.all_sdfgs_recursive()`. -/
def Program.sdfgs (p : Program) : List SDFG := p.top :: p.nested

/-- The SDFG with a given `cfg_id`. -/
def Program.sdfg? (p : Program) (g : Nat) : Option SDFG := p.sdfgs.find? (·.cfgId == g)

/-- The state with a given handle. -/
def Program.state? (p : Program) (s : Nat) : Option SDFGState :=
  (p.sdfgs.flatMap (·.states)).find? (·.id == s)

/-- `state.parent`: the SDFG a state belongs to. -/
def Program.stateOwner? (p : Program) (s : Nat) : Option SDFG :=
  p.sdfgs.find? fun g => g.states.any (·.id == s)

/-- `curstate.entry_node(node)` for a state named by its handle. -/
def Program.entryNode (p : Program) (s n : Nat) : Option Nat :=
  (p.state? s).bind (·.entryNode n)

/-- The node with a given handle, in any state. -/
def Program.node? (p : Program) (n : Nat) : Option Node :=
  ((p.sdfgs.flatMap (·.states)).flatMap (·.nodes)).find? (·.id == n)

/-- `top_sdfg.arrays_recursive(include_nested_data=True)`: every container of every SDFG
    with the SDFG holding it. -/
def Program.arraysRecursive (p : Program) : List (SDFG × DataName × Data) :=
  p.sdfgs.flatMap fun g => g.containers.map fun c => (g, c.1, c.2)

/-- The number of SDFGs, states and nodes of the program, plus one: no walk up the scope
    hierarchy is longer. -/
def Program.size (p : Program) : Nat :=
  (p.sdfgs.map fun g => 1 + (g.states.map fun s => 1 + s.nodes.length).sum).sum + 1

@[simp] theorem Program.sdfgs_top (p : Program) : p.top ∈ p.sdfgs := List.mem_cons_self _ _

/-! What a successful lookup says about the program. -/

theorem SDFGState.mem_of_node? {s : SDFGState} {n : Nat} {x : Node} (h : s.node? n = some x) :
    x ∈ s.nodes ∧ x.id = n :=
  ⟨List.mem_of_find?_eq_some h, by simpa using List.find?_some h⟩

theorem Program.mem_of_sdfg? {p : Program} {g : Nat} {G : SDFG} (h : p.sdfg? g = some G) :
    G ∈ p.sdfgs ∧ G.cfgId = g :=
  ⟨List.mem_of_find?_eq_some h, by simpa using List.find?_some h⟩

theorem Program.mem_of_state? {p : Program} {s : Nat} {st : SDFGState}
    (h : p.state? s = some st) : ∃ g ∈ p.sdfgs, st ∈ g.states ∧ st.id = s := by
  obtain ⟨g, hg, hst⟩ := List.mem_flatMap.1 (List.mem_of_find?_eq_some h)
  exact ⟨g, hg, hst, by simpa using List.find?_some h⟩

theorem Program.mem_of_stateOwner? {p : Program} {s : Nat} {G : SDFG}
    (h : p.stateOwner? s = some G) : G ∈ p.sdfgs ∧ ∃ st ∈ G.states, st.id = s :=
  ⟨List.mem_of_find?_eq_some h, by simpa using List.find?_some h⟩

/-! ### Python exceptions -/

/-- The exceptions the planner can raise.  `outOfFuel` is not Python's: it marks a bounded
    walk of the model that ran out of steps, which the termination theorems rule out. -/
inductive PyError where
  | typeError (msg : String)
  | notImplementedError (msg : String)
  | keyError
  | indexError
  | attributeError
  | outOfFuel
  deriving DecidableEq, Repr

/-- A `do` step in `Except` succeeds when its first computation does and the rest succeeds
    on that value. -/
theorem Except.bind_eq_ok {ε α β : Type} {x : Except ε α} {f : α → Except ε β} {b : β} :
    x >>= f = .ok b ↔ ∃ a, x = .ok a ∧ f a = .ok b := by
  cases x <;> simp [bind, Except.bind]

/-- A `do` step in `Except` raises when its first computation does, or when the rest does
    on that computation's value. -/
theorem Except.bind_eq_error {ε α β : Type} {x : Except ε α} {f : α → Except ε β} {e : ε} :
    x >>= f = .error e ↔ x = .error e ∨ ∃ a, x = .ok a ∧ f a = .error e := by
  cases x <;> simp [bind, Except.bind]

/-- An exception a loop over a list raises is raised by one of its iterations. -/
theorem foldlM_except_error {α β ε : Type} {f : α → β → Except ε α} {e : ε} :
    ∀ (l : List β) (init : α), l.foldlM f init = .error e → ∃ a, ∃ b ∈ l, f a b = .error e
  | [], init, h => by cases h
  | b :: l, init, h => by
    rw [List.foldlM_cons] at h
    rcases Except.bind_eq_error.1 h with h | ⟨a, -, h⟩
    · exact ⟨init, b, List.mem_cons_self _ _, h⟩
    · obtain ⟨a', b', hb', h'⟩ := foldlM_except_error l a h
      exact ⟨a', b', List.mem_cons_of_mem _ hb', h'⟩

end DaceLowering
