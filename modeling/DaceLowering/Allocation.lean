import DaceLowering.Climb

/-!
# Dispatching the plan

The plan of `determine_allocation_lifetime` is consumed by
`DaCeCodeGenerator.allocate_arrays_in_scope` and `deallocate_arrays_in_scope`: `generate_code`
calls them for the top-level SDFG, `generate_state` for each state, and the scope
generators for each entry node.  The first passes every entry of `to_allocate[scope]` to
`dispatch_allocate`, the second every entry that deallocates to `dispatch_deallocate`.
Both read the descriptor as `node.desc(tsdfg)`, and the second reads `state.parent_graph`,
so an entry without a node, or a deallocation without a state, raises `AttributeError`.

The planner records such an entry for one kind of container only: one it finds no access
instance of, but still a candidate scope for.  Two programs below show the two ways this
happens: a transient that only a control-flow region names, and a structure that is only
accessed through one of its members.  The container is then declared, allocated and freed
at once with neither state nor node, and the scope holding it cannot be generated.
-/

namespace DaceLowering

/-! ### The two dispatch loops -/

/-- `self.to_allocate[scope]` (a `defaultdict(list)`): the entries appended under `scope`,
    in order. -/
def Plan.entriesAt (pl : Plan) (scope : ScopeKey) : List Action :=
  pl.toAllocate.filterMap fun e => if e.1 = some scope then some e.2 else none

/-- `node.desc(tsdfg)`: `tsdfg.arrays[node.data]`, with structure members. -/
def Program.desc? (p : Program) (g : Nat) (n : InstNode) : Option Data :=
  (p.sdfg? g).bind fun G => (G.containers.find? (·.1.full == n.data.full)).map (·.2)

/-- The arguments `allocate_arrays_in_scope` passes to `dispatch_allocate`: the SDFG, the
    state (`state_id` is `-1` without one), the node and its descriptor, and whether to
    declare and to allocate. -/
structure AllocateCall where
  sdfg : Nat
  state : Option Nat
  node : InstNode
  desc : Data
  declare : Bool
  allocate : Bool
  deriving DecidableEq, Repr

/-- The arguments `deallocate_arrays_in_scope` passes to `dispatch_deallocate`. -/
structure DeallocateCall where
  sdfg : Nat
  state : Nat
  node : InstNode
  desc : Data
  deriving DecidableEq, Repr

/-- One iteration of `allocate_arrays_in_scope`: `desc = node.desc(tsdfg)`, then the
    dispatch. -/
def allocateCall (p : Program) (a : Action) : Except PyError AllocateCall :=
  match a.node with
  | none => .error .attributeError
  | some n =>
    match p.desc? a.sdfg n with
    | none => .error .keyError
    | some desc => .ok ⟨a.sdfg, a.state, n, desc, a.declare, a.allocate⟩

/-- One iteration of `deallocate_arrays_in_scope` past `if not deallocate: continue`:
    `desc = node.desc(tsdfg)`, then `state.parent_graph` in the dispatch. -/
def deallocateCall (p : Program) (a : Action) : Except PyError DeallocateCall :=
  match a.node with
  | none => .error .attributeError
  | some n =>
    match p.desc? a.sdfg n with
    | none => .error .keyError
    | some desc =>
      match a.state with
      | none => .error .attributeError
      | some s => .ok ⟨a.sdfg, s, n, desc⟩

/-- `DaCeCodeGenerator.allocate_arrays_in_scope(sdfg, cfg, scope, ...)`. -/
def allocateArraysInScope (p : Program) (pl : Plan) (scope : ScopeKey) :
    Except PyError (List AllocateCall) :=
  (pl.entriesAt scope).mapM (allocateCall p)

/-- `DaCeCodeGenerator.deallocate_arrays_in_scope(sdfg, cfg, scope, ...)`. -/
def deallocateArraysInScope (p : Program) (pl : Plan) (scope : ScopeKey) :
    Except PyError (List DeallocateCall) :=
  ((pl.entriesAt scope).filter (·.deallocate)).mapM (deallocateCall p)

/-- A loop over a list succeeds exactly when every iteration does. -/
theorem mapM_except_ok_iff {α β ε : Type} (f : α → Except ε β) :
    ∀ l : List α, (∃ r, l.mapM f = .ok r) ↔ ∀ a ∈ l, ∃ b, f a = .ok b
  | [] => iff_of_true ⟨[], rfl⟩ fun _ ha => absurd ha (List.not_mem_nil _)
  | a :: l => by
    rw [List.mapM_cons, List.forall_mem_cons, ← mapM_except_ok_iff f l]
    constructor
    · rintro ⟨r, h⟩
      obtain ⟨b, hb, h⟩ := Except.bind_eq_ok.1 h
      obtain ⟨bs, hbs, -⟩ := Except.bind_eq_ok.1 h
      exact ⟨⟨b, hb⟩, bs, hbs⟩
    · rintro ⟨⟨b, hb⟩, bs, hbs⟩
      exact ⟨b :: bs, by rw [hb, hbs]; rfl⟩

/-- A loop whose iterations each succeed or raise `e` raises `e` exactly when one of them
    does not succeed. -/
theorem mapM_except_eq_error_iff {α β ε : Type} (f : α → Except ε β) (e : ε) :
    ∀ l : List α, (∀ a ∈ l, (∃ b, f a = .ok b) ∨ f a = .error e) →
      (l.mapM f = .error e ↔ ∃ a ∈ l, ¬ ∃ b, f a = .ok b)
  | [], _ => by
    rw [List.mapM_nil]
    simp [pure, Except.pure]
  | a :: l, h => by
    obtain ⟨ha, hl⟩ := List.forall_mem_cons.1 h
    simp only [List.mapM_cons, List.mem_cons, exists_eq_or_imp]
    rcases ha with ⟨b, hb⟩ | hb
    · rw [← mapM_except_eq_error_iff f e l hl, hb]
      cases l.mapM f <;> simp [bind, Except.bind, pure, Except.pure]
    · simp [hb, bind, Except.bind]

/-! ### What the planner records -/

/-- `name` is a key of `sdfg.arrays`, structure members included: what `node.desc(sdfg)`
    looks up. -/
def SDFG.HasContainer (g : SDFG) (name : DataName) : Prop :=
  ∃ c ∈ g.containers, c.1.full = name.full

theorem SDFG.hasContainer_of_mem_arrayNames {g : SDFG} {name : DataName}
    (h : name.full ∈ g.arrayNames) : g.HasContainer name := by
  obtain ⟨c, hc, hn⟩ := List.mem_filterMap.1 h
  split_ifs at hn with hm
  have hroot : c.1.full = c.1.root := by
    simp [DataName.full, hm, String.intercalate, String.intercalate.go]
  exact ⟨c, hc, hroot.trans (Option.some.inj hn)⟩

theorem Program.desc?_isSome {p : Program} {g : SDFG} {n : InstNode}
    (hg : p.sdfg? g.cfgId = some g) (hn : g.HasContainer n.data) :
    (p.desc? g.cfgId n).isSome := by
  obtain ⟨c, hc, he⟩ := hn
  simp [Program.desc?, hg]
  exact ⟨c.1, ⟨c.2, hc⟩, he⟩

/-- Every access instance is a node of a container of its SDFG. -/
theorem accessInstances_hasContainer {g : SDFG} {name : DataName} {a : Nat × InstNode}
    (h : a ∈ accessInstances g name) : g.HasContainer a.2.data := by
  simp only [accessInstances, List.mem_flatMap, List.mem_append, List.mem_filterMap] at h
  obtain ⟨st, -, ⟨n, -, hn⟩ | h⟩ := h
  · split at hn
    · split_ifs at hn with hd
      cases hn
      exact SDFG.hasContainer_of_mem_arrayNames hd.1
    · cases hn
  · split_ifs at h with hd
    · rw [List.mem_singleton.1 h]
      exact SDFG.hasContainer_of_mem_arrayNames hd.2
    · cases h

theorem firstInstance_cases (insts : List (Nat × InstNode)) :
    (insts = [] ∧ firstInstance insts = (none, none)) ∨
      ∃ i ∈ insts, firstInstance insts = (some i.1, some i.2) := by
  cases insts with
  | nil => exact .inl ⟨rfl, rfl⟩
  | cons i _ => exact .inr ⟨i, List.mem_cons_self _ _, rfl⟩

theorem lastInstance_cases (insts : List (Nat × InstNode)) :
    (insts = [] ∧ lastInstance insts = (none, none)) ∨
      ∃ i ∈ insts, lastInstance insts = (some i.1, some i.2) := by
  cases h : insts.getLast? with
  | none => exact .inl ⟨List.getLast?_eq_none_iff.1 h, by simp [lastInstance, h]⟩
  | some i => exact .inr ⟨i, List.mem_of_mem_getLast? h, by simp [lastInstance, h]⟩

/-- What the dispatch needs of an entry for SDFG `g`: a node whose descriptor `g` holds,
    and a state when it deallocates. -/
structure Action.Dispatchable (g : SDFG) (a : Action) : Prop where
  sdfg_eq : a.sdfg = g.cfgId
  node_mem : ∃ n, a.node = some n ∧ g.HasContainer n.data
  state_isSome : a.deallocate = true → a.state.isSome

/-- The entry the planner records for a container of `g` it found no access instance of:
    declare, allocate and free, with neither state nor node. -/
def unplacedAction (g : SDFG) : Action := ⟨g.cfgId, none, none, true, true, true⟩

/-- The actions placed after the climb are dispatchable, except one declare-allocate-free
    entry when the container has no access instance. -/
theorem placeBuffer_actions {env : Env} {p : Program} {g : SDFG} {name : DataName}
    {desc : Data} {cl : Climb} {insts : List (Nat × InstNode)} {bp : BufferPlan}
    (h : placeBuffer env p g name desc cl insts = .ok bp) (hname : g.HasContainer name)
    (hinsts : ∀ i ∈ insts, g.HasContainer i.2.data) :
    ∀ a ∈ bp.actions, a.2.Dispatchable g ∨ (insts = [] ∧ a.2 = unplacedAction g) := by
  unfold placeBuffer at h
  rcases firstInstance_cases insts with ⟨hnil, hfi⟩ | ⟨i, hi, hfi⟩
  · -- no access instance: `first == last == None`, one entry with neither
    have hli : lastInstance insts = (none, none) := by rw [hnil]; rfl
    simp only [hfi, hli, ne_eq, not_true_eq_false, if_false] at h
    split_ifs at h <;> cases h <;> simp [hnil, unplacedAction]
  rcases lastInstance_cases insts with ⟨hnil, -⟩ | ⟨j, hj, hli⟩
  · exact absurd hnil (List.ne_nil_of_mem hi)
  have hfirst : ∀ dc al, Action.Dispatchable g ⟨g.cfgId, some i.1, some i.2, dc, al, false⟩ :=
    fun _ _ => ⟨rfl, ⟨_, rfl, hinsts i hi⟩, nofun⟩
  simp only [hfi, hli] at h
  split_ifs at h
  · -- a View: an allocation and a deallocation at every access instance
    cases h
    simp only [List.mem_flatMap, List.mem_cons, List.mem_singleton, List.not_mem_nil,
      or_false]
    rintro a ⟨k, hk, rfl | rfl⟩ <;> exact .inl ⟨rfl, ⟨_, rfl, hinsts k hk⟩, fun _ => rfl⟩
  · -- declared at the common dominator
    obtain ⟨_, -, h⟩ := Except.bind_eq_ok.1 h
    cases h
    simp only [List.mem_cons, List.mem_singleton, List.not_mem_nil, or_false]
    rintro a (rfl | rfl | rfl)
    · exact .inl ⟨rfl, ⟨_, rfl, hname⟩, nofun⟩
    · exact .inl ⟨rfl, ⟨_, rfl, hinsts i hi⟩, nofun⟩
    · exact .inl ⟨rfl, ⟨_, rfl, hinsts j hj⟩, fun _ => rfl⟩
  · -- declared at the first instance
    cases h
    simp only [List.mem_cons, List.mem_singleton, List.not_mem_nil, or_false]
    rintro a (rfl | rfl | rfl)
    · exact .inl (hfirst true false)
    · exact .inl (hfirst false true)
    · exact .inl ⟨rfl, ⟨_, rfl, hinsts j hj⟩, fun _ => rfl⟩
  all_goals
    cases h
    simp only [List.mem_singleton, forall_eq]
    exact .inl ⟨rfl, ⟨_, rfl, hinsts i hi⟩, fun _ => rfl⟩

/-- One iteration of the planner's loop records dispatchable entries, or the unplaced entry
    of a container without access instances. -/
theorem planBuffer_actions {env : Env} {p : Program} {g : SDFG} {name : DataName}
    {desc : Data} {bp : BufferPlan} (h : planBuffer env p g name desc = .ok bp)
    (hname : g.HasContainer name) :
    ∀ a ∈ bp.actions,
      a.2.Dispatchable g ∨ (accessInstances g name = [] ∧ a.2 = unplacedAction g) := by
  unfold planBuffer at h
  split at h
  · cases h
  rename_i top _
  rcases hfi : firstInstance (accessInstances g name) with ⟨fs, fn⟩
  simp only [hfi] at h
  by_cases ht : (!top.transient || decide (name.full ∈ g.constants)) = true
  · rw [if_pos ht] at h
    cases h
    exact fun _ ha => absurd ha (List.not_mem_nil _)
  rw [if_neg ht] at h
  -- the one entry of a `Persistent`, `External` or `Global` container, if it has a node
  have hfirst (hn : ¬fn.isNone = true) :
      Action.Dispatchable g ⟨g.cfgId, fs, fn, true, true, true⟩ := by
    rcases firstInstance_cases (accessInstances g name) with ⟨-, h'⟩ | ⟨i, hi, h'⟩ <;>
      rw [hfi] at h' <;> cases h'
    · exact absurd rfl hn
    · exact ⟨rfl, ⟨_, rfl, accessInstances_hasContainer hi⟩, fun _ => rfl⟩
  cases hl : top.lifetime with
  | scope | state | sdfg =>
    simp only [hl] at h
    obtain ⟨o, -, h⟩ := Except.bind_eq_ok.1 h
    rcases o with _ | ⟨scope, state⟩
    · cases h
      exact fun _ ha => absurd ha (List.not_mem_nil _)
    · obtain ⟨cl, -, h⟩ := Except.bind_eq_ok.1 h
      exact placeBuffer_actions h hname fun _ => accessInstances_hasContainer
  | global | persistent | external =>
    simp only [hl] at h
    split at h <;> cases h
    · exact fun _ ha => absurd ha (List.not_mem_nil _)
    · simp only [List.mem_singleton, forall_eq]
      exact .inl (hfirst (by assumption))

/-- The containers of `arrays_recursive` are containers of their SDFGs. -/
theorem Program.hasContainer_of_mem_arraysRecursive {p : Program} {e : SDFG × DataName × Data}
    (h : e ∈ p.arraysRecursive) : e.1 ∈ p.sdfgs ∧ e.1.HasContainer e.2.1 := by
  obtain ⟨g, hg, he⟩ := List.mem_flatMap.1 h
  obtain ⟨c, hc, rfl⟩ := List.mem_map.1 he
  exact ⟨hg, c, hc, rfl⟩

/-- The loop's container plans, put together, hold dispatchable entries and unplaced
    entries of containers without access instances. -/
theorem planBuffers_actions {env : Env} {p : Program} {l : List (SDFG × DataName × Data)}
    {bps : List BufferPlan}
    (h : List.Forall₂ (fun e bp => planBuffer env p e.1 e.2.1 e.2.2 = .ok bp) l bps)
    (hl : ∀ e ∈ l, e.1.HasContainer e.2.1) :
    ∀ a ∈ (bps.map (·.actions)).flatten, ∃ e ∈ l,
      a.2.Dispatchable e.1 ∨ (accessInstances e.1 e.2.1 = [] ∧ a.2 = unplacedAction e.1) := by
  induction h with
  | nil => exact fun _ ha => absurd ha (List.not_mem_nil _)
  | cons hb _ ih =>
    intro a ha
    rcases List.mem_append.1 ha with ha | ha
    · exact ⟨_, List.mem_cons_self _ _, planBuffer_actions hb (hl _ (List.mem_cons_self _ _)) a ha⟩
    · obtain ⟨e, he, h⟩ := ih (fun e he => hl e (List.mem_cons_of_mem _ he)) a ha
      exact ⟨e, List.mem_cons_of_mem _ he, h⟩

/-- Each entry of a plan the planner returns comes from one container of `arrays_recursive`:
    dispatchable, or the unplaced entry of a container without access instances. -/
theorem determineAllocationLifetime_actions {env : Env} {p : Program} {pl : Plan}
    (h : determineAllocationLifetime env p = .ok pl) :
    ∀ a ∈ pl.toAllocate, ∃ e ∈ p.arraysRecursive,
      a.2.Dispatchable e.1 ∨ (accessInstances e.1 e.2.1 = [] ∧ a.2 = unplacedAction e.1) := by
  obtain ⟨bps, hall, heq⟩ := planLoop_eq_flatten p.arraysRecursive {} pl h
  rw [heq, List.nil_append]
  exact planBuffers_actions hall fun _ he => (Program.hasContainer_of_mem_arraysRecursive he).2

/-! ### When the dispatch raises -/

/-- The loop body of `allocate_arrays_in_scope` succeeds on a dispatchable entry and
    raises `AttributeError` on the unplaced one. -/
theorem allocateCall_ok_iff {p : Program} {g : SDFG} (hg : p.sdfg? g.cfgId = some g)
    {a : Action} (ha : a.Dispatchable g ∨ a = unplacedAction g) :
    ((∃ c, allocateCall p a = .ok c) ↔ a.node.isSome) ∧
      ((∃ c, allocateCall p a = .ok c) ∨ allocateCall p a = .error .attributeError) := by
  rcases ha with ⟨hs, ⟨n, hn, hc⟩, -⟩ | rfl
  · obtain ⟨d, hd⟩ := Option.isSome_iff_exists.1 (Program.desc?_isSome (n := n) hg hc)
    simp [allocateCall, hn, hs, hd]
  · simp [allocateCall, unplacedAction]

/-- The loop body of `deallocate_arrays_in_scope`, for an entry that deallocates. -/
theorem deallocateCall_ok_iff {p : Program} {g : SDFG} (hg : p.sdfg? g.cfgId = some g)
    {a : Action} (ha : a.Dispatchable g ∨ a = unplacedAction g) (hd : a.deallocate = true) :
    ((∃ c, deallocateCall p a = .ok c) ↔ a.node.isSome) ∧
      ((∃ c, deallocateCall p a = .ok c) ∨ deallocateCall p a = .error .attributeError) := by
  rcases ha with ⟨hs, ⟨n, hn, hc⟩, hst⟩ | rfl
  · obtain ⟨d, hdesc⟩ := Option.isSome_iff_exists.1 (Program.desc?_isSome (n := n) hg hc)
    obtain ⟨st, hst⟩ := Option.isSome_iff_exists.1 (hst hd)
    simp [deallocateCall, hn, hs, hdesc, hst]
  · simp [deallocateCall, unplacedAction]

/-- **The dispatch of a planned scope raises `AttributeError` exactly at an entry without a
    node.**  For a plan `determine_allocation_lifetime` returns, `allocate_arrays_in_scope`
    succeeds on a scope exactly when every entry under it has a node, and raises
    `AttributeError` otherwise; `deallocate_arrays_in_scope` does the same for the entries
    under it that deallocate.  Descriptors are always found, and a deallocation with a node
    always has a state. -/
theorem allocateArraysInScope_ok_iff (env : Env) {p : Program} (hp : p.WellFormed)
    {pl : Plan} (h : determineAllocationLifetime env p = .ok pl) (scope : ScopeKey) :
    ((∃ calls, allocateArraysInScope p pl scope = .ok calls) ↔
      ∀ a ∈ pl.entriesAt scope, a.node.isSome) ∧
    (allocateArraysInScope p pl scope = .error .attributeError ↔
      ∃ a ∈ pl.entriesAt scope, a.node = none) ∧
    ((∃ calls, deallocateArraysInScope p pl scope = .ok calls) ↔
      ∀ a ∈ pl.entriesAt scope, a.deallocate = true → a.node.isSome) ∧
    (deallocateArraysInScope p pl scope = .error .attributeError ↔
      ∃ a ∈ pl.entriesAt scope, a.deallocate = true ∧ a.node = none) := by
  have hact : ∀ a ∈ pl.entriesAt scope,
      ∃ g : SDFG, p.sdfg? g.cfgId = some g ∧ (a.Dispatchable g ∨ a = unplacedAction g) := by
    intro a ha
    obtain ⟨e, hea, he⟩ := List.mem_filterMap.1 ha
    split_ifs at he
    cases he
    obtain ⟨x, hx, hd⟩ := determineAllocationLifetime_actions h e hea
    have hg := (Program.hasContainer_of_mem_arraysRecursive hx).1
    exact ⟨x.1, hp.sdfg_unique _ hg, hd.imp id And.right⟩
  have halloc : ∀ a ∈ pl.entriesAt scope,
      ((∃ c, allocateCall p a = .ok c) ↔ a.node.isSome) ∧
        ((∃ c, allocateCall p a = .ok c) ∨ allocateCall p a = .error .attributeError) :=
    fun a ha => let ⟨_, hg, hd⟩ := hact a ha; allocateCall_ok_iff hg hd
  have hdealloc : ∀ a ∈ (pl.entriesAt scope).filter (·.deallocate),
      ((∃ c, deallocateCall p a = .ok c) ↔ a.node.isSome) ∧
        ((∃ c, deallocateCall p a = .ok c) ∨ deallocateCall p a = .error .attributeError) :=
    fun a ha =>
      let ⟨ha, hdl⟩ := List.mem_filter.1 ha
      let ⟨_, hg, hd⟩ := hact a ha
      deallocateCall_ok_iff hg hd hdl
  simp only [allocateArraysInScope, deallocateArraysInScope, mapM_except_ok_iff,
    mapM_except_eq_error_iff _ _ _ fun a ha => (halloc a ha).2,
    mapM_except_eq_error_iff _ _ _ fun a ha => (hdealloc a ha).2, List.mem_filter, and_imp]
  refine ⟨forall₂_congr fun a ha => (halloc a ha).1,
    exists_congr fun a => and_congr_right fun ha => by
      rw [(halloc a ha).1, Option.not_isSome_iff_eq_none],
    forall₂_congr fun a ha => forall_congr' fun hdl =>
      (hdealloc a (List.mem_filter.2 ⟨ha, hdl⟩)).1,
    exists_congr fun a => ?_⟩
  rw [and_assoc]
  exact and_congr_right fun ha => and_congr_right fun hdl => by
    rw [(hdealloc a (List.mem_filter.2 ⟨ha, hdl⟩)).1, Option.not_isSome_iff_eq_none]

/-- **An entry without a node is the unplaced entry of a container without access
    instances.**  Every other entry the planner records has a node, so these are the only
    entries that can make the dispatch raise; each declares, allocates and frees its
    container at once, with no state. -/
theorem determineAllocationLifetime_nodeless (env : Env) (p : Program) {pl : Plan}
    (h : determineAllocationLifetime env p = .ok pl) :
    ∀ e ∈ pl.toAllocate, e.2.node = none →
      ∃ c ∈ p.arraysRecursive, accessInstances c.1 c.2.1 = [] ∧ e.2 = unplacedAction c.1 := by
  intro e he hn
  obtain ⟨c, hc, hd | hu⟩ := determineAllocationLifetime_actions h e he
  · obtain ⟨n, hn', -⟩ := hd.node_mem
    simp [hn] at hn'
  · exact ⟨c, hc, hu⟩

/-! ### Two programs whose plans cannot be dispatched -/

theorem regionOnly_wellFormed : regionOnly.WellFormed where
  sdfg_unique g hg := by
    obtain rfl : g = regionOnly.top := by simpa [Program.sdfgs, regionOnly] using hg
    rfl
  state_unique g hg st hst := by
    obtain rfl : g = regionOnly.top := by simpa [Program.sdfgs, regionOnly] using hg
    obtain rfl : st = ⟨1, [], []⟩ := by simpa [regionOnly] using hst
    exact ⟨rfl, _, rfl, rfl⟩
  scope_closed g hg st hst n hn := by
    obtain rfl : g = regionOnly.top := by simpa [Program.sdfgs, regionOnly] using hg
    obtain rfl : st = ⟨1, [], []⟩ := by simpa [regionOnly] using hst
    cases hn
  parent_in g hg ctx hpar := by
    obtain rfl : g = regionOnly.top := by simpa [Program.sdfgs, regionOnly] using hg
    cases hpar
  acyclic := ⟨fun | .sdfg _ => 0 | _ => 1, {
    lt_size := fun k => by
      have hs : regionOnly.size = 3 := rfl
      cases k <;> simp [hs]
    entry_lt := by decide
    state_lt := by decide
    sdfg_lt := fun g hg ctx hpar => by
      obtain rfl : g = regionOnly.top := by simpa [Program.sdfgs, regionOnly] using hg
      cases hpar }⟩

/-- `x` is left unplaced at the top-level SDFG, so `generate_code`'s
    `allocate_arrays_in_scope(sdfg, sdfg, sdfg, ...)` raises `AttributeError`. -/
theorem allocateArraysInScope_regionOnly :
    regionOnly.WellFormed ∧ ∃ pl, determineAllocationLifetime hostEnv regionOnly = .ok pl ∧
      unplacedAction regionOnly.top ∈ pl.entriesAt (.sdfg 0) ∧
      allocateArraysInScope regionOnly pl (.sdfg 0) = .error .attributeError :=
  ⟨regionOnly_wellFormed, _, rfl, by decide,
    (allocateArraysInScope_ok_iff hostEnv regionOnly_wellFormed rfl (.sdfg 0)).2.1.2
      ⟨unplacedAction regionOnly.top, by decide, rfl⟩⟩

/-- A transient structure `A` of `Scope` lifetime that state `1` accesses only through its
    member `A.b`: the access node is no instance of `A` (`A.b` is not a key of
    `sdfg.arrays`), yet the `Scope` search, which compares root names, finds the state. -/
def memberOnly : Program where
  top := {
    cfgId := 0
    containers := [({ root := "A" }, { transient := true, storage := "CPU_Heap", lifetime := .scope }),
      ({ root := "A", members := ["b"] },
        { transient := true, storage := "CPU_Heap", lifetime := .scope })]
    states := [{ id := 1, nodes := [{ id := 10, kind := .access { root := "A", members := ["b"] } }] }] }

/-- `A` is left unplaced at state `1`, without access instances. -/
theorem determineAllocationLifetime_nodeless_memberOnly :
    ∃ pl, determineAllocationLifetime hostEnv memberOnly = .ok pl ∧
      (some (.state 1), unplacedAction memberOnly.top) ∈ pl.toAllocate ∧
      ∃ c ∈ memberOnly.arraysRecursive, accessInstances c.1 c.2.1 = [] ∧
        unplacedAction memberOnly.top = unplacedAction c.1 :=
  ⟨_, rfl, by decide,
    determineAllocationLifetime_nodeless hostEnv memberOnly rfl
      (some (.state 1), unplacedAction memberOnly.top) (by decide) rfl⟩

end DaceLowering
