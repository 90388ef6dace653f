import DaceLowering.Lifetime

/-!
# External memory

`DaCeCodeGenerator.generate_external_memory_management` exports two functions for each
storage location that holds containers of `External` lifetime: one returns how many bytes
the program needs there, the other binds the state-struct field of each such container to
an offset into a block the caller allocated.  It finds the containers through
`sdfg.arrays_recursive()` and binds `__state->__<cfg_id>_<name>`; the fields the state
struct declares are those `determine_allocation_lifetime` appended to `statestruct`.

The size and the offsets come from two separate loops over the same group of containers;
they agree: each container is bound at the sum of the byte sizes before it, and the size is
the sum of them all (`generateExternalMemoryManagement_layout`).
-/

namespace DaceLowering

/-- `sdfg.arrays_recursive()`, without `include_nested_data`: the top-level containers of
    every SDFG. -/
def Program.arraysTopLevel (p : Program) : List (SDFG × DataName × Data) :=
  p.arraysRecursive.filter fun e => e.2.1.members.isEmpty

/-- `ext_arrays[storage].append(a)` on a `defaultdict(list)`, whose keys keep the order in
    which they were first added. -/
def appendToStorage {α : Type} (groups : List (StorageType × List α)) (storage : StorageType)
    (a : α) : List (StorageType × List α) :=
  if groups.any (·.1 == storage) then
    groups.map fun g => if g.1 == storage then (g.1, g.2 ++ [a]) else g
  else groups ++ [(storage, [a])]

/-- `ext_arrays`: the containers of `External` lifetime, by storage. -/
def externalArrays (p : Program) : List (StorageType × List (SDFG × DataName × Data)) :=
  p.arraysTopLevel.foldl (fun groups e =>
    if e.2.2.lifetime = .external then appendToStorage groups e.2.2.storage e else groups) []

/-- `arr.total_size * arr.dtype.bytes` -/
def Data.byteSize (d : Data) : Nat := d.totalSize * d.bytes

/-- The pointer-set loop: each container's field with the offset it is bound at, the
    offsets running on from `offset`. -/
def bindAt : Nat → List (SDFG × DataName × Data) → List (String × Nat)
  | _, [] => []
  | offset, (g, name, d) :: rest =>
    ("__state->" ++ fieldName g name, offset) :: bindAt (offset + d.byteSize) rest

/-- The two functions written for one storage location. -/
structure ExternalMemory where
  storage : StorageType
  /-- what `__dace_get_external_memory_size_<storage>` returns -/
  size : Nat
  /-- the fields `__dace_set_external_memory_<storage>` assigns, with their offsets -/
  bindings : List (String × Nat)
  deriving DecidableEq, Repr

/-- `generate_external_memory_management(sdfg, ...)`: the functions for each storage, in
    the order of `ext_arrays`; none when there is no `External` container. -/
def generateExternalMemoryManagement (p : Program) : List ExternalMemory :=
  (externalArrays p).map fun (storage, arrays) =>
    { storage, size := (arrays.map (·.2.2.byteSize)).sum, bindings := bindAt 0 arrays }

/-! ### Groups by storage -/

/-- The External containers of storage `s`, in `arrays_recursive()` order. -/
def Program.externalArraysOf (p : Program) (s : StorageType) : List (SDFG × DataName × Data) :=
  p.arraysTopLevel.filter fun e => e.2.2.lifetime = .external ∧ e.2.2.storage = s

/-- What `ext_arrays[t]` holds once its list is `xs`: no key while the list is empty. -/
def storageGroup {α : Type} (t : StorageType) : List α → List (StorageType × List α)
  | [] => []
  | x :: xs => [(t, x :: xs)]

/-- Appending to `ext_arrays[s]` extends the group of key `s` and leaves every other key's
    group alone. -/
theorem appendToStorage_filter {α : Type} (groups : List (StorageType × List α))
    (s t : StorageType) (a : α) {xs : List α}
    (h : groups.filter (·.1 = t) = storageGroup t xs) :
    (appendToStorage groups s a).filter (·.1 = t) =
      if s = t then storageGroup t (xs ++ [a]) else storageGroup t xs := by
  unfold appendToStorage
  -- appending to a group keeps its key, so the groups of key `t` are found first
  have hcomp : (fun g : StorageType × List α => decide (g.1 = t)) ∘
      (fun g => if (g.1 == s) = true then (g.1, g.2 ++ [a]) else g) = fun g => decide (g.1 = t) :=
    funext fun g => by simp only [Function.comp]; split <;> rfl
  split_ifs with hany hst hst'
  · subst hst
    obtain ⟨g, hg, hgs⟩ := List.any_eq_true.1 hany
    have hne : storageGroup s xs ≠ [] :=
      h ▸ List.ne_nil_of_mem (List.mem_filter.2 ⟨hg, by simpa using hgs⟩)
    rw [List.filter_map, hcomp, h]
    cases xs with
    | nil => exact absurd rfl hne
    | cons x xs => simp [storageGroup]
  · rw [List.filter_map, hcomp, h]
    cases xs with
    | nil => rfl
    | cons x xs => simp [storageGroup, Ne.symm hst]
  · subst s
    have hnone : groups.filter (·.1 = t) = [] :=
      List.filter_eq_nil_iff.2 fun g hg hgt => hany (List.any_eq_true.2 ⟨g, hg, by simpa using hgt⟩)
    rw [hnone] at h
    cases xs with
    | nil => simp [List.filter_append, hnone, storageGroup]
    | cons x xs => cases h
  · simp [List.filter_append, h, hst']

/-- The loop over `arrays_recursive()` builds, for each key, the group of the External
    containers of that storage seen so far. -/
theorem externalArrays_filter_aux (t : StorageType) :
    ∀ (l m : List (SDFG × DataName × Data)) (groups : List (StorageType × List (SDFG × DataName × Data))),
      groups.filter (·.1 = t) =
        storageGroup t (m.filter fun e => e.2.2.lifetime = .external ∧ e.2.2.storage = t) →
      (l.foldl (fun groups e => if e.2.2.lifetime = .external then
          appendToStorage groups e.2.2.storage e else groups) groups).filter (·.1 = t) =
        storageGroup t ((m ++ l).filter fun e => e.2.2.lifetime = .external ∧ e.2.2.storage = t)
  | [], m, groups, h => by simpa using h
  | e :: l, m, groups, h => by
    rw [List.foldl_cons, show m ++ e :: l = (m ++ [e]) ++ l by simp]
    refine externalArrays_filter_aux t l (m ++ [e]) _ ?_
    by_cases hext : e.2.2.lifetime = .external
    · rw [if_pos hext, appendToStorage_filter _ _ _ _ h]
      by_cases hs : e.2.2.storage = t <;> simp [hext, hs, List.filter_append]
    · rw [if_neg hext]
      simpa [hext, List.filter_append] using h

theorem externalArrays_filter (p : Program) (t : StorageType) :
    (externalArrays p).filter (·.1 = t) = storageGroup t (p.externalArraysOf t) :=
  externalArrays_filter_aux t p.arraysTopLevel [] [] rfl

/-! ### Sizes and offsets -/

/-- The offsets of the pointer-set loop are the running sums of the byte sizes. -/
theorem bindAt_eq_mapIdx : ∀ (offset : Nat) (arrays : List (SDFG × DataName × Data)),
    bindAt offset arrays = arrays.mapIdx fun i e =>
      ("__state->" ++ fieldName e.1 e.2.1, offset + ((arrays.take i).map (·.2.2.byteSize)).sum)
  | _, [] => rfl
  | offset, (g, name, d) :: rest => by
    rw [bindAt, bindAt_eq_mapIdx (offset + d.byteSize) rest, List.mapIdx_cons]
    simp [Nat.add_assoc]

theorem sum_take_le_sum_take (bs : List Nat) {m n : Nat} (h : m ≤ n) :
    (bs.take m).sum ≤ (bs.take n).sum :=
  calc (bs.take m).sum = ((bs.take n).take m).sum := by rw [List.take_take, Nat.min_eq_left h]
    _ ≤ ((bs.take n).take m).sum + ((bs.take n).drop m).sum := Nat.le_add_right _ _
    _ = (bs.take n).sum := by rw [← List.sum_append, List.take_append_drop]

theorem sum_take_add_getD (bs : List Nat) {i : Nat} (hi : i < bs.length) :
    (bs.take i).sum + bs.getD i 0 = (bs.take (i + 1)).sum := by
  rw [List.take_succ, List.sum_append, List.getElem?_eq_getElem hi]
  simp [List.getElem?_eq_getElem hi]

/-- Filtering the functions by storage is filtering the groups by key. -/
theorem filter_storage_map {β : Type} (s : StorageType) (f : StorageType × β → ExternalMemory)
    (l : List (StorageType × β)) (hf : ∀ g, (f g).storage = g.1) :
    (l.map f).filter (·.storage = s) = (l.filter (·.1 = s)).map f := by
  rw [List.filter_map]
  exact congrArg _ (List.filter_congr fun g _ => by simp [hf])

/-- For each storage `s` the generated functions are one pair, when some External container
    has storage `s`: the size query returns the sum of the byte sizes `b_1 + ... + b_n` of
    those containers in `arrays_recursive()` order, and the pointer-set function binds the
    `i`-th of them at `b_1 + ... + b_(i-1)`.  The byte ranges `[offset_i, offset_i + b_i)`
    follow one another, so they are disjoint and lie within the returned size. -/
theorem generateExternalMemoryManagement_layout (p : Program) (s : StorageType) :
    let as := p.externalArraysOf s
    let bs := as.map (·.2.2.byteSize)
    (generateExternalMemoryManagement p).filter (·.storage = s) =
        (if as.isEmpty then [] else
          [⟨s, bs.sum, as.mapIdx fun i e => ("__state->" ++ fieldName e.1 e.2.1, (bs.take i).sum)⟩]) ∧
      (∀ i j, i < j → j < as.length → (bs.take i).sum + bs.getD i 0 ≤ (bs.take j).sum) ∧
      ∀ i, i < as.length → (bs.take i).sum + bs.getD i 0 ≤ bs.sum := by
  intro as bs
  refine ⟨?_, fun i j hij hj => ?_, fun i hi => ?_⟩
  · unfold generateExternalMemoryManagement
    rw [filter_storage_map, externalArrays_filter]
    · cases has : p.externalArraysOf s with
      | nil => simp [storageGroup, has, as]
      | cons e rest => simp [storageGroup, bindAt_eq_mapIdx, has, as, bs, List.map_take]
    · exact fun ⟨_, _⟩ => rfl
  · have hi : i < bs.length := by simp only [bs, List.length_map]; omega
    rw [sum_take_add_getD bs hi]
    exact sum_take_le_sum_take bs hij
  · have hi : i < bs.length := by simpa [bs] using hi
    rw [sum_take_add_getD bs hi]
    simpa using sum_take_le_sum_take bs hi

/-- The container `y` of the example below. -/
def yName : DataName := { root := "y" }

/-- A top-level SDFG with the `External` transient `y` of 128 bytes, which no state
    accesses. -/
def unusedExternal : Program where
  top := {
    cfgId := 0
    containers := [(yName, { transient := true, storage := "CPU_Heap", lifetime := .external,
                             totalSize := 16, bytes := 8 })]
    states := [{ id := 1, nodes := [] }] }

/-- The pointer-set function binds `__state->__0_y`, but `determine_allocation_lifetime`
    skips the unused `y` and declares no field for it. -/
theorem generateExternalMemoryManagement_unusedExternal :
    generateExternalMemoryManagement unusedExternal =
        [⟨"CPU_Heap", 128, [("__state->__0_y", 0)]⟩] ∧
      determineAllocationLifetime hostEnv unusedExternal = .ok {} :=
  ⟨rfl, rfl⟩

end DaceLowering
