import Mathlib.Data.List.Nodup
import DaceLowering.Graph

/-!
# The interstate symbols of `generate_code`

Before it emits the states of an SDFG, `DaCeCodeGenerator.generate_code` declares the
symbols that loop headers and interstate edges define.  It starts a table `global_symbols`
from `sdfg.symbols` and the dtypes of `sdfg.arrays`, and walks
`sdfg.all_control_flow_regions()`: a `LoopRegion` with a loop variable and an init statement
adds its variable, with the type the table has or else the one inferred from its start,
stride and end; then each edge of `cfr.dfs_edges(cfr.start_block)` adds the symbols its
assignments define, where a type the table already has wins over the inferred one.  The
symbols collected in `interstate_symbols` are then declared as C scalars, except those the
parent's symbol mapping or the function's arguments define already; a symbol left without a
type raises `TypeError`.

Python dictionaries are association lists: assigning to a key keeps its position, a new key
goes last.  The type inference itself (`infer_expr_type`, `result_type_of`) lies outside the
frame code and enters as functions of the table it is given; an edge's `new_symbols` defines
the symbols its assignments fix, with the types inferred under the table.  The results: the
inference never overrides a declared type (`inferInterstateSymbols_keeps_declared`); the
declarations raise exactly for a symbol left without a type
(`generateInterstateDeclarations_ok_iff`); what is declared is declared once, with its
declared type (`generateInterstateDeclarations_spec`); and every symbol the control flow
defines is declared or skipped for a stated reason (`generateInterstateDeclarations_complete`).
-/

namespace DaceLowering

/-! ### Python dictionaries -/

/-- A Python `dict`: its entries in insertion order. -/
abbrev PyDict (κ ν : Type) := List (κ × ν)

namespace PyDict

variable {κ ν : Type}

/-- `d.keys()`, in order. -/
def keys (d : PyDict κ ν) : List κ := d.map (·.1)

@[simp] theorem keys_append (d e : PyDict κ ν) : (d ++ e).keys = d.keys ++ e.keys :=
  List.map_append _ _ _

variable [DecidableEq κ]

/-- `d[key]`, or `none` when `key not in d`. -/
def getItem? : PyDict κ ν → κ → Option ν
  | [], _ => none
  | (k, v) :: rest, x => if k = x then some v else getItem? rest x

/-- `d[key] = value`: in place for a present key, appended otherwise. -/
def setItem : PyDict κ ν → κ → ν → PyDict κ ν
  | [], x, v => [(x, v)]
  | (k, w) :: rest, x, v => if k = x then (k, v) :: rest else (k, w) :: setItem rest x v

/-- `d.update(other)`. -/
def update (d e : PyDict κ ν) : PyDict κ ν :=
  e.foldl (fun d kv => d.setItem kv.1 kv.2) d

@[simp] theorem getItem?_setItem (d : PyDict κ ν) (x y : κ) (v : ν) :
    (d.setItem x v).getItem? y = if x = y then some v else d.getItem? y := by
  induction d with
  | nil => simp [setItem, getItem?]
  | cons kw rest ih =>
    obtain ⟨k, w⟩ := kw
    by_cases hk : k = x
    · subst hk
      by_cases hy : k = y <;> simp [setItem, getItem?, hy]
    · by_cases hy : k = y
      · subst hy
        simp [setItem, getItem?, hk, Ne.symm hk]
      · simp [setItem, getItem?, hk, hy, ih]

theorem keys_setItem (d : PyDict κ ν) (x : κ) (v : ν) :
    (d.setItem x v).keys = if x ∈ d.keys then d.keys else d.keys ++ [x] := by
  induction d with
  | nil => rfl
  | cons kw rest ih =>
    obtain ⟨k, w⟩ := kw
    by_cases hk : k = x
    · simp [setItem, keys, hk]
    · have hmem : x ∈ k :: keys rest ↔ x ∈ keys rest := by simp [Ne.symm hk]
      simp only [keys] at ih hmem
      simp only [setItem, keys, if_neg hk, List.map_cons, ih, hmem]
      split_ifs <;> rfl

theorem nodup_setItem {d : PyDict κ ν} (h : d.keys.Nodup) (x : κ) (v : ν) :
    (d.setItem x v).keys.Nodup := by
  rw [keys_setItem]
  split_ifs with hx
  · exact h
  · exact List.nodup_append.2 ⟨h, List.nodup_singleton x, List.disjoint_singleton.2 hx⟩

theorem nodup_update {d : PyDict κ ν} (h : d.keys.Nodup) (e : PyDict κ ν) :
    (d.update e).keys.Nodup := by
  induction e generalizing d with
  | nil => exact h
  | cons kv e ih => exact ih (nodup_setItem h kv.1 kv.2)

theorem mem_keys_setItem (d : PyDict κ ν) (x y : κ) (v : ν) :
    y ∈ (d.setItem x v).keys ↔ y ∈ d.keys ∨ y = x := by
  rw [keys_setItem]
  split_ifs with hx
  · exact ⟨.inl, fun h => h.elim id fun h => h ▸ hx⟩
  · simp

theorem mem_keys_of_getItem? {d : PyDict κ ν} {x : κ} {v : ν} (h : d.getItem? x = some v) :
    x ∈ d.keys := by
  induction d with
  | nil => cases h
  | cons kw rest ih =>
    obtain ⟨k, w⟩ := kw
    simp only [getItem?] at h
    split_ifs at h with hk
    · exact hk ▸ List.mem_cons_self _ _
    · exact List.mem_cons_of_mem _ (ih h)

theorem mem_keys_update (d e : PyDict κ ν) (y : κ) :
    y ∈ (d.update e).keys ↔ y ∈ d.keys ∨ y ∈ e.keys := by
  induction e generalizing d with
  | nil => simp [update, keys]
  | cons kv e ih =>
    rw [show d.update (kv :: e) = (d.setItem kv.1 kv.2).update e from rfl, ih,
      mem_keys_setItem]
    simp [keys, or_assoc, or_comm, or_left_comm]

/-- A key every entry of `e` gives the value `t`, and that `d` maps to `t`, keeps `t`. -/
theorem getItem?_update_of_forall {d e : PyDict κ ν} {x : κ} {t : ν}
    (he : ∀ v, (x, v) ∈ e → v = t) (hd : d.getItem? x = some t) :
    (d.update e).getItem? x = some t := by
  induction e generalizing d with
  | nil => exact hd
  | cons kv e ih =>
    refine ih (fun v hv => he v (List.mem_cons_of_mem _ hv)) ?_
    rw [getItem?_setItem]
    split_ifs with hx
    · rw [he kv.2 (hx ▸ List.mem_cons_self _ _)]
    · exact hd

theorem getItem?_of_mem {d : PyDict κ ν} (h : d.keys.Nodup) {x : κ} {v : ν}
    (hx : (x, v) ∈ d) : d.getItem? x = some v := by
  induction d with
  | nil => cases hx
  | cons kw rest ih =>
    obtain ⟨k, w⟩ := kw
    simp only [keys, List.map_cons, List.nodup_cons] at h
    rcases List.mem_cons.1 hx with hkw | hx
    · cases hkw
      simp [getItem?]
    · have hk : k ≠ x := fun hk => h.1 (hk ▸ List.mem_map_of_mem Prod.fst hx)
      simp [getItem?, hk, ih h.2 hx]

/-- `I` and `G` agree on the keys of `I`. -/
def Agrees (I G : PyDict κ ν) : Prop := ∀ k v, I.getItem? k = some v → G.getItem? k = some v

theorem Agrees.setItem {I G : PyDict κ ν} (h : I.Agrees G) (x : κ) (v : ν) :
    (I.setItem x v).Agrees (G.setItem x v) := by
  intro k w hk
  rw [getItem?_setItem] at hk ⊢
  split_ifs at hk ⊢
  · exact hk
  · exact h k w hk

theorem Agrees.update {I G : PyDict κ ν} (h : I.Agrees G) (e : PyDict κ ν) :
    (I.update e).Agrees (G.update e) := by
  induction e generalizing I G with
  | nil => exact h
  | cons kv e ih => exact ih (h.setItem kv.1 kv.2)

end PyDict

/-! ### Symbol tables -/

/-- A `dtypes.typeclass`, by its C type. -/
abbrev Ty := String

/-- A `Dict[str, dtypes.typeclass]` whose values may be `None`. -/
abbrev SymbolTable := PyDict String (Option Ty)

/-- `G` keeps every type, other than `None`, that `G₀` has. -/
def SymbolTable.KeepsTypes (G G₀ : SymbolTable) : Prop :=
  ∀ k t, G₀.getItem? k = some (some t) → G.getItem? k = some (some t)

theorem SymbolTable.KeepsTypes.refl (G : SymbolTable) : G.KeepsTypes G := fun _ _ h => h

theorem SymbolTable.KeepsTypes.trans {G₂ G₁ G₀ : SymbolTable} (h₂ : G₂.KeepsTypes G₁)
    (h₁ : G₁.KeepsTypes G₀) : G₂.KeepsTypes G₀ := fun k t h => h₂ k t (h₁ k t h)

/-! ### The inference loop -/

/-- An interstate edge as the inference reads it. -/
structure InterstateEdge where
  /-- the symbols the edge's assignments define: each left-hand side that no right-hand
      side up to it mentions -/
  definedSymbols : List String
  /-- the type inferred for a defined symbol's value under the table it is given -/
  inferredType : SymbolTable → String → Option Ty

/-- `e.data.new_symbols(sdfg, global_symbols)`: the defined symbols with their inferred
    types. -/
def InterstateEdge.newSymbols (e : InterstateEdge) (t : SymbolTable) : SymbolTable :=
  e.definedSymbols.map fun k => (k, e.inferredType t k)

/-- The header of a `LoopRegion` whose `loop_variable` and `init_statement` are not `None`. -/
structure LoopHeader where
  loopVariable : String
  /-- `result_type_of` of the types inferred for the loop's start, stride and end -/
  inferredType : SymbolTable → Option Ty

/-- A region of `sdfg.all_control_flow_regions()`. -/
structure ControlFlowRegion where
  loop : Option LoopHeader := none
  /-- `cfr.dfs_edges(cfr.start_block)` -/
  edges : List InterstateEdge := []

/-- The symbols a region defines: its loop variable, and the symbols its edges define. -/
def ControlFlowRegion.definedSymbols (r : ControlFlowRegion) : List String :=
  (r.loop.map (·.loopVariable)).toList ++ r.edges.flatMap (·.definedSymbols)

/-- What the inference reads of the SDFG. -/
structure SymbolSource where
  /-- `sdfg.symbols` -/
  symbols : SymbolTable := []
  /-- `aname: arr.dtype` for `sdfg.arrays.items()` -/
  arrayTypes : List (String × Ty) := []
  /-- `sdfg.all_control_flow_regions()` -/
  regions : List ControlFlowRegion

/-- `global_symbols` before the loop: a copy of `sdfg.symbols` updated with the dtypes of the
    arrays. -/
def SymbolSource.initialGlobal (src : SymbolSource) : SymbolTable :=
  src.symbols.update (src.arrayTypes.map fun a => (a.1, some a.2))

/-- The two tables of the loop. -/
structure SymbolInference where
  interstate : SymbolTable
  global : SymbolTable

namespace SymbolInference

/-- The loop-variable step of a `LoopRegion`. -/
def loopHeader (st : SymbolInference) (h : LoopHeader) : SymbolInference :=
  let v := h.loopVariable
  -- `interstate_symbols[v]` once the first `if` has run
  let t := (st.interstate.getItem? v).getD ((st.global.getItem? v).getD (h.inferredType st.global))
  { interstate := if (st.interstate.getItem? v).isSome then st.interstate
      else st.interstate.setItem v t
    global := if (st.global.getItem? v).isSome then st.global else st.global.setItem v t }

/-- `{k: v if (k not in global_symbols or global_symbols[k] is None) else global_symbols[k]
    for k, v in symbols.items()}`. -/
def preferDeclared (global symbols : SymbolTable) : SymbolTable :=
  symbols.map fun kv => (kv.1, match global.getItem? kv.1 with
    | some (some t) => some t
    | _ => kv.2)

/-- The step of one edge: both tables are updated with the edge's symbols. -/
def edge (st : SymbolInference) (e : InterstateEdge) : SymbolInference :=
  let symbols := preferDeclared st.global (e.newSymbols st.global)
  ⟨st.interstate.update symbols, st.global.update symbols⟩

/-- The body of the loop over `sdfg.all_control_flow_regions()`. -/
def region (st : SymbolInference) (r : ControlFlowRegion) : SymbolInference :=
  r.edges.foldl edge (match r.loop with
    | some h => st.loopHeader h
    | none => st)

end SymbolInference

/-- `interstate_symbols` and `global_symbols` after the loop. -/
def inferInterstateSymbols (src : SymbolSource) : SymbolInference :=
  src.regions.foldl SymbolInference.region ⟨[], src.initialGlobal⟩

/-! ### What the inference keeps -/

/-- The interstate table agrees with the global one and has distinct keys. -/
structure SymbolInference.Consistent (st : SymbolInference) : Prop where
  agrees : st.interstate.Agrees st.global
  nodup : st.interstate.keys.Nodup

namespace SymbolInference

open PyDict SymbolTable

variable {st : SymbolInference}

theorem Consistent.loopHeader (hc : st.Consistent) (h : LoopHeader) :
    (st.loopHeader h).Consistent := by
  obtain ⟨hag, hnd⟩ := hc
  simp only [SymbolInference.loopHeader]
  constructor
  · intro k w hk
    split_ifs at hk ⊢ with hI hG hG
    · -- the variable is in both tables: neither changes
      exact hag k w hk
    · -- in the interstate table only: impossible, the tables agree
      obtain ⟨a, ha⟩ := Option.isSome_iff_exists.1 hI
      simp [hag _ _ ha] at hG
    · -- it takes the type the global table has
      rw [getItem?_setItem] at hk
      split_ifs at hk with hv
      · cases hk
        subst hv
        obtain ⟨b, hb⟩ := Option.isSome_iff_exists.1 hG
        simp [Option.not_isSome_iff_eq_none.1 hI, hb]
      · exact hag k w hk
    · -- new to both: both get the same type
      exact hag.setItem _ _ k w hk
  · split_ifs
    all_goals first
      | exact hnd
      | exact nodup_setItem hnd _ _

theorem loopHeader_keepsTypes (st : SymbolInference) (h : LoopHeader) :
    (st.loopHeader h).global.KeepsTypes st.global := by
  intro k t hk
  simp only [SymbolInference.loopHeader]
  split_ifs with hG
  · exact hk
  · rw [getItem?_setItem, if_neg]
    · exact hk
    · rintro rfl
      simp [hk] at hG

theorem Consistent.edge (hc : st.Consistent) (e : InterstateEdge) : (st.edge e).Consistent :=
  ⟨hc.agrees.update _, nodup_update hc.nodup _⟩

theorem edge_keepsTypes (st : SymbolInference) (e : InterstateEdge) :
    (st.edge e).global.KeepsTypes st.global := by
  intro k t hk
  refine getItem?_update_of_forall (fun v hv => ?_) hk
  obtain ⟨kv, -, hkv⟩ := List.mem_map.1 hv
  simp only [Prod.mk.injEq] at hkv
  obtain ⟨rfl, rfl⟩ := hkv
  simp [hk]

/-- One region keeps the invariant and the declared types. -/
theorem region_spec (hc : st.Consistent) (r : ControlFlowRegion) :
    (st.region r).Consistent ∧ (st.region r).global.KeepsTypes st.global := by
  have hloop : ∀ st' : SymbolInference, st'.Consistent → st'.global.KeepsTypes st.global →
      ∀ es : List InterstateEdge, (es.foldl edge st').Consistent ∧
        (es.foldl edge st').global.KeepsTypes st.global := by
    intro st' hc' hk' es
    induction es generalizing st' with
    | nil => exact ⟨hc', hk'⟩
    | cons e es ih => exact ih _ (hc'.edge e) ((edge_keepsTypes st' e).trans hk')
  unfold SymbolInference.region
  split
  · exact hloop _ (hc.loopHeader _) (loopHeader_keepsTypes st _) _
  · exact hloop _ hc (KeepsTypes.refl _) _

/-! The keys of `interstate_symbols` are the symbols the control flow defines. -/

theorem mem_keys_loopHeader (st : SymbolInference) (h : LoopHeader) (k : String) :
    k ∈ (st.loopHeader h).interstate.keys ↔ k ∈ st.interstate.keys ∨ k = h.loopVariable := by
  simp only [SymbolInference.loopHeader]
  split_ifs with hI
  · obtain ⟨a, ha⟩ := Option.isSome_iff_exists.1 hI
    exact ⟨.inl, fun hk => hk.elim id fun hk => hk ▸ mem_keys_of_getItem? ha⟩
  · exact mem_keys_setItem _ _ _ _

theorem mem_keys_edge (st : SymbolInference) (e : InterstateEdge) (k : String) :
    k ∈ (st.edge e).interstate.keys ↔ k ∈ st.interstate.keys ∨ k ∈ e.definedSymbols := by
  have hk : (preferDeclared st.global (e.newSymbols st.global)).keys = e.definedSymbols := by
    simp [preferDeclared, InterstateEdge.newSymbols, keys, Function.comp_def]
  rw [SymbolInference.edge, mem_keys_update, hk]

theorem mem_keys_region (st : SymbolInference) (r : ControlFlowRegion) (k : String) :
    k ∈ (st.region r).interstate.keys ↔ k ∈ st.interstate.keys ∨ k ∈ r.definedSymbols := by
  have hedges : ∀ (es : List InterstateEdge) (st' : SymbolInference),
      k ∈ (es.foldl edge st').interstate.keys ↔
        k ∈ st'.interstate.keys ∨ k ∈ es.flatMap (·.definedSymbols) := by
    intro es
    induction es with
    | nil => simp
    | cons e es ih => simp [ih, mem_keys_edge, or_assoc]
  unfold SymbolInference.region ControlFlowRegion.definedSymbols
  split <;> simp [hedges, mem_keys_loopHeader, *, or_assoc]

end SymbolInference

/-- The loop over the regions keeps the invariant, and the types of the table it starts
    from. -/
theorem inferInterstateSymbols_invariant (src : SymbolSource) :
    (inferInterstateSymbols src).Consistent ∧
      (inferInterstateSymbols src).global.KeepsTypes src.initialGlobal := by
  suffices h : ∀ (rs : List ControlFlowRegion) (st : SymbolInference), st.Consistent →
      (rs.foldl SymbolInference.region st).Consistent ∧
        (rs.foldl SymbolInference.region st).global.KeepsTypes st.global from
    h src.regions ⟨[], src.initialGlobal⟩ ⟨(fun _ _ h => by cases h), List.nodup_nil⟩
  intro rs
  induction rs with
  | nil => exact fun st hc => ⟨hc, SymbolTable.KeepsTypes.refl _⟩
  | cons r rs ih =>
    intro st hc
    obtain ⟨hc', hk'⟩ := SymbolInference.region_spec hc r
    obtain ⟨hc'', hk''⟩ := ih _ hc'
    exact ⟨hc'', hk''.trans hk'⟩

/-- **The inference never overrides a declared type.**  After the loop over the control-flow
    regions, `interstate_symbols` has distinct keys, and a symbol or array that
    `sdfg.symbols` or `sdfg.arrays` types (with a type other than `None`) keeps that type in
    `global_symbols`, and has it in `interstate_symbols` if it is there: a loop variable
    takes the table's type, and the types inferred on edges lose to it. -/
theorem inferInterstateSymbols_keeps_declared (src : SymbolSource) :
    (inferInterstateSymbols src).interstate.keys.Nodup ∧
    ∀ k t, src.initialGlobal.getItem? k = some (some t) →
      (inferInterstateSymbols src).global.getItem? k = some (some t) ∧
      ∀ v, (inferInterstateSymbols src).interstate.getItem? k = some v → v = some t := by
  obtain ⟨⟨hag, hnd⟩, hkeep⟩ := inferInterstateSymbols_invariant src
  refine ⟨hnd, fun k t hk => ⟨hkeep k t hk, fun v hv => ?_⟩⟩
  simpa [hkeep k t hk] using (hag k v hv).symm

/-! ### The declarations -/

/-- Where the SDFG sits and how it is scheduled, as the declaration loop reads it. -/
structure CodeContext where
  /-- `None` at the top level (`sdfg.parent is None`), else the keys of
      `sdfg.parent_nsdfg_node.symbol_mapping` -/
  symbolMapping : Option (List String) := none
  /-- `sdfg.arglist()` -/
  arglist : List String := []
  /-- `schedule in (FPGA_Device, FPGA_Multi_Pumped)` with the `intel_fpga` vendor -/
  intelFpga : Bool := false

/-- `outside_symbols`: the arguments of the top-level function, none in a nested SDFG. -/
def CodeContext.outsideSymbols (c : CodeContext) : List String :=
  if c.symbolMapping.isNone then c.arglist else []

/-- Whether the parent's symbol mapping defines `name` (`not is_top_level and name in
    sdfg.parent_nsdfg_node.symbol_mapping`). -/
def CodeContext.mapped (c : CodeContext) (name : String) : Bool :=
  c.symbolMapping.any fun m => decide (name ∈ m)

/-- A declared symbol: written as `ocltype name;` for an Intel FPGA schedule, else as
    `isvar.as_arg(with_types=True, name=name);`, and added to `defined_vars` as a scalar. -/
structure SymbolDecl where
  name : String
  type : Ty
  opencl : Bool
  deriving DecidableEq, Repr

/-- One iteration of the loop over `interstate_symbols.items()`. -/
def declareSymbol (c : CodeContext) (decls : List SymbolDecl) (e : String × Option Ty) :
    Except PyError (List SymbolDecl) :=
  match e.2 with
  | none => .error (.typeError ("Type inference failed for symbol " ++ e.1))
  | some t =>
    if c.mapped e.1 then .ok decls
    else if c.intelFpga then .ok (decls ++ [⟨e.1, t, true⟩])
    else if e.1 ∉ c.outsideSymbols then .ok (decls ++ [⟨e.1, t, false⟩])
    else .ok decls

/-- The declaration loop of `generate_code`. -/
def declareInterstateSymbols (c : CodeContext) (interstate : SymbolTable) :
    Except PyError (List SymbolDecl) :=
  interstate.foldlM (declareSymbol c) []

/-- The interstate symbols of `generate_code`: the inference, then the declarations. -/
def generateInterstateDeclarations (src : SymbolSource) (c : CodeContext) :
    Except PyError (List SymbolDecl) :=
  declareInterstateSymbols c (inferInterstateSymbols src).interstate

/-- What the loop requires of a symbol it declares: the parent does not map it, it is
    written for OpenCL exactly on an Intel FPGA schedule, and otherwise it is no argument
    of the function. -/
structure CodeContext.Admits (c : CodeContext) (d : SymbolDecl) : Prop where
  not_mapped : c.mapped d.name = false
  opencl_eq : d.opencl = c.intelFpga
  not_outside : c.intelFpga = false → d.name ∉ c.outsideSymbols

theorem declareSymbol_ok {c : CodeContext} {decls r : List SymbolDecl} {e : String × Option Ty}
    (h : declareSymbol c decls e = .ok r) :
    ∃ t, e.2 = some t ∧
      ((r = decls ∧ (c.mapped e.1 = true ∨ (c.intelFpga = false ∧ e.1 ∈ c.outsideSymbols))) ∨
        ∃ d, r = decls ++ [d] ∧ d.name = e.1 ∧ d.type = t ∧ c.Admits d) := by
  obtain ⟨k, _ | t⟩ := e
  · cases h
  refine ⟨t, rfl, ?_⟩
  simp only [declareSymbol] at h
  by_cases hm : c.mapped k = true
  · -- mapped by the parent: skipped
    rw [if_pos hm] at h
    cases h
    exact .inl ⟨rfl, .inl hm⟩
  rw [if_neg hm] at h
  by_cases hf : c.intelFpga = true
  · rw [if_pos hf] at h
    cases h
    exact .inr ⟨_, rfl, rfl, rfl, ⟨by simpa using hm, hf.symm, by simp [hf]⟩⟩
  rw [if_neg hf] at h
  split_ifs at h with ho <;> cases h
  · -- an argument of the top-level function: skipped
    exact .inl ⟨rfl, .inr ⟨by simpa using hf, ho⟩⟩
  · exact .inr ⟨_, rfl, rfl, rfl, ⟨by simpa using hm, by simpa using hf, fun _ => ho⟩⟩

theorem declareSymbol_error {c : CodeContext} {decls : List SymbolDecl}
    {e : String × Option Ty} {err : PyError} (h : declareSymbol c decls e = .error err) :
    e.2 = none ∧ err = .typeError ("Type inference failed for symbol " ++ e.1) := by
  obtain ⟨k, _ | t⟩ := e
  · cases h
    exact ⟨rfl, rfl⟩
  · simp only [declareSymbol] at h
    split_ifs at h

/-- The declaration loop, from the declarations `acc`, declares a sublist of the names, each
    with its type in the table and admitted by the context, and skips only a name the
    parent maps or an argument of the function. -/
theorem declareSymbols_ok {c : CodeContext} :
    ∀ {l : SymbolTable} {acc r : List SymbolDecl}, l.foldlM (declareSymbol c) acc = .ok r →
      (∀ e ∈ l, e.2.isSome) ∧ ∃ ds, r = acc ++ ds ∧ (ds.map (·.name)).Sublist l.keys ∧
        (∀ d ∈ ds, (d.name, some d.type) ∈ l ∧ c.Admits d) ∧
        ∀ e ∈ l, (∃ d ∈ ds, d.name = e.1) ∨ c.mapped e.1 = true ∨
          (c.intelFpga = false ∧ e.1 ∈ c.outsideSymbols)
  | [], acc, r, h => by
    cases h
    exact ⟨fun _ h => absurd h (List.not_mem_nil _), [], by simp, .slnil,
      fun _ h => absurd h (List.not_mem_nil _), fun _ h => absurd h (List.not_mem_nil _)⟩
  | e :: l, acc, r, h => by
    rw [List.foldlM_cons] at h
    obtain ⟨acc', h₁, h₂⟩ := Except.bind_eq_ok.1 h
    obtain ⟨hall, ds, rfl, hsub, hds, hcov⟩ := declareSymbols_ok h₂
    obtain ⟨t, ht, ⟨rfl, hskip⟩ | ⟨d, rfl, hn, hty, hd⟩⟩ := declareSymbol_ok h₁
    all_goals refine ⟨List.forall_mem_cons.2 ⟨by simp [ht], hall⟩, ?_⟩
    · -- `e` skipped
      refine ⟨ds, rfl, hsub.cons _, fun d h => ⟨List.mem_cons_of_mem _ (hds d h).1, (hds d h).2⟩,
        List.forall_mem_cons.2 ⟨.inr hskip, hcov⟩⟩
    · -- `e` declared as `d`
      refine ⟨d :: ds, by simp, by simpa [PyDict.keys, hn] using hsub, ?_,
        List.forall_mem_cons.2 ⟨.inl ⟨d, List.mem_cons_self _ _, hn⟩, fun e' he' => ?_⟩⟩
      · intro d' hd'
        rcases List.mem_cons.1 hd' with hdd | h
        · have he : (d.name, some d.type) = e := Prod.ext hn (by rw [ht, hty])
          exact hdd ▸ ⟨he ▸ List.mem_cons_self _ _, hd⟩
        · exact ⟨List.mem_cons_of_mem _ (hds d' h).1, (hds d' h).2⟩
      · rcases hcov e' he' with ⟨d', hd', hn'⟩ | hskip
        · exact .inl ⟨d', List.mem_cons_of_mem _ hd', hn'⟩
        · exact .inr hskip

/-- The declaration loop runs through a table whose symbols all have types. -/
theorem declareSymbols_typed {c : CodeContext} :
    ∀ {l : SymbolTable}, (∀ e ∈ l, e.2.isSome) → ∀ acc : List SymbolDecl,
      ∃ r, l.foldlM (declareSymbol c) acc = .ok r
  | [], _, acc => ⟨acc, rfl⟩
  | e :: l, h, acc => by
    obtain ⟨k, _ | t⟩ := e
    · simp at h
    have hstep : ∃ acc', declareSymbol c acc (k, some t) = .ok acc' := by
      simp only [declareSymbol]
      split_ifs <;> exact ⟨_, rfl⟩
    obtain ⟨acc', hacc'⟩ := hstep
    obtain ⟨r, hr⟩ := declareSymbols_typed (fun e he => h e (List.mem_cons_of_mem _ he)) acc'
    exact ⟨r, by rw [List.foldlM_cons, hacc']; exact hr⟩

/-- **The declarations raise exactly for a symbol left without a type.**  The interstate
    part of `generate_code` succeeds exactly when the inference gave every interstate symbol
    a type; otherwise it raises `TypeError('Type inference failed for symbol ...')` naming
    such a symbol, also one the parent maps or the function takes as an argument, since the
    test comes before those are skipped. -/
theorem generateInterstateDeclarations_ok_iff (src : SymbolSource) (c : CodeContext) :
    ((∃ decls, generateInterstateDeclarations src c = .ok decls) ↔
      ∀ e ∈ (inferInterstateSymbols src).interstate, e.2.isSome) ∧
    ∀ err, generateInterstateDeclarations src c = .error err →
      ∃ k, (k, none) ∈ (inferInterstateSymbols src).interstate ∧
        err = .typeError ("Type inference failed for symbol " ++ k) := by
  refine ⟨⟨fun ⟨_, h⟩ => (declareSymbols_ok h).1, fun h => declareSymbols_typed h []⟩,
    fun err h => ?_⟩
  obtain ⟨_, e, he, h⟩ := foldlM_except_error _ _ h
  obtain ⟨hnone, rfl⟩ := declareSymbol_error h
  exact ⟨e.1, by rw [← hnone]; exact he, rfl⟩

/-- Without a type for `i`, a nested SDFG whose parent maps `i` still raises. -/
example : generateInterstateDeclarations
      { regions := [{ loop := some ⟨"i", fun _ => none⟩ }] } { symbolMapping := some ["i"] } =
    .error (.typeError "Type inference failed for symbol i") := rfl

/-- **What `generate_code` declares.**  Each interstate symbol is declared at most once,
    with the type of its interstate entry, which is the type `sdfg.symbols` or `sdfg.arrays`
    gives it when they give one; a symbol the parent maps is never declared, and outside an
    Intel FPGA schedule neither is an argument of the top-level function. -/
theorem generateInterstateDeclarations_spec (src : SymbolSource) (c : CodeContext)
    {decls : List SymbolDecl} (h : generateInterstateDeclarations src c = .ok decls) :
    (decls.map (·.name)).Nodup ∧
    ∀ d ∈ decls, c.Admits d ∧ (d.name, some d.type) ∈ (inferInterstateSymbols src).interstate ∧
      ∀ t, src.initialGlobal.getItem? d.name = some (some t) → d.type = t := by
  obtain ⟨⟨hag, hnd⟩, hkeep⟩ := inferInterstateSymbols_invariant src
  obtain ⟨-, ds, rfl, hsub, hds, -⟩ := declareSymbols_ok h
  refine ⟨(hsub.nodup hnd), fun d hd => ⟨(hds d hd).2, (hds d hd).1, fun t ht => ?_⟩⟩
  have hI := PyDict.getItem?_of_mem hnd (hds d hd).1
  simpa [hkeep _ _ ht] using (hag _ _ hI).symm

/-- A loop over `i` and an edge assigning `N` and `j`, with `N` declared `int` and taken
    as an argument of the top-level function. -/
def loopSource : SymbolSource where
  symbols := [("N", some "int")]
  regions := [{ loop := some ⟨"i", fun _ => some "long long"⟩,
                edges := [⟨["N", "j"], fun _ k => if k = "N" then some "long long"
                  else some "double"⟩] }]

/-- `N` keeps `int` against the edge's `long long` and is not declared, being an argument;
    `i` and `j` are declared once each, with the types inferred for them. -/
theorem generateInterstateDeclarations_loopSource :
    generateInterstateDeclarations loopSource { arglist := ["N"] } =
        .ok [⟨"i", "long long", false⟩, ⟨"j", "double", false⟩] ∧
      ("N", some "int") ∈ (inferInterstateSymbols loopSource).interstate ∧
      ["i", "j"].Nodup :=
  have h : generateInterstateDeclarations loopSource { arglist := ["N"] } =
      .ok [⟨"i", "long long", false⟩, ⟨"j", "double", false⟩] := rfl
  ⟨h, by decide, (generateInterstateDeclarations_spec loopSource { arglist := ["N"] } h).1⟩

/-- `interstate_symbols` holds exactly the symbols the regions define. -/
theorem mem_keys_inferInterstateSymbols (src : SymbolSource) (k : String) :
    k ∈ (inferInterstateSymbols src).interstate.keys ↔
      ∃ r ∈ src.regions, k ∈ r.definedSymbols := by
  suffices h : ∀ (rs : List ControlFlowRegion) (st : SymbolInference),
      k ∈ (rs.foldl SymbolInference.region st).interstate.keys ↔
        k ∈ st.interstate.keys ∨ ∃ r ∈ rs, k ∈ r.definedSymbols by
    simpa [inferInterstateSymbols, PyDict.keys] using h src.regions ⟨[], src.initialGlobal⟩
  intro rs
  induction rs with
  | nil => simp
  | cons r rs ih =>
    intro st
    simp [ih, SymbolInference.mem_keys_region, or_assoc]

/-- **Every symbol the control flow defines is declared or skipped for a reason.**
    `interstate_symbols` holds exactly the loop variables and the symbols the interstate
    edges define; when the interstate part of `generate_code` succeeds, each of them is
    declared, or is mapped by the parent, or, outside an Intel FPGA schedule, is an argument
    of the top-level function. -/
theorem generateInterstateDeclarations_complete (src : SymbolSource) (c : CodeContext)
    {decls : List SymbolDecl} (h : generateInterstateDeclarations src c = .ok decls) :
    (∀ k, k ∈ (inferInterstateSymbols src).interstate.keys ↔
      ∃ r ∈ src.regions, k ∈ r.definedSymbols) ∧
    ∀ r ∈ src.regions, ∀ k ∈ r.definedSymbols, (∃ d ∈ decls, d.name = k) ∨
      c.mapped k = true ∨ (c.intelFpga = false ∧ k ∈ c.outsideSymbols) := by
  refine ⟨mem_keys_inferInterstateSymbols src, fun r hr k hk => ?_⟩
  obtain ⟨-, ds, rfl, -, -, hcov⟩ := declareSymbols_ok h
  obtain ⟨e, he, rfl⟩ := List.mem_map.1 ((mem_keys_inferInterstateSymbols src k).2 ⟨r, hr, hk⟩)
  simpa using hcov e he

/-- In `loopSource`, `N`, defined on the edge, is skipped as an argument. -/
theorem generateInterstateDeclarations_complete_loopSource :
    generateInterstateDeclarations loopSource { arglist := ["N"] } =
        .ok [⟨"i", "long long", false⟩, ⟨"j", "double", false⟩] ∧
      ((∃ d ∈ [(⟨"i", "long long", false⟩ : SymbolDecl), ⟨"j", "double", false⟩],
          d.name = "N") ∨
        CodeContext.mapped { arglist := ["N"] } "N" = true ∨
        (CodeContext.intelFpga { arglist := ["N"] } = false ∧
          "N" ∈ CodeContext.outsideSymbols { arglist := ["N"] })) :=
  have h : generateInterstateDeclarations loopSource { arglist := ["N"] } =
      .ok [⟨"i", "long long", false⟩, ⟨"j", "double", false⟩] := rfl
  ⟨h, (generateInterstateDeclarations_complete loopSource { arglist := ["N"] } h).2 _
    (List.mem_cons_self _ _) "N" (by decide)⟩

end DaceLowering
