import DaceLowering.InterstateSymbols

/-!
# The symbols and constants of each SDFG

`DaCeCodeGenerator.__init__` computes for every SDFG of the program the names that count as
known inside it, `symbols_and_constants(sdfg)`, which the planner reads as `fsymbols`: for
the top-level SDFG its free symbols and the names of its constants; for a nested SDFG, met
at its `NestedSDFG` node in `all_nodes_recursive()` order, its own free symbols and
constants, every name of the SDFG around it, and the connector of each input edge that
carries one of those names.  The sets live in a dict keyed by `cfg_id`, where the set of the
SDFG around is looked up.  That lookup finds the right set because `all_nodes_recursive()`
yields a nested SDFG's node before anything inside it, and because `reset_cfg_list()` has
just made the ids distinct: the walk then computes the sets the nesting defines
(`resolveSymbolsAndConstants_eq_sets`).

`__init__` also asks `free_symbols` for the top-level SDFG, a method that caches its
answers in `self.fsyms` by `id(obj)`; the cache gives back what the uncached computation
would as long as the ids tell the objects apart (`freeSymbolsCalls_eq_map`).

Sets of names are lists; only their members matter.
-/

namespace DaceLowering

/-- An SDFG as `__init__` walks it: its `cfg_id`, its `free_symbols`, the names of its
    `constants_prop`, the `(edge.data.data, edge.dst_conn)` of each input edge of its
    `NestedSDFG` node (unused for the top-level SDFG), and the SDFGs of the `NestedSDFG`
    nodes of its states, in `all_nodes_recursive()` order. -/
inductive SDFGNest where
  | mk (cfgId : Nat) (freeSymbols constants : List String)
      (inputs : List (Option String × String)) (nested : List SDFGNest)
  deriving Repr

/-- `_symbols_and_constants`: a set of names per `cfg_id`. -/
abbrev SymbolSets := PyDict Nat (List String)

/-- The set of a nested SDFG: `nsdfg.free_symbols.union(nsdfg.constants_prop.keys())`, then
    `result |= parent_constants`, then `result.add(edge.dst_conn)` for each input edge whose
    `edge.data.data in parent_constants`. -/
def nestedSymbols (free consts : List String) (inputs : List (Option String × String))
    (parentConstants : List String) : List String :=
  free ∪ consts ∪ parentConstants ++
    inputs.filterMap fun e => if e.1.any (· ∈ parentConstants) then some e.2 else none

mutual
/-- The loop body of `__init__` at the `NestedSDFG` node of `g`, inside the SDFG with id
    `parent`, and the rest of `all_nodes_recursive()` inside `g`. -/
def SDFGNest.resolve (parent : Nat) (sc : SymbolSets) : SDFGNest → Except PyError SymbolSets
  | .mk cfg free consts inputs nested =>
    match sc.getItem? parent with
    | none => .error .keyError
    | some parentConstants =>
      resolveNested cfg (sc.setItem cfg (nestedSymbols free consts inputs parentConstants))
        nested

/-- The nested SDFGs of the SDFG with id `parent`, one after the other. -/
def resolveNested (parent : Nat) (sc : SymbolSets) : List SDFGNest → Except PyError SymbolSets
  | [] => .ok sc
  | g :: gs => g.resolve parent sc >>= fun sc => resolveNested parent sc gs
end

/-- The part of `DaCeCodeGenerator.__init__` that fills `_symbols_and_constants`: the root,
    then every nested SDFG. -/
def resolveSymbolsAndConstants : SDFGNest → Except PyError SymbolSets
  | .mk cfg free consts _ nested =>
    resolveNested cfg (PyDict.setItem [] cfg (free ∪ consts)) nested

/-! ### The sets the nesting defines -/

mutual
/-- `(cfg_id, set)` for `g` and every SDFG inside it, in `all_nodes_recursive()` order, when
    the SDFG around `g` has the set `outer`. -/
def SDFGNest.sets (outer : List String) : SDFGNest → SymbolSets
  | .mk cfg free consts inputs nested =>
    let own := nestedSymbols free consts inputs outer
    (cfg, own) :: setsNested own nested

def setsNested (outer : List String) : List SDFGNest → SymbolSets
  | [] => []
  | g :: gs => g.sets outer ++ setsNested outer gs
end

/-- The free symbols and constants of the top-level SDFG. -/
def SDFGNest.rootSymbols : SDFGNest → List String
  | .mk _ free consts _ _ => free ∪ consts

/-- The sets of the whole program, the top-level SDFG first. -/
def SDFGNest.rootSets : SDFGNest → SymbolSets
  | .mk cfg free consts _ nested => (cfg, free ∪ consts) :: setsNested (free ∪ consts) nested

mutual
/-- The ids of `g` and of every SDFG inside it. -/
def SDFGNest.cfgIds : SDFGNest → List Nat
  | .mk cfg _ _ _ nested => cfg :: cfgIdsNested nested

def cfgIdsNested : List SDFGNest → List Nat
  | [] => []
  | g :: gs => g.cfgIds ++ cfgIdsNested gs
end

theorem subset_nestedSymbols (free consts : List String) (inputs : List (Option String × String))
    (outer : List String) : outer ⊆ nestedSymbols free consts inputs outer :=
  fun _ h => List.mem_append_left _ (List.mem_union_iff.2 (.inr h))

mutual
theorem SDFGNest.keys_sets (outer : List String) :
    ∀ g : SDFGNest, (g.sets outer).keys = g.cfgIds
  | .mk cfg free consts inputs nested => by
    simp only [SDFGNest.sets, SDFGNest.cfgIds, PyDict.keys, List.map_cons]
    exact congrArg _ (keys_setsNested _ nested)

theorem keys_setsNested (outer : List String) :
    ∀ gs : List SDFGNest, (setsNested outer gs).keys = cfgIdsNested gs
  | [] => rfl
  | g :: gs => by
    rw [setsNested, cfgIdsNested, PyDict.keys_append, SDFGNest.keys_sets, keys_setsNested]
end

mutual
/-- Every SDFG inside `g`, `g` included, knows every name of the SDFG around `g`. -/
theorem SDFGNest.sets_mono (outer : List String) :
    ∀ g : SDFGNest, ∀ e ∈ g.sets outer, outer ⊆ e.2
  | .mk cfg free consts inputs nested => by
    intro e he
    simp only [SDFGNest.sets, List.mem_cons] at he
    rcases he with rfl | he
    · exact subset_nestedSymbols free consts inputs outer
    · exact (subset_nestedSymbols free consts inputs outer).trans (setsNested_mono _ nested e he)

theorem setsNested_mono (outer : List String) :
    ∀ gs : List SDFGNest, ∀ e ∈ setsNested outer gs, outer ⊆ e.2
  | [] => fun _ h => absurd h (List.not_mem_nil _)
  | g :: gs => by
    intro e he
    rcases List.mem_append.1 he with he | he
    · exact SDFGNest.sets_mono outer g e he
    · exact setsNested_mono outer gs e he
end

/-! ### The walk computes them -/

namespace PyDict

variable {κ ν : Type} [DecidableEq κ]

theorem update_cons (d : PyDict κ ν) (kv : κ × ν) (e : PyDict κ ν) :
    d.update (kv :: e) = (d.setItem kv.1 kv.2).update e := rfl

theorem update_append (d e₁ e₂ : PyDict κ ν) : d.update (e₁ ++ e₂) = (d.update e₁).update e₂ :=
  List.foldl_append _ _ _ _

theorem getItem?_update_of_not_mem {d e : PyDict κ ν} {x : κ} (hx : x ∉ e.keys) :
    (d.update e).getItem? x = d.getItem? x := by
  induction e generalizing d with
  | nil => rfl
  | cons kv e ih =>
    simp only [keys, List.map_cons, List.mem_cons, not_or] at hx
    rw [update_cons, ih hx.2, getItem?_setItem, if_neg (Ne.symm hx.1)]

theorem setItem_of_not_mem {d : PyDict κ ν} {x : κ} (hx : x ∉ d.keys) (v : ν) :
    d.setItem x v = d ++ [(x, v)] := by
  induction d with
  | nil => rfl
  | cons kw rest ih =>
    obtain ⟨k, w⟩ := kw
    simp only [keys, List.map_cons, List.mem_cons, not_or] at hx
    simp only [setItem, if_neg (Ne.symm hx.1), List.cons_append, ← ih hx.2]

/-- Updating with new, distinct keys appends. -/
theorem update_eq_append {d e : PyDict κ ν} (h : (d.keys ++ e.keys).Nodup) :
    d.update e = d ++ e := by
  induction e generalizing d with
  | nil => simp [update]
  | cons kv e ih =>
    have hx : kv.1 ∉ d.keys := fun hx => by
      simp only [keys, List.map_cons] at h
      exact (List.nodup_append.1 h).2.2 hx (List.mem_cons_self _ _)
    rw [update_cons, setItem_of_not_mem hx, ih, List.append_assoc]
    · rfl
    · have hk : (d ++ [(kv.1, kv.2)]).keys ++ keys e = d.keys ++ keys (kv :: e) := by simp [keys]
      rwa [hk]

end PyDict

mutual
/-- The walk inside `g`, from a dict where the SDFG around `g` has the set `outer`,
    records the sets of `g` and of the SDFGs inside it, in order. -/
theorem SDFGNest.resolve_eq {parent : Nat} {outer : List String} {sc : SymbolSets}
    (hp : sc.getItem? parent = some outer) :
    ∀ g : SDFGNest, g.cfgIds.Nodup → parent ∉ g.cfgIds →
      g.resolve parent sc = .ok (sc.update (g.sets outer))
  | .mk cfg free consts inputs nested, hnd, _ => by
    simp only [SDFGNest.cfgIds, List.nodup_cons] at hnd
    simp only [SDFGNest.resolve, hp, SDFGNest.sets, PyDict.update_cons]
    exact resolveNested_eq (by simp) _ hnd.2 hnd.1

theorem resolveNested_eq {parent : Nat} {outer : List String} {sc : SymbolSets}
    (hp : sc.getItem? parent = some outer) :
    ∀ gs : List SDFGNest, (cfgIdsNested gs).Nodup → parent ∉ cfgIdsNested gs →
      resolveNested parent sc gs = .ok (sc.update (setsNested outer gs))
  | [], _, _ => rfl
  | g :: gs, hnd, hpar => by
    simp only [cfgIdsNested, List.nodup_append, List.mem_append, not_or] at hnd hpar
    have hg := SDFGNest.resolve_eq hp g hnd.1 hpar.1
    -- the walk inside `g` leaves the set of the SDFG around it in place
    have hp' : (sc.update (g.sets outer)).getItem? parent = some outer := by
      rw [PyDict.getItem?_update_of_not_mem (by rw [SDFGNest.keys_sets]; exact hpar.1), hp]
    simp only [resolveNested, hg, setsNested, PyDict.update_append]
    exact resolveNested_eq hp' gs hnd.2.1 hpar.2
end

/-- **`__init__` computes the sets the nesting defines.**  When the `cfg_id`s of the
    program are distinct, filling `_symbols_and_constants` in `all_nodes_recursive()` order
    raises no `KeyError` and gives, in order, the top-level SDFG its free symbols and
    constants and every nested SDFG the set `SDFGNest.sets` defines from the SDFG around it;
    each SDFG's set holds every name of the top-level SDFG. -/
theorem resolveSymbolsAndConstants_eq_sets (g : SDFGNest) (h : g.cfgIds.Nodup) :
    resolveSymbolsAndConstants g = .ok g.rootSets ∧ g.rootSets.keys = g.cfgIds ∧
      ∀ e ∈ g.rootSets, g.rootSymbols ⊆ e.2 := by
  obtain ⟨cfg, free, consts, inputs, nested⟩ := g
  simp only [SDFGNest.cfgIds, List.nodup_cons] at h
  have hkeys : (setsNested (free ∪ consts) nested).keys = cfgIdsNested nested :=
    keys_setsNested _ nested
  refine ⟨?_, congrArg (cfg :: ·) hkeys, ?_⟩
  · have hp : (PyDict.setItem ([] : SymbolSets) cfg (free ∪ consts)).getItem? cfg =
        some (free ∪ consts) := by simp
    simp only [resolveSymbolsAndConstants, SDFGNest.rootSets]
    rw [resolveNested_eq hp _ h.2 h.1, PyDict.update_eq_append]
    · rfl
    · show ([cfg] ++ (setsNested (free ∪ consts) nested).keys).Nodup
      rw [hkeys]
      exact List.nodup_cons.2 h
  · simp only [SDFGNest.rootSets, SDFGNest.rootSymbols, List.mem_cons]
    rintro e (rfl | he)
    · exact List.Subset.refl _
    · exact setsNested_mono _ nested e he

/-- A top-level SDFG `0` with symbol `N` and constant `C`, holding a nested SDFG `1` whose
    connector `c` is fed from `C`, and which holds a nested SDFG `2`. -/
def threeLevels : SDFGNest :=
  .mk 0 ["N"] ["C"] [] [.mk 1 ["M"] [] [(some "C", "c"), (some "A", "a")] [.mk 2 [] [] [] []]]

/-- Ids `0`, `1` and `2` are distinct: `1` knows `N`, `C`, its own `M` and the connector `c`,
    and `2` inherits all of them. -/
theorem resolveSymbolsAndConstants_threeLevels :
    resolveSymbolsAndConstants threeLevels =
        .ok [(0, ["N", "C"]), (1, ["M", "N", "C", "c"]), (2, ["M", "N", "C", "c"])] ∧
      threeLevels.rootSets.keys = [0, 1, 2] :=
  have h := resolveSymbolsAndConstants_eq_sets threeLevels (by decide)
  ⟨h.1.trans rfl, h.2.1⟩

/-- With the id `0` of the top-level SDFG reused inside SDFG `1`, the set of `2` overwrites
    it, and SDFG `3`, met next, inherits `2`'s symbol `K` instead of the top level's. -/
example : resolveSymbolsAndConstants
      (.mk 0 ["N"] [] [] [.mk 1 [] [] [] [.mk 0 ["K"] [] [] []], .mk 3 [] [] [] []]) =
    .ok [(0, ["K", "N"]), (1, ["N"]), (3, ["K", "N"])] := rfl

/-! ### The free-symbol cache -/

/-- An object `free_symbols` is asked about: its `id()`, what
    `obj.used_symbols(all_symbols=False)` returns when the object has that method, and
    `obj.free_symbols`. -/
structure SymbolObject where
  id : Nat
  usedSymbols : Option (List String) := none
  freeSymbols : List String := []
  deriving DecidableEq, Repr

/-- What `free_symbols` computes on a miss. -/
def SymbolObject.symbols (o : SymbolObject) : List String := o.usedSymbols.getD o.freeSymbols

/-- `DaCeCodeGenerator.free_symbols(obj)` with its cache `self.fsyms`, keyed by `id(obj)`:
    the answer and the cache after the call. -/
def freeSymbols (fsyms : PyDict Nat (List String)) (o : SymbolObject) :
    List String × PyDict Nat (List String) :=
  match fsyms.getItem? o.id with
  | some r => (r, fsyms)
  | none => (o.symbols, fsyms.setItem o.id o.symbols)

/-- Successive calls of `free_symbols`: the answers, and the final cache. -/
def freeSymbolsCalls (fsyms : PyDict Nat (List String)) :
    List SymbolObject → List (List String) × PyDict Nat (List String)
  | [] => ([], fsyms)
  | o :: os =>
    let r := freeSymbols fsyms o
    let rest := freeSymbolsCalls r.2 os
    (r.1 :: rest.1, rest.2)

/-- Every entry of the cache is what its key's object computes. -/
def CacheFaithful (objs : List SymbolObject) (fsyms : PyDict Nat (List String)) : Prop :=
  ∀ k r, fsyms.getItem? k = some r → ∃ o ∈ objs, o.id = k ∧ r = o.symbols

/-- The ids of `objs` tell them apart. -/
def IdsDistinct (objs : List SymbolObject) : Prop :=
  ∀ o ∈ objs, ∀ o' ∈ objs, o.id = o'.id → o = o'

/-- One call answers what its object computes and keeps the cache faithful. -/
theorem freeSymbols_spec {objs : List SymbolObject} {fsyms : PyDict Nat (List String)}
    (hc : CacheFaithful objs fsyms) (hd : IdsDistinct objs) {o : SymbolObject} (ho : o ∈ objs) :
    (freeSymbols fsyms o).1 = o.symbols ∧ CacheFaithful objs (freeSymbols fsyms o).2 := by
  unfold freeSymbols
  split
  · rename_i r hr
    obtain ⟨o', ho', hid, rfl⟩ := hc _ _ hr
    exact ⟨by rw [hd o' ho' o ho hid], hc⟩
  · refine ⟨rfl, fun k r hk => ?_⟩
    rw [PyDict.getItem?_setItem] at hk
    split_ifs at hk with hko
    · exact ⟨o, ho, hko, (Option.some.inj hk).symm⟩
    · exact hc k r hk

/-- **The cache never changes an answer.**  When the ids of the objects asked about tell
    them apart, successive calls of `free_symbols` from an empty cache answer exactly what
    the uncached computation gives for each object, repeated objects included. -/
theorem freeSymbolsCalls_eq_map (os : List SymbolObject) (hd : IdsDistinct os) :
    (freeSymbolsCalls [] os).1 = os.map SymbolObject.symbols := by
  suffices h : ∀ (l : List SymbolObject) (fsyms : PyDict Nat (List String)), l ⊆ os →
      CacheFaithful os fsyms → (freeSymbolsCalls fsyms l).1 = l.map SymbolObject.symbols from
    h os [] (List.Subset.refl _) fun _ _ h => by cases h
  intro l
  induction l with
  | nil => exact fun _ _ _ => rfl
  | cons o l ih =>
    intro fsyms hl hc
    obtain ⟨hr, hc'⟩ := freeSymbols_spec hc hd (hl (List.mem_cons_self _ _))
    simp only [freeSymbolsCalls, List.map_cons, hr,
      ih _ (fun _ h => hl (List.mem_cons_of_mem _ h)) hc']

/-- A state and an SDFG asked about twice each: the second answers come from the cache
    and equal the first. -/
theorem freeSymbolsCalls_twice :
    IdsDistinct [⟨1, some ["N"], ["N", "M"]⟩, ⟨2, none, ["K"]⟩,
        ⟨1, some ["N"], ["N", "M"]⟩, ⟨2, none, ["K"]⟩] ∧
      (freeSymbolsCalls [] [⟨1, some ["N"], ["N", "M"]⟩, ⟨2, none, ["K"]⟩,
        ⟨1, some ["N"], ["N", "M"]⟩, ⟨2, none, ["K"]⟩]).1 = [["N"], ["K"], ["N"], ["K"]] :=
  have hd : IdsDistinct [⟨1, some ["N"], ["N", "M"]⟩, ⟨2, none, ["K"]⟩,
      ⟨1, some ["N"], ["N", "M"]⟩, ⟨2, none, ["K"]⟩] := by
    simp [IdsDistinct]
  ⟨hd, freeSymbolsCalls_eq_map _ hd⟩

end DaceLowering
