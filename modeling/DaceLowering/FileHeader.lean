import Mathlib.Data.List.Nodup

/-!
# Custom type definitions in the file header

Before the constants and the state struct, `DaCeCodeGenerator.generate_fileheader` writes
the definition of every custom data type that the containers use.  It collects the dtypes
of `arrays_recursive()` into the set `datatypes` and calls `_emit_definitions` on each.
`_emit_definitions` walks a dtype depth first.  It visits the pointer target, or the struct
fields in order, and then the dtype itself, which it writes when it has `emit_definition`
and is not yet in the set `emitted`.

Both sets hold `dace.dtypes.typeclass` objects, which are equal when their `ctype`s are
(`typeclass.__eq__`, with the hash of `(type, ctype)`), so two structs of one name are one
element of either set, whatever their fields.  The model keys both sets by a `ctype`
function.  Python does not fix the order in which a set is iterated, so the loop runs over
the elements of `datatypes` in any order.

Every type with `emit_definition` that an element of `datatypes` reaches gets one
definition of its `ctype`, written after those of the types its own fields or pointer
target reach (`emitUniqueDefinitions_covers`).  When no two different types that the
containers' dtypes reach share a `ctype`, this is one definition of each such type
(`emitUniqueDefinitions_spec`).  Otherwise `datatypes` keeps the first of two structs of one
name only, and a type that only the other one reaches is never written.
-/

namespace DaceLowering

/-- A `dtypes.typeclass` as `_emit_definitions` sees it: a `pointer` to its `_typeclass`, a
    `struct` with the values of its `fields` in order, or any other typeclass.  A value is a
    finite tree, so the nesting is acyclic, and a sub-type that several types share is an
    equal subtree of each. -/
inductive DType where
  | pointer (typeclass : DType)
  | struct (name : String) (fields : List DType)
  | other (name : String)
  deriving Repr

mutual
/-- Structural equality of dtypes.  The sets of the section compare by `ctype` instead. -/
def DType.decEq : (a b : DType) → Decidable (a = b)
  | .pointer a, .pointer b =>
    match DType.decEq a b with
    | isTrue h => isTrue (h ▸ rfl)
    | isFalse h => isFalse fun e => h (DType.pointer.inj e)
  | .struct n fs, .struct m gs =>
    if hn : n = m then
      match DType.decEqList fs gs with
      | isTrue hf => isTrue (hn ▸ hf ▸ rfl)
      | isFalse hf => isFalse fun e => hf (DType.struct.inj e).2
    else isFalse fun e => hn (DType.struct.inj e).1
  | .other n, .other m =>
    if h : n = m then isTrue (h ▸ rfl) else isFalse fun e => h (DType.other.inj e)
  | .pointer _, .struct _ _ | .pointer _, .other _ | .struct _ _, .pointer _
  | .struct _ _, .other _ | .other _, .pointer _ | .other _, .struct _ _ =>
    isFalse fun e => DType.noConfusion e

/-- Equality of lists of dtypes. -/
def DType.decEqList : (as bs : List DType) → Decidable (as = bs)
  | [], [] => isTrue rfl
  | a :: as, b :: bs =>
    match DType.decEq a b, DType.decEqList as bs with
    | isTrue h, isTrue hs => isTrue (h ▸ hs ▸ rfl)
    | isFalse h, _ => isFalse fun e => h (List.cons.inj e).1
    | _, isFalse hs => isFalse fun e => hs (List.cons.inj e).2
  | [], _ :: _ | _ :: _, [] => isFalse fun e => List.noConfusion e
end

instance : DecidableEq DType := DType.decEq

/-- A call of `global_stream.write` in the custom-type section. -/
inductive Write where
  /-- `global_stream.write("", sdfg)` -/
  | blank
  /-- `global_stream.write(dtype.emit_definition(), sdfg)` -/
  | definition (dtype : DType)
  deriving DecidableEq, Repr

/-- The types whose definitions the writes hold, in order. -/
def definitions (ws : List Write) : List DType :=
  ws.filterMap fun
    | .definition t => some t
    | .blank => none

@[simp] theorem definitions_nil : definitions [] = [] := rfl

@[simp] theorem definitions_append_blank (ws : List Write) :
    definitions (ws ++ [.blank]) = definitions ws := by
  simp [definitions]

@[simp] theorem definitions_append_definition (ws : List Write) (t : DType) :
    definitions (ws ++ [.definition t]) = definitions ws ++ [t] := by
  simp [definitions]

/-- What `_emit_definitions` reads and changes: the writes so far, the set `emitted`, and
    the flag `wrote_something` that it threads through its calls. -/
structure HeaderState where
  out : List Write
  emitted : List DType
  wroteSomething : Bool

/-- `if not wrote_something: global_stream.write("", sdfg)` -/
def HeaderState.separate (s : HeaderState) : HeaderState :=
  if s.wroteSomething then s else { s with out := s.out ++ [.blank] }

@[simp] theorem HeaderState.separate_emitted (s : HeaderState) :
    s.separate.emitted = s.emitted := by
  unfold separate; split <;> rfl

@[simp] theorem HeaderState.definitions_separate (s : HeaderState) :
    definitions s.separate.out = definitions s.out := by
  unfold separate; split <;> simp

section Emit

/-! `hasEmitDefinition` is `hasattr(dtype, 'emit_definition')`, and `ctype` is the attribute
by which typeclasses compare.  `dace.dtypes` fixes both, so they are parameters here. -/

variable (hasEmitDefinition : DType → Bool) (ctype : DType → String)

/-- `if dtype not in emitted:` write its definition, set `wrote_something` and add it to
    `emitted`.  A typeclass is in a set when one of its `ctype` is. -/
def HeaderState.define (s : HeaderState) (dtype : DType) : HeaderState :=
  if ctype dtype ∈ s.emitted.map ctype then s
  else { out := s.out ++ [.definition dtype], emitted := s.emitted ++ [dtype],
         wroteSomething := true }

/-- The end of `_emit_definitions(dtype, wrote_something)`, after the inner types. -/
def emitOwnDefinition (dtype : DType) (s : HeaderState) : HeaderState :=
  if hasEmitDefinition dtype then s.separate.define ctype dtype else s

mutual
/-- `_emit_definitions(dtype, wrote_something)`: the inner types first, then `dtype`. -/
def emitDefinitions : DType → HeaderState → HeaderState
  | .pointer t, s => emitOwnDefinition hasEmitDefinition ctype (.pointer t) (emitDefinitions t s)
  | .struct n fs, s => emitOwnDefinition hasEmitDefinition ctype (.struct n fs) (emitFields fs s)
  | .other n, s => emitOwnDefinition hasEmitDefinition ctype (.other n) s

/-- `for field in dtype.fields.values(): wrote_something = _emit_definitions(field, ...)` -/
def emitFields : List DType → HeaderState → HeaderState
  | [], s => s
  | f :: fs, s => emitFields fs (emitDefinitions f s)
end

/-- `datatypes.add(arr.dtype)`: the set keeps the element it holds when one of the same
    `ctype` is added. -/
def addDatatype (datatypes : List DType) (dtype : DType) : List DType :=
  if ctype dtype ∈ datatypes.map ctype then datatypes else datatypes ++ [dtype]

/-- `datatypes = set()`, then `datatypes.add(arr.dtype)` for each container of
    `arrays_recursive()` that is not `None`; `dtypes` are their dtypes, in order. -/
def collectDatatypes (dtypes : List DType) : List DType :=
  dtypes.foldl (addDatatype ctype) []

/-- The custom-type section of `generate_fileheader`: `_emit_definitions` on each element of
    `datatypes` in the order the set is iterated, then one more blank write when something
    was written. -/
def emitUniqueDefinitions (datatypes : List DType) : List Write :=
  let s := datatypes.foldl (fun s typ => emitDefinitions hasEmitDefinition ctype typ s)
    ⟨[], [], false⟩
  if s.wroteSomething then s.out ++ [.blank] else s.out

/-- The loop over `datatypes` is the loop over a struct's fields. -/
theorem emitFields_eq_foldl (fs : List DType) (s : HeaderState) :
    emitFields hasEmitDefinition ctype fs s =
      fs.foldl (fun s typ => emitDefinitions hasEmitDefinition ctype typ s) s := by
  induction fs generalizing s with
  | nil => rfl
  | cons f fs ih => exact ih _

/-- What the end of `_emit_definitions` can do: keep `emitted` and the definitions written,
    when `dtype` has no `emit_definition` or its `ctype` is in `emitted`; or write `dtype`
    and add it. -/
theorem emitOwnDefinition_cases (dtype : DType) (s : HeaderState) :
    ((emitOwnDefinition hasEmitDefinition ctype dtype s).emitted = s.emitted ∧
        definitions (emitOwnDefinition hasEmitDefinition ctype dtype s).out = definitions s.out ∧
        (hasEmitDefinition dtype = true → ctype dtype ∈ s.emitted.map ctype)) ∨
      (hasEmitDefinition dtype = true ∧ ctype dtype ∉ s.emitted.map ctype ∧
        (emitOwnDefinition hasEmitDefinition ctype dtype s).emitted = s.emitted ++ [dtype] ∧
        definitions (emitOwnDefinition hasEmitDefinition ctype dtype s).out =
          definitions s.out ++ [dtype]) := by
  unfold emitOwnDefinition HeaderState.define
  split_ifs with ht hts
  · exact .inl ⟨by simp, by simp, fun _ => by simpa using hts⟩
  · exact .inr ⟨ht, by simpa using hts, by simp, by simp⟩
  · exact .inl ⟨rfl, rfl, fun h => absurd h ht⟩

theorem mem_addDatatype {datatypes : List DType} {dtype u : DType}
    (h : u ∈ addDatatype ctype datatypes dtype) : u ∈ datatypes ∨ u = dtype := by
  unfold addDatatype at h
  split_ifs at h
  · exact .inl h
  · simpa using h

theorem mem_map_addDatatype {datatypes : List DType} {dtype : DType} {k : String} :
    k ∈ (addDatatype ctype datatypes dtype).map ctype ↔
      k ∈ datatypes.map ctype ∨ k = ctype dtype := by
  unfold addDatatype
  split_ifs with h
  · exact ⟨.inl, by rintro (hk | rfl) <;> assumption⟩
  · simp

/-- The set after the loop holds dtypes of the containers only, and one of the `ctype` of
    each of them. -/
theorem collectDatatypes_spec (dtypes : List DType) :
    (∀ u ∈ collectDatatypes ctype dtypes, u ∈ dtypes) ∧
      ∀ d ∈ dtypes, ctype d ∈ (collectDatatypes ctype dtypes).map ctype := by
  -- the loop from any set `acc`
  have hloop : ∀ (ds acc : List DType),
      (∀ u ∈ ds.foldl (addDatatype ctype) acc, u ∈ acc ∨ u ∈ ds) ∧
        ∀ k, k ∈ (ds.foldl (addDatatype ctype) acc).map ctype ↔
          k ∈ acc.map ctype ∨ k ∈ ds.map ctype := by
    intro ds
    induction ds with
    | nil => simp
    | cons d ds ih =>
      intro acc
      obtain ⟨hmem, hmap⟩ := ih (addDatatype ctype acc d)
      refine ⟨fun u hu => ?_, fun k => ?_⟩
      · rcases hmem u hu with h | h
        · rcases mem_addDatatype ctype h with h | rfl
          exacts [.inl h, .inr (List.mem_cons_self _ _)]
        · exact .inr (List.mem_cons_of_mem _ h)
      · simp only [List.foldl_cons, hmap, mem_map_addDatatype, List.map_cons, List.mem_cons,
          or_assoc]
  obtain ⟨hmem, hmap⟩ := hloop dtypes []
  exact ⟨fun u hu => (hmem u hu).resolve_left (List.not_mem_nil _),
    fun d hd => (hmap _).2 (.inr (List.mem_map_of_mem _ hd))⟩

end Emit

/-! ### Reachable types -/

/-- The types `_emit_definitions` recurses into: a pointer's target, a struct's fields. -/
def DType.inner : DType → List DType
  | .pointer t => [t]
  | .struct _ fs => fs
  | .other _ => []

/-- `u` is reachable from `t` through pointer targets and struct fields; `t` reaches
    itself. -/
inductive DType.Reaches : DType → DType → Prop
  | refl (t : DType) : Reaches t t
  | inner {t u v : DType} : u ∈ t.inner → Reaches u v → Reaches t v

theorem DType.reaches_iff {t v : DType} :
    t.Reaches v ↔ v = t ∨ ∃ u ∈ t.inner, u.Reaches v := by
  constructor
  · rintro (_ | ⟨hu, huv⟩)
    · exact .inl rfl
    · exact .inr ⟨_, hu, huv⟩
  · rintro (rfl | ⟨u, hu, huv⟩)
    · exact .refl _
    · exact .inner hu huv

theorem DType.Reaches.trans {t u v : DType} (h₁ : t.Reaches u) (h₂ : u.Reaches v) :
    t.Reaches v := by
  induction h₁ with
  | refl => exact h₂
  | inner hu _ ih => exact .inner hu (ih h₂)

mutual
/-- The types a dtype reaches: itself, then the types its inner types reach. -/
def DType.subtypes : DType → List DType
  | .pointer t => .pointer t :: t.subtypes
  | .struct n fs => .struct n fs :: DType.subtypesList fs
  | .other n => [.other n]

/-- The types the dtypes of a list reach. -/
def DType.subtypesList : List DType → List DType
  | [] => []
  | f :: fs => f.subtypes ++ DType.subtypesList fs
end

mutual
theorem DType.mem_subtypes : ∀ (t : DType) {u : DType}, u ∈ t.subtypes ↔ t.Reaches u
  | .pointer t, u => by
    rw [DType.reaches_iff, DType.subtypes, List.mem_cons, DType.mem_subtypes t]
    simp [DType.inner]
  | .struct n fs, u => by
    rw [DType.reaches_iff, DType.subtypes, List.mem_cons, DType.mem_subtypesList fs]
    rfl
  | .other n, u => by
    rw [DType.reaches_iff]
    simp [DType.subtypes, DType.inner]

theorem DType.mem_subtypesList : ∀ (fs : List DType) {u : DType},
    u ∈ DType.subtypesList fs ↔ ∃ f ∈ fs, f.Reaches u
  | [], u => by simp [DType.subtypesList]
  | f :: fs, u => by
    rw [DType.subtypesList, List.mem_append, DType.mem_subtypes f, DType.mem_subtypesList fs]
    simp
end

section Spec

variable {hasEmitDefinition : DType → Bool} {ctype : DType → String}

variable (hasEmitDefinition ctype) in
/-- Every type of `l` comes after a type of the `ctype` of each type with `emit_definition`
    that its inner types reach. -/
def DepsFirst (l : List DType) : Prop :=
  ∀ u ∈ l, ∀ t, (∃ v ∈ u.inner, v.Reaches t) → hasEmitDefinition t = true →
    ∃ l₁ l₂, l = l₁ ++ u :: l₂ ∧ ctype t ∈ l₁.map ctype

/-- Appending a type whose dependencies are already there keeps the order. -/
theorem DepsFirst.append {l : List DType} {u : DType} (hl : DepsFirst hasEmitDefinition ctype l)
    (hu : ∀ t, (∃ v ∈ u.inner, v.Reaches t) → hasEmitDefinition t = true →
      ctype t ∈ l.map ctype) :
    DepsFirst hasEmitDefinition ctype (l ++ [u]) := by
  intro w hw t hwt ht
  rcases List.mem_append.1 hw with hw | hw
  · obtain ⟨l₁, l₂, rfl, h⟩ := hl w hw t hwt ht
    exact ⟨l₁, l₂ ++ [u], by simp, h⟩
  · obtain rfl := List.mem_singleton.1 hw
    exact ⟨l, [], rfl, hu t hwt ht⟩

variable (hasEmitDefinition ctype) in
/-- What `_emit_definitions` keeps: `emitted` holds the written definitions in the order
    they were written, one of each `ctype`, each after its dependencies. -/
structure HeaderState.Valid (s : HeaderState) : Prop where
  definitions_out : definitions s.out = s.emitted
  nodup : (s.emitted.map ctype).Nodup
  depsFirst : DepsFirst hasEmitDefinition ctype s.emitted

variable (hasEmitDefinition ctype) in
/-- A pass from `s` to `s'` over the types `ts` keeps the invariant, appends to `emitted`
    only types with `emit_definition` that `ts` reach, and leaves in `emitted` a type of the
    `ctype` of each of them. -/
structure Covers (ts : List DType) (s s' : HeaderState) : Prop where
  valid : s'.Valid hasEmitDefinition ctype
  added : ∃ l, s'.emitted = s.emitted ++ l ∧
    ∀ u ∈ l, hasEmitDefinition u = true ∧ ∃ t ∈ ts, t.Reaches u
  complete : ∀ u, hasEmitDefinition u = true → (∃ t ∈ ts, t.Reaches u) →
    ctype u ∈ s'.emitted.map ctype

theorem Covers.nil {s : HeaderState} (hs : s.Valid hasEmitDefinition ctype) :
    Covers hasEmitDefinition ctype [] s s :=
  ⟨hs, ⟨[], by simp, fun _ h => absurd h (List.not_mem_nil _)⟩,
    fun _ _ ⟨_, h, _⟩ => absurd h (List.not_mem_nil _)⟩

theorem Covers.cons {t : DType} {ts : List DType} {s₀ s₁ s₂ : HeaderState}
    (h₁ : Covers hasEmitDefinition ctype [t] s₀ s₁)
    (h₂ : Covers hasEmitDefinition ctype ts s₁ s₂) :
    Covers hasEmitDefinition ctype (t :: ts) s₀ s₂ := by
  obtain ⟨l₁, he₁, hl₁⟩ := h₁.added
  obtain ⟨l₂, he₂, hl₂⟩ := h₂.added
  refine ⟨h₂.valid, ⟨l₁ ++ l₂, by rw [he₂, he₁, List.append_assoc], fun u hu => ?_⟩,
    fun u hu ⟨t', ht', hr⟩ => ?_⟩
  · rcases List.mem_append.1 hu with hu | hu
    · obtain ⟨hu, t', ht', hr⟩ := hl₁ u hu
      exact ⟨hu, t', by simp [List.mem_singleton.1 ht'], hr⟩
    · obtain ⟨hu, t', ht', hr⟩ := hl₂ u hu
      exact ⟨hu, t', List.mem_cons_of_mem _ ht', hr⟩
  · rcases List.mem_cons.1 ht' with rfl | ht'
    · rw [he₂, List.map_append]
      exact List.mem_append_left _ (h₁.complete u hu ⟨t', List.mem_singleton_self _, hr⟩)
    · exact h₂.complete u hu ⟨t', ht', hr⟩

/-- The step of `_emit_definitions` on `t` itself: after a pass over its inner types, it
    writes `t` unless a type of its `ctype` is written, after its dependencies. -/
theorem Covers.emitOwnDefinition {t : DType} {s s' : HeaderState}
    (h : Covers hasEmitDefinition ctype t.inner s s') :
    Covers hasEmitDefinition ctype [t] s (emitOwnDefinition hasEmitDefinition ctype t s') := by
  obtain ⟨⟨hdefs, hnodup, hdeps⟩, ⟨l, hl, hadded⟩, hcomplete⟩ := h
  -- what the pass over the inner types added, `t` reaches
  have hlt : ∀ u ∈ l, hasEmitDefinition u = true ∧ ∃ t' ∈ [t], t'.Reaches u := fun u hu =>
    let ⟨hu, _, hv, hvu⟩ := hadded u hu
    ⟨hu, t, List.mem_singleton_self t, .inner hv hvu⟩
  -- a type that `t` reaches is `t` or one its inner types reach
  have hreach : ∀ u, (∃ t' ∈ [t], t'.Reaches u) → u = t ∨ ∃ v ∈ t.inner, v.Reaches u := by
    simpa using fun u => (DType.reaches_iff (t := t) (v := u)).1
  rcases emitOwnDefinition_cases hasEmitDefinition ctype t s' with
    ⟨he, hd, hin⟩ | ⟨ht, hts, he, hd⟩
  · refine ⟨⟨by rw [hd, hdefs, he], by rwa [he], by rwa [he]⟩, ⟨l, he.trans hl, hlt⟩,
      fun u hu hr => ?_⟩
    rw [he]
    rcases hreach u hr with rfl | hr
    exacts [hin hu, hcomplete u hu hr]
  · refine ⟨⟨by rw [hd, hdefs, he], ?_, ?_⟩, ⟨l ++ [t], by rw [he, hl, List.append_assoc], ?_⟩,
      fun u hu hr => ?_⟩
    · rw [he, List.map_append]
      exact hnodup.append (List.nodup_singleton _) (List.disjoint_singleton.2 hts)
    · rw [he]
      exact hdeps.append fun u hr hu => hcomplete u hu hr
    · intro u hu
      rcases List.mem_append.1 hu with hu | hu
      · exact hlt u hu
      · obtain rfl := List.mem_singleton.1 hu
        exact ⟨ht, u, List.mem_singleton_self u, .refl u⟩
    · rw [he, List.map_append]
      rcases hreach u hr with rfl | hr
      · exact List.mem_append_right _ (List.mem_singleton_self _)
      · exact List.mem_append_left _ (hcomplete u hu hr)

mutual
/-- `_emit_definitions(t, ...)` covers `t`. -/
theorem emitDefinitions_covers : ∀ (t : DType) (s : HeaderState),
    s.Valid hasEmitDefinition ctype →
      Covers hasEmitDefinition ctype [t] s (emitDefinitions hasEmitDefinition ctype t s)
  | .pointer t, s, hs => (emitDefinitions_covers t s hs).emitOwnDefinition
  | .struct _ fs, s, hs => (emitFields_covers fs s hs).emitOwnDefinition
  | .other _, _, hs => (Covers.nil hs).emitOwnDefinition

/-- The loop over the fields covers the fields. -/
theorem emitFields_covers : ∀ (fs : List DType) (s : HeaderState),
    s.Valid hasEmitDefinition ctype →
      Covers hasEmitDefinition ctype fs s (emitFields hasEmitDefinition ctype fs s)
  | [], _, hs => Covers.nil hs
  | f :: fs, s, hs =>
    have h := emitDefinitions_covers f s hs
    h.cons (emitFields_covers fs _ h.valid)
end

variable (hasEmitDefinition ctype) in
/-- The custom-type section, for any iteration order of `datatypes`, writes what one pass
    over its elements covers: one definition of each `ctype` of a type with
    `emit_definition` that they reach, and nothing else, each after its dependencies. -/
theorem emitUniqueDefinitions_covers (datatypes : List DType) :
    ∃ s, Covers hasEmitDefinition ctype datatypes ⟨[], [], false⟩ s ∧
      definitions (emitUniqueDefinitions hasEmitDefinition ctype datatypes) = s.emitted := by
  have h := @emitFields_covers hasEmitDefinition ctype datatypes ⟨[], [], false⟩
    ⟨rfl, List.nodup_nil, fun _ h => absurd h (List.not_mem_nil _)⟩
  refine ⟨_, h, ?_⟩
  simp only [emitUniqueDefinitions, ← emitFields_eq_foldl]
  split <;> simp [h.valid.definitions_out]

variable (ctype) in
/-- No two different types that the dtypes reach share a `ctype`: the sets of the section
    then tell the types apart as `DType`'s own equality does. -/
def CoherentCtypes (dtypes : List DType) : Prop :=
  ∀ t ∈ dtypes.flatMap DType.subtypes, ∀ u ∈ dtypes.flatMap DType.subtypes,
    ctype t = ctype u → t = u

instance (dtypes : List DType) : Decidable (CoherentCtypes ctype dtypes) :=
  inferInstanceAs (Decidable (∀ t ∈ dtypes.flatMap DType.subtypes,
    ∀ u ∈ dtypes.flatMap DType.subtypes, ctype t = ctype u → t = u))

theorem CoherentCtypes.eq {dtypes : List DType} (h : CoherentCtypes ctype dtypes) {t u : DType}
    (ht : ∃ d ∈ dtypes, d.Reaches t) (hu : ∃ d ∈ dtypes, d.Reaches u) (hc : ctype t = ctype u) :
    t = u := by
  obtain ⟨d, hd, hdt⟩ := ht
  obtain ⟨e, he, heu⟩ := hu
  exact h t (List.mem_flatMap.2 ⟨d, hd, (DType.mem_subtypes d).2 hdt⟩) u
    (List.mem_flatMap.2 ⟨e, he, (DType.mem_subtypes e).2 heu⟩) hc

variable (hasEmitDefinition ctype) in
/-- For the dtypes of the containers, when no two different types they reach share a
    `ctype`, and for every order in which the set `datatypes` is iterated, the custom-type
    section writes the definition of each type that has `emit_definition` and that some
    dtype reaches through pointer targets and struct fields, exactly once, and nothing
    else.  Each is written after every such type that its own fields or pointer target
    reach. -/
theorem emitUniqueDefinitions_spec (dtypes datatypes : List DType)
    (hcoh : CoherentCtypes ctype dtypes) (hset : datatypes.Perm (collectDatatypes ctype dtypes)) :
    let defs := definitions (emitUniqueDefinitions hasEmitDefinition ctype datatypes)
    defs.Nodup ∧
      (∀ t, t ∈ defs ↔ hasEmitDefinition t = true ∧ ∃ d ∈ dtypes, d.Reaches t) ∧
      ∀ t u, u ∈ defs → hasEmitDefinition t = true → (∃ v ∈ u.inner, v.Reaches t) →
        ∃ l₁ l₂, defs = l₁ ++ u :: l₂ ∧ t ∈ l₁ := by
  intro defs
  obtain ⟨s, ⟨⟨-, hnodup, hdeps⟩, ⟨l, hl, hadded⟩, hcomplete⟩, hout⟩ :=
    emitUniqueDefinitions_covers hasEmitDefinition ctype datatypes
  simp only [hl, List.nil_append] at hnodup hdeps hcomplete hout
  have hdefs : defs = l := hout
  rw [hdefs]
  obtain ⟨hsub, hrep⟩ := collectDatatypes_spec ctype dtypes
  -- the elements of `datatypes` reach exactly the types that the dtypes reach
  have hreach : ∀ t, (∃ typ ∈ datatypes, typ.Reaches t) ↔ ∃ d ∈ dtypes, d.Reaches t := by
    refine fun t => ⟨fun ⟨typ, ht, hr⟩ => ⟨typ, hsub typ (hset.subset ht), hr⟩,
      fun ⟨d, hd, hr⟩ => ?_⟩
    obtain ⟨y, hy, hc⟩ := List.mem_map.1 (hrep d hd)
    obtain rfl := hcoh.eq ⟨y, hsub y hy, .refl y⟩ ⟨d, hd, .refl d⟩ hc
    exact ⟨y, hset.symm.subset hy, hr⟩
  have hwritten : ∀ u ∈ l, hasEmitDefinition u = true ∧ ∃ d ∈ dtypes, d.Reaches u :=
    fun u hu => (hadded u hu).imp_right (hreach u).1
  -- a written type of the `ctype` of a reached type is that type
  have hsame : ∀ t, (∃ d ∈ dtypes, d.Reaches t) → ctype t ∈ l.map ctype → t ∈ l := by
    intro t ht hc
    obtain ⟨v, hv, hvt⟩ := List.mem_map.1 hc
    rwa [← hcoh.eq (hwritten v hv).2 ht hvt]
  refine ⟨hnodup.of_map ctype, fun t => ⟨hwritten t, fun ⟨ht, hr⟩ =>
    hsame t hr (hcomplete t ht ((hreach t).2 hr))⟩, fun t u hu ht hr => ?_⟩
  obtain ⟨l₁, l₂, he, hl₁⟩ := hdeps u hu t hr ht
  obtain ⟨t', ht', hc⟩ := List.mem_map.1 hl₁
  obtain ⟨d, hd, hdu⟩ := (hwritten u hu).2
  obtain ⟨v, hv, hvt⟩ := hr
  have ht'l : t' ∈ l := by rw [he]; exact List.mem_append_left _ ht'
  obtain rfl := hcoh.eq (hwritten t' ht'l).2 ⟨d, hd, hdu.trans (.inner hv hvt)⟩ hc
  exact ⟨l₁, l₂, he, ht'⟩

end Spec

/-! ### dace's typeclasses -/

/-- `typeclass.ctype` in `dace.dtypes`: a pointer's is its target's with `*` appended, a
    struct's is its name, and `.other name` stands for a typeclass by its `ctype`. -/
def daceCtype : DType → String
  | .pointer t => daceCtype t ++ "*"
  | .struct name _ => name
  | .other name => name

/-- `hasattr(dtype, 'emit_definition')`, true of structs, which define it in `dace.dtypes`,
    and of nothing else. -/
def daceHasEmitDefinition : DType → Bool
  | .struct .. => true
  | _ => false

/-- A struct `A` that a pointer and a second struct `B` both reach. -/
def sharedDtypes : List DType :=
  [.pointer (.struct "A" [.other "double"]),
    .struct "B" [.struct "A" [.other "double"], .pointer (.struct "A" [.other "double"])]]

/-- With the set iterated in reverse, `A` is still written once, before `B`. -/
theorem emitUniqueDefinitions_spec_reversed :
    CoherentCtypes daceCtype sharedDtypes ∧
      (collectDatatypes daceCtype sharedDtypes).reverse.Perm (collectDatatypes daceCtype sharedDtypes) ∧
      (definitions (emitUniqueDefinitions daceHasEmitDefinition daceCtype
        (collectDatatypes daceCtype sharedDtypes).reverse)).Nodup :=
  ⟨by decide, List.reverse_perm _,
    (emitUniqueDefinitions_spec daceHasEmitDefinition daceCtype sharedDtypes _ (by decide)
      (List.reverse_perm _)).1⟩

/- The section around the definitions: a blank write opens it and one closes it. -/
example :
    emitUniqueDefinitions daceHasEmitDefinition daceCtype sharedDtypes =
      [.blank, .definition (.struct "A" [.other "double"]),
        .definition (.struct "B" [.struct "A" [.other "double"],
          .pointer (.struct "A" [.other "double"])]), .blank] := by
  decide

/-- Two containers whose dtypes are structs named `S`, one with a field of struct `T`, the
    other with a field of struct `U`.  The set `datatypes` keeps the first only, so `U`,
    which the second container's dtype reaches, is never written. -/
theorem emitUniqueDefinitions_sameName :
    (DType.struct "S" [.struct "U" []]).Reaches (.struct "U" []) ∧
      collectDatatypes daceCtype [.struct "S" [.struct "T" []], .struct "S" [.struct "U" []]] =
        [.struct "S" [.struct "T" []]] ∧
      definitions (emitUniqueDefinitions daceHasEmitDefinition daceCtype
        [.struct "S" [.struct "T" []]]) = [.struct "T" [], .struct "S" [.struct "T" []]] :=
  ⟨.inner (List.mem_singleton_self _) (.refl _), by decide, by decide⟩

end DaceLowering
