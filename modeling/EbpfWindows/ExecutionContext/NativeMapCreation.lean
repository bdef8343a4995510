import EbpfWindows.ExecutionContext.NativeModule
import EbpfWindows.Shared.CanonicalizePath
import EbpfWindows.Lib.Dependency
import EbpfWindows.Lib.Bits

/-! Creating a native module's maps: `_ebpf_native_initialize_maps`,
`_ebpf_native_get_next_map_to_create`, `_ebpf_native_reuse_map` and `_ebpf_native_create_maps`
(`ebpf_native.c`).

A map-in-map is created with the handle of its inner template, so the maps are made in an
order in which every template comes first. Each of the `map_count` rounds scans the array for
the first map it can make now, pins or reuses it, and gives it a handle. What lies outside the
module (allocation, `ebpf_core_get_pinned_object`, `_ebpf_native_validate_map` with the objects
it reads, `ebpf_core_create_map` and `ebpf_core_update_pinning`) is a `MapEnvironment` whose
answers may depend on the round and on every argument, so any sequence of outcomes is one of
its runs. What the creation does to the world outside is a log of `MapEvent`s.

The inner template of a map is stated on the module's table (`innerTemplate`): the map
`inner_map_idx` when that is set, else the first other map whose `id` is `inner_id`. The code
reaches it through original ids, `index + 1` in 32 bits, and `innerMapIndex_initialized` says
the two agree for fewer than `2 ^ 32 - 1` maps: with more, an original id repeats or one is the
`-1` that marks a missing template.
-/

set_option autoImplicit false

namespace EbpfWindows.ExecutionContext

def libbpfPinNone : Nat := 0

def libbpfPinByName : Nat := 1

/-- `EBPF_MAX_PIN_PATH_LENGTH`, the size of the buffer the pin path is canonicalized into. -/
def ebpfMaxPinPathLength : Nat := 256

/-- The allocations `_ebpf_native_create_maps` makes: the map array, the pin path of a map,
and the name of the map a round creates. -/
inductive AllocationSite where
  | maps
  | pinPath (index : Nat)
  | mapName (round : Nat)
  deriving DecidableEq, Repr

/-- The arguments of `ebpf_core_create_map`: the name, the in-memory definition and
`inner_map_handle`. -/
structure MapCreation where
  name : List Char
  type : BpfMapType
  keySize : Nat
  valueSize : Nat
  maxEntries : Nat
  innerMapHandle : Option Nat
  deriving DecidableEq, Repr

/-- What the creation does outside the module. -/
inductive MapEvent where
  | created (index : Nat) (creation : MapCreation) (handle : Nat)
  | reused (index : Nat) (handle : Nat)
  | pinned (handle : Nat) (path : List Char)
  | unpinned (path : List Char)
  | closed (handle : Nat)
  deriving DecidableEq, Repr

/-- A result other than `EBPF_SUCCESS`: what a call that hands back no handle returns. -/
structure EbpfFailure where
  result : EbpfResult
  failed : result ≠ .success
  deriving DecidableEq

/-- The answers of the calls out of the module; each may depend on the round it is made in. -/
structure MapEnvironment where
  allocate : AllocationSite → Bool
  getPinnedObject : Nat → List Char → Except EbpfFailure Nat
  validateMap : Nat → EbpfNativeMap → Nat → EbpfResult
  createMap : Nat → MapCreation → Except EbpfFailure Nat
  updatePinning : Nat → Nat → List Char → EbpfResult

/-! ## `_ebpf_native_initialize_maps` -/

/-- `index + ORIGINAL_ID_OFFSET` for a `uint32_t` index, stored in an `int32_t`: the sum wraps at
`2 ^ 32` and the conversion keeps its bits. -/
def originalIdOf (index : UInt32) : Int32 := (index + 1).toInt32

/-- The first loop of `_ebpf_native_initialize_maps` for map `i`; the array is allocated
zeroed, so `inner_map_original_id`, `inner_map`, `pinned` and `reused` start cleared. -/
def initializeMap (env : MapEnvironment) (i : Nat) (entry : MapEntry) : Except EbpfResult EbpfNativeMap :=
  if entry.pinning ≠ libbpfPinNone ∧ entry.pinning ≠ libbpfPinByName then .error .invalidArgument
  else if entry.pinning = libbpfPinByName then
    match ebpfCanonicalizePath ebpfMaxPinPathLength entry.name with
    | some (.ok path) =>
      if env.allocate (.pinPath i) then .ok ⟨entry, originalIdOf i.toUInt32, 0, none, none, some path, false, false⟩
      else .error .noMemory
    | some (.error result) => .error result
    -- never taken: `ebpfCanonicalizePath_isSome`
    | none => .error .invalidArgument
  else .ok ⟨entry, originalIdOf i.toUInt32, 0, none, none, none, false, false⟩

def initializeMapsLoop (env : MapEnvironment) : Nat → List MapEntry → Except EbpfResult (List EbpfNativeMap)
  | _, [] => .ok []
  | i, entry :: rest => do
    let map ← initializeMap env i entry
    let maps ← initializeMapsLoop env (i + 1) rest
    pure (map :: maps)

/-- `inner_map_original_id` as the second loop computes it. -/
def innerMapOriginalIdOf (maps : List EbpfNativeMap) (i : Nat) (map : EbpfNativeMap) : Int32 :=
  if ebpfNativeIsMapInMap map then
    if map.entry.innerMapIdx ≠ 0 then originalIdOf map.entry.innerMapIdx
    else if map.entry.innerId ≠ 0 then
      (((List.range maps.length).find? fun j =>
        (maps[j]?.map fun inner => inner.entry.id) == some map.entry.innerId && i != j).map
          fun j => originalIdOf j.toUInt32).getD (-1)
    else -1
  else -1

def ebpfNativeInitializeMaps (env : MapEnvironment) (entries : List MapEntry) :
    Except EbpfResult (List EbpfNativeMap) := do
  let maps ← initializeMapsLoop env 0 entries
  pure (maps.mapIdx fun i map => { map with innerMapOriginalId := innerMapOriginalIdOf maps i map })

/-! ## `_ebpf_native_get_next_map_to_create` -/

/-- The map whose `original_id` is the `inner_map_original_id` of `map`. -/
def innerMapIndex (maps : List EbpfNativeMap) (map : EbpfNativeMap) : Option Nat :=
  maps.findIdx? fun inner => inner.originalId == map.innerMapOriginalId

/-- The handle of map `j`; `none` is `ebpf_handle_invalid`. -/
def handleAt (maps : List EbpfNativeMap) (j : Nat) : Option Nat :=
  maps[j]?.bind fun map => map.handle

/-- The template of map `i`, looked up once and kept in `inner_map`. -/
def cachedInnerMap (maps : List EbpfNativeMap) (i : Nat) (map : EbpfNativeMap) :
    List EbpfNativeMap × Option Nat :=
  match map.innerMap with
  | some j => (maps, some j)
  | none =>
    match innerMapIndex maps map with
    | some j => (maps.set i { map with innerMap := some j }, some j)
    | none => (maps, none)

def getNextMapToCreateLoop : List Nat → List EbpfNativeMap → List EbpfNativeMap × Option Nat
  | [], maps => (maps, none)
  | i :: rest, maps =>
    match maps[i]? with
    | none => getNextMapToCreateLoop rest maps
    | some map =>
      if map.handle.isSome then getNextMapToCreateLoop rest maps
      else if !ebpfNativeIsMapInMap map then (maps, some i)
      else
        match cachedInnerMap maps i map with
        | (maps, none) => getNextMapToCreateLoop rest maps
        | (maps, some j) => if (handleAt maps j).isNone then getNextMapToCreateLoop rest maps else (maps, some i)

def ebpfNativeGetNextMapToCreate (maps : List EbpfNativeMap) : List EbpfNativeMap × Option Nat :=
  getNextMapToCreateLoop (List.range maps.length) maps

/-! ## One round of `_ebpf_native_create_maps` -/

/-- `_ebpf_native_reuse_map` on map `i`: an object pinned at the path that passes validation
becomes the map. `EBPF_KEY_NOT_FOUND` counts as success; on failure the handle is closed (after
a failed lookup that closes `ebpf_handle_invalid`, which is nothing). -/
def ebpfNativeReuseMap (env : MapEnvironment) (round i : Nat) (map : EbpfNativeMap) :
    EbpfResult × EbpfNativeMap × List MapEvent :=
  match env.getPinnedObject round (map.pinPath.getD []) with
  | .error failure => if failure.result = .keyNotFound then (.success, map, []) else (failure.result, map, [])
  | .ok handle =>
    match env.validateMap round map handle with
    | .success => (.success, { map with handle := some handle, reused := true, pinned := true }, [.reused i handle])
    | result => (result, map, [.closed handle])

/-- `map_name`, `map_definition` and `inner_map_handle` as the round fills them in for `map`:
the handle of the cached template, or `ebpf_handle_invalid`. -/
def mapCreation (maps : List EbpfNativeMap) (map : EbpfNativeMap) : MapCreation :=
  ⟨map.entry.name, map.entry.type, map.entry.keySize, map.entry.valueSize, map.entry.maxEntries,
    map.innerMap.bind (handleAt maps)⟩

/-- The creation part of a round: allocate the name, call `ebpf_core_create_map` with the
template's handle, and pin the new map if it has a pin path and is not pinned yet. -/
def createNativeMap (env : MapEnvironment) (round i : Nat) (maps : List EbpfNativeMap) (map : EbpfNativeMap) :
    EbpfResult × List EbpfNativeMap × List MapEvent :=
  if env.allocate (.mapName round) then
    let creation := mapCreation maps map
    match env.createMap round creation with
    | .error failure => (failure.result, maps, [])
    | .ok handle =>
      let created := { map with handle := some handle }
      match created.pinPath, created.pinned with
      | some path, false =>
        match env.updatePinning round handle path with
        | .success => (.success, maps.set i { created with pinned := true },
            [.created i creation handle, .pinned handle path])
        | result => (result, maps.set i created, [.created i creation handle])
      | _, _ => (.success, maps.set i created, [.created i creation handle])
  else (.noMemory, maps, [])

def createMapsRound (env : MapEnvironment) (round : Nat) (maps : List EbpfNativeMap) :
    EbpfResult × List EbpfNativeMap × List MapEvent :=
  match ebpfNativeGetNextMapToCreate maps with
  | (maps, none) => (.invalidObject, maps, [])
  | (maps, some i) =>
    match maps[i]? with
    -- never taken: the scan returns an index of the array
    | none => (.invalidObject, maps, [])
    | some map =>
      if map.entry.pinning = libbpfPinByName then
        match ebpfNativeReuseMap env round i map with
        | (.success, reusedMap, events) =>
          if reusedMap.reused then (.success, maps.set i reusedMap, events)
          else createNativeMap env round i maps reusedMap
        | (result, _, events) => (result, maps, events)
      else createNativeMap env round i maps map

/-- The loop `for (count = 0; count < map_count; count++)`, from round `round` with
`remaining` rounds left. -/
def createMapsLoop (env : MapEnvironment) (round : Nat) :
    Nat → List EbpfNativeMap → List MapEvent → EbpfResult × List EbpfNativeMap × List MapEvent
  | 0, maps, events => (.success, maps, events)
  | remaining + 1, maps, events =>
    match createMapsRound env round maps with
    | (.success, maps, new) => createMapsLoop env (round + 1) remaining maps (events ++ new)
    | (result, maps, new) => (result, maps, events ++ new)

/-- `_ebpf_native_clean_up_maps` with `unpin` and `close_handles` set: unpin what this load
pinned, close every valid handle. -/
def ebpfNativeCleanUpMaps (maps : List EbpfNativeMap) : List MapEvent :=
  maps.flatMap fun map =>
    (match map.pinPath with
      | some path => if map.pinned && !map.reused then [MapEvent.unpinned path] else []
      | none => []) ++
    (match map.handle with
      | some handle => [MapEvent.closed handle]
      | none => [])

/-- What `_ebpf_native_create_maps` leaves: its result, `instance->maps` (`none` is NULL),
`instance->map_count` and the log. -/
structure CreateMapsOutcome where
  result : EbpfResult
  maps : Option (List EbpfNativeMap)
  mapCount : Nat
  events : List MapEvent
  deriving DecidableEq, Repr

def ebpfNativeCreateMaps (env : MapEnvironment) (entries : List MapEntry) : CreateMapsOutcome :=
  if entries.length = 0 then ⟨.success, none, 0, []⟩
  else if !env.allocate .maps then ⟨.noMemory, none, 0, []⟩
  else
    match ebpfNativeInitializeMaps env entries with
    -- every handle is still invalid, so the clean-up only frees the pin paths made so far
    | .error result => ⟨result, none, 0, []⟩
    | .ok maps =>
      match createMapsLoop env 0 entries.length maps [] with
      | (.success, maps, events) => ⟨.success, some maps, entries.length, events⟩
      | (result, maps, events) => ⟨result, none, 0, events ++ ebpfNativeCleanUpMaps maps⟩

/-! ## The inner-template relation

What the creation has to respect, stated on the module's table. -/

/-- Map `i` of the table is a map-in-map, so it needs an inner template. -/
def NeedsTemplate (entries : List MapEntry) (i : Nat) : Prop :=
  ∃ entry ∈ entries[i]?, entry.type = .hashOfMaps ∨ entry.type = .arrayOfMaps

/-- The inner template of map `i`: map `inner_map_idx` when that is set, else the first other
map whose `id` is `inner_id`. -/
def innerTemplate (entries : List MapEntry) (i : Nat) : Option Nat :=
  match entries[i]? with
  | some entry =>
    if entry.type = .hashOfMaps ∨ entry.type = .arrayOfMaps then
      if entry.innerMapIdx ≠ 0 then
        if entry.innerMapIdx.toNat < entries.length then some entry.innerMapIdx.toNat else none
      else if entry.innerId ≠ 0 then
        (List.range entries.length).find? fun j =>
          (entries[j]?.map fun other => other.id) == some entry.innerId && i != j
      else none
    else none
  | none => none

theorem ebpfNativeIsMapInMap_eq_true {map : EbpfNativeMap} :
    ebpfNativeIsMapInMap map = true ↔ map.entry.type = .hashOfMaps ∨ map.entry.type = .arrayOfMaps := by
  unfold ebpfNativeIsMapInMap
  cases map.entry.type <;> decide

theorem innerTemplate_lt {entries : List MapEntry} {i j : Nat} (found : innerTemplate entries i = some j) :
    j < entries.length := by
  unfold innerTemplate at found
  split at found
  · split_ifs at found with mapInMap indexed inside
    · exact Option.some.inj found ▸ inside
    · exact List.mem_range.mp (List.find?_range_eq_some.mp found).2.1
  · cases found

/-! ## Views of the map array

The rounds change a map's `handle`, `inner_map`, `reused` and `pinned`, never what the table
and the first loop gave it. -/

/-- A map without its cached template: all that the rest of the module reads of it. -/
def eraseCache (map : EbpfNativeMap) : EbpfNativeMap := { map with innerMap := none }

/-- What `_ebpf_native_initialize_maps` gave a map. -/
def frameOf (map : EbpfNativeMap) : MapEntry × Int32 × Int32 × Option (List Char) :=
  (map.entry, map.originalId, map.innerMapOriginalId, map.pinPath)

theorem handleAt_eq_bind_eraseCache (maps : List EbpfNativeMap) (j : Nat) :
    handleAt maps j = (maps.map eraseCache)[j]?.bind fun map => map.handle := by
  simp only [handleAt, List.getElem?_map]
  cases maps[j]? <;> rfl

theorem handleAt_congr {maps other : List EbpfNativeMap} (same : maps.map eraseCache = other.map eraseCache) :
    handleAt maps = handleAt other := by
  funext j
  rw [handleAt_eq_bind_eraseCache, same, ← handleAt_eq_bind_eraseCache]

theorem frames_congr {maps other : List EbpfNativeMap} (same : maps.map eraseCache = other.map eraseCache) :
    maps.map frameOf = other.map frameOf := by
  have erased : ∀ l : List EbpfNativeMap, l.map frameOf = (l.map eraseCache).map frameOf := fun l => by
    rw [List.map_map]
    rfl
  rw [erased, same, ← erased]

theorem handleAt_set {maps : List EbpfNativeMap} {i : Nat} (inside : i < maps.length) (map : EbpfNativeMap)
    (j : Nat) : handleAt (maps.set i map) j = if j = i then map.handle else handleAt maps j := by
  unfold handleAt
  rw [List.getElem?_set]
  by_cases same : j = i
  · subst same
    simp [inside]
  · simp [same, Ne.symm same]

theorem handleAt_lt {maps : List EbpfNativeMap} {j : Nat} (valid : (handleAt maps j).isSome) : j < maps.length := by
  unfold handleAt at valid
  by_contra outside
  rw [List.getElem?_eq_none (by omega)] at valid
  cases valid

theorem innerMapIndex_eq_findIdx (maps : List EbpfNativeMap) (map : EbpfNativeMap) :
    innerMapIndex maps map = (maps.map frameOf).findIdx? fun frame => frame.2.1 == map.innerMapOriginalId := by
  rw [List.findIdx?_map]
  rfl

theorem originalIdOf_eq_iff {index : UInt32} {j : Nat} (small : j < 2 ^ 32) :
    originalIdOf index = originalIdOf j.toUInt32 ↔ index.toNat = j := by
  constructor
  · intro same
    have bits : index = j.toUInt32 := by simpa [originalIdOf] using congrArg Int32.toUInt32 same
    rw [bits, Bits.toNat_toUInt32_of_lt small]
  · intro same
    rw [← same]
    simp

theorem minusOne_ne_originalIdOf {j : Nat} (small : j < 2 ^ 32 - 2) : (-1 : Int32) ≠ originalIdOf j.toUInt32 := by
  have minusOne : (-1 : Int32) = originalIdOf 4294967294 := by decide
  rw [minusOne, Ne, originalIdOf_eq_iff (by omega)]
  have last : (4294967294 : UInt32).toNat = 4294967294 := rfl
  omega

theorem innerMapIndex_eq_some_iff {maps : List EbpfNativeMap} (few : maps.length < 2 ^ 32)
    (ids : ∀ (j : Nat) (map : EbpfNativeMap), maps[j]? = some map → map.originalId = originalIdOf j.toUInt32) (map : EbpfNativeMap) (j : Nat) :
    innerMapIndex maps map = some j ↔ j < maps.length ∧ map.innerMapOriginalId = originalIdOf j.toUInt32 := by
  unfold innerMapIndex
  rw [List.findIdx?_eq_some_iff_getElem]
  constructor
  · rintro ⟨inside, found, -⟩
    have own := ids j maps[j] (List.getElem?_eq_getElem inside)
    rw [own] at found
    exact ⟨inside, (beq_iff_eq.mp found).symm⟩
  · rintro ⟨inside, named⟩
    refine ⟨inside, ?_, fun k before => ?_⟩
    · rw [ids j maps[j] (List.getElem?_eq_getElem inside), named]
      exact beq_self_eq_true _
    · -- an earlier map has another original id
      rw [ids k maps[k] (List.getElem?_eq_getElem (by omega)), named, beq_iff_eq, originalIdOf_eq_iff (by omega),
        Bits.toNat_toUInt32_of_lt (by omega)]
      omega

/-! ## Initialization -/

/-- The array as `_ebpf_native_initialize_maps` leaves it for the table, in everything the
rounds leave alone. -/
structure Initialized (entries : List MapEntry) (maps : List EbpfNativeMap) : Prop where
  length : maps.length = entries.length
  entryAt : ∀ (j : Nat) (map : EbpfNativeMap), maps[j]? = some map → entries[j]? = some map.entry
  originalIdAt : ∀ (j : Nat) (map : EbpfNativeMap), maps[j]? = some map → map.originalId = originalIdOf j.toUInt32
  templateAt : ∀ (j : Nat) (map : EbpfNativeMap), maps[j]? = some map →
    innerMapIndex maps map = innerTemplate entries j

theorem exists_of_map_eq {α β : Type} {f : α → β} {maps other : List α} (same : maps.map f = other.map f)
    {j : Nat} {map : α} (found : other[j]? = some map) :
    ∃ original, maps[j]? = some original ∧ f original = f map := by
  have atJ := congrArg (fun l => l[j]?) same
  simp only [List.getElem?_map, found, Option.map_some, Option.map_eq_some_iff] at atJ
  exact atJ

theorem Initialized.congr {entries : List MapEntry} {maps other : List EbpfNativeMap}
    (initialized : Initialized entries maps) (same : maps.map frameOf = other.map frameOf) :
    Initialized entries other := by
  have length : other.length = maps.length := by
    simpa using (congrArg List.length same).symm
  refine ⟨length.trans initialized.length, fun j map found => ?_, fun j map found => ?_, fun j map found => ?_⟩
  all_goals obtain ⟨original, lookup, framed⟩ := exists_of_map_eq same found
  · have sameEntry : original.entry = map.entry := congrArg Prod.fst framed
    exact sameEntry ▸ initialized.entryAt j original lookup
  · have sameId : original.originalId = map.originalId := congrArg (fun frame => frame.2.1) framed
    exact sameId ▸ initialized.originalIdAt j original lookup
  · have sameInner : original.innerMapOriginalId = map.innerMapOriginalId :=
      congrArg (fun frame => frame.2.2.1) framed
    rw [innerMapIndex_eq_findIdx, ← same, ← sameInner, ← innerMapIndex_eq_findIdx]
    exact initialized.templateAt j original lookup

theorem initializeMap_eq_ok {env : MapEnvironment} {i : Nat} {entry : MapEntry} {map : EbpfNativeMap}
    (initialized : initializeMap env i entry = .ok map) :
    ∃ pinPath, map = ⟨entry, originalIdOf i.toUInt32, 0, none, none, pinPath, false, false⟩ := by
  unfold initializeMap at initialized
  split_ifs at initialized with unsupported byName allocated
  · split at initialized
    · exact ⟨_, (Except.ok.inj initialized).symm⟩
    · cases initialized
    · cases initialized
  · split at initialized <;> cases initialized
  · exact ⟨_, (Except.ok.inj initialized).symm⟩

theorem initializeMapsLoop_eq_ok {env : MapEnvironment} :
    ∀ {start : Nat} {entries : List MapEntry} {maps : List EbpfNativeMap},
      initializeMapsLoop env start entries = .ok maps →
      maps.map (fun map => map.entry) = entries ∧ ∀ (j : Nat) (map : EbpfNativeMap), maps[j]? = some map →
        ∃ pinPath, map = ⟨map.entry, originalIdOf (start + j).toUInt32, 0, none, none, pinPath, false, false⟩
  | _, [], maps, initialized => by
    cases initialized
    exact ⟨rfl, fun j map found => by simp at found⟩
  | start, entry :: rest, maps, initialized => by
    simp only [initializeMapsLoop] at initialized
    obtain ⟨first, made, initialized⟩ := Except.bind_eq_ok_iff.mp initialized
    obtain ⟨others, madeRest, initialized⟩ := Except.bind_eq_ok_iff.mp initialized
    obtain rfl : first :: others = maps := Except.ok.inj initialized
    obtain ⟨pinPath, rfl⟩ := initializeMap_eq_ok made
    obtain ⟨entries, shaped⟩ := initializeMapsLoop_eq_ok madeRest
    refine ⟨by simp [entries], fun j map found => ?_⟩
    cases j with
    | zero =>
      obtain rfl := Option.some.inj found
      exact ⟨pinPath, rfl⟩
    | succ j =>
      obtain ⟨pinPath, shape⟩ := shaped j map found
      refine ⟨pinPath, shape.trans ?_⟩
      rw [Nat.add_right_comm start 1 j, Nat.add_assoc start j 1]

theorem innerMapOriginalIdOf_eq_iff {first : List EbpfNativeMap} (few : first.length < 2 ^ 32 - 1) {i j : Nat}
    (inside : j < first.length) {original : EbpfNativeMap} (found : first[i]? = some original) :
    innerMapOriginalIdOf first i original = originalIdOf j.toUInt32 ↔
      innerTemplate (first.map fun map => map.entry) i = some j := by
  have entryAt : (first.map fun map => map.entry)[i]? = some original.entry := by simp [found]
  have missing := minusOne_ne_originalIdOf (show j < 2 ^ 32 - 2 by omega)
  simp only [innerTemplate, entryAt, List.length_map, innerMapOriginalIdOf, ebpfNativeIsMapInMap_eq_true,
    List.getElem?_map, Option.map_map, Function.comp_def]
  -- the same three tests of the entry pick the branch on both sides
  split_ifs with mapInMap indexed named
  · rw [originalIdOf_eq_iff (by omega)]
    simp
  · rw [originalIdOf_eq_iff (by omega)]
    simp only [iff_false]
    omega
  · cases lookup : List.find? _ (List.range first.length) with
    | none => simpa using missing
    | some k =>
      have below := List.mem_range.mp (List.find?_range_eq_some.mp lookup).2.1
      rw [Option.map_some, Option.getD_some, originalIdOf_eq_iff (by omega), Bits.toNat_toUInt32_of_lt (by omega)]
      simp
  · simpa using missing
  · simpa using missing

theorem innerMapIndex_initialized {entries : List MapEntry} {first : List EbpfNativeMap}
    (entries_eq : first.map (fun map => map.entry) = entries) (few : entries.length < 2 ^ 32 - 1)
    {maps : List EbpfNativeMap}
    (ids : ∀ (j : Nat) (map : EbpfNativeMap), maps[j]? = some map → map.originalId = originalIdOf j.toUInt32)
    (lengths : maps.length = entries.length) {i : Nat} {original : EbpfNativeMap} (found : first[i]? = some original) :
    innerMapIndex maps { original with innerMapOriginalId := innerMapOriginalIdOf first i original } =
      innerTemplate entries i := by
  subst entries_eq
  simp only [List.length_map] at lengths few
  apply Option.ext
  intro j
  rw [innerMapIndex_eq_some_iff (by omega) ids, lengths]
  constructor
  · rintro ⟨inside, named⟩
    exact (innerMapOriginalIdOf_eq_iff few inside found).mp named
  · intro template
    have inside : j < first.length := by simpa using innerTemplate_lt template
    exact ⟨inside, (innerMapOriginalIdOf_eq_iff few inside found).mpr template⟩

theorem ebpfNativeInitializeMaps_eq_ok {env : MapEnvironment} {entries : List MapEntry}
    (few : entries.length < 2 ^ 32 - 1) {maps : List EbpfNativeMap}
    (initialized : ebpfNativeInitializeMaps env entries = .ok maps) :
    Initialized entries maps ∧ ∀ map ∈ maps,
      map.handle = none ∧ map.innerMap = none ∧ map.pinned = false ∧ map.reused = false := by
  unfold ebpfNativeInitializeMaps at initialized
  obtain ⟨first, made, initialized⟩ := Except.bind_eq_ok_iff.mp initialized
  obtain rfl := (Except.ok.inj initialized).symm
  obtain ⟨entries_eq, shaped⟩ := initializeMapsLoop_eq_ok made
  have lengths : first.length = entries.length := by rw [← entries_eq, List.length_map]
  -- each map of the result is the loop's map at its index, with its inner map's id set
  have madeFrom : ∀ {j : Nat} {map : EbpfNativeMap}, (first.mapIdx fun i map =>
      { map with innerMapOriginalId := innerMapOriginalIdOf first i map })[j]? = some map →
      ∃ original, first[j]? = some original ∧
        { original with innerMapOriginalId := innerMapOriginalIdOf first j original } = map := by
    intro j map found
    rwa [List.getElem?_mapIdx, Option.map_eq_some_iff] at found
  have ids : ∀ (j : Nat) (map : EbpfNativeMap), (first.mapIdx fun i map =>
      { map with innerMapOriginalId := innerMapOriginalIdOf first i map })[j]? = some map →
      map.originalId = originalIdOf j.toUInt32 := by
    intro j map found
    obtain ⟨original, lookup, rfl⟩ := madeFrom found
    obtain ⟨_, shape⟩ := shaped j original lookup
    rw [shape]
    simp
  refine ⟨⟨by simp [lengths], fun j map found => ?_, ids, fun j map found => ?_⟩, fun map member => ?_⟩
  · obtain ⟨original, lookup, rfl⟩ := madeFrom found
    rw [← entries_eq, List.getElem?_map, lookup]
    rfl
  · obtain ⟨original, lookup, rfl⟩ := madeFrom found
    exact innerMapIndex_initialized entries_eq few ids (by simp [lengths]) lookup
  · obtain ⟨j, inside, rfl⟩ := List.getElem_of_mem member
    have inside : j < first.length := by simpa using inside
    rw [List.getElem_mapIdx]
    obtain ⟨_, shape⟩ := shaped j first[j] (List.getElem?_eq_getElem inside)
    rw [shape]
    simp

/-! ## The scan

`_ebpf_native_get_next_map_to_create` returns the first map without a handle that needs no
template or whose template has one, caching the templates it looks up on the way. -/

/-- Map `i` has no handle yet and its template, if it needs one, has. -/
def Selectable (entries : List MapEntry) (maps : List EbpfNativeMap) (i : Nat) : Prop :=
  i < maps.length ∧ handleAt maps i = none ∧
    Dependency.Ready (NeedsTemplate entries) (innerTemplate entries) (fun j => (handleAt maps j).isSome) i

/-- Every cached template is the map's inner template. -/
def CacheSound (entries : List MapEntry) (maps : List EbpfNativeMap) : Prop :=
  ∀ (j : Nat) (map : EbpfNativeMap), maps[j]? = some map → map.innerMap = none ∨ map.innerMap = innerTemplate entries j

theorem set_self_of_getElem? {α : Type} {l : List α} {i : Nat} {a : α} (found : l[i]? = some a) : l.set i a = l := by
  obtain ⟨inside, rfl⟩ := List.getElem?_eq_some_iff.mp found
  exact List.set_getElem_self inside

theorem eraseCache_set_innerMap {maps : List EbpfNativeMap} {i : Nat} {map : EbpfNativeMap}
    (found : maps[i]? = some map) (cached : Option Nat) :
    (maps.set i { map with innerMap := cached }).map eraseCache = maps.map eraseCache := by
  rw [List.map_set]
  exact set_self_of_getElem? (by simp [found]; rfl)

theorem Initialized.needsTemplate_iff {entries : List MapEntry} {maps : List EbpfNativeMap}
    (initialized : Initialized entries maps) {j : Nat} {map : EbpfNativeMap} (found : maps[j]? = some map) :
    NeedsTemplate entries j ↔ ebpfNativeIsMapInMap map = true := by
  rw [ebpfNativeIsMapInMap_eq_true, NeedsTemplate, initialized.entryAt j map found]
  simp

theorem innerTemplate_of_not_needs {entries : List MapEntry} {j : Nat} (free : ¬ NeedsTemplate entries j) :
    innerTemplate entries j = none := by
  unfold innerTemplate
  cases lookup : entries[j]? with
  | none => rfl
  | some entry =>
    have plain : ¬ (entry.type = .hashOfMaps ∨ entry.type = .arrayOfMaps) := fun mapInMap =>
      free ⟨entry, lookup, mapInMap⟩
    simp only [plain, if_false]

theorem Selectable.congr {entries : List MapEntry} {maps other : List EbpfNativeMap}
    (same : maps.map eraseCache = other.map eraseCache) (i : Nat) :
    Selectable entries maps i ↔ Selectable entries other i := by
  have lengths : maps.length = other.length := by simpa using congrArg List.length same
  unfold Selectable
  rw [handleAt_congr same, lengths]

theorem cachedInnerMap_spec {entries : List MapEntry} {maps : List EbpfNativeMap}
    (initialized : Initialized entries maps) (cache : CacheSound entries maps) {i : Nat} {map : EbpfNativeMap}
    (found : maps[i]? = some map) {cachedMaps : List EbpfNativeMap} {inner : Option Nat}
    (cached : cachedInnerMap maps i map = (cachedMaps, inner)) :
    cachedMaps.map eraseCache = maps.map eraseCache ∧ CacheSound entries cachedMaps ∧
      inner = innerTemplate entries i ∧ ∃ kept, cachedMaps[i]? = some kept ∧ kept.innerMap = inner := by
  unfold cachedInnerMap at cached
  split at cached
  · next j known =>
    obtain ⟨rfl, rfl⟩ := Prod.mk.inj cached
    have sound : some j = innerTemplate entries i := by
      simpa [known] using cache i map found
    exact ⟨rfl, cache, sound, map, found, known⟩
  · split at cached
    · next j looked =>
      obtain ⟨rfl, rfl⟩ := Prod.mk.inj cached
      have sound : some j = innerTemplate entries i := looked ▸ initialized.templateAt i map found
      have inside : i < maps.length := (List.getElem?_eq_some_iff.mp found).1
      refine ⟨eraseCache_set_innerMap found _, fun k other lookup => ?_, sound, _, List.getElem?_set_self inside, rfl⟩
      rw [List.getElem?_set] at lookup
      split_ifs at lookup with same
      · subst same
        obtain rfl := Option.some.inj lookup
        exact .inr sound
      · exact cache k other lookup
    · next missing =>
      obtain ⟨rfl, rfl⟩ := Prod.mk.inj cached
      have sound : none = innerTemplate entries i := missing ▸ initialized.templateAt i map found
      exact ⟨rfl, cache, sound, map, found, by assumption⟩

theorem getNextMapToCreateLoop_spec {entries : List MapEntry} :
    ∀ {indices : List Nat} {maps scanned : List EbpfNativeMap} {found : Option Nat},
      Initialized entries maps → CacheSound entries maps →
      getNextMapToCreateLoop indices maps = (scanned, found) →
      scanned.map eraseCache = maps.map eraseCache ∧ CacheSound entries scanned ∧
        (found = none → ∀ i ∈ indices, ¬ Selectable entries maps i) ∧
        ∀ i, found = some i → Selectable entries maps i ∧
          ∃ map, scanned[i]? = some map ∧ map.innerMap = innerTemplate entries i
  | [], maps, scanned, found, _, cache, scan => by
    obtain ⟨rfl, rfl⟩ := Prod.mk.inj scan
    exact ⟨rfl, cache, (fun _ _ member => by cases member), (fun _ wrong => by cases wrong)⟩
  | i :: rest, maps, scanned, found, initialized, cache, scan => by
    have next : ∀ {cachedMaps : List EbpfNativeMap}, cachedMaps.map eraseCache = maps.map eraseCache →
        CacheSound entries cachedMaps → ¬ Selectable entries maps i →
        getNextMapToCreateLoop rest cachedMaps = (scanned, found) →
        scanned.map eraseCache = maps.map eraseCache ∧ CacheSound entries scanned ∧
          (found = none → ∀ j ∈ i :: rest, ¬ Selectable entries maps j) ∧
          ∀ j, found = some j → Selectable entries maps j ∧
            ∃ map, scanned[j]? = some map ∧ map.innerMap = innerTemplate entries j := by
      intro cachedMaps same sound skipped scan
      obtain ⟨erased, scannedSound, none_found, some_found⟩ :=
        getNextMapToCreateLoop_spec (initialized.congr (frames_congr same).symm) sound scan
      refine ⟨erased.trans same, scannedSound, fun missing j member => ?_, fun j picked => ?_⟩
      · rcases List.mem_cons.mp member with rfl | later
        · exact skipped
        · exact (Selectable.congr same j).not.mp (none_found missing j later)
      · exact ⟨(Selectable.congr same j).mp (some_found j picked).1, (some_found j picked).2⟩
    simp only [getNextMapToCreateLoop] at scan
    split at scan
    · next outside =>
      have skipped : ¬ Selectable entries maps i := fun selectable =>
        absurd selectable.1 (Nat.not_lt.mpr (List.getElem?_eq_none_iff.mp outside))
      exact next rfl cache skipped scan
    · next map found =>
      have inside : i < maps.length := (List.getElem?_eq_some_iff.mp found).1
      have own : handleAt maps i = map.handle := by simp [handleAt, found]
      split_ifs at scan with created plain
      · -- already created
        have skipped : ¬ Selectable entries maps i := fun selectable => by
          have fresh := selectable.2.1
          rw [own] at fresh
          simp [fresh] at created
        exact next rfl cache skipped scan
      · -- not a map-in-map: this is the one
        obtain ⟨rfl, rfl⟩ := Prod.mk.inj scan
        have free : ¬ NeedsTemplate entries i := by
          rw [initialized.needsTemplate_iff found]
          simpa using plain
        have fresh : handleAt maps i = none := by
          rw [own]
          simpa using created
        refine ⟨rfl, cache, (fun wrong => by cases wrong), fun j picked => ?_⟩
        obtain rfl := Option.some.inj picked
        refine ⟨⟨inside, fresh, .inl free⟩, map, found, ?_⟩
        rcases cache i map found with uncached | template
        · rw [uncached, innerTemplate_of_not_needs free]
        · exact template
      · -- a map-in-map: its template is looked up, and it is the one if the template has a handle
        have needed : NeedsTemplate entries i := by
          rw [initialized.needsTemplate_iff found]
          simpa using plain
        have fresh : handleAt maps i = none := by
          rw [own]
          simpa using created
        split at scan
        · next cachedMaps cached =>
          obtain ⟨same, sound, missing, -⟩ := cachedInnerMap_spec initialized cache found cached
          have skipped : ¬ Selectable entries maps i := fun selectable => by
            rcases selectable.2.2 with free | ⟨b, template, _⟩
            · exact free needed
            · rw [← missing] at template
              cases template
          exact next same sound skipped scan
        · next cachedMaps j cached =>
          obtain ⟨same, sound, template, kept, keptAt, keptInner⟩ := cachedInnerMap_spec initialized cache found cached
          have innerHandle : handleAt cachedMaps j = handleAt maps j := by rw [handleAt_congr same]
          split_ifs at scan with innerMissing
          · have skipped : ¬ Selectable entries maps i := fun selectable => by
              rcases selectable.2.2 with free | ⟨b, found, valid⟩
              · exact free needed
              · obtain rfl : j = b := Option.some.inj (template.trans found)
                rw [innerHandle] at innerMissing
                simp [Option.isNone_iff_eq_none.mp innerMissing] at valid
            exact next same sound skipped scan
          · obtain ⟨rfl, rfl⟩ := Prod.mk.inj scan
            have valid : (handleAt maps j).isSome := by
              rw [← innerHandle, Option.isSome_iff_ne_none]
              simpa using innerMissing
            refine ⟨same, sound, (fun wrong => by cases wrong), fun k picked => ?_⟩
            obtain rfl := Option.some.inj picked
            exact ⟨⟨inside, fresh, .inr ⟨j, template.symm, valid⟩⟩, kept, keptAt, keptInner.trans template⟩

theorem ebpfNativeGetNextMapToCreate_spec {entries : List MapEntry} {maps scanned : List EbpfNativeMap}
    {found : Option Nat} (initialized : Initialized entries maps) (cache : CacheSound entries maps)
    (scan : ebpfNativeGetNextMapToCreate maps = (scanned, found)) :
    scanned.map eraseCache = maps.map eraseCache ∧ CacheSound entries scanned ∧
      (found = none → ∀ i, ¬ Selectable entries maps i) ∧
      ∀ i, found = some i → Selectable entries maps i ∧
        ∃ map, scanned[i]? = some map ∧ map.innerMap = innerTemplate entries i := by
  obtain ⟨same, sound, none_found, some_found⟩ := getNextMapToCreateLoop_spec initialized cache scan
  refine ⟨same, sound, fun missing i selectable => ?_, some_found⟩
  exact none_found missing i (List.mem_range.mpr selectable.1) selectable

/-! ## The invariant of the rounds -/

/-- The map and the handle a `created` or `reused` event gives it. -/
def MapEvent.acquired : MapEvent → Option (Nat × Nat)
  | .created index _ handle => some (index, handle)
  | .reused index handle => some (index, handle)
  | _ => none

/-- The maps in the order they got their handles. -/
def acquiredOrder (events : List MapEvent) : List Nat :=
  events.filterMap fun event => event.acquired.map Prod.fst

theorem acquiredOrder_append (events more : List MapEvent) :
    acquiredOrder (events ++ more) = acquiredOrder events ++ acquiredOrder more :=
  List.filterMap_append

theorem acquiredOrder_singleton {event : MapEvent} {i handle : Nat} (acquires : event.acquired = some (i, handle)) :
    acquiredOrder [event] = [i] := by
  simp [acquiredOrder, acquires]

theorem acquiredOrder_singleton_of_none {event : MapEvent} (none : event.acquired = none) :
    acquiredOrder [event] = [] := by
  simp [acquiredOrder, none]

/-- What holds between the rounds: the array is the initialized one up to handles, caches and
pin state; the maps with handles are those the log says got one, each once, each after its
template; and the log's handles, template handles and pins are those of the array. -/
structure Creating (entries : List MapEntry) (maps : List EbpfNativeMap) (events : List MapEvent) : Prop where
  initialized : Initialized entries maps
  cache : CacheSound entries maps
  handled : ∀ i, (handleAt maps i).isSome ↔ i ∈ acquiredOrder events
  nodup : (acquiredOrder events).Nodup
  ordered : Dependency.Ordered (NeedsTemplate entries) (innerTemplate entries) (acquiredOrder events)
  acquired : ∀ event ∈ events, ∀ i handle, event.acquired = some (i, handle) → handleAt maps i = some handle
  inner : ∀ i creation handle, MapEvent.created i creation handle ∈ events →
    (∀ j, innerTemplate entries i = some j → (handleAt maps j).isSome) ∧
      creation.innerMapHandle = (innerTemplate entries i).bind (handleAt maps)
  pins : ∀ handle path, MapEvent.pinned handle path ∈ events → ∃ (j : Nat) (map : EbpfNativeMap), maps[j]? = some map ∧
    map.handle = some handle ∧ map.pinPath = some path ∧ map.pinned = true ∧ map.reused = false
  fresh : ∀ (j : Nat) (map : EbpfNativeMap), maps[j]? = some map → map.handle = none → map.reused = false

theorem Creating.start {entries : List MapEntry} {maps : List EbpfNativeMap} (initialized : Initialized entries maps)
    (fresh : ∀ map ∈ maps, map.handle = none ∧ map.innerMap = none ∧ map.pinned = false ∧ map.reused = false) :
    Creating entries maps [] := by
  have noHandle : ∀ i, handleAt maps i = none := by
    intro i
    unfold handleAt
    cases lookup : maps[i]? with
    | none => rfl
    | some map => simpa using (fresh map (List.mem_of_getElem? lookup)).1
  refine ⟨initialized, fun j map found => .inl (fresh map (List.mem_of_getElem? found)).2.1,
    fun i => ?_, List.nodup_nil, .nil, (fun _ member => by cases member), (fun _ _ _ member => by cases member),
    (fun _ _ member => by cases member), fun j map found _ => (fresh map (List.mem_of_getElem? found)).2.2.2⟩
  simp [noHandle, acquiredOrder]

theorem Creating.rescan {entries : List MapEntry} {maps scanned : List EbpfNativeMap} {events : List MapEvent}
    (creating : Creating entries maps events) (same : scanned.map eraseCache = maps.map eraseCache)
    (sound : CacheSound entries scanned) : Creating entries scanned events := by
  have handles := handleAt_congr same
  refine ⟨creating.initialized.congr (frames_congr same).symm, sound, fun i => ?_, creating.nodup, creating.ordered,
    fun event member i handle acquires => ?_, fun i creation handle member => ?_, fun handle path member => ?_,
    fun j map found missing => ?_⟩
  · rw [handles]
    exact creating.handled i
  · rw [handles]
    exact creating.acquired event member i handle acquires
  · rw [handles]
    exact creating.inner i creation handle member
  · obtain ⟨j, map, found, pinnedState⟩ := creating.pins handle path member
    obtain ⟨other, lookup, erased⟩ := exists_of_map_eq same found
    have fields := congrArg (fun map : EbpfNativeMap => (map.handle, map.pinPath, map.pinned, map.reused)) erased
    simp only [eraseCache, Prod.mk.injEq] at fields
    exact ⟨j, other, lookup, fields.1.trans pinnedState.1, fields.2.1.trans pinnedState.2.1,
      fields.2.2.1.trans pinnedState.2.2.1, fields.2.2.2.trans pinnedState.2.2.2⟩
  · obtain ⟨original, lookup, erased⟩ := exists_of_map_eq same.symm found
    have fields := congrArg (fun map : EbpfNativeMap => (map.handle, map.reused)) erased
    simp only [eraseCache, Prod.mk.injEq] at fields
    rw [← fields.2]
    exact creating.fresh j original lookup (fields.1.trans missing)

theorem handleAt_set_of_isSome {maps : List EbpfNativeMap} {i j : Nat} (fresh : handleAt maps i = none)
    (valid : (handleAt maps j).isSome) (map : EbpfNativeMap) : handleAt (maps.set i map) j = handleAt maps j := by
  have different : j ≠ i := by
    rintro rfl
    simp [fresh] at valid
  unfold handleAt
  rw [List.getElem?_set_ne (Ne.symm different)]

theorem Creating.acquire {entries : List MapEntry} {maps : List EbpfNativeMap} {events : List MapEvent}
    (creating : Creating entries maps events) {i : Nat} (selectable : Selectable entries maps i)
    {map : EbpfNativeMap} (found : maps[i]? = some map) (handle : Nat) (reused pinned : Bool)
    {event : MapEvent} (acquires : event.acquired = some (i, handle))
    (creation : ∀ c h, event = .created i c h → c.innerMapHandle = (innerTemplate entries i).bind (handleAt maps))
    (notPin : ∀ h p, event ≠ .pinned h p) :
    Creating entries (maps.set i { map with handle := some handle, reused := reused, pinned := pinned })
      (events ++ [event]) := by
  obtain ⟨inside, fresh, ready⟩ := selectable
  have handles := handleAt_set inside { map with handle := some handle, reused := reused, pinned := pinned }
  have order : acquiredOrder (events ++ [event]) = acquiredOrder events ++ [i] := by
    rw [acquiredOrder_append, acquiredOrder_singleton acquires]
  have notYet : i ∉ acquiredOrder events := fun member => by
    simpa [fresh] using (creating.handled i).mpr member
  have templateReady : ∀ j, innerTemplate entries i = some j → (handleAt maps j).isSome := by
    intro j template
    rcases ready with free | ⟨b, found, made⟩
    · rw [innerTemplate_of_not_needs free] at template
      cases template
    · obtain rfl : b = j := Option.some.inj (found.symm.trans template)
      exact made
  have templateKept : (innerTemplate entries i).bind (handleAt (maps.set i
      { map with handle := some handle, reused := reused, pinned := pinned })) =
      (innerTemplate entries i).bind (handleAt maps) := by
    cases template : innerTemplate entries i with
    | none => rfl
    | some j => exact handleAt_set_of_isSome fresh (templateReady j template) _
  refine ⟨creating.initialized.congr ?_, fun k other lookup => ?_, fun k => ?_, ?_, ?_,
    fun other member k h acquiresOther => ?_, fun k c h member => ?_, fun h p member => ?_,
    fun k other lookup missing => ?_⟩
  · rw [List.map_set]
    exact (set_self_of_getElem? (by simp [found]; rfl)).symm
  · rw [List.getElem?_set] at lookup
    split_ifs at lookup with same
    · subst same
      obtain rfl := Option.some.inj lookup
      exact creating.cache _ map found
    · exact creating.cache k other lookup
  · rw [handles, order, List.mem_append, List.mem_singleton]
    by_cases same : k = i
    · simp [same]
    · simp [same, creating.handled k]
  · rw [order]
    exact creating.nodup.append (List.nodup_singleton i) (List.disjoint_singleton.mpr notYet)
  · rw [order]
    exact creating.ordered.snoc (Dependency.Ready.imp ready fun b made => (creating.handled b).mp made)
  · rcases List.mem_append.mp member with earlier | last
    · have before := creating.acquired other earlier k h acquiresOther
      rw [handleAt_set_of_isSome fresh (by simp [before]) _]
      exact before
    · obtain rfl := List.mem_singleton.mp last
      rw [acquires] at acquiresOther
      obtain ⟨rfl, rfl⟩ := Prod.mk.inj (Option.some.inj acquiresOther)
      rw [handles, if_pos rfl]
  · rcases List.mem_append.mp member with earlier | last
    · obtain ⟨templates, innerHandle⟩ := creating.inner k c h earlier
      have kept : (innerTemplate entries k).bind (handleAt (maps.set i
          { map with handle := some handle, reused := reused, pinned := pinned })) =
          (innerTemplate entries k).bind (handleAt maps) := by
        cases template : innerTemplate entries k with
        | none => rfl
        | some j => exact handleAt_set_of_isSome fresh (templates j template) _
      refine ⟨fun j template => ?_, innerHandle.trans kept.symm⟩
      rw [handleAt_set_of_isSome fresh (templates j template) _]
      exact templates j template
    · obtain rfl := List.mem_singleton.mp last
      have sameIndex : k = i := (by simpa [MapEvent.acquired] using acquires : k = i ∧ h = handle).1
      subst sameIndex
      refine ⟨fun j template => ?_, (creation c h rfl).trans templateKept.symm⟩
      rw [handleAt_set_of_isSome fresh (templateReady j template) _]
      exact templateReady j template
  · rcases List.mem_append.mp member with earlier | last
    · obtain ⟨j, pinnedMap, lookup, pinnedState⟩ := creating.pins h p earlier
      have different : i ≠ j := by
        rintro rfl
        simp [handleAt, lookup, pinnedState.1] at fresh
      exact ⟨j, pinnedMap, by rw [List.getElem?_set_ne different]; exact lookup, pinnedState⟩
    · exact (notPin h p (List.mem_singleton.mp last).symm).elim
  · rw [List.getElem?_set] at lookup
    split_ifs at lookup with same
    · obtain rfl := Option.some.inj lookup
      cases missing
    · exact creating.fresh k other lookup missing

theorem Creating.pin {entries : List MapEntry} {maps : List EbpfNativeMap} {events : List MapEvent}
    (creating : Creating entries maps events) {j : Nat} {map : EbpfNativeMap} (found : maps[j]? = some map)
    {handle : Nat} {path : List Char} (handleIs : map.handle = some handle) (pathIs : map.pinPath = some path)
    (pinned : map.pinned = true) (fresh : map.reused = false) :
    Creating entries maps (events ++ [.pinned handle path]) := by
  have order : acquiredOrder (events ++ [.pinned handle path]) = acquiredOrder events := by
    rw [acquiredOrder_append, acquiredOrder_singleton_of_none rfl, List.append_nil]
  refine ⟨creating.initialized, creating.cache, order ▸ creating.handled, order ▸ creating.nodup,
    order ▸ creating.ordered, fun event member i h acquires => ?_, fun i c h member => ?_, fun h p member => ?_,
    creating.fresh⟩
  · rcases List.mem_append.mp member with earlier | last
    · exact creating.acquired event earlier i h acquires
    · obtain rfl := List.mem_singleton.mp last
      cases acquires
  · rcases List.mem_append.mp member with earlier | last
    · exact creating.inner i c h earlier
    · cases List.mem_singleton.mp last
  · rcases List.mem_append.mp member with earlier | last
    · exact creating.pins h p earlier
    · obtain ⟨rfl, rfl⟩ := MapEvent.pinned.inj (List.mem_singleton.mp last)
      exact ⟨j, map, found, handleIs, pathIs, pinned, fresh⟩

theorem Creating.close {entries : List MapEntry} {maps : List EbpfNativeMap} {events : List MapEvent}
    (creating : Creating entries maps events) (handle : Nat) : Creating entries maps (events ++ [.closed handle]) := by
  have order : acquiredOrder (events ++ [.closed handle]) = acquiredOrder events := by
    rw [acquiredOrder_append, acquiredOrder_singleton_of_none rfl, List.append_nil]
  refine ⟨creating.initialized, creating.cache, order ▸ creating.handled, order ▸ creating.nodup,
    order ▸ creating.ordered, fun event member i h acquires => ?_, fun i c h member => ?_, fun h p member => ?_,
    creating.fresh⟩
  · rcases List.mem_append.mp member with earlier | last
    · exact creating.acquired event earlier i h acquires
    · obtain rfl := List.mem_singleton.mp last
      cases acquires
  · rcases List.mem_append.mp member with earlier | last
    · exact creating.inner i c h earlier
    · cases List.mem_singleton.mp last
  · rcases List.mem_append.mp member with earlier | last
    · exact creating.pins h p earlier
    · cases List.mem_singleton.mp last

/-! ## One round -/

/-- Every call out of the module succeeds: allocations, pinned-object lookups (finding
nothing counts), validations, creations and pin updates. -/
structure MapEnvironment.Succeeds (env : MapEnvironment) : Prop where
  allocates : ∀ site, env.allocate site = true
  finds : ∀ round path failure, env.getPinnedObject round path = .error failure → failure.result = .keyNotFound
  validates : ∀ round map handle, env.validateMap round map handle = .success
  creates : ∀ round creation failure, env.createMap round creation ≠ .error failure
  pins : ∀ round handle path, env.updatePinning round handle path = .success

theorem ebpfNativeReuseMap_cases {env : MapEnvironment} {round i : Nat} {map reusedMap : EbpfNativeMap}
    {result : EbpfResult} {events : List MapEvent}
    (reuse : ebpfNativeReuseMap env round i map = (result, reusedMap, events)) :
    (result = .success ∧ reusedMap = map ∧ events = []) ∨
      (∃ handle, result = .success ∧ reusedMap = { map with handle := some handle, reused := true, pinned := true } ∧
        events = [.reused i handle]) ∨
      (result ≠ .success ∧ (events = [] ∨ ∃ handle, events = [.closed handle])) := by
  unfold ebpfNativeReuseMap at reuse
  split at reuse
  · next failure _ =>
    split_ifs at reuse with missing
    · obtain ⟨rfl, rfl, rfl⟩ := reuse
      exact .inl ⟨rfl, rfl, rfl⟩
    · obtain ⟨rfl, rfl, rfl⟩ := reuse
      exact .inr (.inr ⟨failure.failed, .inl rfl⟩)
  · next handle _ =>
    split at reuse
    · obtain ⟨rfl, rfl, rfl⟩ := reuse
      exact .inr (.inl ⟨handle, rfl, rfl, rfl⟩)
    · next invalid =>
      obtain ⟨rfl, rfl, rfl⟩ := reuse
      exact .inr (.inr ⟨invalid, .inr ⟨handle, rfl⟩⟩)

theorem ebpfNativeReuseMap_of_succeeds {env : MapEnvironment} (succeeds : env.Succeeds) (round i : Nat)
    (map : EbpfNativeMap) : (ebpfNativeReuseMap env round i map).1 = .success := by
  unfold ebpfNativeReuseMap
  split
  · next failure looked => simp [succeeds.finds _ _ failure looked]
  · simp [succeeds.validates]

theorem createNativeMap_cases {env : MapEnvironment} {round i : Nat} {maps created : List EbpfNativeMap}
    {map : EbpfNativeMap} {result : EbpfResult} {events : List MapEvent}
    (create : createNativeMap env round i maps map = (result, created, events)) :
    (result ≠ .success ∧ created = maps ∧ events = []) ∨
      (∃ handle, created = maps.set i { map with handle := some handle } ∧
        events = [.created i (mapCreation maps map) handle]) ∨
      (∃ handle path, map.pinPath = some path ∧ map.pinned = false ∧
        created = maps.set i { map with handle := some handle, pinned := true } ∧
        events = [.created i (mapCreation maps map) handle, .pinned handle path]) := by
  unfold createNativeMap at create
  split_ifs at create with allocated
  · dsimp only at create
    split at create
    · next failure _ =>
      obtain ⟨rfl, rfl, rfl⟩ := create
      exact .inl ⟨failure.failed, rfl, rfl⟩
    · next handle _ =>
      split at create
      · next path pathIs unpinned =>
        split at create
        · obtain ⟨rfl, rfl, rfl⟩ := create
          exact .inr (.inr ⟨handle, path, pathIs, unpinned, rfl, rfl⟩)
        · obtain ⟨rfl, rfl, rfl⟩ := create
          exact .inr (.inl ⟨handle, rfl, rfl⟩)
      · obtain ⟨rfl, rfl, rfl⟩ := create
        exact .inr (.inl ⟨handle, rfl, rfl⟩)
  · obtain ⟨rfl, rfl, rfl⟩ := create
    exact .inl ⟨by decide, rfl, rfl⟩

theorem createNativeMap_of_succeeds {env : MapEnvironment} (succeeds : env.Succeeds) (round i : Nat)
    (maps : List EbpfNativeMap) (map : EbpfNativeMap) : (createNativeMap env round i maps map).1 = .success := by
  unfold createNativeMap
  rw [if_pos (succeeds.allocates _)]
  dsimp only
  split
  · next failure created => exact absurd created (succeeds.creates _ _ failure)
  · split
    · simp [succeeds.pins]
    · rfl

theorem createNativeMap_spec {entries : List MapEntry} {maps created : List EbpfNativeMap} {events new : List MapEvent}
    (creating : Creating entries maps events) {i : Nat} (selectable : Selectable entries maps i)
    {map : EbpfNativeMap} (found : maps[i]? = some map) (innerKnown : map.innerMap = innerTemplate entries i)
    {env : MapEnvironment} {round : Nat} {result : EbpfResult}
    (create : createNativeMap env round i maps map = (result, created, new)) :
    Creating entries created (events ++ new) ∧ (result = .success → (acquiredOrder new).length = 1) := by
  have fresh : map.handle = none := by simpa [handleAt, found] using selectable.2.1
  have innerHandle : (mapCreation maps map).innerMapHandle = (innerTemplate entries i).bind (handleAt maps) := by
    simp [mapCreation, innerKnown]
  rcases createNativeMap_cases create with ⟨failed, rfl, rfl⟩ | ⟨handle, rfl, rfl⟩ | ⟨handle, path, pathIs, unpinned, rfl, rfl⟩
  · exact ⟨by simpa using creating, fun succeeded => absurd succeeded failed⟩
  · refine ⟨creating.acquire selectable found handle map.reused map.pinned rfl ?_ (fun _ _ => by simp), fun _ => ?_⟩
    · rintro c h ⟨-, rfl, -⟩
      exact innerHandle
    · rw [acquiredOrder_singleton rfl]
      rfl
  · have acquired : Creating entries (maps.set i { map with handle := some handle, pinned := true })
        (events ++ [.created i (mapCreation maps map) handle]) :=
      creating.acquire selectable found handle map.reused true rfl (by rintro c h ⟨-, rfl, -⟩; exact innerHandle)
        (fun _ _ => by simp)
    have inside : i < maps.length := selectable.1
    have pinnedAt := acquired.pin (List.getElem?_set_self inside) rfl pathIs rfl (creating.fresh i map found fresh)
    refine ⟨by simpa using pinnedAt, fun _ => ?_⟩
    rw [show [MapEvent.created i (mapCreation maps map) handle, .pinned handle path] =
      [MapEvent.created i (mapCreation maps map) handle] ++ [.pinned handle path] from rfl, acquiredOrder_append,
      acquiredOrder_singleton rfl, acquiredOrder_singleton_of_none rfl]
    rfl

theorem createMapsRound_spec {entries : List MapEntry} {maps played : List EbpfNativeMap} {events new : List MapEvent}
    (creating : Creating entries maps events) {env : MapEnvironment} {round : Nat} {result : EbpfResult}
    (roundPlayed : createMapsRound env round maps = (result, played, new)) :
    Creating entries played (events ++ new) ∧ (result = .success → (acquiredOrder new).length = 1) ∧
      (env.Succeeds → result = .success ∨ (result = .invalidObject ∧ new = [] ∧
        played.map eraseCache = maps.map eraseCache ∧ ∀ i, ¬ Selectable entries maps i)) := by
  unfold createMapsRound at roundPlayed
  cases scan : ebpfNativeGetNextMapToCreate maps with
  | mk scanned found =>
  rw [scan] at roundPlayed
  obtain ⟨same, sound, none_found, some_found⟩ :=
    ebpfNativeGetNextMapToCreate_spec creating.initialized creating.cache scan
  have rescanned := creating.rescan same sound
  cases found with
  | none =>
    obtain ⟨rfl, rfl, rfl⟩ := roundPlayed
    exact ⟨by simpa using rescanned, (fun wrong => by cases wrong), fun _ => .inr ⟨rfl, rfl, same, none_found rfl⟩⟩
  | some i =>
    obtain ⟨selectable, map, found, innerKnown⟩ := some_found i rfl
    have picked : Selectable entries scanned i := (Selectable.congr same i).mpr selectable
    have fresh : map.reused = false :=
      rescanned.fresh i map found (by simpa [handleAt, found] using picked.2.1)
    simp only [found] at roundPlayed
    have created : createNativeMap env round i scanned map = (result, played, new) →
        Creating entries played (events ++ new) ∧ (result = .success → (acquiredOrder new).length = 1) ∧
          (env.Succeeds → result = .success ∨ (result = .invalidObject ∧ new = [] ∧
            played.map eraseCache = maps.map eraseCache ∧ ∀ i, ¬ Selectable entries maps i)) := fun create => by
      obtain ⟨kept, counted⟩ := createNativeMap_spec rescanned picked found innerKnown create
      refine ⟨kept, counted, fun succeeds => .inl ?_⟩
      have made := createNativeMap_of_succeeds succeeds round i scanned map
      rwa [create] at made
    split_ifs at roundPlayed with byName
    · -- pinned by name: a pinned object that passes validation is taken instead
      split at roundPlayed
      · next reusedMap reuseEvents reuse =>
        split_ifs at roundPlayed with wasReused
        · obtain ⟨rfl, rfl, rfl⟩ := roundPlayed
          rcases ebpfNativeReuseMap_cases reuse with ⟨-, rfl, -⟩ | ⟨handle, -, rfl, rfl⟩ | ⟨failed, -⟩
          · simp [fresh] at wasReused
          · refine ⟨rescanned.acquire picked found handle true true rfl (fun _ _ wrong => by cases wrong)
              (fun _ _ => by simp), fun _ => ?_, fun _ => .inl rfl⟩
            rw [acquiredOrder_singleton rfl]
            rfl
          · exact absurd rfl failed
        · rcases ebpfNativeReuseMap_cases reuse with ⟨-, rfl, rfl⟩ | ⟨handle, -, rfl, -⟩ | ⟨failed, -⟩
          · exact created roundPlayed
          · simp at wasReused
          · exact absurd rfl failed
      · next failedResult reusedMap reuseEvents failed reuse =>
        obtain ⟨rfl, rfl, rfl⟩ := roundPlayed
        refine ⟨?_, fun succeeded => absurd succeeded failed, fun succeeds => ?_⟩
        · rcases ebpfNativeReuseMap_cases reuse with ⟨succeeded, -⟩ | ⟨_, succeeded, -⟩ | ⟨-, rfl | ⟨handle, rfl⟩⟩
          · exact absurd succeeded failed
          · exact absurd succeeded failed
          · simpa using rescanned
          · exact rescanned.close handle
        · have reused := ebpfNativeReuseMap_of_succeeds succeeds round i map
          rw [reuse] at reused
          exact absurd reused failed
    · exact created roundPlayed

/-! ## The rounds -/

theorem createMapsLoop_spec {entries : List MapEntry} {env : MapEnvironment} :
    ∀ {remaining round : Nat} {maps final : List EbpfNativeMap} {events logged : List MapEvent}
      {result : EbpfResult},
      Creating entries maps events → createMapsLoop env round remaining maps events = (result, final, logged) →
      Creating entries final logged ∧
        (result = .success → (acquiredOrder logged).length = (acquiredOrder events).length + remaining) ∧
        (env.Succeeds → result = .success ∨ (result = .invalidObject ∧
          (acquiredOrder logged).length < (acquiredOrder events).length + remaining ∧
          ∀ i, ¬ Selectable entries final i))
  | 0, _, maps, final, events, logged, result, creating, looped => by
    obtain ⟨rfl, rfl, rfl⟩ := looped
    exact ⟨creating, (fun _ => rfl), fun _ => .inl rfl⟩
  | remaining + 1, round, maps, final, events, logged, result, creating, looped => by
    simp only [createMapsLoop] at looped
    cases played : createMapsRound env round maps with
    | mk roundResult rest =>
    obtain ⟨afterRound, new⟩ := rest
    obtain ⟨kept, counted, succeeded⟩ := createMapsRound_spec creating played
    rw [played] at looped
    split at looped
    · next heq =>
      simp only [Prod.mk.injEq] at heq
      obtain ⟨rfl, rfl, rfl⟩ := heq
      obtain ⟨finalKept, finalCounted, finalSucceeded⟩ := createMapsLoop_spec kept looped
      have grown : (acquiredOrder (events ++ new)).length = (acquiredOrder events).length + 1 := by
        rw [acquiredOrder_append, List.length_append, counted rfl]
      refine ⟨finalKept, fun success => ?_, fun succeeds => ?_⟩
      · rw [finalCounted success, grown]
        omega
      · rcases finalSucceeded succeeds with success | ⟨invalid, fewer, stuck⟩
        · exact .inl success
        · exact .inr ⟨invalid, by omega, stuck⟩
    · next notSuccess heq =>
      simp only [Prod.mk.injEq] at heq
      obtain ⟨rfl, rfl, rfl⟩ := heq
      obtain ⟨rfl, rfl, rfl⟩ := looped
      refine ⟨kept, (fun success => absurd success notSuccess), fun succeeds => ?_⟩
      rcases succeeded succeeds with success | ⟨invalid, rfl, same, stuck⟩
      · exact absurd success notSuccess
      · refine .inr ⟨invalid, by simp, fun i selectable => stuck i ((Selectable.congr same i).mp selectable)⟩

/-! ## `_ebpf_native_create_maps` -/

/-- Every map's pinning flag is `LIBBPF_PIN_NONE` or `LIBBPF_PIN_BY_NAME`, and the name of
every map pinned by name canonicalizes into a pin path. -/
def PinningSupported (entries : List MapEntry) : Prop :=
  ∀ entry ∈ entries, entry.pinning = libbpfPinNone ∨
    (entry.pinning = libbpfPinByName ∧ ∃ path, ebpfCanonicalizePath ebpfMaxPinPathLength entry.name = some (.ok path))

/-- Map `i` needs map `j` as its inner template. -/
def TemplateStep (entries : List MapEntry) : Nat → Nat → Prop :=
  Dependency.Step (NeedsTemplate entries) (innerTemplate entries)

/-- From some map-in-map, following inner templates reaches a map-in-map without one, or a
cycle (a map its own template included). -/
def BrokenTemplates (entries : List MapEntry) : Prop :=
  ∃ i k, NeedsTemplate entries i ∧ Relation.ReflTransGen (TemplateStep entries) i k ∧
    ((NeedsTemplate entries k ∧ innerTemplate entries k = none) ∨ Relation.TransGen (TemplateStep entries) k k)

/-- Every map-in-map has an inner template. -/
def TemplatesTotal (entries : List MapEntry) : Prop :=
  ∀ i, NeedsTemplate entries i → (innerTemplate entries i).isSome

/-- No chain of inner templates comes back to where it started. -/
def TemplatesAcyclic (entries : List MapEntry) : Prop :=
  ∀ i, ¬ Relation.TransGen (TemplateStep entries) i i

theorem initializeMap_of_supported {env : MapEnvironment} (succeeds : env.Succeeds) (i : Nat) {entry : MapEntry}
    (supported : entry.pinning = libbpfPinNone ∨
      (entry.pinning = libbpfPinByName ∧ ∃ path, ebpfCanonicalizePath ebpfMaxPinPathLength entry.name = some (.ok path))) :
    ∃ map, initializeMap env i entry = .ok map := by
  unfold initializeMap
  rcases supported with none | ⟨byName, path, canonical⟩
  · have notByName : entry.pinning ≠ libbpfPinByName := by simp [none, libbpfPinNone, libbpfPinByName]
    rw [if_neg (fun unsupported => unsupported.1 none), if_neg notByName]
    exact ⟨_, rfl⟩
  · simp [byName, canonical, succeeds.allocates]

theorem initializeMapsLoop_of_supported {env : MapEnvironment} (succeeds : env.Succeeds) :
    ∀ (start : Nat) {entries : List MapEntry}, PinningSupported entries →
      ∃ maps, initializeMapsLoop env start entries = .ok maps
  | _, [], _ => ⟨[], rfl⟩
  | start, entry :: rest, supported => by
    obtain ⟨map, made⟩ := initializeMap_of_supported succeeds start (supported entry List.mem_cons_self)
    obtain ⟨maps, madeRest⟩ :=
      initializeMapsLoop_of_supported succeeds (start + 1) fun other member => supported other (List.mem_cons_of_mem _ member)
    exact ⟨map :: maps, by simp [initializeMapsLoop, made, madeRest]⟩

theorem initializeMap_error {env : MapEnvironment} {i : Nat} {entry : MapEntry} {result : EbpfResult}
    (failed : initializeMap env i entry = .error result) : result ≠ .success := by
  have canonical : ∀ {result : EbpfResult},
      ebpfCanonicalizePath ebpfMaxPinPathLength entry.name = some (.error result) → result ≠ .success := by
    intro result canonicalFailed
    rcases ebpfCanonicalizePath_error canonicalFailed with rfl | rfl <;> decide
  unfold initializeMap at failed
  split_ifs at failed with unsupported byName allocated
  · exact Except.error.inj failed ▸ by decide
  · -- pinned by name, with the pin path allocated
    split at failed
    · cases failed
    · next canonicalFailed => exact Except.error.inj failed ▸ canonical canonicalFailed
    · exact Except.error.inj failed ▸ by decide
  · -- pinned by name, out of memory for the pin path
    split at failed
    · exact Except.error.inj failed ▸ by decide
    · next canonicalFailed => exact Except.error.inj failed ▸ canonical canonicalFailed
    · exact Except.error.inj failed ▸ by decide

theorem initializeMapsLoop_error {env : MapEnvironment} :
    ∀ {start : Nat} {entries : List MapEntry} {result : EbpfResult},
      initializeMapsLoop env start entries = .error result → result ≠ .success
  | _, [], _, failed => by cases failed
  | start, entry :: rest, result, failed => by
    simp only [initializeMapsLoop] at failed
    rcases Except.bind_eq_error_iff.mp failed with first | ⟨map, -, failed⟩
    · exact initializeMap_error first
    · rcases Except.bind_eq_error_iff.mp failed with later | ⟨_, -, wrong⟩
      · exact initializeMapsLoop_error later
      · cases wrong

theorem ebpfNativeInitializeMaps_of_supported {env : MapEnvironment} (succeeds : env.Succeeds)
    {entries : List MapEntry} (supported : PinningSupported entries) :
    ∃ maps, ebpfNativeInitializeMaps env entries = .ok maps := by
  obtain ⟨first, made⟩ := initializeMapsLoop_of_supported succeeds 0 supported
  exact ⟨_, by simp [ebpfNativeInitializeMaps, made]; rfl⟩

theorem ebpfNativeCreateMaps_cases {env : MapEnvironment} {entries : List MapEntry} {outcome : CreateMapsOutcome}
    (created : ebpfNativeCreateMaps env entries = outcome) :
    (entries = [] ∧ outcome = ⟨.success, none, 0, []⟩) ∨
      (outcome.result ≠ .success ∧ outcome.maps = none ∧ outcome.mapCount = 0 ∧ outcome.events = [] ∧
        (env.Succeeds → ¬ PinningSupported entries)) ∨
      (∃ initial final logged, ebpfNativeInitializeMaps env entries = .ok initial ∧
        createMapsLoop env 0 entries.length initial [] = (.success, final, logged) ∧
        outcome = ⟨.success, some final, entries.length, logged⟩) ∨
      (∃ initial final logged result, ebpfNativeInitializeMaps env entries = .ok initial ∧
        createMapsLoop env 0 entries.length initial [] = (result, final, logged) ∧ result ≠ .success ∧
        outcome = ⟨result, none, 0, logged ++ ebpfNativeCleanUpMaps final⟩) := by
  subst created
  unfold ebpfNativeCreateMaps
  split_ifs with empty allocated
  · exact .inl ⟨List.length_eq_zero_iff.mp empty, rfl⟩
  · refine .inr (.inl ⟨by decide, rfl, rfl, rfl, fun succeeds _ => ?_⟩)
    simp [succeeds.allocates] at allocated
  · split
    · next result failed =>
      refine .inr (.inl ⟨fun success => ?_, rfl, rfl, rfl, fun succeeds supported => ?_⟩)
      · -- a failed initialization returns its own error, which is never `EBPF_SUCCESS`
        unfold ebpfNativeInitializeMaps at failed
        rcases Except.bind_eq_error_iff.mp failed with first | ⟨_, -, wrong⟩
        · exact initializeMapsLoop_error first success
        · cases wrong
      · obtain ⟨maps, made⟩ := ebpfNativeInitializeMaps_of_supported succeeds supported
        rw [made] at failed
        cases failed
    · next initial made =>
      cases looped : createMapsLoop env 0 entries.length initial [] with
      | mk result rest =>
      obtain ⟨final, logged⟩ := rest
      by_cases success : result = .success
      · subst success
        exact .inr (.inr (.inl ⟨initial, final, logged, made, looped, rfl⟩))
      · refine .inr (.inr (.inr ⟨initial, final, logged, result, made, looped, success, ?_⟩))
        split
        · next heq => exact absurd (Prod.mk.inj heq).1 success
        · next heq =>
          simp only [Prod.mk.injEq] at heq
          obtain ⟨rfl, rfl, rfl⟩ := heq
          rfl

theorem mem_of_nodup_of_length {order : List Nat} {n : Nat} (nodup : order.Nodup) (bounded : ∀ a ∈ order, a < n)
    (length : order.length = n) {a : Nat} (inside : a < n) : a ∈ order := by
  have sub : order.toFinset ⊆ Finset.range n := fun b member =>
    Finset.mem_range.mpr (bounded b (List.mem_toFinset.mp member))
  have card : (Finset.range n).card ≤ order.toFinset.card := by
    rw [List.toFinset_card_of_nodup nodup, length, Finset.card_range]
  have same := Finset.eq_of_subset_of_card_le sub card
  exact List.mem_toFinset.mp (same ▸ Finset.mem_range.mpr inside)

theorem exists_not_mem_of_length_lt {order : List Nat} {n : Nat} (nodup : order.Nodup) (short : order.length < n) :
    ∃ a < n, a ∉ order := by
  by_contra full
  push Not at full
  have sub : Finset.range n ⊆ order.toFinset := fun a inside =>
    List.mem_toFinset.mpr (full a (Finset.mem_range.mp inside))
  have card := Finset.card_le_card sub
  rw [Finset.card_range, List.toFinset_card_of_nodup nodup] at card
  omega

theorem lt_of_reflTransGen {entries : List MapEntry} {i k : Nat}
    (path : Relation.ReflTransGen (TemplateStep entries) i k) (inside : i < entries.length) : k < entries.length := by
  induction path with
  | refl => exact inside
  | tail _ step _ => exact innerTemplate_lt step.2

theorem not_needsTemplate_of_le {entries : List MapEntry} {i : Nat} (outside : entries.length ≤ i) :
    ¬ NeedsTemplate entries i := by
  rintro ⟨entry, found, -⟩
  rw [List.getElem?_eq_none outside] at found
  cases found

theorem Creating.mem_order_iff {entries : List MapEntry} {maps : List EbpfNativeMap} {events : List MapEvent}
    (creating : Creating entries maps events) (counted : (acquiredOrder events).length = entries.length) (i : Nat) :
    i ∈ acquiredOrder events ↔ i < entries.length := by
  have bounded : ∀ a ∈ acquiredOrder events, a < entries.length := fun a member =>
    creating.initialized.length ▸ handleAt_lt ((creating.handled a).mpr member)
  exact ⟨bounded i, mem_of_nodup_of_length creating.nodup bounded counted⟩

theorem Creating.resolves {entries : List MapEntry} {maps : List EbpfNativeMap} {events : List MapEvent}
    (creating : Creating entries maps events) (counted : (acquiredOrder events).length = entries.length) (i : Nat) :
    Dependency.Resolves (NeedsTemplate entries) (innerTemplate entries) i := by
  by_cases inside : i < entries.length
  · exact creating.ordered.resolves i ((creating.mem_order_iff counted i).mpr inside)
  · exact .free (not_needsTemplate_of_le (by omega))

theorem createMapsLoop_success {env : MapEnvironment} (succeeds : env.Succeeds) {entries : List MapEntry}
    (resolving : ∀ i, Dependency.Resolves (NeedsTemplate entries) (innerTemplate entries) i)
    {initial final : List EbpfNativeMap} {logged : List MapEvent} {result : EbpfResult}
    (creating : Creating entries initial [])
    (looped : createMapsLoop env 0 entries.length initial [] = (result, final, logged)) : result = .success := by
  obtain ⟨kept, -, succeeded⟩ := createMapsLoop_spec creating looped
  rcases succeeded succeeds with success | ⟨-, fewer, stuck⟩
  · exact success
  · -- fewer maps than the table holds have handles, so one of them is missing one
    simp only [acquiredOrder, List.filterMap_nil, List.length_nil, Nat.zero_add] at fewer
    obtain ⟨missing, inside, notDone⟩ := exists_not_mem_of_length_lt kept.nodup fewer
    have fresh : ¬ (handleAt final missing).isSome = true := fun valid => notDone ((kept.handled missing).mp valid)
    obtain ⟨k, path, notMade, ready⟩ := @Dependency.Resolves.exists_ready Nat (NeedsTemplate entries)
      (innerTemplate entries) (fun j => (handleAt final j).isSome = true) missing (resolving missing) fresh
    have kInside := lt_of_reflTransGen path inside
    refine absurd ⟨by rw [kept.initialized.length]; exact kInside, ?_, ready⟩ (stuck k)
    simpa using notMade

theorem closed_mem_ebpfNativeCleanUpMaps {maps : List EbpfNativeMap} {i : Nat} {map : EbpfNativeMap}
    (found : maps[i]? = some map) {handle : Nat} (valid : map.handle = some handle) :
    MapEvent.closed handle ∈ ebpfNativeCleanUpMaps maps :=
  List.mem_flatMap.mpr ⟨map, List.mem_of_getElem? found, by simp [valid]⟩

theorem unpinned_mem_ebpfNativeCleanUpMaps {maps : List EbpfNativeMap} {i : Nat} {map : EbpfNativeMap}
    (found : maps[i]? = some map) {path : List Char} (pathIs : map.pinPath = some path) (pinned : map.pinned = true)
    (fresh : map.reused = false) : MapEvent.unpinned path ∈ ebpfNativeCleanUpMaps maps :=
  List.mem_flatMap.mpr ⟨map, List.mem_of_getElem? found, by simp [pathIs, pinned, fresh]⟩

theorem ebpfNativeCleanUpMaps_event {maps : List EbpfNativeMap} {event : MapEvent}
    (member : event ∈ ebpfNativeCleanUpMaps maps) : event.acquired = none ∧ ∀ handle path, event ≠ .pinned handle path := by
  obtain ⟨map, -, member⟩ := List.mem_flatMap.mp member
  rcases List.mem_append.mp member with unpin | close
  · split at unpin
    · split_ifs at unpin
      · obtain rfl := List.mem_singleton.mp unpin
        exact ⟨rfl, fun _ _ => by simp⟩
      · cases unpin
    · cases unpin
  · split at close
    · obtain rfl := List.mem_singleton.mp close
      exact ⟨rfl, fun _ _ => by simp⟩
    · cases close

theorem ebpfNativeCreateMaps_success {env : MapEnvironment} {entries : List MapEntry} (few : entries.length < 2 ^ 32 - 1)
    {outcome : CreateMapsOutcome} (created : ebpfNativeCreateMaps env entries = outcome) (succeeded : outcome.result = .success) :
    outcome.mapCount = entries.length ∧
      (∀ i < entries.length, ∃ maps, outcome.maps = some maps ∧ (handleAt maps i).isSome) ∧
      (acquiredOrder outcome.events).Nodup ∧ (∀ i, i ∈ acquiredOrder outcome.events ↔ i < entries.length) ∧
      Dependency.Ordered (NeedsTemplate entries) (innerTemplate entries) (acquiredOrder outcome.events) ∧
      (∀ i creation handle, MapEvent.created i creation handle ∈ outcome.events →
        ∃ maps, outcome.maps = some maps ∧ creation.innerMapHandle = (innerTemplate entries i).bind (handleAt maps)) ∧
      ∀ i, Dependency.Resolves (NeedsTemplate entries) (innerTemplate entries) i := by
  rcases ebpfNativeCreateMaps_cases created with ⟨rfl, rfl⟩ | ⟨failed, -⟩ | ⟨initial, final, logged, made, looped, rfl⟩ |
    ⟨_, _, _, _, _, _, failed, rfl⟩
  · -- no maps: nothing to create
    refine ⟨rfl, (fun i inside => by cases inside), List.nodup_nil, (fun i => by simp [acquiredOrder]), .nil,
      (fun _ _ _ member => by cases member), fun i => .free (not_needsTemplate_of_le (Nat.zero_le i))⟩
  · exact absurd succeeded failed
  · obtain ⟨initialized, fresh⟩ := ebpfNativeInitializeMaps_eq_ok few made
    obtain ⟨kept, counted, -⟩ := createMapsLoop_spec (Creating.start initialized fresh) looped
    have counted : (acquiredOrder logged).length = entries.length := by simpa [acquiredOrder] using counted rfl
    refine ⟨rfl, fun i inside => ⟨final, rfl, (kept.handled i).mpr ((kept.mem_order_iff counted i).mpr inside)⟩,
      kept.nodup, kept.mem_order_iff counted, kept.ordered, fun i c h member => ⟨final, rfl, (kept.inner i c h member).2⟩,
      kept.resolves counted⟩
  · exact absurd succeeded failed

theorem ebpfNativeCreateMaps_failure {env : MapEnvironment} {entries : List MapEntry} (few : entries.length < 2 ^ 32 - 1)
    {outcome : CreateMapsOutcome} (created : ebpfNativeCreateMaps env entries = outcome) (failed : outcome.result ≠ .success) :
    outcome.maps = none ∧ outcome.mapCount = 0 ∧
      (∀ event ∈ outcome.events, ∀ i handle, event.acquired = some (i, handle) →
        MapEvent.closed handle ∈ outcome.events) ∧
      ∀ handle path, MapEvent.pinned handle path ∈ outcome.events → MapEvent.unpinned path ∈ outcome.events := by
  rcases ebpfNativeCreateMaps_cases created with ⟨-, rfl⟩ | ⟨-, noMaps, noCount, noEvents, -⟩ |
    ⟨_, _, _, _, _, rfl⟩ | ⟨initial, final, logged, result, made, looped, -, rfl⟩
  · exact absurd rfl failed
  · rw [noEvents]
    exact ⟨noMaps, noCount, (fun _ member => by cases member), fun _ _ member => by cases member⟩
  · exact absurd rfl failed
  · obtain ⟨initialized, fresh⟩ := ebpfNativeInitializeMaps_eq_ok few made
    obtain ⟨kept, -, -⟩ := createMapsLoop_spec (Creating.start initialized fresh) looped
    refine ⟨rfl, rfl, fun event member i handle acquires => ?_, fun handle path member => ?_⟩
    · rcases List.mem_append.mp member with logged | cleaned
      · -- the array still holds every handle the rounds took, and the clean-up closes it
        have held := kept.acquired event logged i handle acquires
        unfold handleAt at held
        cases lookup : final[i]? with
        | none => simp [lookup] at held
        | some map =>
          exact List.mem_append_right _ (closed_mem_ebpfNativeCleanUpMaps lookup (by simpa [lookup] using held))
      · rw [(ebpfNativeCleanUpMaps_event cleaned).1] at acquires
        cases acquires
    · rcases List.mem_append.mp member with logged | cleaned
      · obtain ⟨j, map, lookup, -, pathIs, pinned, fresh⟩ := kept.pins handle path logged
        exact List.mem_append_right _ (unpinned_mem_ebpfNativeCleanUpMaps lookup pathIs pinned fresh)
      · exact ((ebpfNativeCleanUpMaps_event cleaned).2 handle path rfl).elim

theorem ebpfNativeCreateMaps_of_broken {env : MapEnvironment} {entries : List MapEntry} (few : entries.length < 2 ^ 32 - 1)
    {outcome : CreateMapsOutcome} (created : ebpfNativeCreateMaps env entries = outcome) (broken : BrokenTemplates entries) :
    outcome.result ≠ .success ∧ (env.Succeeds → PinningSupported entries → outcome.result = .invalidObject) := by
  obtain ⟨i, k, needed, path, cut⟩ := broken
  have refused : outcome.result ≠ .success := fun succeeded =>
    Dependency.not_resolves_of_reaches path cut ((ebpfNativeCreateMaps_success few created succeeded).2.2.2.2.2.2 i)
  refine ⟨refused, fun succeeds supported => ?_⟩
  rcases ebpfNativeCreateMaps_cases created with ⟨rfl, -⟩ | ⟨-, -, -, -, early⟩ | ⟨_, _, _, _, _, rfl⟩ |
    ⟨initial, final, logged, result, made, looped, failed, rfl⟩
  · exact absurd needed (not_needsTemplate_of_le (Nat.zero_le i))
  · exact absurd supported (early succeeds)
  · exact absurd rfl refused
  · obtain ⟨initialized, fresh⟩ := ebpfNativeInitializeMaps_eq_ok few made
    obtain ⟨-, -, stopped⟩ := createMapsLoop_spec (Creating.start initialized fresh) looped
    rcases stopped succeeds with success | ⟨invalid, -⟩
    · exact absurd success failed
    · exact invalid

theorem ebpfNativeCreateMaps_of_acyclic {env : MapEnvironment} {entries : List MapEntry} (few : entries.length < 2 ^ 32 - 1)
    {outcome : CreateMapsOutcome} (created : ebpfNativeCreateMaps env entries = outcome) (total : TemplatesTotal entries)
    (acyclic : TemplatesAcyclic entries) (succeeds : env.Succeeds) (supported : PinningSupported entries) :
    outcome.result = .success := by
  have resolving : ∀ i, Dependency.Resolves (NeedsTemplate entries) (innerTemplate entries) i := by
    intro i
    by_cases inside : i < entries.length
    · exact Dependency.resolves_of_acyclic (S := {i | i < entries.length}) (fun _ _ _ found => innerTemplate_lt found)
        (fun a _ needed => total a needed) (Set.finite_lt_nat _) acyclic i inside
    · exact .free (not_needsTemplate_of_le (by omega))
  rcases ebpfNativeCreateMaps_cases created with ⟨-, rfl⟩ | ⟨-, -, -, -, early⟩ | ⟨_, _, _, _, _, rfl⟩ |
    ⟨initial, final, logged, result, made, looped, failed, rfl⟩
  · rfl
  · exact absurd supported (early succeeds)
  · rfl
  · obtain ⟨initialized, fresh⟩ := ebpfNativeInitializeMaps_eq_ok few made
    exact absurd (createMapsLoop_success succeeds resolving (Creating.start initialized fresh) looped) failed

/-- `_ebpf_native_create_maps` creates the maps in an order in which every template comes first:
a broken chain of templates ends in `EBPF_INVALID_OBJECT` when nothing else fails first; a
table whose templates are all present and acyclic, with supported pinning flags and every call
out succeeding, is created in full; after a success every map has a handle, each got it once
and after its template, and each map-in-map was created with its template's handle; after a
failure the array is gone and every handle taken and every path pinned on the way is given
back. -/
theorem native_create_maps_is_a_topological_creation (env : MapEnvironment) (entries : List MapEntry)
    (few : entries.length < 2 ^ 32 - 1) {outcome : CreateMapsOutcome} (created : ebpfNativeCreateMaps env entries = outcome) :
    (BrokenTemplates entries → outcome.result ≠ .success ∧
      (env.Succeeds → PinningSupported entries → outcome.result = .invalidObject)) ∧
    (TemplatesTotal entries → TemplatesAcyclic entries → env.Succeeds → PinningSupported entries →
      outcome.result = .success) ∧
    (outcome.result = .success →
      outcome.mapCount = entries.length ∧
      (∀ i < entries.length, ∃ maps, outcome.maps = some maps ∧ (handleAt maps i).isSome) ∧
      (acquiredOrder outcome.events).Nodup ∧ (∀ i, i ∈ acquiredOrder outcome.events ↔ i < entries.length) ∧
      (∀ i j, NeedsTemplate entries i → innerTemplate entries i = some j →
        ∃ before, before ++ [i] <+: acquiredOrder outcome.events ∧ j ∈ before) ∧
      (∀ i creation handle, MapEvent.created i creation handle ∈ outcome.events →
        ∃ maps, outcome.maps = some maps ∧ creation.innerMapHandle = (innerTemplate entries i).bind (handleAt maps))) ∧
    (outcome.result ≠ .success →
      outcome.maps = none ∧ outcome.mapCount = 0 ∧
      (∀ event ∈ outcome.events, ∀ i handle, event.acquired = some (i, handle) →
        MapEvent.closed handle ∈ outcome.events) ∧
      (∀ handle path, MapEvent.pinned handle path ∈ outcome.events → MapEvent.unpinned path ∈ outcome.events)) := by
  refine ⟨ebpfNativeCreateMaps_of_broken few created, ebpfNativeCreateMaps_of_acyclic few created, fun succeeded => ?_,
    ebpfNativeCreateMaps_failure few created⟩
  obtain ⟨count, handles, nodup, members, ordered, inner, -⟩ := ebpfNativeCreateMaps_success few created succeeded
  refine ⟨count, handles, nodup, members, fun i j needed found => ?_, inner⟩
  have inside : i < entries.length := by
    by_contra outside
    exact not_needsTemplate_of_le (by omega) needed
  exact ordered.exists_prefix ((members i).mpr inside) needed found

/-- A hash of maps at index 0 whose template, named by `inner_map_idx`, is the array at index 1. -/
def outerBeforeInner : List MapEntry :=
  [⟨"outer".toList, .hashOfMaps, 4, 4, 1, 0, 0, 0, 1⟩, ⟨"inner".toList, .array, 4, 4, 1, 0, 0, 0, 0⟩]

/-- Calls out that all succeed: nothing is pinned yet, and round `r` creates handle `r + 10`. -/
def freshHandles : MapEnvironment :=
  ⟨fun _ => true, fun _ _ => .error ⟨.keyNotFound, by decide⟩, fun _ _ _ => .success, fun round _ => .ok (round + 10),
    fun _ _ _ => .success⟩

theorem native_create_maps_creates_the_inner_template_first :
    ∃ outcome, ebpfNativeCreateMaps freshHandles outerBeforeInner = outcome ∧
      outcome.events = [.created 1 ⟨"inner".toList, .array, 4, 4, 1, none⟩ 10,
        .created 0 ⟨"outer".toList, .hashOfMaps, 4, 4, 1, some 10⟩ 11] ∧
      (BrokenTemplates outerBeforeInner → outcome.result ≠ .success ∧
        (freshHandles.Succeeds → PinningSupported outerBeforeInner → outcome.result = .invalidObject)) ∧
      (TemplatesTotal outerBeforeInner → TemplatesAcyclic outerBeforeInner → freshHandles.Succeeds →
        PinningSupported outerBeforeInner → outcome.result = .success) ∧
      (outcome.result = .success →
        outcome.mapCount = outerBeforeInner.length ∧
        (∀ i < outerBeforeInner.length, ∃ maps, outcome.maps = some maps ∧ (handleAt maps i).isSome) ∧
        (acquiredOrder outcome.events).Nodup ∧
        (∀ i, i ∈ acquiredOrder outcome.events ↔ i < outerBeforeInner.length) ∧
        (∀ i j, NeedsTemplate outerBeforeInner i → innerTemplate outerBeforeInner i = some j →
          ∃ before, before ++ [i] <+: acquiredOrder outcome.events ∧ j ∈ before) ∧
        (∀ i creation handle, MapEvent.created i creation handle ∈ outcome.events →
          ∃ maps, outcome.maps = some maps ∧
            creation.innerMapHandle = (innerTemplate outerBeforeInner i).bind (handleAt maps))) ∧
      (outcome.result ≠ .success →
        outcome.maps = none ∧ outcome.mapCount = 0 ∧
        (∀ event ∈ outcome.events, ∀ i handle, event.acquired = some (i, handle) →
          MapEvent.closed handle ∈ outcome.events) ∧
        (∀ handle path, MapEvent.pinned handle path ∈ outcome.events →
          MapEvent.unpinned path ∈ outcome.events)) := by
  obtain ⟨outcome, created⟩ : ∃ outcome, ebpfNativeCreateMaps freshHandles outerBeforeInner = outcome := ⟨_, rfl⟩
  have logged : outcome.events = [.created 1 ⟨"inner".toList, .array, 4, 4, 1, none⟩ 10,
      .created 0 ⟨"outer".toList, .hashOfMaps, 4, 4, 1, some 10⟩ 11] := by
    rw [← created]
    decide
  exact ⟨outcome, created, logged,
    native_create_maps_is_a_topological_creation freshHandles outerBeforeInner (by decide) created⟩

theorem templates_of_plain {entries : List MapEntry}
    (plain : ∀ entry ∈ entries, entry.type ≠ .hashOfMaps ∧ entry.type ≠ .arrayOfMaps) :
    TemplatesTotal entries ∧ TemplatesAcyclic entries := by
  have free : ∀ i, ¬ NeedsTemplate entries i := by
    rintro i ⟨entry, found, mapInMap⟩
    obtain ⟨notHash, notArray⟩ := plain entry (List.mem_of_getElem? found)
    rcases mapInMap with hash | array
    · exact notHash hash
    · exact notArray array
  refine ⟨fun i needed => absurd needed (free i), fun i cycle => ?_⟩
  obtain ⟨_, first, -⟩ := Relation.TransGen.head'_iff.mp cycle
  exact free i first.1

theorem freshHandles_succeeds : freshHandles.Succeeds :=
  ⟨fun _ => rfl, fun _ _ failure looked => by cases looked; rfl, fun _ _ _ => rfl, fun _ _ _ => nofun,
    fun _ _ _ => rfl⟩

/-- An array map with the pinning flag 3: its inner templates are trivially present and acyclic
and every call out succeeds, yet `_ebpf_native_initialize_maps` refuses the flag. -/
theorem native_create_maps_refuses_an_unsupported_pinning_flag :
    TemplatesTotal [⟨"counter".toList, .array, 4, 4, 1, 3, 0, 0, 0⟩] ∧
      TemplatesAcyclic [⟨"counter".toList, .array, 4, 4, 1, 3, 0, 0, 0⟩] ∧ freshHandles.Succeeds ∧
      (ebpfNativeCreateMaps freshHandles [⟨"counter".toList, .array, 4, 4, 1, 3, 0, 0, 0⟩]).result =
        .invalidArgument := by
  have plain : ∀ entry ∈ [(⟨"counter".toList, .array, 4, 4, 1, 3, 0, 0, 0⟩ : MapEntry)],
      entry.type ≠ .hashOfMaps ∧ entry.type ≠ .arrayOfMaps := by simp
  obtain ⟨total, acyclic⟩ := templates_of_plain plain
  exact ⟨total, acyclic, freshHandles_succeeds, by decide⟩

/-- An array map, and a hash of maps that names itself as its template. -/
def selfTemplate : List MapEntry :=
  [⟨"plain".toList, .array, 4, 4, 1, 0, 0, 0, 0⟩, ⟨"loop".toList, .hashOfMaps, 4, 4, 1, 0, 0, 0, 1⟩]

/-- Calls out whose `ebpf_core_create_map` fails for want of memory. -/
def failingCreation : MapEnvironment :=
  { freshHandles with createMap := fun _ _ => .error ⟨.noMemory, by decide⟩ }

theorem native_create_maps_returns_the_failing_call_out_before_the_cycle :
    BrokenTemplates selfTemplate ∧ PinningSupported selfTemplate ∧
      (ebpfNativeCreateMaps failingCreation selfTemplate).result = .noMemory := by
  have needed : NeedsTemplate selfTemplate 1 := ⟨_, rfl, Or.inl rfl⟩
  have loop : TemplateStep selfTemplate 1 1 := ⟨needed, by decide⟩
  refine ⟨⟨1, 1, needed, .refl, Or.inr (.single loop)⟩, fun entry member => Or.inl ?_, by decide⟩
  rcases List.mem_pair.mp member with rfl | rfl <;> rfl

end EbpfWindows.ExecutionContext
