import EbpfWindows.Runtime.PinningTableRuns

/-! What the pinning table's functions do to the map of pinned paths.

In every state of the callers' runs the pinning table is a map from paths to objects
(`PinningState.pinnedObject`), and each function is an operation on that map: a pin adds
the path, bound to its object, when the path had none; a lookup reads the map and takes a
reference on what it finds; an unpin removes the path; tearing the table down unpins every
path. None of them fails fast in such a state.
-/

set_option autoImplicit false

namespace EbpfWindows.Runtime

open Bytes EbpfHashTable Successor
open EbpfWindows.ExecutionContext (ebpfMaxPinPathLength)

/-! ## Reading the map -/

theorem EbpfHashTable.pinnedEntry_eq_none_iff {table : EbpfHashTable} {memory : PinningMemory} {path : List UInt8} :
    table.pinnedEntry memory path = none ↔ path ∉ table.pinnedEntries.map memory.strings := by
  simp [EbpfHashTable.pinnedEntry]

namespace PinningState

variable {state : PinningState} {contents : BoundedMap}

theorem pinnedObject_eq_some_iff (holds : PinningTableHolds state.table state.memory contents)
    {path : List UInt8} {object : UInt64} :
    state.pinnedObject path = some object ↔
      ∃ entry ∈ state.table.pinnedEntries, state.memory.strings entry = path ∧
        state.memory.entryObjects entry = object := by
  rw [pinnedObject, Option.map_eq_some_iff]
  constructor
  · rintro ⟨entry, found, rfl⟩
    obtain ⟨member, samePath⟩ := holds.pinnedEntry_eq_some_iff.mp found
    exact ⟨entry, member, samePath, rfl⟩
  · rintro ⟨entry, member, rfl, rfl⟩
    exact ⟨entry, holds.pinnedEntry_eq_some_iff.mpr ⟨member, rfl⟩, rfl⟩

theorem pinnedObject_eq_none_iff {path : List UInt8} : state.pinnedObject path = none ↔ path ∉ state.pinnedPaths := by
  rw [pinnedObject, Option.map_eq_none_iff, EbpfHashTable.pinnedEntry_eq_none_iff]
  rfl

theorem pinnedObject_eq_some_of_perm {next : PinningState} {nextContents : BoundedMap}
    (holds : PinningTableHolds state.table state.memory contents)
    (holdsNext : PinningTableHolds next.table next.memory nextContents) (added : List UInt64)
    (perm : next.table.pinnedEntries.Perm (added ++ state.table.pinnedEntries))
    (keeps : ∀ entry ∈ state.table.pinnedEntries, next.memory.strings entry = state.memory.strings entry ∧
      next.memory.entryObjects entry = state.memory.entryObjects entry)
    {path : List UInt8} {object : UInt64} :
    next.pinnedObject path = some object ↔
      (∃ entry ∈ added, next.memory.strings entry = path ∧ next.memory.entryObjects entry = object) ∨
        state.pinnedObject path = some object := by
  rw [pinnedObject_eq_some_iff holdsNext, pinnedObject_eq_some_iff holds]
  constructor
  · rintro ⟨entry, member, samePath, sameObject⟩
    rcases List.mem_append.mp (perm.mem_iff.mp member) with fresh | old
    · exact .inl ⟨entry, fresh, samePath, sameObject⟩
    · obtain ⟨keepsPath, keepsObject⟩ := keeps entry old
      exact .inr ⟨entry, old, keepsPath.symm.trans samePath, keepsObject.symm.trans sameObject⟩
  · rintro (⟨entry, fresh, samePath, sameObject⟩ | ⟨entry, old, samePath, sameObject⟩)
    · exact ⟨entry, perm.mem_iff.mpr (List.mem_append_left _ fresh), samePath, sameObject⟩
    · obtain ⟨keepsPath, keepsObject⟩ := keeps entry old
      exact ⟨entry, perm.mem_iff.mpr (List.mem_append_right _ old), keepsPath.trans samePath,
        keepsObject.trans sameObject⟩

theorem pinnedObject_eq_of_perm {next : PinningState} {nextContents : BoundedMap}
    (holds : PinningTableHolds state.table state.memory contents)
    (holdsNext : PinningTableHolds next.table next.memory nextContents)
    (perm : next.table.pinnedEntries.Perm state.table.pinnedEntries)
    (keeps : ∀ entry ∈ state.table.pinnedEntries, next.memory.strings entry = state.memory.strings entry ∧
      next.memory.entryObjects entry = state.memory.entryObjects entry) (path : List UInt8) :
    next.pinnedObject path = state.pinnedObject path :=
  Option.ext fun object => by
    rw [pinnedObject_eq_some_of_perm holds holdsNext [] perm keeps]
    simp

theorem pinnedObject_eq_of_perm_cons {next : PinningState} {nextContents : BoundedMap}
    (holds : PinningTableHolds state.table state.memory contents)
    (holdsNext : PinningTableHolds next.table next.memory nextContents) {entry : UInt64}
    (perm : next.table.pinnedEntries.Perm (entry :: state.table.pinnedEntries))
    (keeps : ∀ entry ∈ state.table.pinnedEntries, next.memory.strings entry = state.memory.strings entry ∧
      next.memory.entryObjects entry = state.memory.entryObjects entry)
    (absent : state.pinnedObject (next.memory.strings entry) = none) (path : List UInt8) :
    next.pinnedObject path =
      if path = next.memory.strings entry then some (next.memory.entryObjects entry) else state.pinnedObject path :=
  Option.ext fun object => by
    rw [pinnedObject_eq_some_of_perm holds holdsNext [entry] perm keeps]
    simp only [List.mem_singleton, exists_eq_left]
    by_cases here : path = next.memory.strings entry
    · subst here
      rw [if_pos rfl, absent]
      simp [eq_comm]
    · rw [if_neg here]
      simp [Ne.symm here]

end PinningState

/-! ## References on pinned objects -/

namespace EbpfObjectTracking

variable {tracking : EbpfObjectTracking}

theorem ebpfObjectAcquireReference_false_of_found {pointer : UInt64} {object : EbpfCoreObject}
    (found : tracking.objects pointer = some object) (positive : 1 ≤ object.referenceCount) :
    tracking.ebpfObjectAcquireReference pointer false =
      some (tracking.setObject pointer { object with referenceCount := object.referenceCount + 1 }) := by
  unfold ebpfObjectAcquireReference
  rw [found]
  dsimp only
  rw [if_neg (by omega)]
  rfl

end EbpfObjectTracking

namespace ObjectClients.Tracks

variable {clients : ObjectClients}

theorem acquire_isSome (tracks : clients.Tracks) {pointer : UInt64} {flag : Bool}
    (isHeld : (pointer, flag) ∈ clients.held) (userReference : Bool) :
    (clients.tracking.ebpfObjectAcquireReference pointer userReference).isSome := by
  obtain ⟨object, found, positive, -⟩ := tracks.found_of_held isHeld
  have userCount := (tracks.counts pointer object found).2
  unfold EbpfObjectTracking.ebpfObjectAcquireReference
  rw [found]
  dsimp only
  rw [if_neg (by omega)]
  cases userReference with
  | false => rfl
  | true =>
    rw [if_pos rfl, if_neg (by omega)]
    rfl

theorem release_isSome (tracks : clients.Tracks) {pointer : UInt64} {userReference : Bool}
    (isHeld : (pointer, userReference) ∈ clients.held) :
    (clients.tracking.ebpfObjectReleaseReference pointer userReference).isSome := by
  obtain ⟨object, found, positive, userHeld⟩ := tracks.found_of_held isHeld
  rw [EbpfObjectTracking.ebpfObjectReleaseReference_eq (tracks.notNull_of_found found) found positive userHeld]
  split_ifs <;> rfl

end ObjectClients.Tracks

namespace PinningClients.Tracks

variable {clients : PinningClients}

theorem pinned_held (tracks : clients.Tracks) {path : List UInt8} {target : UInt64}
    (pinned : clients.state.pinnedObject path = some target) :
    (target, true) ∈ clients.held ++ clients.state.pins := by
  obtain ⟨contents, holds⟩ := tracks.holds
  obtain ⟨entry, member, -, rfl⟩ := (PinningState.pinnedObject_eq_some_iff holds).mp pinned
  exact List.mem_append_right _ (List.mem_map_of_mem member)

end PinningClients.Tracks

/-! ## A pin -/

namespace PinningState

variable {state : PinningState} {contents : BoundedMap}

theorem ebpfPinningTableInsert_of_acquired {path object : UInt64} {environment : PinningInsertEnvironment}
    (accepted : PathAccepted (state.memory.strings path)) (entryAllocated : environment.entryAllocated = true)
    (duplicated : environment.duplicateResult = .success) {acquired : EbpfObjectTracking}
    (acquire : state.tracking.ebpfObjectAcquireReference object true = some acquired) :
    state.ebpfPinningTableInsert path object environment =
      let memory := state.memory.writeEntry environment.entry (state.memory.strings path) object
      let (result, table) := ebpfHashTableUpdate (state.table.readingMemory memory) (uint64Bytes environment.entry)
        (some (uint64Bytes environment.entry)) .insert environment.hashTable
      if result = .success then some (.success, ⟨table, memory, acquired.addPinnedPathCount object 1⟩, [])
      else
        (ebpfPinningEntryFree acquired (some object)).map fun (tracking, events) =>
          (if result = .keyAlreadyExists then .objectAlreadyExists else result, ⟨table, memory, tracking⟩, events) := by
  obtain ⟨lengths, noNull⟩ := (pathAccepted_iff _).mp accepted
  unfold ebpfPinningTableInsert
  dsimp only
  rw [if_neg lengths, if_neg (Bool.eq_false_iff.mp noNull), if_neg (by simp [entryAllocated]), if_neg (by simp [duplicated]),
    acquire, Option.bind_some]

theorem ebpfPinningTableInsert_pinnedObject (holds : PinningTableHolds state.table state.memory contents)
    {path target : UInt64} {environment : PinningInsertEnvironment}
    (fresh : environment.entry ∉ state.table.pinnedEntries) {result : EbpfResult} {next : PinningState}
    {events : List ObjectEvent}
    (inserted : state.ebpfPinningTableInsert path target environment = some (result, next, events)) :
    (result = .success → state.pinnedObject (state.memory.strings path) = none ∧
      ∀ other, next.pinnedObject other =
        if other = state.memory.strings path then some target else state.pinnedObject other) ∧
    (result ≠ .success → ∀ other, next.pinnedObject other = state.pinnedObject other) := by
  rcases ebpfPinningTableInsert_eq_some inserted with
    ⟨refused, rfl, -⟩ | ⟨accepted, -, -, acquired, outcome, -, updated, outcomes⟩
  · exact ⟨fun success => absurd success refused, fun _ _ => rfl⟩
  set memory := state.memory.writeEntry environment.entry (state.memory.strings path) target with memoryIs
  have filled := holds.writeEntry fresh (state.memory.strings path) target
  have pathAt : memory.strings environment.entry = state.memory.strings path := by
    simp [memoryIs, PinningMemory.writeEntry]
  have objectAt : memory.entryObjects environment.entry = target := by
    simp [memoryIs, PinningMemory.writeEntry]
  have keeps : ∀ entry ∈ state.table.pinnedEntries, memory.strings entry = state.memory.strings entry ∧
      memory.entryObjects entry = state.memory.entryObjects entry := by
    intro entry member
    have different : entry ≠ environment.entry := fun same => fresh (same ▸ member)
    simp [memoryIs, PinningMemory.writeEntry, different]
  obtain ⟨nextContents, nextHolds, onSuccess, onFailure, -⟩ :=
    filled.insert_outcome (by rw [pathAt]; exact accepted) updated
  rcases outcomes with ⟨success, rfl, -, rfl⟩ | ⟨failed, resultIs, released, -, rfl⟩
  · obtain ⟨absent, grown⟩ := onSuccess success
    have unpinned : state.pinnedObject (state.memory.strings path) = none := by
      rw [EbpfHashTable.pinnedEntry_eq_none_iff, List.map_congr_left fun entry member => (keeps entry member).1,
        pathAt] at absent
      exact pinnedObject_eq_none_iff.mpr absent
    refine ⟨fun _ => ⟨unpinned, fun other => ?_⟩, fun failed => absurd rfl failed⟩
    have pins : PinningState.pinnedObject ⟨outcome.2, memory, acquired.addPinnedPathCount target 1⟩ other =
        if other = memory.strings environment.entry then some (memory.entryObjects environment.entry)
        else state.pinnedObject other :=
      pinnedObject_eq_of_perm_cons holds nextHolds grown keeps (by rw [pathAt]; exact unpinned) other
    rw [pathAt, objectAt] at pins
    exact pins
  · refine ⟨fun success => ?_, fun _ other => pinnedObject_eq_of_perm holds nextHolds (onFailure failed) keeps other⟩
    rw [resultIs] at success
    split_ifs at success
    exact absurd success failed

end PinningState

variable {clients : PinningClients}

/-- In every state of the callers' runs, a pin that succeeds binds a path that had no object
to the pinned object and leaves every other path as it was; a pin that fails leaves the map
as it was. -/
theorem pinning_table_insert_binds_an_unpinned_path (tracks : clients.Tracks) {path target : UInt64}
    {environment : PinningInsertEnvironment}
    (allowed : (PinningOperation.insert path target environment).Admissible clients)
    {result : EbpfResult} {next : PinningState} {events : List ObjectEvent}
    (inserted : clients.state.ebpfPinningTableInsert path target environment = some (result, next, events)) :
    (result = .success → clients.state.pinnedObject (clients.state.memory.strings path) = none ∧
      ∀ other, next.pinnedObject other =
        if other = clients.state.memory.strings path then some target else clients.state.pinnedObject other) ∧
    (result ≠ .success → ∀ other, next.pinnedObject other = clients.state.pinnedObject other) := by
  obtain ⟨contents, holds⟩ := tracks.holds
  exact PinningState.ebpfPinningTableInsert_pinnedObject holds allowed.2.1 inserted

theorem pinning_table_insert_binds_the_path_of_a_new_map :
    ∃ table tracking events clients,
      ebpfPinningTableAllocate mapPathMemory true true 0 false = .ok table ∧
      ebpfObjectTrackingInitiate true 0 false = .ok tracking ∧
      PinningClients.Reaches ⟨table, mapPathMemory, tracking⟩ events clients ∧
      ∃ result next emitted,
        clients.state.ebpfPinningTableInsert 32 16 ⟨true, 48, .success, allocationsSucceed⟩ =
          some (result, next, emitted) ∧ result = .success ∧
        (result = .success → clients.state.pinnedObject (clients.state.memory.strings 32) = none ∧
          ∀ other, next.pinnedObject other =
            if other = clients.state.memory.strings 32 then some 16 else clients.state.pinnedObject other) ∧
        (result ≠ .success → ∀ other, next.pinnedObject other = clients.state.pinnedObject other) :=
  ⟨_, _, _, _, rfl, rfl,
    .step .start (show PinningOperation.Admissible _ .createMap from ⟨by decide, by decide⟩) rfl,
    _, _, _, rfl, rfl,
    pinning_table_insert_binds_an_unpinned_path
      (PinningClients.tracks_of_reaches
        (show ebpfPinningTableAllocate mapPathMemory true true 0 false = .ok _ from rfl)
        (show ebpfObjectTrackingInitiate true 0 false = .ok _ from rfl)
        (.step .start (show PinningOperation.Admissible _ .createMap from ⟨by decide, by decide⟩) rfl))
      (show PinningOperation.Admissible _ .pinMap from ⟨⟨false, List.mem_singleton_self _⟩, by decide⟩) rfl⟩

/-- A pin of an accepted path by a caller that holds a reference on the object, with every
allocation succeeding and room in the table, succeeds exactly when the path has no object:
otherwise it returns `EBPF_OBJECT_ALREADY_EXISTS`. -/
theorem pinning_table_insert_succeeds_unless_pinned (tracks : clients.Tracks) {path target : UInt64}
    {environment : PinningInsertEnvironment}
    (allowed : (PinningOperation.insert path target environment).Admissible clients)
    (accepted : PathAccepted (clients.state.memory.strings path)) (entryAllocated : environment.entryAllocated = true)
    (duplicated : environment.duplicateResult = .success) (succeeds : environment.hashTable.Succeeds)
    (room : LayoutFits 8 clients.state.table.pinnedEntries.length) :
    ∃ next events, clients.state.ebpfPinningTableInsert path target environment =
      some (if clients.state.pinnedObject (clients.state.memory.strings path) = none then .success
        else .objectAlreadyExists, next, events) := by
  obtain ⟨contents, holds⟩ := tracks.holds
  obtain ⟨⟨userReference, targetHeld⟩, fresh, -⟩ := allowed
  obtain ⟨acquired, acquire⟩ := Option.isSome_iff_exists.mp
    (tracks.objects.acquire_isSome (List.mem_append_left _ targetHeld) true)
  rw [PinningState.ebpfPinningTableInsert_of_acquired accepted entryAllocated duplicated acquire]
  dsimp only
  set memory := clients.state.memory.writeEntry environment.entry (clients.state.memory.strings path) target
    with memoryIs
  have filled := holds.writeEntry fresh (clients.state.memory.strings path) target
  have pathAt : memory.strings environment.entry = clients.state.memory.strings path := by
    simp [memoryIs, PinningMemory.writeEntry]
  have samePaths : clients.state.table.pinnedEntries.map memory.strings = clients.state.pinnedPaths := by
    refine List.map_congr_left fun entry member => ?_
    have different : entry ≠ environment.entry := fun same => fresh (same ▸ member)
    simp [memoryIs, PinningMemory.writeEntry, different]
  have absentIff : clients.state.table.pinnedEntry memory (memory.strings environment.entry) = none ↔
      clients.state.pinnedObject (clients.state.memory.strings path) = none := by
    rw [EbpfHashTable.pinnedEntry_eq_none_iff, samePaths, pathAt, PinningState.pinnedObject_eq_none_iff]
  by_cases absent : clients.state.pinnedObject (clients.state.memory.strings path) = none
  · -- a path with no object: the insert succeeds
    have size : contents.size = clients.state.table.pinnedEntries.length := by
      rw [← filled.represents.length_entries, readingMemory_entries, EbpfHashTable.pinnedEntries, List.length_map]
    obtain ⟨-, -, -, -, progress⟩ := filled.insert_outcome (by rw [pathAt]; exact accepted) rfl
    have success := progress succeeds (absentIff.mpr absent) (size ▸ room)
    generalize ebpfHashTableUpdate (clients.state.table.readingMemory memory) (uint64Bytes environment.entry)
      (some (uint64Bytes environment.entry)) .insert environment.hashTable = outcome at success ⊢
    obtain ⟨result, table⟩ := outcome
    dsimp only at success ⊢
    rw [if_pos success, if_pos absent]
    exact ⟨_, _, rfl⟩
  · -- a pinned path: the hash table reports the key present, and the entry's free gives the reference back
    rw [filled.insert_present (mt absentIff.mp absent) succeeds.1]
    dsimp only
    rw [if_neg (by decide), if_neg absent, if_neg (by decide)]
    have acquiredTracks := tracks.objects.acquire acquire
    obtain ⟨⟨released, events⟩, freed⟩ := Option.isSome_iff_exists.mp
      (acquiredTracks.release_isSome List.mem_cons_self)
    exact ⟨_, events, by rw [ebpfPinningEntryFree, freed, Option.map_some]⟩

theorem pinning_table_insert_of_a_pinned_path_finds_it_pinned :
    ∃ table tracking events clients,
      ebpfPinningTableAllocate mapPathMemory true true 0 false = .ok table ∧
      ebpfObjectTrackingInitiate true 0 false = .ok tracking ∧
      PinningClients.Reaches ⟨table, mapPathMemory, tracking⟩ events clients ∧
      clients.state.pinnedObject (clients.state.memory.strings 32) = some 16 ∧
      PathAccepted (clients.state.memory.strings 32) ∧ LayoutFits 8 clients.state.table.pinnedEntries.length ∧
      ∃ next events, clients.state.ebpfPinningTableInsert 32 16 ⟨true, 64, .success, allocationsSucceed⟩ =
        some (if clients.state.pinnedObject (clients.state.memory.strings 32) = none then .success
          else .objectAlreadyExists, next, events) :=
  ⟨_, _, _, _, rfl, rfl,
    (.step (.step .start (show PinningOperation.Admissible _ .createMap from ⟨by decide, by decide⟩) rfl)
      (show PinningOperation.Admissible _ .pinMap from ⟨⟨false, List.mem_singleton_self _⟩, by decide⟩) rfl),
    by decide, by decide, by unfold LayoutFits; decide,
    pinning_table_insert_succeeds_unless_pinned
      (PinningClients.tracks_of_reaches
        (show ebpfPinningTableAllocate mapPathMemory true true 0 false = .ok _ from rfl)
        (show ebpfObjectTrackingInitiate true 0 false = .ok _ from rfl)
        (.step (.step .start (show PinningOperation.Admissible _ .createMap from ⟨by decide, by decide⟩) rfl)
          (show PinningOperation.Admissible _ .pinMap from ⟨⟨false, List.mem_singleton_self _⟩, by decide⟩) rfl))
      (show PinningOperation.Admissible _ (.insert 32 16 ⟨true, 64, .success, allocationsSucceed⟩) from
        ⟨⟨false, List.mem_singleton_self _⟩, by decide⟩)
      (by decide) rfl rfl ⟨rfl, rfl, rfl, rfl, rfl⟩ (by unfold LayoutFits; decide)⟩

/-! ## A lookup -/

/-- A lookup returns the object pinned under the path, with one more reference on it and the
table as it was, or `EBPF_KEY_NOT_FOUND` with nothing changed; it never fails fast. -/
theorem pinning_table_find_returns_the_pinned_object (tracks : clients.Tracks) (path : UInt64) :
    match clients.state.pinnedObject (clients.state.memory.strings path) with
    | some target => ∃ object, clients.state.tracking.objects target = some object ∧
        clients.state.ebpfPinningTableFind path = some (.success, some target,
          { clients.state with
            tracking := clients.state.tracking.setObject target
              { object with referenceCount := object.referenceCount + 1 } })
    | none => clients.state.ebpfPinningTableFind path = some (.keyNotFound, none, clients.state) := by
  obtain ⟨contents, holds⟩ := tracks.holds
  rw [PinningState.ebpfPinningTableFind_eq holds]
  cases pinned : clients.state.pinnedObject (clients.state.memory.strings path) with
  | none => rfl
  | some target =>
    obtain ⟨object, found, positive, -⟩ := tracks.objects.found_of_held (tracks.pinned_held pinned)
    refine ⟨object, found, ?_⟩
    dsimp only
    rw [EbpfObjectTracking.ebpfObjectAcquireReference_false_of_found found positive, Option.map_some]

theorem pinning_table_find_returns_the_pinned_map :
    ∃ table tracking events clients,
      ebpfPinningTableAllocate mapPathMemory true true 0 false = .ok table ∧
      ebpfObjectTrackingInitiate true 0 false = .ok tracking ∧
      PinningClients.Reaches ⟨table, mapPathMemory, tracking⟩ events clients ∧
      clients.state.pinnedObject (clients.state.memory.strings 32) = some 16 ∧
      match clients.state.pinnedObject (clients.state.memory.strings 32) with
      | some target => ∃ object, clients.state.tracking.objects target = some object ∧
          clients.state.ebpfPinningTableFind 32 = some (.success, some target,
            { clients.state with
              tracking := clients.state.tracking.setObject target
                { object with referenceCount := object.referenceCount + 1 } })
      | none => clients.state.ebpfPinningTableFind 32 = some (.keyNotFound, none, clients.state) :=
  ⟨_, _, _, _, rfl, rfl, (.step (.step .start (show PinningOperation.Admissible _ .createMap from ⟨by decide, by decide⟩) rfl)
      (show PinningOperation.Admissible _ .pinMap from ⟨⟨false, List.mem_singleton_self _⟩, by decide⟩) rfl), by decide,
    pinning_table_find_returns_the_pinned_object (PinningClients.tracks_of_reaches
        (show ebpfPinningTableAllocate mapPathMemory true true 0 false = .ok _ from rfl)
        (show ebpfObjectTrackingInitiate true 0 false = .ok _ from rfl)
        (.step (.step .start (show PinningOperation.Admissible _ .createMap from ⟨by decide, by decide⟩) rfl)
          (show PinningOperation.Admissible _ .pinMap from ⟨⟨false, List.mem_singleton_self _⟩, by decide⟩) rfl)) 32⟩

/-! ## An unpin -/

namespace PinningClients.Tracks

theorem delete_of_pinned (tracks : clients.Tracks) {path entry : UInt64}
    (found : clients.state.table.pinnedEntry clients.state.memory (clients.state.memory.strings path) = some entry)
    (environment : HashTableEnvironment) :
    ∃ deletedTable released events,
      clients.state.ebpfPinningTableDelete path environment =
        some (.success, ⟨deletedTable, clients.state.memory, released⟩, events) ∧
      (∃ remaining, PinningTableHolds deletedTable clients.state.memory remaining) ∧
      clients.state.table.pinnedEntries.Perm (entry :: deletedTable.pinnedEntries) := by
  obtain ⟨contents, holds⟩ := tracks.holds
  have pinned : clients.state.pinnedObject (clients.state.memory.strings path) =
      some (clients.state.memory.entryObjects entry) := by
    rw [PinningState.pinnedObject, found, Option.map_some]
  have countedTracks := tracks.objects.addPinnedPathCount (clients.state.memory.entryObjects entry) (-1)
  obtain ⟨⟨released, events⟩, freed⟩ := Option.isSome_iff_exists.mp
    (countedTracks.release_isSome (tracks.pinned_held pinned))
  obtain ⟨-, remaining, shrunk⟩ := holds.delete_outcome found environment rfl
  refine ⟨_, released, events, ?_, ⟨_, remaining⟩, shrunk⟩
  rw [PinningState.ebpfPinningTableDelete_eq holds, found]
  dsimp only
  rw [ebpfPinningEntryFree, freed, Option.map_some]

end PinningClients.Tracks

/-- An unpin removes the path from the map and takes one path from its object; for a path
with no object it returns `EBPF_KEY_NOT_FOUND` with nothing changed. It never fails fast. -/
theorem pinning_table_delete_unpins_the_path (tracks : clients.Tracks) (path : UInt64)
    (environment : HashTableEnvironment) :
    ∃ result next events, clients.state.ebpfPinningTableDelete path environment = some (result, next, events) ∧
      (∀ other, next.pinnedObject other =
        if other = clients.state.memory.strings path then none else clients.state.pinnedObject other) ∧
      match clients.state.pinnedObject (clients.state.memory.strings path) with
      | some target => result = .success ∧
        ∀ pointer, next.pinCount pointer + (if pointer = target then 1 else 0) = clients.state.pinCount pointer
      | none => result = .keyNotFound ∧ next = clients.state ∧ events = [] := by
  obtain ⟨contents, holds⟩ := tracks.holds
  cases found : clients.state.table.pinnedEntry clients.state.memory (clients.state.memory.strings path) with
  | none =>
    have unpinned : clients.state.pinnedObject (clients.state.memory.strings path) = none := by
      rw [PinningState.pinnedObject, found, Option.map_none]
    rw [PinningState.ebpfPinningTableDelete_eq holds, found]
    refine ⟨_, _, _, rfl, fun other => ?_, ?_⟩
    · by_cases here : other = clients.state.memory.strings path
      · rw [if_pos here, here, unpinned]
      · rw [if_neg here]
    · rw [unpinned]
      exact ⟨rfl, rfl, rfl⟩
  | some entry =>
    have pinned : clients.state.pinnedObject (clients.state.memory.strings path) =
        some (clients.state.memory.entryObjects entry) := by
      rw [PinningState.pinnedObject, found, Option.map_some]
    obtain ⟨deletedTable, released, events, deleted, ⟨remaining, nextHolds⟩, shrunk⟩ :=
      tracks.delete_of_pinned found environment
    obtain ⟨-, samePath⟩ := holds.pinnedEntry_eq_some_iff.mp found
    refine ⟨_, _, events, deleted, fun other => ?_, ?_⟩
    · -- read backwards, the state before is the one after with the entry added
      have gone : PinningState.pinnedObject ⟨deletedTable, clients.state.memory, released⟩
          (clients.state.memory.strings entry) = none := by
        have paths := (shrunk.map clients.state.memory.strings).nodup_iff.mp holds.nodup_paths
        rw [List.map_cons, List.nodup_cons] at paths
        exact PinningState.pinnedObject_eq_none_iff.mpr paths.1
      have before : clients.state.pinnedObject other =
          if other = clients.state.memory.strings entry then some (clients.state.memory.entryObjects entry)
          else PinningState.pinnedObject ⟨deletedTable, clients.state.memory, released⟩ other :=
        @PinningState.pinnedObject_eq_of_perm_cons ⟨deletedTable, clients.state.memory, released⟩ _ clients.state _
          nextHolds holds entry shrunk (fun _ _ => ⟨rfl, rfl⟩) gone other
      rw [samePath] at before gone
      by_cases here : other = clients.state.memory.strings path
      · rw [if_pos here, here, gone]
      · rw [if_neg here, before, if_neg here]
    · rw [pinned]
      refine ⟨rfl, fun pointer => ?_⟩
      have fewer : clients.state.pins.Perm ((clients.state.memory.entryObjects entry, true) ::
          PinningState.pins ⟨deletedTable, clients.state.memory, released⟩) := by
        have mapped := shrunk.map fun entry => (clients.state.memory.entryObjects entry, true)
        rw [List.map_cons] at mapped
        exact mapped
      exact (PinningClients.Tracks.pinCount_of_perm_cons fewer pointer).symm

theorem pinning_table_delete_unpins_the_map :
    ∃ table tracking events clients,
      ebpfPinningTableAllocate mapPathMemory true true 0 false = .ok table ∧
      ebpfObjectTrackingInitiate true 0 false = .ok tracking ∧
      PinningClients.Reaches ⟨table, mapPathMemory, tracking⟩ events clients ∧
      clients.state.pinnedObject (clients.state.memory.strings 32) = some 16 ∧
      ∃ result next events, clients.state.ebpfPinningTableDelete 32 allocationsSucceed = some (result, next, events) ∧
        (∀ other, next.pinnedObject other =
          if other = clients.state.memory.strings 32 then none else clients.state.pinnedObject other) ∧
        match clients.state.pinnedObject (clients.state.memory.strings 32) with
        | some target => result = .success ∧
          ∀ pointer, next.pinCount pointer + (if pointer = target then 1 else 0) = clients.state.pinCount pointer
        | none => result = .keyNotFound ∧ next = clients.state ∧ events = [] :=
  ⟨_, _, _, _, rfl, rfl, (.step (.step .start (show PinningOperation.Admissible _ .createMap from ⟨by decide, by decide⟩) rfl)
      (show PinningOperation.Admissible _ .pinMap from ⟨⟨false, List.mem_singleton_self _⟩, by decide⟩) rfl), by decide,
    pinning_table_delete_unpins_the_path (PinningClients.tracks_of_reaches
        (show ebpfPinningTableAllocate mapPathMemory true true 0 false = .ok _ from rfl)
        (show ebpfObjectTrackingInitiate true 0 false = .ok _ from rfl)
        (.step (.step .start (show PinningOperation.Admissible _ .createMap from ⟨by decide, by decide⟩) rfl)
          (show PinningOperation.Admissible _ .pinMap from ⟨⟨false, List.mem_singleton_self _⟩, by decide⟩) rfl)) 32 allocationsSucceed⟩

/-! ## Tearing the table down -/

namespace PinningClients.Tracks

theorem freeLoop (environment : HashTableEnvironment) :
    ∀ (fuel : Nat) {clients : PinningClients}, clients.Tracks → clients.state.table.pinnedEntries.length < fuel →
      ∃ final events, clients.state.ebpfPinningTableFreeLoop environment fuel = some (final, events) ∧
        final.table.pinnedEntries = [] ∧ Tracks ⟨final, clients.held⟩ := by
  intro fuel
  induction fuel with
  | zero => intro clients _ fewer; omega
  | succ fuel ih =>
    intro clients tracks fewer
    obtain ⟨contents, holds⟩ := tracks.holds
    have fits : (clients.state.table.readingMemory clients.state.memory).BucketsFit := holds.fits
    unfold PinningState.ebpfPinningTableFreeLoop
    rw [nextKeyPointerAndValue_none fits, readingMemory_entries]
    cases entries : clients.state.table.entries with
    | nil =>
      have empty : clients.state.table.pinnedEntries = [] := by rw [EbpfHashTable.pinnedEntries, entries, List.map_nil]
      exact ⟨_, _, rfl, empty, tracks⟩
    | cons first rest =>
      have member : pointerAt first.data ∈ clients.state.table.pinnedEntries := by
        rw [EbpfHashTable.pinnedEntries, entries]
        exact List.mem_cons_self
      have key : pointerAt first.key = pointerAt first.data := by
        rw [(holds.entry_stored (entries ▸ List.mem_cons_self : first ∈ clients.state.table.entries)).1,
          pointerAt_uint64Bytes]
      have found : clients.state.table.pinnedEntry clients.state.memory
          (clients.state.memory.strings (pointerAt first.key)) = some (pointerAt first.data) := by
        rw [key]
        exact holds.pinnedEntry_eq_some_iff.mpr ⟨member, rfl⟩
      obtain ⟨deletedTable, released, events, deleted, -, shrunk⟩ := tracks.delete_of_pinned found environment
      have nextTracks := tracks.delete deleted
      have shorter : deletedTable.pinnedEntries.length < fuel := by
        have lengths := shrunk.length_eq
        rw [List.length_cons] at lengths
        omega
      obtain ⟨final, later, loop, empty, finalTracks⟩ := ih nextTracks shorter
      refine ⟨final, events ++ later, ?_, empty, finalTracks⟩
      dsimp only [List.head?_cons, resultOr]
      rw [deleted, Option.bind_some]
      dsimp only
      rw [loop, Option.map_some]

end PinningClients.Tracks

/-- `ebpf_pinning_table_free` unpins every path: with one round more than the table has
entries its loop ends on an empty table, having given back the user reference of every
entry, so that each object's counts are the callers' references alone and no path is
counted on it. -/
theorem pinning_table_free_unpins_every_path (tracks : clients.Tracks) (environment : HashTableEnvironment) :
    ∃ final events, clients.state.ebpfPinningTableFreeLoop environment
        (clients.state.table.pinnedEntries.length + 1) = some (final, events) ∧
      final.table.pinnedEntries = [] ∧
      ∀ pointer object, final.tracking.objects pointer = some object →
        object.referenceCount = heldOn clients.held pointer ∧
        object.userReferenceCount = clients.held.count (pointer, true) ∧ object.pinnedPathCount = 0 := by
  obtain ⟨final, events, loop, empty, finalTracks⟩ := PinningClients.Tracks.freeLoop environment
    (clients.state.table.pinnedEntries.length + 1) tracks (Nat.lt_succ_self _)
  refine ⟨final, events, loop, empty, fun pointer object found => ?_⟩
  have noPins : final.pins = [] := by rw [PinningState.pins, empty, List.map_nil]
  have unpinned : final.pinCount pointer = 0 := by rw [PinningState.pinCount, empty, List.countP_nil]
  obtain ⟨referenceCount, userReferenceCount⟩ := finalTracks.objects.counts pointer object found
  rw [noPins, List.append_nil] at referenceCount userReferenceCount
  refine ⟨referenceCount, userReferenceCount, ?_⟩
  have counted := finalTracks.pinnedPathCounts pointer object.pinnedPathCount
    (by simp [EbpfObjectTracking.pinnedPathCounts, found])
  rw [counted, unpinned]
  rfl

theorem pinning_table_free_unpins_the_map :
    ∃ table tracking events clients,
      ebpfPinningTableAllocate mapPathMemory true true 0 false = .ok table ∧
      ebpfObjectTrackingInitiate true 0 false = .ok tracking ∧
      PinningClients.Reaches ⟨table, mapPathMemory, tracking⟩ events clients ∧
      clients.state.table.pinnedEntries.length = 1 ∧
      ∃ final events, clients.state.ebpfPinningTableFreeLoop allocationsSucceed
          (clients.state.table.pinnedEntries.length + 1) = some (final, events) ∧
        final.table.pinnedEntries = [] ∧
        ∀ pointer object, final.tracking.objects pointer = some object →
          object.referenceCount = heldOn clients.held pointer ∧
          object.userReferenceCount = clients.held.count (pointer, true) ∧ object.pinnedPathCount = 0 :=
  ⟨_, _, _, _, rfl, rfl, (.step (.step .start (show PinningOperation.Admissible _ .createMap from ⟨by decide, by decide⟩) rfl)
      (show PinningOperation.Admissible _ .pinMap from ⟨⟨false, List.mem_singleton_self _⟩, by decide⟩) rfl), by decide,
    pinning_table_free_unpins_every_path (PinningClients.tracks_of_reaches
        (show ebpfPinningTableAllocate mapPathMemory true true 0 false = .ok _ from rfl)
        (show ebpfObjectTrackingInitiate true 0 false = .ok _ from rfl)
        (.step (.step .start (show PinningOperation.Admissible _ .createMap from ⟨by decide, by decide⟩) rfl)
          (show PinningOperation.Admissible _ .pinMap from ⟨⟨false, List.mem_singleton_self _⟩, by decide⟩) rfl)) allocationsSucceed⟩

end EbpfWindows.Runtime
