import EbpfWindows.Runtime.PinningTableMap

/-! The pinning table over every run of its callers.

What the table is for is the map from each pinned path to the object pinned under it
(`PinningState.pinnedObject`). The callers pin, look up, unpin and list paths, write their
own strings, and make the calls of the object functions, holding the references those give
them. The table holds one user reference on the object of each entry
(`PinningState.pins`). Over every admissible run: each object's counts are the references
the callers and the table hold on it, its `pinned_path_count` is the number of its pinned
paths as an `int32_t` counts it, and the table holds a map of accepted paths.
-/

set_option autoImplicit false

namespace EbpfWindows.Runtime

open Bytes EbpfHashTable
open EbpfWindows.ExecutionContext (ebpfMaxPinPathLength)

/-! ## The objects beside the table -/

/-- The `pinned_path_count` of the object at each pointer. -/
def EbpfObjectTracking.pinnedPathCounts (tracking : EbpfObjectTracking) (pointer : UInt64) : Option Int :=
  (tracking.objects pointer).map EbpfCoreObject.pinnedPathCount

namespace EbpfObjectTracking

variable {tracking : EbpfObjectTracking}

theorem setObject_pinnedPathCounts {pointer : UInt64} {object updated : EbpfCoreObject}
    (found : tracking.objects pointer = some object) (same : updated.pinnedPathCount = object.pinnedPathCount) :
    (tracking.setObject pointer updated).pinnedPathCounts = tracking.pinnedPathCounts := by
  funext other
  by_cases here : other = pointer
  · subst here
    simp [pinnedPathCounts, found, same]
  · simp [pinnedPathCounts, tracking.setObject_objects_of_ne updated here]

theorem ebpfObjectAcquireReference_pinnedPathCounts {pointer : UInt64} {userReference : Bool}
    {acquired : EbpfObjectTracking} (succeeded : tracking.ebpfObjectAcquireReference pointer userReference = some acquired) :
    acquired.pinnedPathCounts = tracking.pinnedPathCounts := by
  obtain ⟨object, found, -, rfl⟩ := ebpfObjectAcquireReference_eq_some succeeded
  exact setObject_pinnedPathCounts found rfl

theorem ebpfObjectTryAcquireReference_pinnedPathCounts {pointer : UInt64} {taken : Bool} {after : EbpfObjectTracking}
    (tried : tracking.ebpfObjectTryAcquireReference pointer = some (taken, after)) :
    after.pinnedPathCounts = tracking.pinnedPathCounts := by
  cases taken with
  | false => rw [ebpfObjectTryAcquireReference_eq_false tried]
  | true =>
    obtain ⟨object, found, -, rfl⟩ := ebpfObjectTryAcquireReference_eq_true tried
    exact setObject_pinnedPathCounts found rfl

theorem ebpfObjectReleaseReference_pinnedPathCounts {pointer : UInt64} {userReference : Bool}
    {released : EbpfObjectTracking} {emitted : List ObjectEvent}
    (succeeded : tracking.ebpfObjectReleaseReference pointer userReference = some (released, emitted)) :
    released.pinnedPathCounts = tracking.pinnedPathCounts := by
  unfold ebpfObjectReleaseReference at succeeded
  split_ifs at succeeded with null
  · simp only [Option.some.injEq, Prod.mk.injEq] at succeeded
    rw [← succeeded.1]
  cases found : tracking.objects pointer with
  | none => simp [found] at succeeded
  | some object =>
    rw [found] at succeeded
    dsimp only at succeeded
    cases userReleased : releaseUserReference pointer object userReference with
    | none => simp [userReleased] at succeeded
    | some counted =>
      obtain ⟨userReferenceCount, userEvents⟩ := counted
      rw [userReleased] at succeeded
      dsimp only at succeeded
      have kept : (tracking.setObject pointer
          { object with referenceCount := object.referenceCount - 1, userReferenceCount }).pinnedPathCounts =
          tracking.pinnedPathCounts := setObject_pinnedPathCounts found rfl
      split_ifs at succeeded <;> simp only [Option.some.injEq, Prod.mk.injEq] at succeeded
      all_goals
        rw [← succeeded.1]
        exact kept

theorem ebpfObjectInitialize_pinnedPathCounts (pointer : UInt64) (type : EbpfObjectType)
    (notifiesZeroed notifiesUserZeroed workItemAllocated : Bool) (environment : HashTableEnvironment) (other : UInt64) :
    (tracking.ebpfObjectInitialize pointer type notifiesZeroed notifiesUserZeroed workItemAllocated
        environment).2.pinnedPathCounts other = tracking.pinnedPathCounts other ∨
      other = pointer ∧ (tracking.ebpfObjectInitialize pointer type notifiesZeroed notifiesUserZeroed
        workItemAllocated environment).2.pinnedPathCounts other = some 0 := by
  by_cases here : other = pointer
  · subst here
    unfold ebpfObjectInitialize
    cases workItemAllocated with
    | false => exact .inl rfl
    | true =>
      simp only [Bool.not_true, Bool.false_eq_true, if_false]
      generalize ebpfHashTableUpdate tracking.idTable (idKey (tracking.nextId + 1))
        (some (ebpfIdEntryBytes type other)) .insert environment = outcome
      obtain ⟨result, idTable⟩ := outcome
      dsimp only
      split_ifs
      · exact .inl rfl
      · exact .inr ⟨by trivial, by simp [pinnedPathCounts]⟩
  · left
    simp only [pinnedPathCounts, ebpfObjectInitialize_objects_of_ne here]

theorem addPinnedPathCount_of_found {pointer : UInt64} {object : EbpfCoreObject}
    (found : tracking.objects pointer = some object) (delta : Int32) :
    tracking.addPinnedPathCount pointer delta =
      tracking.setObject pointer { object with pinnedPathCount := (Int32.ofInt object.pinnedPathCount + delta).toInt } := by
  simp [addPinnedPathCount, found]

theorem addPinnedPathCount_of_none {pointer : UInt64} (dead : tracking.objects pointer = none) (delta : Int32) :
    tracking.addPinnedPathCount pointer delta = tracking := by
  simp [addPinnedPathCount, dead]

theorem addPinnedPathCount_pinnedPathCounts (tracking : EbpfObjectTracking) (pointer : UInt64) (delta : Int32) :
    (tracking.addPinnedPathCount pointer delta).pinnedPathCounts =
      Function.update tracking.pinnedPathCounts pointer
        ((tracking.pinnedPathCounts pointer).map fun count => (Int32.ofInt count + delta).toInt) := by
  funext other
  cases found : tracking.objects pointer with
  | none => by_cases here : other = pointer <;> simp [addPinnedPathCount_of_none found, pinnedPathCounts, found, here]
  | some object =>
    by_cases here : other = pointer <;> simp [addPinnedPathCount_of_found found, pinnedPathCounts, setObject, found, here]

end EbpfObjectTracking

@[simp] theorem holding_append (found : Option UInt64) (held others : List (UInt64 × Bool)) :
    holding found (held ++ others) = holding found held ++ others := by
  cases found <;> rfl

namespace ObjectOperation

variable {operation : ObjectOperation} {clients : ObjectClients}

theorem admissible_append (allowed : operation.Admissible clients) (others : List (UInt64 × Bool)) :
    operation.Admissible ⟨clients.tracking, clients.held ++ others⟩ := by
  cases operation with
  | create => exact allowed
  | release pointer userReference => exact List.mem_append_left others allowed
  | acquire | referenceById | referenceNextObject | getNextId => trivial

theorem step_append (allowed : operation.Admissible clients) (others : List (UInt64 × Bool)) :
    operation.step ⟨clients.tracking, clients.held ++ others⟩ =
      (operation.step clients).map fun stepped => (⟨stepped.1.tracking, stepped.1.held ++ others⟩, stepped.2) := by
  cases operation with
  | create pointer type notifiesZeroed notifiesUserZeroed workItemAllocated environment =>
    simp only [step, Option.map_some]
    split_ifs <;> rfl
  | release pointer userReference =>
    simp only [step, Option.map_map, Function.comp_def, List.erase_append_left others allowed]
  | acquire | referenceById | referenceNextObject | getNextId =>
    simp [step, Option.map_map, Function.comp_def]

theorem pinnedPathCounts_step (allowed : operation.Admissible clients) {next : ObjectClients}
    {emitted : List ObjectEvent} (stepped : operation.step clients = some (next, emitted)) (other : UInt64) :
    next.tracking.pinnedPathCounts other = clients.tracking.pinnedPathCounts other ∨
      clients.tracking.liveEntry other = none ∧ next.tracking.pinnedPathCounts other = some 0 := by
  cases operation with
  | create pointer type notifiesZeroed notifiesUserZeroed workItemAllocated environment =>
    simp only [step, Option.some.injEq, Prod.mk.injEq] at stepped
    obtain ⟨rfl, -⟩ := stepped
    rcases EbpfObjectTracking.ebpfObjectInitialize_pinnedPathCounts pointer type notifiesZeroed notifiesUserZeroed
      workItemAllocated environment other with same | ⟨rfl, zero⟩
    · exact .inl same
    · exact .inr ⟨allowed.2, zero⟩
  | acquire pointer userReference =>
    simp only [step, Option.map_eq_some_iff, Prod.mk.injEq] at stepped
    obtain ⟨acquired, succeeded, rfl, -⟩ := stepped
    exact .inl (congrFun (EbpfObjectTracking.ebpfObjectAcquireReference_pinnedPathCounts succeeded) other)
  | release pointer userReference =>
    simp only [step, Option.map_eq_some_iff, Prod.mk.injEq] at stepped
    obtain ⟨⟨released, events⟩, succeeded, rfl, -⟩ := stepped
    exact .inl (congrFun (EbpfObjectTracking.ebpfObjectReleaseReference_pinnedPathCounts succeeded) other)
  | referenceById id type =>
    simp only [step, Option.map_eq_some_iff, Prod.mk.injEq] at stepped
    obtain ⟨⟨result, found, after⟩, looked, rfl, -⟩ := stepped
    rcases EbpfObjectTracking.ebpfObjectReferenceById_eq_some looked with ⟨-, rfl⟩ | ⟨entry, -, -, -, -, tried⟩
    · exact .inl rfl
    · exact .inl (congrFun (EbpfObjectTracking.ebpfObjectTryAcquireReference_pinnedPathCounts tried) other)
  | referenceNextObject previous type fuel =>
    simp only [step, Option.map_eq_some_iff, Prod.mk.injEq] at stepped
    obtain ⟨⟨found, after⟩, looked, rfl, -⟩ := stepped
    rcases EbpfObjectTracking.referenceNextObjectLoop_eq_some looked with ⟨-, rfl⟩ | ⟨-, entry, -, -, -, tried⟩
    · exact .inl rfl
    · exact .inl (congrFun (EbpfObjectTracking.ebpfObjectTryAcquireReference_pinnedPathCounts tried) other)
  | getNextId startId type =>
    simp only [step, Option.some.injEq, Prod.mk.injEq] at stepped
    obtain ⟨rfl, -⟩ := stepped
    exact .inl rfl

end ObjectOperation

namespace ObjectClients.Tracks

variable {clients : ObjectClients}

theorem perm (tracks : clients.Tracks) {held : List (UInt64 × Bool)} (perm : held.Perm clients.held) :
    Tracks ⟨clients.tracking, held⟩ where
  shaped := tracks.shaped
  fits := tracks.fits
  bound := tracks.bound
  counts pointer object found := by
    simp only [heldOn, perm.count_eq]
    exact tracks.counts pointer object found
  heldObjects reference member := tracks.heldObjects reference (perm.mem_iff.mp member)
  null := tracks.null

theorem addPinnedPathCount (tracks : clients.Tracks) (pointer : UInt64) (delta : Int32) :
    Tracks ⟨clients.tracking.addPinnedPathCount pointer delta, clients.held⟩ := by
  cases found : clients.tracking.objects pointer with
  | none =>
    rw [EbpfObjectTracking.addPinnedPathCount_of_none found]
    exact tracks
  | some object =>
    rw [EbpfObjectTracking.addPinnedPathCount_of_found found]
    have live : Function.update clients.tracking.liveEntry pointer
        ({ object with pinnedPathCount := (Int32.ofInt object.pinnedPathCount + delta).toInt } : EbpfCoreObject).liveEntry =
        clients.tracking.liveEntry := by
      rw [Function.update_eq_self_iff]
      simp [EbpfObjectTracking.liveEntry, found, EbpfCoreObject.liveEntry]
    refine tracks.replace _ (tracks.notNull_of_found found) (by rfl) (by exact tracks.shaped) (by exact tracks.fits)
      ?bound ?countsOn
      (fun _ _ _ => rfl) (fun _ member => .inr member)
    case bound =>
      rw [live]
      exact tracks.bound
    case countsOn => exact tracks.counts pointer object found

end ObjectClients.Tracks

/-! ## `int32_t` counts -/

theorem int32_toInt_add_one (count : Nat) :
    (Int32.ofInt (Int32.ofNat count).toInt + 1).toInt = (Int32.ofNat (count + 1)).toInt := by
  rw [Int32.ofInt_toInt, Int32.ofNat_add]
  rfl

theorem int32_toInt_sub_one (count : Nat) :
    (Int32.ofInt (Int32.ofNat (count + 1)).toInt + -1).toInt = (Int32.ofNat count).toInt := by
  rw [Int32.ofInt_toInt, Int32.ofNat_add, Int32.add_assoc]
  simp

/-! ## The pinning table's functions on a state that holds its map -/

namespace PinningState

variable (state : PinningState)

/-- The user references the table's entries hold: one on the object of each entry. -/
def pins : List (UInt64 × Bool) :=
  state.table.pinnedEntries.map fun entry => (state.memory.entryObjects entry, true)

/-- The object pinned under each path: what the pinning table is for. -/
def pinnedObject (path : List UInt8) : Option UInt64 :=
  (state.table.pinnedEntry state.memory path).map state.memory.entryObjects

/-- The pinned paths, in bucket order. -/
def pinnedPaths : List (List UInt8) :=
  state.table.pinnedEntries.map state.memory.strings

/-- The number of paths pinned to the object at `pointer`. -/
def pinCount (pointer : UInt64) : Nat :=
  state.table.pinnedEntries.countP fun entry => state.memory.entryObjects entry = pointer

theorem count_pins_true (pointer : UInt64) : state.pins.count (pointer, true) = state.pinCount pointer := by
  simp only [pins, pinCount, List.count_eq_countP, List.countP_map]
  refine List.countP_congr fun entry _ => ?_
  simp

theorem count_pins_false (pointer : UInt64) : state.pins.count (pointer, false) = 0 := by
  rw [List.count_eq_zero]
  simp [pins]

theorem ebpfPinningTableInsert_of_rejected {path : UInt64} (rejected : ¬ PathAccepted (state.memory.strings path))
    (object : UInt64) (environment : PinningInsertEnvironment) :
    state.ebpfPinningTableInsert path object environment = some (.invalidArgument, state, []) := by
  unfold ebpfPinningTableInsert
  dsimp only
  split_ifs with lengths hasNull
  · rfl
  · rfl
  all_goals exact absurd ((pathAccepted_iff _).mpr ⟨lengths, Bool.eq_false_iff.mpr hasNull⟩) rejected

variable {state}

theorem ebpfPinningTableInsert_eq_some {path object : UInt64} {environment : PinningInsertEnvironment}
    {result : EbpfResult} {next : PinningState} {events : List ObjectEvent}
    (inserted : state.ebpfPinningTableInsert path object environment = some (result, next, events)) :
    result ≠ .success ∧ next = state ∧ events = [] ∨
      PathAccepted (state.memory.strings path) ∧ environment.entryAllocated = true ∧
        environment.duplicateResult = .success ∧
        ∃ acquired outcome, state.tracking.ebpfObjectAcquireReference object true = some acquired ∧
          ebpfHashTableUpdate
            (state.table.readingMemory (state.memory.writeEntry environment.entry (state.memory.strings path) object))
            (uint64Bytes environment.entry) (some (uint64Bytes environment.entry)) .insert environment.hashTable =
            outcome ∧
          (outcome.1 = .success ∧ result = .success ∧ events = [] ∧
              next = ⟨outcome.2, state.memory.writeEntry environment.entry (state.memory.strings path) object,
                acquired.addPinnedPathCount object 1⟩ ∨
            outcome.1 ≠ .success ∧ result = (if outcome.1 = .keyAlreadyExists then .objectAlreadyExists else outcome.1) ∧
              ∃ released, acquired.ebpfObjectReleaseReference object true = some (released, events) ∧
                next = ⟨outcome.2, state.memory.writeEntry environment.entry (state.memory.strings path) object,
                  released⟩) := by
  unfold ebpfPinningTableInsert at inserted
  dsimp only at inserted
  split_ifs at inserted with lengths hasNull notAllocated duplicateFailed success already
  · simp only [Option.some.injEq, Prod.mk.injEq] at inserted
    exact .inl ⟨by rw [← inserted.1]; decide, inserted.2.1.symm, inserted.2.2.symm⟩
  · simp only [Option.some.injEq, Prod.mk.injEq] at inserted
    exact .inl ⟨by rw [← inserted.1]; decide, inserted.2.1.symm, inserted.2.2.symm⟩
  · simp only [Option.some.injEq, Prod.mk.injEq] at inserted
    exact .inl ⟨by rw [← inserted.1]; decide, inserted.2.1.symm, inserted.2.2.symm⟩
  · -- the entry was allocated zeroed: freeing it releases NULL, which changes nothing
    simp only [ebpfPinningEntryFree, EbpfObjectTracking.ebpfObjectReleaseReference, if_true, Option.map_some,
      Option.some.injEq, Prod.mk.injEq] at inserted
    exact .inl ⟨inserted.1 ▸ duplicateFailed, inserted.2.1.symm, inserted.2.2.symm⟩
  all_goals
    refine .inr ⟨(pathAccepted_iff _).mpr ⟨lengths, Bool.eq_false_iff.mpr hasNull⟩, by simpa using notAllocated,
      not_not.mp duplicateFailed, ?_⟩
    obtain ⟨acquired, acquire⟩ : ∃ acquired, state.tracking.ebpfObjectAcquireReference object true = some acquired :=
      Option.ne_none_iff_exists'.mp fun failed => by simp [failed] at inserted
    rw [acquire, Option.bind_some] at inserted
  · -- the hash table insert succeeded
    simp only [Option.some.injEq, Prod.mk.injEq] at inserted
    exact ⟨acquired, _, acquire, rfl, .inl ⟨success, inserted.1.symm, inserted.2.2.symm, inserted.2.1.symm⟩⟩
  all_goals
    obtain ⟨⟨released, emitted⟩, freed, same⟩ := Option.map_eq_some_iff.mp inserted
    simp only [Prod.mk.injEq] at same
    obtain ⟨rfl, rfl, rfl⟩ := same
  · exact ⟨acquired, _, acquire, rfl, .inr ⟨success, by rw [if_pos already], released, freed, rfl⟩⟩
  · exact ⟨acquired, _, acquire, rfl, .inr ⟨success, by rw [if_neg already], released, freed, rfl⟩⟩

variable {contents : BoundedMap}

theorem ebpfPinningTableFind_eq (holds : PinningTableHolds state.table state.memory contents) (path : UInt64) :
    state.ebpfPinningTableFind path =
      match state.pinnedObject (state.memory.strings path) with
      | some object => (state.tracking.ebpfObjectAcquireReference object false).map fun acquired =>
        (.success, some object, { state with tracking := acquired })
      | none => some (.keyNotFound, none, state) := by
  unfold ebpfPinningTableFind pinnedObject
  rw [holds.find_eq]
  cases state.table.pinnedEntry state.memory (state.memory.strings path) <;> simp

theorem ebpfPinningTableDelete_eq (holds : PinningTableHolds state.table state.memory contents) (path : UInt64)
    (environment : HashTableEnvironment) :
    state.ebpfPinningTableDelete path environment =
      match state.table.pinnedEntry state.memory (state.memory.strings path) with
      | some entry =>
        (ebpfPinningEntryFree (state.tracking.addPinnedPathCount (state.memory.entryObjects entry) (-1))
            (some (state.memory.entryObjects entry))).map fun (tracking, events) =>
          (.success, ⟨(ebpfHashTableDelete (state.table.readingMemory state.memory) (uint64Bytes path) environment).2,
            state.memory, tracking⟩, events)
      | none => some (.keyNotFound, state, []) := by
  unfold ebpfPinningTableDelete
  dsimp only
  rw [holds.find_eq]
  cases found : state.table.pinnedEntry state.memory (state.memory.strings path) with
  | none => rfl
  | some entry =>
    dsimp only
    obtain ⟨success, -, -⟩ := holds.delete_outcome found environment rfl
    generalize ebpfHashTableDelete (state.table.readingMemory state.memory) (uint64Bytes path) environment = outcome
      at success ⊢
    obtain ⟨result, deleted⟩ := outcome
    dsimp only at success ⊢
    rw [if_pos success, pointerAt_uint64Bytes]

theorem ebpfPinningTableGetNextPath_memory {objectType : EbpfObjectType} {startPath nextPath : UInt64}
    {result : EbpfResult} {type : EbpfObjectType} {memory : PinningMemory}
    (listed : state.ebpfPinningTableGetNextPath objectType startPath nextPath = some (result, type, memory)) :
    memory = state.memory ∨ ∃ path, memory = state.memory.writeString nextPath path := by
  unfold ebpfPinningTableGetNextPath at listed
  by_cases nulls : startPath = 0 ∨ nextPath = 0
  · rw [if_pos nulls] at listed
    simp only [Option.some.injEq, Prod.mk.injEq] at listed
    exact .inl listed.2.2.symm
  rw [if_neg nulls] at listed
  dsimp only at listed
  split at listed
  · simp only [Option.some.injEq, Prod.mk.injEq] at listed
    exact .inl listed.2.2.symm
  · split_ifs at listed
    · simp only [Option.some.injEq, Prod.mk.injEq] at listed
      exact .inl listed.2.2.symm
    · obtain ⟨found, -, same⟩ := Option.map_eq_some_iff.mp listed
      simp only [Prod.mk.injEq] at same
      exact .inr ⟨_, same.2.2.symm⟩

end PinningState

/-! ## The callers of the pinning table -/

/-- The pinning table and the objects, beside the references the callers hold. -/
structure PinningClients where
  state : PinningState
  held : List (UInt64 × Bool)

/-- A call the callers make: one of the object functions, a write of one of their strings,
or a call of the pinning table, with the outcomes of what it allocates. -/
inductive PinningOperation where
  | object (operation : ObjectOperation)
  | write (pointer : UInt64) (bytes : List UInt8)
  | insert (path object : UInt64) (environment : PinningInsertEnvironment)
  | find (path : UInt64)
  | delete (path : UInt64) (environment : HashTableEnvironment)
  | getNextPath (objectType : EbpfObjectType) (startPath nextPath : UInt64)

namespace PinningOperation

/-- One call; the reference a find takes is the caller's to hold. `none` where the call
fails fast. -/
def step (clients : PinningClients) : PinningOperation → Option (PinningClients × List ObjectEvent)
  | .object operation =>
    (operation.step ⟨clients.state.tracking, clients.held⟩).map fun (objects, events) =>
      (⟨{ clients.state with tracking := objects.tracking }, objects.held⟩, events)
  | .write pointer bytes =>
    some (⟨{ clients.state with memory := clients.state.memory.writeString pointer bytes }, clients.held⟩, [])
  | .insert path target environment =>
    (clients.state.ebpfPinningTableInsert path target environment).map fun (_, state, events) =>
      (⟨state, clients.held⟩, events)
  | .find path =>
    (clients.state.ebpfPinningTableFind path).map fun (_, found, state) => (⟨state, holding found clients.held⟩, [])
  | .delete path environment =>
    (clients.state.ebpfPinningTableDelete path environment).map fun (_, state, events) =>
      (⟨state, clients.held⟩, events)
  | .getNextPath objectType startPath nextPath =>
    (clients.state.ebpfPinningTableGetNextPath objectType startPath nextPath).map fun (_, _, memory) =>
      (⟨{ clients.state with memory }, clients.held⟩, [])

/-- What the callers may do: the object calls they may make; writes to their own strings
only, and listings into them; and pins of objects they hold a reference on, into entries
the allocator gives them, which are not NULL and at addresses no entry of the table has. -/
def Admissible (clients : PinningClients) : PinningOperation → Prop
  | .object operation => operation.Admissible ⟨clients.state.tracking, clients.held⟩
  | .write pointer _ => pointer ∉ clients.state.table.pinnedEntries
  | .insert _ target environment =>
    (∃ userReference, (target, userReference) ∈ clients.held) ∧ environment.entry ∉ clients.state.table.pinnedEntries ∧
      (environment.entryAllocated = true → environment.entry ≠ 0)
  | .getNextPath _ _ nextPath => nextPath ∉ clients.state.table.pinnedEntries
  | .find _ | .delete _ _ => True

end PinningOperation

/-- The runs of the callers from `start`, with no reference held. -/
def PinningClients.Reaches (start : PinningState) (events : List ObjectEvent) (clients : PinningClients) : Prop :=
  Trace.Reaches PinningOperation.step PinningOperation.Admissible ⟨start, []⟩ events clients

/-- The invariant of the callers' runs: the objects' counts are the references the callers
and the table's entries hold, the table holds a map of accepted paths in entries that are not
NULL, and each object's `pinned_path_count` is the number of paths pinned to it as an
`int32_t` counts it. -/
structure PinningClients.Tracks (clients : PinningClients) : Prop where
  objects : ObjectClients.Tracks ⟨clients.state.tracking, clients.held ++ clients.state.pins⟩
  holds : ∃ contents, PinningTableHolds clients.state.table clients.state.memory contents
  pinnedPathCounts : ∀ pointer count, clients.state.tracking.pinnedPathCounts pointer = some count →
    count = (Int32.ofNat (clients.state.pinCount pointer)).toInt
  notNull : 0 ∉ clients.state.table.pinnedEntries

namespace PinningClients.Tracks

variable {clients : PinningClients}

theorem pins_congr {state : PinningState} {memory : PinningMemory}
    (agree : ∀ entry ∈ state.table.pinnedEntries, memory.entryObjects entry = state.memory.entryObjects entry) :
    (state.table.pinnedEntries.map fun entry => (memory.entryObjects entry, true)) = state.pins :=
  List.map_congr_left fun entry member => by rw [agree entry member]

theorem pinCount_eq_of_perm {state next : PinningState} (perm : next.pins.Perm state.pins) (pointer : UInt64) :
    next.pinCount pointer = state.pinCount pointer := by
  rw [← next.count_pins_true, ← state.count_pins_true, perm.count_eq]

theorem frame (tracks : clients.Tracks) {next : PinningClients} (tracking : next.state.tracking = clients.state.tracking)
    (held : next.held = clients.held) (table : next.state.table = clients.state.table)
    (pins : next.state.pins = clients.state.pins)
    (holds : ∃ contents, PinningTableHolds next.state.table next.state.memory contents) : next.Tracks where
  objects := by
    rw [tracking, held, pins]
    exact tracks.objects
  holds := holds
  pinnedPathCounts pointer count found := by
    rw [tracking] at found
    rw [← PinningState.count_pins_true, pins, PinningState.count_pins_true]
    exact tracks.pinnedPathCounts pointer count found
  notNull := table ▸ tracks.notNull

theorem retrack (tracks : clients.Tracks) {tracking : EbpfObjectTracking} {held : List (UInt64 × Bool)}
    (objects : ObjectClients.Tracks ⟨tracking, held ++ clients.state.pins⟩)
    (pinnedPathCounts : tracking.pinnedPathCounts = clients.state.tracking.pinnedPathCounts) :
    Tracks ⟨{ clients.state with tracking }, held⟩ where
  objects := objects
  holds := tracks.holds
  pinnedPathCounts pointer count found := tracks.pinnedPathCounts pointer count (pinnedPathCounts ▸ found)
  notNull := tracks.notNull

theorem write (tracks : clients.Tracks) {pointer : UInt64} (mine : pointer ∉ clients.state.table.pinnedEntries)
    (bytes : List UInt8) :
    Tracks ⟨{ clients.state with memory := clients.state.memory.writeString pointer bytes }, clients.held⟩ := by
  obtain ⟨contents, holds⟩ := tracks.holds
  refine tracks.frame rfl rfl rfl rfl ⟨contents, holds.write fun entry member => ?_⟩
  have different : entry ≠ pointer := fun same => mine (same ▸ member)
  simp [PinningMemory.writeString, different]

theorem object (tracks : clients.Tracks) {operation : ObjectOperation}
    (allowed : operation.Admissible ⟨clients.state.tracking, clients.held⟩) {next : ObjectClients}
    {emitted : List ObjectEvent} (stepped : operation.step ⟨clients.state.tracking, clients.held⟩ = some (next, emitted)) :
    Tracks ⟨{ clients.state with tracking := next.tracking }, next.held⟩ where
  objects := by
    have appended := ObjectOperation.step_append allowed clients.state.pins
    rw [stepped, Option.map_some] at appended
    exact tracks.objects.step (ObjectOperation.admissible_append allowed _) appended
  holds := tracks.holds
  pinnedPathCounts pointer count found := by
    rcases ObjectOperation.pinnedPathCounts_step allowed stepped pointer with same | ⟨dead, zero⟩
    · exact tracks.pinnedPathCounts pointer count (same ▸ found)
    · -- no reference is held on memory without a live object, the table's neither
      have noneHeld := tracks.objects.heldOn_eq_zero dead
      have unpinned : clients.state.pinCount pointer = 0 := by
        simp only [heldOn, List.count_append, PinningState.count_pins_true] at noneHeld
        omega
      show count = (Int32.ofNat (clients.state.pinCount pointer)).toInt
      rw [zero, Option.some.injEq] at found
      rw [unpinned, ← found]
      rfl
  notNull := tracks.notNull

theorem pinCount_of_perm_cons {state next : PinningState} {target : UInt64}
    (perm : next.pins.Perm ((target, true) :: state.pins)) (pointer : UInt64) :
    next.pinCount pointer = state.pinCount pointer + if pointer = target then 1 else 0 := by
  rw [← next.count_pins_true, perm.count_eq, List.count_cons, state.count_pins_true]
  by_cases here : pointer = target
  · simp [here]
  · simp [here, Ne.symm here]

theorem insert (tracks : clients.Tracks) {path target : UInt64} {environment : PinningInsertEnvironment}
    (allowed : (PinningOperation.insert path target environment).Admissible clients)
    {result : EbpfResult} {next : PinningState} {events : List ObjectEvent}
    (inserted : clients.state.ebpfPinningTableInsert path target environment = some (result, next, events)) :
    Tracks ⟨next, clients.held⟩ := by
  obtain ⟨contents, holds⟩ := tracks.holds
  obtain ⟨-, fresh, notNull⟩ := allowed
  rcases PinningState.ebpfPinningTableInsert_eq_some inserted with
    ⟨-, rfl, -⟩ | ⟨accepted, entryAllocated, -, acquired, outcome, acquire, updated, outcomes⟩
  · exact tracks
  have filled := holds.writeEntry fresh (clients.state.memory.strings path) target
  have pathAt : (clients.state.memory.writeEntry environment.entry (clients.state.memory.strings path) target).strings
      environment.entry = clients.state.memory.strings path := by
    simp [PinningMemory.writeEntry]
  obtain ⟨nextContents, nextHolds, onSuccess, onFailure, -⟩ :=
    filled.insert_outcome (by rw [pathAt]; exact accepted) updated
  have oldPins : (clients.state.table.pinnedEntries.map fun entry =>
      ((clients.state.memory.writeEntry environment.entry (clients.state.memory.strings path) target).entryObjects
        entry, true)) = clients.state.pins :=
    pins_congr fun entry member => by
      have different : entry ≠ environment.entry := fun same => fresh (same ▸ member)
      simp [PinningMemory.writeEntry, different]
  have acquiredTracks := tracks.objects.acquire acquire
  rcases outcomes with ⟨success, -, -, rfl⟩ | ⟨failed, -, released, freed, rfl⟩
  · -- the table holds the new entry and its user reference
    have newPins : PinningState.pins ⟨outcome.2,
        clients.state.memory.writeEntry environment.entry (clients.state.memory.strings path) target,
        acquired.addPinnedPathCount target 1⟩ |>.Perm ((target, true) :: clients.state.pins) := by
      have grown := (onSuccess success).2.map fun entry =>
        ((clients.state.memory.writeEntry environment.entry (clients.state.memory.strings path) target).entryObjects
          entry, true)
      simp only [List.map_cons, oldPins] at grown
      have objectAt : (clients.state.memory.writeEntry environment.entry (clients.state.memory.strings path)
          target).entryObjects environment.entry = target := by
        simp [PinningMemory.writeEntry]
      rw [objectAt] at grown
      exact grown
    refine ⟨(acquiredTracks.addPinnedPathCount target 1).perm ((newPins.append_left clients.held).trans
      List.perm_middle), ⟨nextContents, nextHolds⟩, fun pointer count found => ?_, fun zero => ?_⟩
    swap
    · -- the new entry is where the allocator put it, not NULL
      rcases List.mem_cons.mp ((onSuccess success).2.mem_iff.mp zero) with same | old
      · exact notNull entryAllocated same.symm
      · exact tracks.notNull old
    rw [pinCount_of_perm_cons newPins]
    dsimp only at found
    rw [EbpfObjectTracking.addPinnedPathCount_pinnedPathCounts,
      EbpfObjectTracking.ebpfObjectAcquireReference_pinnedPathCounts acquire] at found
    by_cases here : pointer = target
    · subst here
      rw [Function.update_self] at found
      obtain ⟨old, counted, rfl⟩ := Option.map_eq_some_iff.mp found
      rw [tracks.pinnedPathCounts pointer old counted, if_pos rfl, int32_toInt_add_one]
    · rw [Function.update_of_ne here] at found
      rw [if_neg here, Nat.add_zero]
      exact tracks.pinnedPathCounts pointer count found
  · -- the table holds the same entries, and the entry's free gave the reference back
    have samePins : PinningState.pins ⟨outcome.2,
        clients.state.memory.writeEntry environment.entry (clients.state.memory.strings path) target,
        released⟩ |>.Perm clients.state.pins := by
      have kept := (onFailure failed).map fun entry =>
        ((clients.state.memory.writeEntry environment.entry (clients.state.memory.strings path) target).entryObjects
          entry, true)
      rwa [oldPins] at kept
    have releasedTracks := acquiredTracks.release List.mem_cons_self freed
    rw [List.erase_cons_head] at releasedTracks
    refine ⟨releasedTracks.perm (samePins.append_left clients.held), ⟨nextContents, nextHolds⟩,
      fun pointer count found => ?_, fun zero => tracks.notNull ((onFailure failed).mem_iff.mp zero)⟩
    rw [pinCount_eq_of_perm samePins]
    dsimp only at found
    rw [EbpfObjectTracking.ebpfObjectReleaseReference_pinnedPathCounts freed,
      EbpfObjectTracking.ebpfObjectAcquireReference_pinnedPathCounts acquire] at found
    exact tracks.pinnedPathCounts pointer count found

theorem find (tracks : clients.Tracks) {path : UInt64} {result : EbpfResult} {found : Option UInt64}
    {next : PinningState} (looked : clients.state.ebpfPinningTableFind path = some (result, found, next)) :
    Tracks ⟨next, holding found clients.held⟩ := by
  obtain ⟨contents, holds⟩ := tracks.holds
  rw [PinningState.ebpfPinningTableFind_eq holds] at looked
  cases pinned : clients.state.pinnedObject (clients.state.memory.strings path) with
  | none =>
    rw [pinned] at looked
    simp only [Option.some.injEq, Prod.mk.injEq] at looked
    obtain ⟨-, rfl, rfl⟩ := looked
    exact tracks
  | some target =>
    rw [pinned] at looked
    obtain ⟨acquired, acquire, same⟩ := Option.map_eq_some_iff.mp looked
    simp only [Prod.mk.injEq] at same
    obtain ⟨-, rfl, rfl⟩ := same
    exact tracks.retrack (tracks.objects.acquire acquire)
      (EbpfObjectTracking.ebpfObjectAcquireReference_pinnedPathCounts acquire)

theorem delete (tracks : clients.Tracks) {path : UInt64} {environment : HashTableEnvironment} {result : EbpfResult}
    {next : PinningState} {events : List ObjectEvent}
    (deleted : clients.state.ebpfPinningTableDelete path environment = some (result, next, events)) :
    Tracks ⟨next, clients.held⟩ := by
  obtain ⟨contents, holds⟩ := tracks.holds
  rw [PinningState.ebpfPinningTableDelete_eq holds] at deleted
  cases found : clients.state.table.pinnedEntry clients.state.memory (clients.state.memory.strings path) with
  | none =>
    rw [found] at deleted
    simp only [Option.some.injEq, Prod.mk.injEq] at deleted
    obtain ⟨-, rfl, -⟩ := deleted
    exact tracks
  | some entry =>
    rw [found] at deleted
    obtain ⟨⟨released, emitted⟩, freed, same⟩ := Option.map_eq_some_iff.mp deleted
    simp only [Prod.mk.injEq] at same
    obtain ⟨-, rfl, -⟩ := same
    obtain ⟨-, remaining, shrunk⟩ := holds.delete_outcome found environment rfl
    generalize (ebpfHashTableDelete (clients.state.table.readingMemory clients.state.memory) (uint64Bytes path)
      environment).2 = deletedTable at remaining shrunk ⊢
    have member := (holds.pinnedEntry_eq_some_iff.mp found).1
    have fewerPins : clients.state.pins.Perm ((clients.state.memory.entryObjects entry, true) ::
        PinningState.pins ⟨deletedTable, clients.state.memory, released⟩) := by
      have fewer := shrunk.map fun entry => (clients.state.memory.entryObjects entry, true)
      rw [List.map_cons] at fewer
      exact fewer
    have ledger := ((fewerPins.append_left clients.held).trans List.perm_middle).erase
      (clients.state.memory.entryObjects entry, true)
    rw [List.erase_cons_head] at ledger
    have releasedTracks := (tracks.objects.addPinnedPathCount (clients.state.memory.entryObjects entry) (-1)).release
      (List.mem_append_right _ (List.mem_map_of_mem member)) freed
    refine ⟨releasedTracks.perm ledger.symm, ⟨_, remaining⟩, fun pointer count counted => ?_,
      fun zero => tracks.notNull (shrunk.mem_iff.mpr (List.mem_cons_of_mem _ zero))⟩
    have counts := pinCount_of_perm_cons fewerPins pointer
    dsimp only at counted
    rw [EbpfObjectTracking.ebpfObjectReleaseReference_pinnedPathCounts freed,
      EbpfObjectTracking.addPinnedPathCount_pinnedPathCounts] at counted
    by_cases here : pointer = clients.state.memory.entryObjects entry
    · rw [here, Function.update_self] at counted
      obtain ⟨old, oldCounted, rfl⟩ := Option.map_eq_some_iff.mp counted
      rw [if_pos here] at counts
      rw [tracks.pinnedPathCounts _ old oldCounted, ← here, counts, int32_toInt_sub_one]
    · rw [Function.update_of_ne here] at counted
      rw [if_neg here, Nat.add_zero] at counts
      rw [← counts]
      exact tracks.pinnedPathCounts pointer count counted

theorem getNextPath (tracks : clients.Tracks) {objectType : EbpfObjectType} {startPath nextPath : UInt64}
    (mine : nextPath ∉ clients.state.table.pinnedEntries) {result : EbpfResult} {type : EbpfObjectType}
    {memory : PinningMemory}
    (listed : clients.state.ebpfPinningTableGetNextPath objectType startPath nextPath = some (result, type, memory)) :
    Tracks ⟨{ clients.state with memory }, clients.held⟩ := by
  rcases PinningState.ebpfPinningTableGetNextPath_memory listed with rfl | ⟨path, rfl⟩
  · exact tracks
  · exact tracks.write mine path

theorem step (tracks : clients.Tracks) {operation : PinningOperation} (allowed : operation.Admissible clients)
    {next : PinningClients} {emitted : List ObjectEvent} (stepped : operation.step clients = some (next, emitted)) :
    next.Tracks := by
  cases operation with
  | object operation =>
    simp only [PinningOperation.step, Option.map_eq_some_iff, Prod.mk.injEq] at stepped
    obtain ⟨⟨objects, events⟩, objectStepped, rfl, -⟩ := stepped
    exact tracks.object allowed objectStepped
  | write pointer bytes =>
    simp only [PinningOperation.step, Option.some.injEq, Prod.mk.injEq] at stepped
    obtain ⟨rfl, -⟩ := stepped
    exact tracks.write allowed bytes
  | insert path target environment =>
    simp only [PinningOperation.step, Option.map_eq_some_iff, Prod.mk.injEq] at stepped
    obtain ⟨⟨result, state, events⟩, inserted, rfl, -⟩ := stepped
    exact tracks.insert allowed inserted
  | find path =>
    simp only [PinningOperation.step, Option.map_eq_some_iff, Prod.mk.injEq] at stepped
    obtain ⟨⟨result, found, state⟩, looked, rfl, -⟩ := stepped
    exact tracks.find looked
  | delete path environment =>
    simp only [PinningOperation.step, Option.map_eq_some_iff, Prod.mk.injEq] at stepped
    obtain ⟨⟨result, state, events⟩, deleted, rfl, -⟩ := stepped
    exact tracks.delete deleted
  | getNextPath objectType startPath nextPath =>
    simp only [PinningOperation.step, Option.map_eq_some_iff, Prod.mk.injEq] at stepped
    obtain ⟨⟨result, type, memory⟩, listed, rfl, -⟩ := stepped
    exact tracks.getNextPath allowed listed

end PinningClients.Tracks

theorem pinnedEntries_of_empty {table : EbpfHashTable} (empty : ∀ index, table.buckets index = []) :
    table.pinnedEntries = [] := by
  simp [EbpfHashTable.pinnedEntries, EbpfHashTable.entries, EbpfHashTable.entriesFrom, empty]

theorem PinningClients.tracks_initial {memory : PinningMemory} {tableAllocated hashTableAllocated : Bool}
    {seed : UInt32} {supportsSse42 : Bool} {table : EbpfHashTable}
    (allocated : ebpfPinningTableAllocate memory tableAllocated hashTableAllocated seed supportsSse42 = .ok table)
    {trackingAllocated : Bool} {trackingSeed : UInt32} {tracking : EbpfObjectTracking}
    (initiated : ebpfObjectTrackingInitiate trackingAllocated trackingSeed supportsSse42 = .ok tracking) :
    Tracks ⟨⟨table, memory, tracking⟩, []⟩ := by
  obtain ⟨shaped, empty, zero⟩ := ebpfPinningTableAllocate_eq_ok allocated
  have noEntries := pinnedEntries_of_empty empty
  refine ⟨?_, ⟨∅, shaped, fun index => by simp [BucketFits, empty index],
    @Represents.empty (table.readingMemory memory) empty zero, fun pair member => ?_, ?_⟩, ?_, ?_⟩
  · show ObjectClients.Tracks ⟨tracking, [] ++ table.pinnedEntries.map _⟩
    rw [noEntries]
    exact ObjectClients.tracks_initial initiated
  · dsimp only at member
    simp [EbpfHashTable.pairs, EbpfHashTable.entries, EbpfHashTable.entriesFrom, empty] at member
  · rw [noEntries]
    intro entry member
    cases member
  · obtain ⟨-, -, rfl⟩ := ebpfObjectTrackingInitiate_eq_ok initiated
    intro pointer count found
    simp [EbpfObjectTracking.pinnedPathCounts] at found
  · rw [noEntries]
    exact List.not_mem_nil

theorem PinningClients.tracks_of_reaches {memory : PinningMemory} {tableAllocated hashTableAllocated : Bool}
    {seed : UInt32} {supportsSse42 : Bool} {table : EbpfHashTable}
    (allocated : ebpfPinningTableAllocate memory tableAllocated hashTableAllocated seed supportsSse42 = .ok table)
    {trackingAllocated : Bool} {trackingSeed : UInt32} {tracking : EbpfObjectTracking}
    (initiated : ebpfObjectTrackingInitiate trackingAllocated trackingSeed supportsSse42 = .ok tracking)
    {events : List ObjectEvent} {clients : PinningClients}
    (reached : PinningClients.Reaches ⟨table, memory, tracking⟩ events clients) : clients.Tracks :=
  Trace.Reaches.invariant (PinningClients.tracks_initial allocated initiated)
    (fun _ _ _ _ tracks allowed stepped => tracks.step allowed stepped) reached

/-- In every state of the callers' runs each object's counts are the references the callers
hold on it and one user reference for each path pinned to it, its `pinned_path_count` is the
number of those paths as an `int32_t` holds it, and the pinned paths are distinct paths that
passed the checks of the pin. -/
theorem pinning_table_counts_the_pins_of_every_run {memory : PinningMemory} {tableAllocated hashTableAllocated : Bool}
    {seed : UInt32} {supportsSse42 : Bool} {table : EbpfHashTable}
    (allocated : ebpfPinningTableAllocate memory tableAllocated hashTableAllocated seed supportsSse42 = .ok table)
    {trackingAllocated : Bool} {trackingSeed : UInt32} {tracking : EbpfObjectTracking}
    (initiated : ebpfObjectTrackingInitiate trackingAllocated trackingSeed supportsSse42 = .ok tracking)
    {events : List ObjectEvent} {clients : PinningClients}
    (reached : PinningClients.Reaches ⟨table, memory, tracking⟩ events clients) :
    (∀ pointer object, clients.state.tracking.objects pointer = some object →
      object.referenceCount = heldOn clients.held pointer + clients.state.pinCount pointer ∧
      object.userReferenceCount = clients.held.count (pointer, true) + clients.state.pinCount pointer ∧
      object.pinnedPathCount = (Int32.ofNat (clients.state.pinCount pointer)).toInt) ∧
    clients.state.pinnedPaths.Nodup ∧ ∀ path ∈ clients.state.pinnedPaths, PathAccepted path := by
  have tracks := PinningClients.tracks_of_reaches allocated initiated reached
  obtain ⟨contents, holds⟩ := tracks.holds
  refine ⟨fun pointer object found => ?_, holds.nodup_paths, fun path listed => ?_⟩
  · -- the ledger is the callers' references followed by the table's, one user reference per path
    obtain ⟨referenceCount, userReferenceCount⟩ := tracks.objects.counts pointer object found
    have pinnedPathCount := tracks.pinnedPathCounts pointer object.pinnedPathCount
      (by simp [EbpfObjectTracking.pinnedPathCounts, found])
    simp only [heldOn, List.count_append, PinningState.count_pins_true, PinningState.count_pins_false]
      at referenceCount userReferenceCount
    refine ⟨?_, ?_, pinnedPathCount⟩
    · rw [referenceCount, heldOn]
      push_cast
      ring
    · rw [userReferenceCount]
      push_cast
      rfl
  · obtain ⟨entry, member, rfl⟩ := List.mem_map.mp listed
    exact holds.accepted entry member

/-- A caller's memory with the path `/m` in its string at 32. -/
def mapPathMemory : PinningMemory := ⟨fun pointer => if pointer = 32 then [47, 109] else [], fun _ => 0⟩

/-- An environment in which every allocation and notification succeeds. -/
def allocationsSucceed : HashTableEnvironment := ⟨true, .success, true, some 4096, .success⟩

/-- The creation of a map object at 16. -/
def PinningOperation.createMap : PinningOperation :=
  .object (.create 16 .map false false true allocationsSucceed)

/-- The pin of the path at 32 to the object at 16, into an entry at 48. -/
def PinningOperation.pinMap : PinningOperation := .insert 32 16 ⟨true, 48, .success, allocationsSucceed⟩

theorem pinning_table_counts_the_pins_after_one_pin :
    ∃ table tracking events clients,
      ebpfPinningTableAllocate mapPathMemory true true 0 false = .ok table ∧
      ebpfObjectTrackingInitiate true 0 false = .ok tracking ∧
      PinningClients.Reaches ⟨table, mapPathMemory, tracking⟩ events clients ∧
      clients.held = [(16, false)] ∧ clients.state.pinnedPaths = [[47, 109]] ∧
      (∀ pointer object, clients.state.tracking.objects pointer = some object →
        object.referenceCount = heldOn clients.held pointer + clients.state.pinCount pointer ∧
        object.userReferenceCount = clients.held.count (pointer, true) + clients.state.pinCount pointer ∧
        object.pinnedPathCount = (Int32.ofNat (clients.state.pinCount pointer)).toInt) ∧
      clients.state.pinnedPaths.Nodup ∧ ∀ path ∈ clients.state.pinnedPaths, PathAccepted path :=
  ⟨_, _, _, _, rfl, rfl,
    .step (.step .start (show PinningOperation.Admissible _ .createMap from ⟨by decide, by decide⟩) rfl)
      (show PinningOperation.Admissible _ .pinMap from ⟨⟨false, List.mem_singleton_self _⟩, by decide⟩) rfl,
    rfl, by decide,
    pinning_table_counts_the_pins_of_every_run
      (show ebpfPinningTableAllocate mapPathMemory true true 0 false = .ok _ from rfl)
      (show ebpfObjectTrackingInitiate true 0 false = .ok _ from rfl)
      (.step (.step .start (show PinningOperation.Admissible _ .createMap from ⟨by decide, by decide⟩) rfl)
        (show PinningOperation.Admissible _ .pinMap from ⟨⟨false, List.mem_singleton_self _⟩, by decide⟩) rfl)⟩

end EbpfWindows.Runtime
