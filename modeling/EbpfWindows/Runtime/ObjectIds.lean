import EbpfWindows.Runtime.ObjectLifetime
import EbpfWindows.Runtime.HashTable.Entries

/-! What the ID table answers while the objects' invariant holds.

The entries of the ID table are the live objects' IDs. `ebpf_object_reference_by_id` finds
every live object of the ID and type asked for and no other object, and
`ebpf_object_reference_next_object` returns live objects of the type asked for only.
`ebpf_object_get_next_id` started from zero and fed its own output lists the IDs of the live
objects of a type in increasing order, as long as none of them has ID zero: a start ID of
zero stands for the start of the table, so a live object with ID zero is returned again and
again. The 32-bit ID counter gives ID zero to the `2^32 - 1`-th object created.
-/

set_option autoImplicit false

namespace EbpfWindows.Runtime

open Bytes Successor
open EbpfObjectTracking (ebpfObjectIdSort ebpfObjectMatchObjectType)

/-! ## The entries of the ID table -/

theorem IdTableShaped.keyView_eq {table : EbpfHashTable} (shaped : IdTableShaped table) (key : List UInt8) :
    keyView table key = (0, readBytes key 0 4, 0) := by
  unfold keyView
  rw [shaped.extract, shaped.keySize]
  rfl

theorem EbpfObjectTracking.liveEntry_eq_some {tracking : EbpfObjectTracking} {pointer : UInt64} {id : UInt32}
    {type : EbpfObjectType} :
    tracking.liveEntry pointer = some (id, type) ↔
      ∃ object, tracking.objects pointer = some object ∧ 0 < object.referenceCount ∧ object.id = id ∧
        object.type = type := by
  unfold liveEntry
  cases tracking.objects pointer with
  | none => simp
  | some object => simp [EbpfCoreObject.liveEntry_eq_some]

theorem EbpfObjectTracking.ebpfObjectTryAcquireReference_of_positive {tracking : EbpfObjectTracking}
    {pointer : UInt64} {object : EbpfCoreObject} (found : tracking.objects pointer = some object)
    (positive : 0 < object.referenceCount) :
    tracking.ebpfObjectTryAcquireReference pointer =
      some (true, tracking.setObject pointer { object with referenceCount := object.referenceCount + 1 }) := by
  simp [ebpfObjectTryAcquireReference, found, show ¬ object.referenceCount < 0 by omega,
    show object.referenceCount ≠ 0 by omega]

theorem EbpfObjectTracking.ebpfObjectAcquireReference_of_zero {tracking : EbpfObjectTracking} {pointer : UInt64}
    {object : EbpfCoreObject} (found : tracking.objects pointer = some object) (zero : object.referenceCount = 0)
    (userReference : Bool) : tracking.ebpfObjectAcquireReference pointer userReference = none := by
  simp [ebpfObjectAcquireReference, found, zero]

theorem BoundedMap.lookup_of_find {contents : BoundedMap} {key : Nat × List UInt8 × UInt8} {value : List UInt8}
    (found : contents.find key = (.success, some value)) : contents.lookup key = some value := by
  unfold BoundedMap.find at found
  cases bound : contents.lookup key with
  | none =>
    rw [bound] at found
    cases found
  | some other =>
    rw [bound] at found
    simp only [Prod.mk.injEq, Option.some.injEq, true_and] at found
    rw [found]

namespace ObjectClients.Tracks

variable {clients : ObjectClients}

theorem entry_live (tracks : clients.Tracks) {entry : EbpfHashBucketEntry}
    (member : entry ∈ clients.tracking.idTable.entries) :
    ∃ pointer id type, clients.tracking.liveEntry pointer = some (id, type) ∧ readBytes entry.key 0 4 = idKey id ∧
      entry.data = ebpfIdEntryBytes type pointer := by
  obtain ⟨contents, represents, binds⟩ := tracks.bound
  obtain ⟨pointer, id, type, live, view, data⟩ :=
    (binds _ _).mp (represents.lookup_eq_some_iff.mpr ⟨entry, member, rfl, rfl⟩)
  rw [EbpfHashTable.entryView, tracks.shaped.keyView_eq] at view
  exact ⟨pointer, id, type, live, congrArg (fun view => view.2.1) view, data⟩

theorem entry_of_live (tracks : clients.Tracks) {pointer : UInt64} {id : UInt32} {type : EbpfObjectType}
    (live : clients.tracking.liveEntry pointer = some (id, type)) :
    ∃ entry ∈ clients.tracking.idTable.entries, readBytes entry.key 0 4 = idKey id ∧
      entry.data = ebpfIdEntryBytes type pointer := by
  obtain ⟨contents, represents, binds⟩ := tracks.bound
  obtain ⟨entry, member, view, data⟩ := represents.lookup_eq_some_iff.mp (binds.lookup live)
  rw [EbpfHashTable.entryView, tracks.shaped.keyView_eq] at view
  exact ⟨entry, member, congrArg (fun view => view.2.1) view, data⟩

theorem find_live (tracks : clients.Tracks) {pointer : UInt64} {id : UInt32} {type : EbpfObjectType}
    (live : clients.tracking.liveEntry pointer = some (id, type)) :
    ebpfHashTableFind clients.tracking.idTable (idKey id) = (.success, some (ebpfIdEntryBytes type pointer)) := by
  obtain ⟨contents, represents, binds⟩ := tracks.bound
  rw [find_idKey tracks.shaped represents tracks.fits, BoundedMap.find, binds.lookup live]

theorem find_dead (tracks : clients.Tracks) {id : UInt32}
    (dead : ∀ pointer type, clients.tracking.liveEntry pointer ≠ some (id, type)) :
    ebpfHashTableFind clients.tracking.idTable (idKey id) = (.keyNotFound, none) := by
  obtain ⟨contents, represents, binds⟩ := tracks.bound
  have absent : (0, idKey id, 0) ∉ contents := fun present => by
    obtain ⟨pointer, type, live⟩ := (binds.mem_iff id).mp present
    exact dead pointer type live
  rw [find_idKey tracks.shaped represents tracks.fits, BoundedMap.find, Finmap.lookup_eq_none.mpr absent]

/-! ## The lookups -/

theorem referenceById_live (tracks : clients.Tracks) {id : UInt32} {type : EbpfObjectType} {result : EbpfResult}
    {found : UInt64} {after : EbpfObjectTracking}
    (looked : clients.tracking.ebpfObjectReferenceById id type = some (result, some found, after)) :
    clients.tracking.liveEntry found = some (id, type) := by
  rcases EbpfObjectTracking.ebpfObjectReferenceById_eq_some looked with ⟨none, -⟩ |
    ⟨entry, entryFound, sameType, -, same, -⟩
  · cases none
  · obtain ⟨contents, represents, binds⟩ := tracks.bound
    rw [find_idKey tracks.shaped represents tracks.fits] at entryFound
    obtain ⟨pointer, otherId, otherType, live, view, rfl⟩ := (binds _ _).mp (BoundedMap.lookup_of_find entryFound)
    obtain rfl := BindsLive.idKey_eq view
    rw [idEntryType_ebpfIdEntryBytes] at sameType
    obtain rfl := EbpfObjectType.toUInt32_injective sameType
    rw [idEntryObject_ebpfIdEntryBytes, Option.some.injEq] at same
    rw [same]
    exact live

theorem referenceById_of_live (tracks : clients.Tracks) {pointer : UInt64} {id : UInt32} {type : EbpfObjectType}
    (live : clients.tracking.liveEntry pointer = some (id, type)) :
    ∃ after, clients.tracking.ebpfObjectReferenceById id type = some (.success, some pointer, after) := by
  obtain ⟨object, found, positive, -, -⟩ := EbpfObjectTracking.liveEntry_eq_some.mp live
  refine ⟨clients.tracking.setObject pointer { object with referenceCount := object.referenceCount + 1 }, ?_⟩
  unfold EbpfObjectTracking.ebpfObjectReferenceById
  rw [tracks.find_live live]
  dsimp only
  rw [idEntryObject_ebpfIdEntryBytes, idEntryType_ebpfIdEntryBytes,
    if_neg (by simp [tracks.notNull_of_found found]),
    EbpfObjectTracking.ebpfObjectTryAcquireReference_of_positive found positive]

theorem referenceNextObject_live (tracks : clients.Tracks) {previous : Option UInt64} {type : EbpfObjectType}
    {fuel : Nat} {found : UInt64} {after : EbpfObjectTracking}
    (looked : clients.tracking.ebpfObjectReferenceNextObject previous type fuel = some (some found, after)) :
    ∃ id, clients.tracking.liveEntry found = some (id, type) := by
  rcases EbpfObjectTracking.referenceNextObjectLoop_eq_some looked with ⟨none, -⟩ |
    ⟨key, entry, nextFound, sameType, same, -⟩
  · cases none
  · obtain ⟨contents, represents, -⟩ := tracks.bound
    obtain ⟨pointer, id, entryType, live, -, data⟩ :=
      tracks.entry_live (represents.mem_of_nextKeyPointerAndValue tracks.fits nextFound)
    rw [data, idEntryType_ebpfIdEntryBytes] at sameType
    obtain rfl := EbpfObjectType.toUInt32_injective sameType
    rw [data, idEntryObject_ebpfIdEntryBytes, Option.some.injEq] at same
    exact ⟨id, same ▸ live⟩

end ObjectClients.Tracks

/-! ## Listing the IDs -/

theorem ebpfObjectIdSort_lt_zero {first second : List UInt8} :
    ebpfObjectIdSort first second < 0 ↔ littleEndian (readBytes first 0 4) < littleEndian (readBytes second 0 4) := by
  unfold ebpfObjectIdSort
  dsimp only
  split_ifs <;> omega

theorem zero_lt_ebpfObjectIdSort {first second : List UInt8} :
    0 < ebpfObjectIdSort first second ↔ littleEndian (readBytes second 0 4) < littleEndian (readBytes first 0 4) := by
  unfold ebpfObjectIdSort
  dsimp only
  split_ifs <;> omega

theorem threeWayOn_ebpfObjectIdSort {keys : Set (List UInt8)}
    (distinct : Set.InjOn (fun key => littleEndian (readBytes key 0 4)) keys) : ThreeWayOn ebpfObjectIdSort keys where
  irrefl _ _ := by
    rw [ebpfObjectIdSort_lt_zero]
    exact Nat.lt_irrefl _
  trans _ _ _ _ _ _ first second := by
    rw [ebpfObjectIdSort_lt_zero] at first second ⊢
    exact Nat.lt_trans first second
  trichotomous first firstIn second secondIn := by
    simp only [ebpfObjectIdSort_lt_zero]
    rcases Nat.lt_trichotomy (littleEndian (readBytes first 0 4)) (littleEndian (readBytes second 0 4)) with
      below | same | above
    · exact .inl below
    · exact .inr (.inl (distinct firstIn secondIn same))
    · exact .inr (.inr above)
  flip _ _ _ _ := by rw [zero_lt_ebpfObjectIdSort, ebpfObjectIdSort_lt_zero]

/-- The ID in the key of an ID table entry, as `ebpf_object_get_next_id` returns it. -/
def entryId (entry : EbpfHashBucketEntry) : UInt32 := (littleEndian (readBytes entry.key 0 4)).toUInt32

theorem littleEndian_of_idKey {key : List UInt8} {id : UInt32} (same : readBytes key 0 4 = idKey id) :
    littleEndian (readBytes key 0 4) = id.toNat := by
  rw [same, idKey, littleEndian_uint32Bytes]

theorem entryId_eq {entry : EbpfHashBucketEntry} {id : UInt32} (same : readBytes entry.key 0 4 = idKey id) :
    entryId entry = id := by
  unfold entryId
  rw [littleEndian_of_idKey same]
  exact UInt32.ofNat_toNat

theorem EbpfObjectTracking.ebpfObjectGetNextId_of_resultOr {tracking : EbpfObjectTracking} {startId : UInt32}
    {type : EbpfObjectType} {found : Option EbpfHashBucketEntry}
    (sorted : ebpfHashTableNextKeyAndValueSorted tracking.idTable (if startId = 0 then none else some (idKey startId))
      ebpfObjectIdSort (ebpfObjectMatchObjectType type) = resultOr .noMoreKeys found) :
    tracking.ebpfObjectGetNextId startId type = resultOr .noMoreKeys (found.map entryId) := by
  unfold EbpfObjectTracking.ebpfObjectGetNextId
  rw [sorted]
  cases found <;> rfl

theorem nextKeyAndValueSorted_idKey {table : EbpfHashTable} (fits : table.BucketsFit) {key : List UInt8}
    {id : UInt32} (same : readBytes key 0 4 = idKey id) (filter : List UInt8 → List UInt8 → Bool) :
    ebpfHashTableNextKeyAndValueSorted table (some (idKey id)) ebpfObjectIdSort filter =
      ebpfHashTableNextKeyAndValueSorted table (some key) ebpfObjectIdSort filter := by
  have sameCompare : ebpfObjectIdSort (idKey id) = ebpfObjectIdSort key := by
    funext other
    unfold ebpfObjectIdSort
    rw [same, show readBytes (idKey id) 0 4 = idKey id from readBytes_length_self _]
  rw [fits.nextKeyAndValueSorted_eq, fits.nextKeyAndValueSorted_eq, leastAbove_some_congr sameCompare]

/-- The IDs a caller of `ebpf_object_get_next_id` is given when it starts from zero and
passes each ID back as the next start. -/
def nextIdChain (tracking : EbpfObjectTracking) (type : EbpfObjectType) : Nat → Except EbpfResult UInt32 :=
  chain (tracking.ebpfObjectGetNextId 0 type) fun id => tracking.ebpfObjectGetNextId id type

namespace ObjectClients.Tracks

variable {clients : ObjectClients}

theorem keysDistinct (tracks : clients.Tracks) :
    Set.InjOn (fun key => littleEndian (readBytes key 0 4))
      {key | key ∈ clients.tracking.idTable.entries.map EbpfHashBucketEntry.key} := by
  obtain ⟨contents, represents, -⟩ := tracks.bound
  intro firstKey firstIn secondKey secondIn same
  obtain ⟨first, firstMember, rfl⟩ := List.mem_map.mp firstIn
  obtain ⟨second, secondMember, rfl⟩ := List.mem_map.mp secondIn
  have bytes : readBytes first.key 0 4 = readBytes second.key 0 4 := (littleEndian_inj (by simp)).mp same
  have views : clients.tracking.idTable.entryView first = clients.tracking.idTable.entryView second := by
    rw [EbpfHashTable.entryView, EbpfHashTable.entryView, tracks.shaped.keyView_eq, tracks.shaped.keyView_eq, bytes]
  rw [List.inj_on_of_nodup_map represents.nodup_entries firstMember secondMember views]

theorem nextIdChain_lists_live_ids (tracks : clients.Tracks) (type : EbpfObjectType)
    (noZero : ∀ pointer, clients.tracking.liveEntry pointer ≠ some (0, type)) :
    ∃ ids : List UInt32, ids.Pairwise (· < ·) ∧
      (∀ id, id ∈ ids ↔ ∃ pointer, clients.tracking.liveEntry pointer = some (id, type)) ∧
      ∀ i ≤ ids.length, nextIdChain clients.tracking type i = resultOr .noMoreKeys ids[i]? := by
  obtain ⟨contents, represents, binds⟩ := tracks.bound
  obtain ⟨sorted, ordered, exactly, chained⟩ := represents.sortedKeyChain_sorted tracks.fits
    (threeWayOn_ebpfObjectIdSort tracks.keysDistinct) (ebpfObjectMatchObjectType type)
  have listed : ∀ entry ∈ sorted, (∃ pointer, clients.tracking.liveEntry pointer = some (entryId entry, type)) ∧
      readBytes entry.key 0 4 = idKey (entryId entry) := by
    intro entry member
    obtain ⟨inTable, passes⟩ := (exactly entry).mp member
    obtain ⟨pointer, id, entryType, live, key, data⟩ := tracks.entry_live inTable
    have sameType : entryType = type := by
      simp only [ebpfObjectMatchObjectType, data, idEntryType_ebpfIdEntryBytes, beq_iff_eq] at passes
      exact EbpfObjectType.toUInt32_injective passes
    rw [entryId_eq key]
    exact ⟨⟨pointer, sameType ▸ live⟩, key⟩
  refine ⟨sorted.map entryId, ?_, fun id => ?_, ?_⟩
  · rw [List.pairwise_map]
    refine ordered.imp_of_mem fun {first second} firstIn secondIn below => ?_
    rw [ebpfObjectIdSort_lt_zero, littleEndian_of_idKey (listed first firstIn).2,
      littleEndian_of_idKey (listed second secondIn).2] at below
    exact UInt32.lt_iff_toNat_lt.mpr below
  · rw [List.mem_map]
    constructor
    · rintro ⟨entry, member, rfl⟩
      exact (listed entry member).1
    · rintro ⟨pointer, live⟩
      obtain ⟨entry, inTable, key, data⟩ := tracks.entry_of_live live
      refine ⟨entry, (exactly entry).mpr ⟨inTable, ?_⟩, entryId_eq key⟩
      simp [ebpfObjectMatchObjectType, data]
  · refine chain_eq_getElem? (sorted.map entryId) ?_ ?_
    · -- the first call is the sorted successor of no key
      rw [List.getElem?_map]
      apply EbpfObjectTracking.ebpfObjectGetNextId_of_resultOr
      rw [if_pos rfl]
      exact chained 0 (Nat.zero_le _)
    · -- a later call, from a listed ID, is the sorted successor of its entry's key
      intro i inside
      have inSorted : i < sorted.length := by simpa using inside
      rw [List.getElem_map, List.getElem?_map]
      obtain ⟨⟨pointer, live⟩, key⟩ := listed sorted[i] (List.getElem_mem inSorted)
      have notZero : entryId sorted[i] ≠ 0 := fun zero => noZero pointer (zero ▸ live)
      apply EbpfObjectTracking.ebpfObjectGetNextId_of_resultOr
      rw [if_neg notZero, nextKeyAndValueSorted_idKey tracks.fits key]
      have next := chained (i + 1) inSorted
      have unfolded : sortedKeyChain clients.tracking.idTable ebpfObjectIdSort (ebpfObjectMatchObjectType type) (i + 1) =
          (sortedKeyChain clients.tracking.idTable ebpfObjectIdSort (ebpfObjectMatchObjectType type) i).bind
            fun entry => ebpfHashTableNextKeyAndValueSorted clients.tracking.idTable (some entry.key) ebpfObjectIdSort
              (ebpfObjectMatchObjectType type) := rfl
      rw [unfolded, chained i inSorted.le, List.getElem?_eq_getElem inSorted] at next
      exact next

theorem getNextId_zero (tracks : clients.Tracks) {pointer : UInt64} {type : EbpfObjectType}
    (zeroLive : clients.tracking.liveEntry pointer = some (0, type)) :
    clients.tracking.ebpfObjectGetNextId 0 type = .ok 0 := by
  obtain ⟨contents, represents, -⟩ := tracks.bound
  have order := threeWayOn_ebpfObjectIdSort tracks.keysDistinct
  obtain ⟨entry, inTable, key, data⟩ := tracks.entry_of_live zeroLive
  have admitted : Admits EbpfHashBucketEntry.key ebpfObjectIdSort none
      (fun entry => ebpfObjectMatchObjectType type entry.key entry.data) entry :=
    ⟨rfl, by simp [ebpfObjectMatchObjectType, data]⟩
  unfold EbpfObjectTracking.ebpfObjectGetNextId
  rw [if_pos rfl]
  cases found : ebpfHashTableNextKeyAndValueSorted clients.tracking.idTable none ebpfObjectIdSort
      (ebpfObjectMatchObjectType type) with
  | error result =>
    exact absurd admitted (((tracks.fits.nextKeyAndValueSorted_eq_error none).mp found).2 entry inTable)
  | ok smallest =>
    obtain ⟨-, -, minimal⟩ := (represents.nextKeyAndValueSorted_eq_ok_iff tracks.fits order none).mp found
    have same : smallest = entry := by
      by_contra different
      have below := minimal entry inTable admitted (Ne.symm different)
      rw [ebpfObjectIdSort_lt_zero, littleEndian_of_idKey key] at below
      exact Nat.not_lt_zero _ below
    subst same
    show Except.ok (entryId smallest) = Except.ok 0
    rw [entryId_eq key]

theorem nextIdChain_of_zero (tracks : clients.Tracks) {pointer : UInt64} {type : EbpfObjectType}
    (zeroLive : clients.tracking.liveEntry pointer = some (0, type)) (i : Nat) :
    nextIdChain clients.tracking type i = .ok 0 := by
  induction i with
  | zero => exact tracks.getNextId_zero zeroLive
  | succ i ih =>
    show (nextIdChain clients.tracking type i).bind _ = _
    rw [ih]
    exact tracks.getNextId_zero zeroLive

theorem create_succeeds (tracks : clients.Tracks) (pointer : UInt64) (type : EbpfObjectType)
    (notifiesZeroed notifiesUserZeroed : Bool) {environment : HashTableEnvironment} (succeeds : environment.Succeeds)
    (fresh : ∀ other entryType, clients.tracking.liveEntry other ≠ some (clients.tracking.nextId + 1, entryType)) :
    (clients.tracking.ebpfObjectInitialize pointer type notifiesZeroed notifiesUserZeroed true environment).1 =
        .success ∧
      (clients.tracking.ebpfObjectInitialize pointer type notifiesZeroed notifiesUserZeroed true environment).2.nextId =
        clients.tracking.nextId + 1 ∧
      (clients.tracking.ebpfObjectInitialize pointer type notifiesZeroed notifiesUserZeroed true
        environment).2.objects pointer =
        some
          { referenceCount := 1, userReferenceCount := 0, type, id := clients.tracking.nextId + 1,
            pinnedPathCount := 0, notifiesReferenceCountZeroed := notifiesZeroed,
            notifiesUserReferenceCountZeroed := notifiesUserZeroed } := by
  obtain ⟨contents, represents, binds⟩ := tracks.bound
  obtain ⟨-, -, -, -, -, succeedsThen⟩ :=
    insert_outcome tracks.shaped represents tracks.fits binds (clients.tracking.nextId + 1) type pointer environment
  have inserted := succeedsThen succeeds fun present => by
    obtain ⟨other, entryType, live⟩ := (binds.mem_iff _).mp present
    exact fresh other entryType live
  unfold EbpfObjectTracking.ebpfObjectInitialize
  simp only [Bool.not_true, Bool.false_eq_true, if_false]
  generalize ebpfHashTableUpdate clients.tracking.idTable (idKey (clients.tracking.nextId + 1))
    (some (ebpfIdEntryBytes type pointer)) .insert environment = outcome at inserted
  obtain ⟨result, idTable⟩ := outcome
  dsimp only at inserted ⊢
  subst inserted
  simp

end ObjectClients.Tracks

namespace ObjectClients.Tracks

variable {clients : ObjectClients}

theorem find_after_free (tracks : clients.Tracks) {operation : ObjectOperation} (allowed : operation.Admissible clients)
    {next : ObjectClients} {emitted : List ObjectEvent} (stepped : operation.step clients = some (next, emitted))
    {pointer : UInt64} (freed : ObjectEvent.freeScheduled pointer ∈ emitted) {object : EbpfCoreObject}
    (found : clients.tracking.objects pointer = some object) :
    ebpfHashTableFind next.tracking.idTable (idKey object.id) = (.keyNotFound, none) := by
  obtain ⟨scheduled, -, -, afterFree⟩ := tracks.lifetime_step allowed stepped pointer
  obtain ⟨⟨userReference, rfl⟩, same, sameFound, last⟩ := scheduled.mp freed
  rw [found, Option.some.injEq] at sameFound
  subst sameFound
  obtain ⟨-, dead, -⟩ := afterFree freed
  have wasLive : clients.tracking.liveEntry pointer = some (object.id, object.type) :=
    EbpfObjectTracking.liveEntry_eq_some.mpr ⟨object, found, by omega, rfl, rfl⟩
  obtain ⟨contents, -, binds⟩ := tracks.bound
  refine (tracks.step allowed stepped).find_dead fun other type live => ?_
  rcases tracks.liveEntry_step allowed stepped live with before | ⟨_, _, _, _, _, created⟩
  · -- the object at `other` had the ID before, so it is the released one, which is dead now
    obtain ⟨rfl, -⟩ := binds.unique before wasLive
    rw [dead] at live
    cases live
  · cases created

end ObjectClients.Tracks

/-! ## Object lifetime -/

theorem object_lifetime_follows_the_reference_count {tableAllocated : Bool} {seed : UInt32} {supportsSse42 : Bool}
    {start : EbpfObjectTracking} (initiated : ebpfObjectTrackingInitiate tableAllocated seed supportsSse42 = .ok start)
    {events : List ObjectEvent} {clients : ObjectClients} (reached : ObjectClients.Reaches start events clients) :
    (∀ (pointer : UInt64) (object : EbpfCoreObject), clients.tracking.objects pointer = some object →
      0 ≤ object.userReferenceCount ∧ object.userReferenceCount ≤ object.referenceCount) ∧
    (∀ (operation : ObjectOperation) (next : ObjectClients) (emitted : List ObjectEvent) (pointer : UInt64),
      operation.Admissible clients → operation.step clients = some (next, emitted) →
      (ObjectEvent.freeScheduled pointer ∈ emitted ↔
        (∃ userReference, operation = .release pointer userReference) ∧
          ∃ object, clients.tracking.objects pointer = some object ∧ object.referenceCount = 1) ∧
      emitted.count (.freeScheduled pointer) ≤ 1 ∧
      (ObjectEvent.userReferenceCountZeroed pointer ∈ emitted ↔
        operation = .release pointer true ∧ ∃ object, clients.tracking.objects pointer = some object ∧
          object.userReferenceCount = 1 ∧ object.notifiesUserReferenceCountZeroed = true) ∧
      (ObjectEvent.freeScheduled pointer ∈ emitted →
        next.tracking.liveEntry pointer = none ∧ heldOn next.held pointer = 0 ∧
        (∀ userReference, next.tracking.ebpfObjectAcquireReference pointer userReference = none) ∧
        next.tracking.ebpfObjectTryAcquireReference pointer = some (false, next.tracking) ∧
        ∀ object, clients.tracking.objects pointer = some object →
          ebpfHashTableFind next.tracking.idTable (idKey object.id) = (.keyNotFound, none)) ∧
      ∀ entry, next.tracking.liveEntry pointer = some entry → clients.tracking.liveEntry pointer = some entry ∨
        ∃ type notifiesZeroed notifiesUserZeroed workItemAllocated environment,
          operation = .create pointer type notifiesZeroed notifiesUserZeroed workItemAllocated environment) ∧
    (∀ (id : UInt32) (type : EbpfObjectType) (result : EbpfResult) (found : UInt64) (after : EbpfObjectTracking),
      clients.tracking.ebpfObjectReferenceById id type = some (result, some found, after) →
      clients.tracking.liveEntry found = some (id, type)) ∧
    (∀ (previous : Option UInt64) (type : EbpfObjectType) (fuel : Nat) (found : UInt64) (after : EbpfObjectTracking),
      clients.tracking.ebpfObjectReferenceNextObject previous type fuel = some (some found, after) →
      ∃ id, clients.tracking.liveEntry found = some (id, type)) ∧
    (∀ pointer object, clients.tracking.objects pointer = some object → object.referenceCount = 0 →
      clients.tracking.ebpfObjectTryAcquireReference pointer = some (false, clients.tracking)) ∧
    (∀ pointer id type, clients.tracking.liveEntry pointer = some (id, type) →
      ebpfHashTableFind clients.tracking.idTable (idKey id) = (.success, some (ebpfIdEntryBytes type pointer)) ∧
      ∃ after, clients.tracking.ebpfObjectReferenceById id type = some (.success, some pointer, after)) ∧
    ∀ type, (∀ pointer, clients.tracking.liveEntry pointer ≠ some (0, type)) →
      ∃ ids : List UInt32, ids.Pairwise (· < ·) ∧
        (∀ id, id ∈ ids ↔ ∃ pointer, clients.tracking.liveEntry pointer = some (id, type)) ∧
        ∀ i ≤ ids.length, nextIdChain clients.tracking type i = resultOr .noMoreKeys ids[i]? := by
  have tracks := ObjectClients.tracks_of_reaches initiated reached
  refine ⟨fun pointer object found => ?_, fun operation next emitted pointer allowed stepped => ?_,
    fun _ _ _ _ _ looked => tracks.referenceById_live looked, fun _ _ _ _ _ looked => tracks.referenceNextObject_live looked,
    fun _ _ found zero => EbpfObjectTracking.ebpfObjectTryAcquireReference_of_zero found zero,
    fun _ _ _ live => ⟨tracks.find_live live, tracks.referenceById_of_live live⟩,
    fun type noZero => tracks.nextIdChain_lists_live_ids type noZero⟩
  · -- the user references are among the references held on the object
    obtain ⟨referenceCount, userReferenceCount⟩ := tracks.counts pointer object found
    unfold heldOn at referenceCount
    omega
  · obtain ⟨scheduled, once, zeroed, afterFree⟩ := tracks.lifetime_step allowed stepped pointer
    refine ⟨scheduled, once, zeroed, fun freed => ?_, fun entry live => tracks.liveEntry_step allowed stepped live⟩
    obtain ⟨⟨object, objectAfter, zero⟩, dead, noneHeld⟩ := afterFree freed
    exact ⟨dead, noneHeld, EbpfObjectTracking.ebpfObjectAcquireReference_of_zero objectAfter zero,
      EbpfObjectTracking.ebpfObjectTryAcquireReference_of_zero objectAfter zero,
      fun _ found => tracks.find_after_free allowed stepped freed found⟩

theorem object_lifetime_follows_the_reference_count_over_one_object :
    ∃ start events clients, ebpfObjectTrackingInitiate true 0 false = .ok start ∧
      ObjectClients.Reaches start events clients ∧ clients.held = [] ∧
      events = [.userReferenceCountZeroed 1, .freeScheduled 1] ∧
    (∀ (pointer : UInt64) (object : EbpfCoreObject), clients.tracking.objects pointer = some object →
      0 ≤ object.userReferenceCount ∧ object.userReferenceCount ≤ object.referenceCount) ∧
    (∀ (operation : ObjectOperation) (next : ObjectClients) (emitted : List ObjectEvent) (pointer : UInt64),
      operation.Admissible clients → operation.step clients = some (next, emitted) →
      (ObjectEvent.freeScheduled pointer ∈ emitted ↔
        (∃ userReference, operation = .release pointer userReference) ∧
          ∃ object, clients.tracking.objects pointer = some object ∧ object.referenceCount = 1) ∧
      emitted.count (.freeScheduled pointer) ≤ 1 ∧
      (ObjectEvent.userReferenceCountZeroed pointer ∈ emitted ↔
        operation = .release pointer true ∧ ∃ object, clients.tracking.objects pointer = some object ∧
          object.userReferenceCount = 1 ∧ object.notifiesUserReferenceCountZeroed = true) ∧
      (ObjectEvent.freeScheduled pointer ∈ emitted →
        next.tracking.liveEntry pointer = none ∧ heldOn next.held pointer = 0 ∧
        (∀ userReference, next.tracking.ebpfObjectAcquireReference pointer userReference = none) ∧
        next.tracking.ebpfObjectTryAcquireReference pointer = some (false, next.tracking) ∧
        ∀ object, clients.tracking.objects pointer = some object →
          ebpfHashTableFind next.tracking.idTable (idKey object.id) = (.keyNotFound, none)) ∧
      ∀ entry, next.tracking.liveEntry pointer = some entry → clients.tracking.liveEntry pointer = some entry ∨
        ∃ type notifiesZeroed notifiesUserZeroed workItemAllocated environment,
          operation = .create pointer type notifiesZeroed notifiesUserZeroed workItemAllocated environment) ∧
    (∀ (id : UInt32) (type : EbpfObjectType) (result : EbpfResult) (found : UInt64) (after : EbpfObjectTracking),
      clients.tracking.ebpfObjectReferenceById id type = some (result, some found, after) →
      clients.tracking.liveEntry found = some (id, type)) ∧
    (∀ (previous : Option UInt64) (type : EbpfObjectType) (fuel : Nat) (found : UInt64) (after : EbpfObjectTracking),
      clients.tracking.ebpfObjectReferenceNextObject previous type fuel = some (some found, after) →
      ∃ id, clients.tracking.liveEntry found = some (id, type)) ∧
    (∀ pointer object, clients.tracking.objects pointer = some object → object.referenceCount = 0 →
      clients.tracking.ebpfObjectTryAcquireReference pointer = some (false, clients.tracking)) ∧
    (∀ pointer id type, clients.tracking.liveEntry pointer = some (id, type) →
      ebpfHashTableFind clients.tracking.idTable (idKey id) = (.success, some (ebpfIdEntryBytes type pointer)) ∧
      ∃ after, clients.tracking.ebpfObjectReferenceById id type = some (.success, some pointer, after)) ∧
    ∀ type, (∀ pointer, clients.tracking.liveEntry pointer ≠ some (0, type)) →
      ∃ ids : List UInt32, ids.Pairwise (· < ·) ∧
        (∀ id, id ∈ ids ↔ ∃ pointer, clients.tracking.liveEntry pointer = some (id, type)) ∧
        ∀ i ≤ ids.length, nextIdChain clients.tracking type i = resultOr .noMoreKeys ids[i]? :=
  ⟨_, _, _, rfl,
    .step (.step (.step (.step .start
        (show ObjectOperation.Admissible _ (.create 1 .program false true true
          ⟨true, .success, true, some 4096, .success⟩) from ⟨by decide, rfl⟩) rfl)
      (show ObjectOperation.Admissible _ (.acquire 1 true) from trivial) rfl)
      (show ObjectOperation.Admissible _ (.release 1 true) from List.mem_cons_self) rfl)
      (show ObjectOperation.Admissible _ (.release 1 false) from List.mem_cons_self) rfl,
    rfl, rfl,
    @object_lifetime_follows_the_reference_count true 0 false _ rfl _ _
      (.step (.step (.step (.step .start
          (show ObjectOperation.Admissible _ (.create 1 .program false true true
            ⟨true, .success, true, some 4096, .success⟩) from ⟨by decide, rfl⟩) rfl)
        (show ObjectOperation.Admissible _ (.acquire 1 true) from trivial) rfl)
        (show ObjectOperation.Admissible _ (.release 1 true) from List.mem_cons_self) rfl)
        (show ObjectOperation.Admissible _ (.release 1 false) from List.mem_cons_self) rfl)⟩

/-! ## The ID counter wraps -/

/-- A state of a run that creates objects and releases them at once: no reference held, no
live object, and `created` objects created so far. -/
def Drained (created : Nat) (clients : ObjectClients) : Prop :=
  clients.held = [] ∧ clients.tracking.nextId = UInt32.ofNat (1 + created) ∧
    ∀ pointer, clients.tracking.liveEntry pointer = none

theorem Drained.round {start : EbpfObjectTracking} {events : List ObjectEvent} {clients : ObjectClients}
    (tracks : clients.Tracks) (reached : ObjectClients.Reaches start events clients) {created : Nat}
    (drained : Drained created clients) :
    ∃ later next, ObjectClients.Reaches start later next ∧ Drained (created + 1) next := by
  obtain ⟨noneHeld, counter, noneLive⟩ := drained
  obtain ⟨success, nextId, objectAt⟩ := tracks.create_succeeds 1 .program false false
    (⟨rfl, rfl, rfl, rfl, rfl⟩ : HashTableEnvironment.Succeeds ⟨true, .success, true, some 4096, .success⟩)
    fun other entryType => by simp [noneLive other]
  have createStep : (ObjectOperation.create 1 .program false false true ⟨true, .success, true, some 4096, .success⟩).step
      clients = some (⟨(clients.tracking.ebpfObjectInitialize 1 .program false false true
        ⟨true, .success, true, some 4096, .success⟩).2, [(1, false)]⟩, []) := by
    simp only [ObjectOperation.step, success, if_true, noneHeld]
  have createAllowed : (ObjectOperation.create 1 .program false false true
      ⟨true, .success, true, some 4096, .success⟩).Admissible clients := ⟨by decide, noneLive 1⟩
  set mid := (clients.tracking.ebpfObjectInitialize 1 .program false false true
    ⟨true, .success, true, some 4096, .success⟩).2 with midIs
  set object : EbpfCoreObject :=
    { referenceCount := 1, userReferenceCount := 0, type := .program, id := clients.tracking.nextId + 1,
      pinnedPathCount := 0, notifiesReferenceCountZeroed := false, notifiesUserReferenceCountZeroed := false }
    with objectIs
  have releasing := EbpfObjectTracking.ebpfObjectReleaseReference_eq (by decide) objectAt le_rfl
    (fun impossible : false = true => absurd impossible Bool.false_ne_true)
  rw [if_pos rfl] at releasing
  obtain ⟨emitted, releaseStep⟩ : ∃ emitted, (ObjectOperation.release 1 false).step ⟨mid, [(1, false)]⟩ =
      some (⟨(mid.setObject 1 (object.released false)).ebpfObjectTrackingListRemove object, []⟩, emitted) :=
    ⟨_, by
      simp only [ObjectOperation.step, releasing, Option.map_some, List.erase_cons_head]
      rfl⟩
  refine ⟨_, _, Trace.Reaches.step (Trace.Reaches.step reached createAllowed createStep) List.mem_cons_self releaseStep,
    rfl, ?_, fun pointer => ?_⟩
  · -- the counter moved once
    show mid.nextId = _
    rw [nextId, counter, ← Nat.add_assoc, UInt32.ofNat_add (1 + created) 1]
    rfl
  · -- the object at pointer one is dead again, and the memory elsewhere was not touched
    show (mid.setObject 1 (object.released false)).liveEntry pointer = none
    rw [EbpfObjectTracking.liveEntry_setObject]
    by_cases same : pointer = 1
    · subst same
      simp [object, EbpfCoreObject.liveEntry, EbpfCoreObject.released]
    · rw [Function.update_of_ne same]
      simpa only [mid, EbpfObjectTracking.liveEntry, EbpfObjectTracking.ebpfObjectInitialize_objects_of_ne same]
        using noneLive pointer

theorem Drained.rounds {tableAllocated : Bool} {seed : UInt32} {supportsSse42 : Bool} {start : EbpfObjectTracking}
    (initiated : ebpfObjectTrackingInitiate tableAllocated seed supportsSse42 = .ok start) (created : Nat) :
    ∃ events clients, ObjectClients.Reaches start events clients ∧ Drained created clients := by
  induction created with
  | zero =>
    obtain ⟨table, -, rfl⟩ := ebpfObjectTrackingInitiate_eq_ok initiated
    exact ⟨[], _, Trace.Reaches.start, rfl, rfl, fun _ => rfl⟩
  | succ created ih =>
    obtain ⟨events, clients, reached, drained⟩ := ih
    exact drained.round (ObjectClients.tracks_of_reaches initiated reached) reached

/-- The `2^32 - 1`-th object created gets ID zero. After `2^32 - 2` objects were created
and released, two objects of one type are created and get IDs zero and one; from then on
`ebpf_object_get_next_id` from zero returns zero at every call, and never the live ID one. -/
theorem object_ids_wrap_and_get_next_id_repeats_zero :
    ∃ start events drained first last,
      ebpfObjectTrackingInitiate true 0 false = .ok start ∧
      ObjectClients.Reaches start events drained ∧ drained.held = [] ∧ drained.tracking.nextId = 4294967295 ∧
      (∀ pointer, drained.tracking.liveEntry pointer = none) ∧
      (ObjectOperation.create 2 .program false false true ⟨true, .success, true, some 4096, .success⟩).step drained =
        some (first, []) ∧
      (ObjectOperation.create 3 .program false false true ⟨true, .success, true, some 4096, .success⟩).step first =
        some (last, []) ∧
      ObjectClients.Reaches start events last ∧
      last.tracking.liveEntry 2 = some (0, .program) ∧ last.tracking.liveEntry 3 = some (1, .program) ∧
      ∀ i, nextIdChain last.tracking .program i = .ok 0 := by
  obtain ⟨start, initiated⟩ : ∃ start, ebpfObjectTrackingInitiate true 0 false = .ok start := ⟨_, rfl⟩
  obtain ⟨events, drained, reached, noneHeld, counter, noneLive⟩ := Drained.rounds initiated (2 ^ 32 - 2)
  have tracks := ObjectClients.tracks_of_reaches initiated reached
  have succeeds : HashTableEnvironment.Succeeds ⟨true, .success, true, some 4096, .success⟩ := ⟨rfl, rfl, rfl, rfl, rfl⟩
  -- the counter is at its last value: the next ID is zero
  have wrapped : drained.tracking.nextId + 1 = 0 := by
    rw [counter]
    decide
  obtain ⟨firstSuccess, firstId, firstAt⟩ :=
    tracks.create_succeeds 2 .program false false succeeds fun other _ => by simp [noneLive other]
  have firstStep : (ObjectOperation.create 2 .program false false true ⟨true, .success, true, some 4096, .success⟩).step
      drained = some (⟨(drained.tracking.ebpfObjectInitialize 2 .program false false true
        ⟨true, .success, true, some 4096, .success⟩).2, [(2, false)]⟩, []) := by
    simp only [ObjectOperation.step, firstSuccess, if_true, noneHeld]
  have firstAllowed : (ObjectOperation.create 2 .program false false true
      ⟨true, .success, true, some 4096, .success⟩).Admissible drained := ⟨by decide, noneLive 2⟩
  set first : ObjectClients := ⟨(drained.tracking.ebpfObjectInitialize 2 .program false false true
    ⟨true, .success, true, some 4096, .success⟩).2, [(2, false)]⟩ with firstIs
  have firstTracks := tracks.step firstAllowed firstStep
  have firstLive : ∀ pointer, first.tracking.liveEntry pointer = if pointer = 2 then some (0, .program) else none := by
    intro pointer
    by_cases same : pointer = 2
    · subst same
      simp [first, EbpfObjectTracking.liveEntry, firstAt, EbpfCoreObject.liveEntry, wrapped]
    · rw [if_neg same]
      simpa only [first, EbpfObjectTracking.liveEntry, EbpfObjectTracking.ebpfObjectInitialize_objects_of_ne same]
        using noneLive pointer
  have counted : first.tracking.nextId + 1 = 1 := by
    show (drained.tracking.ebpfObjectInitialize 2 .program false false true _).2.nextId + 1 = 1
    rw [firstId, wrapped]
    rfl
  obtain ⟨secondSuccess, -, secondAt⟩ := firstTracks.create_succeeds 3 .program false false succeeds
    fun other entryType => by
      rw [firstLive other, counted]
      split_ifs <;> simp
  have secondStep : (ObjectOperation.create 3 .program false false true ⟨true, .success, true, some 4096, .success⟩).step
      first = some (⟨(first.tracking.ebpfObjectInitialize 3 .program false false true
        ⟨true, .success, true, some 4096, .success⟩).2, [(3, false), (2, false)]⟩, []) := by
    simp only [ObjectOperation.step, secondSuccess, if_true]
    rfl
  have secondAllowed : (ObjectOperation.create 3 .program false false true
      ⟨true, .success, true, some 4096, .success⟩).Admissible first := ⟨by decide, by rw [firstLive 3]; rfl⟩
  have lastTracks := firstTracks.step secondAllowed secondStep
  have zeroLive : (first.tracking.ebpfObjectInitialize 3 .program false false true
      ⟨true, .success, true, some 4096, .success⟩).2.liveEntry 2 = some (0, .program) := by
    simpa only [EbpfObjectTracking.liveEntry, EbpfObjectTracking.ebpfObjectInitialize_objects_of_ne
      (show (2 : UInt64) ≠ 3 by decide), if_pos] using firstLive 2
  refine ⟨start, events, drained, first, _, initiated, reached, noneHeld, by rw [counter]; rfl, noneLive, firstStep,
    secondStep, ?_, zeroLive, ?_, lastTracks.nextIdChain_of_zero zeroLive⟩
  · have run := Trace.Reaches.step (Trace.Reaches.step reached firstAllowed firstStep) secondAllowed secondStep
    rw [List.append_nil, List.append_nil] at run
    exact run
  · simp [EbpfObjectTracking.liveEntry, secondAt, EbpfCoreObject.liveEntry, counted]

end EbpfWindows.Runtime
