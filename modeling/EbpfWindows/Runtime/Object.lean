import EbpfWindows.Runtime.HashTable.Operations

/-! Reference-counted objects and the ID table of `ebpf_object.c`.

An object is the memory at a pointer, a `UInt64`; the model keeps the fields the object
functions read and write. The ID table is the hash table `ebpf_object_tracking_initiate`
creates: 4-byte IDs to 16-byte `ebpf_id_entry_t` values, the object's type and pointer.
IDs come from a 32-bit counter that wraps.

A function that ends in `__fastfail` stops the machine: it returns `none`. The counts are
`int64` in the source and never near its range; they are integers here. The marker of an
object stays valid after its last release: the epoch work item that inverts it runs when
the epoch ends, and an object whose count is zero already fails every acquire.
`_ebpf_object_tracking_list_remove` writes NULL into the ID entry under the ID table's
lock and deletes the entry at once; no caller sees the entry in between, and the write is
not modelled. Reference history, tracing and rundown protection are left out.
-/

set_option autoImplicit false

namespace EbpfWindows.Runtime

open Bytes

inductive EbpfObjectType where
  | unknown
  | map
  | link
  | program
  deriving DecidableEq, Repr

/-- The value of the enumeration, as an ID entry stores it. -/
def EbpfObjectType.toUInt32 : EbpfObjectType → UInt32
  | .unknown => 0
  | .map => 1
  | .link => 2
  | .program => 3

theorem EbpfObjectType.toUInt32_injective : Function.Injective EbpfObjectType.toUInt32 := by
  intro first second same
  cases first <;> cases second <;> first | rfl | simp [toUInt32] at same

/-- The fields of `ebpf_core_object_t` the object functions and the pinning table use. -/
structure EbpfCoreObject where
  referenceCount : Int
  userReferenceCount : Int
  type : EbpfObjectType
  id : UInt32
  pinnedPathCount : Int
  /-- `notify_reference_count_zeroed` is not NULL. -/
  notifiesReferenceCountZeroed : Bool
  /-- `notify_user_reference_count_zeroed` is not NULL. -/
  notifiesUserReferenceCountZeroed : Bool
  deriving DecidableEq, Repr

/-- What the object functions call back or schedule. -/
inductive ObjectEvent where
  | userReferenceCountZeroed (object : UInt64)
  | referenceCountZeroed (object : UInt64)
  | freeScheduled (object : UInt64)
  deriving DecidableEq, Repr

/-- The options `ebpf_object_tracking_initiate` creates the ID table with. -/
def idTableOptions : EbpfHashTableCreationOptions :=
  { keySize := 4, valueSize := 16, extractFunction := none, minimumBucketCount := 1024,
    maxEntries := ebpfHashTableNoLimit, notificationCallback := false, notificationFlags := 0 }

/-- The key of an ID in the ID table. -/
def idKey (id : UInt32) : List UInt8 := uint32Bytes id

/-- `ebpf_id_entry_t`: the type, four bytes of padding, and the object pointer. -/
def ebpfIdEntryBytes (type : EbpfObjectType) (object : UInt64) : List UInt8 :=
  uint32Bytes type.toUInt32 ++ [0, 0, 0, 0] ++ uint64Bytes object

/-- `entry->type` of a stored ID entry. -/
def idEntryType (entry : List UInt8) : UInt32 := (littleEndian (readBytes entry 0 4)).toUInt32

/-- `entry->object` of a stored ID entry. -/
def idEntryObject (entry : List UInt8) : UInt64 := (littleEndian (readBytes entry 8 8)).toUInt64

/-- The outcome the ID table's delete is given: it has no notification callback, so the
delete reads none of it. -/
def idTableDeleteEnvironment : HashTableEnvironment := ⟨true, .success, true, some 4096, .success⟩

/-- The object functions' global state: the ID table, `_ebpf_next_id`, and the objects in
memory. -/
structure EbpfObjectTracking where
  idTable : EbpfHashTable
  nextId : UInt32
  objects : UInt64 → Option EbpfCoreObject

def ebpfObjectTrackingInitiate (tableAllocated : Bool) (seed : UInt32) (supportsSse42 : Bool) :
    Except EbpfResult EbpfObjectTracking := do
  let idTable ← ebpfHashTableCreate idTableOptions tableAllocated seed supportsSse42
  pure { idTable, nextId := 1, objects := fun _ => none }

namespace EbpfObjectTracking

variable (tracking : EbpfObjectTracking)

/-- The tracking with the object at `pointer` replaced. -/
def setObject (pointer : UInt64) (object : EbpfCoreObject) : EbpfObjectTracking :=
  { tracking with objects := Function.update tracking.objects pointer (some object) }

@[simp] theorem setObject_objects_self (pointer : UInt64) (object : EbpfCoreObject) :
    (tracking.setObject pointer object).objects pointer = some object := by
  simp [setObject]

theorem setObject_objects_of_ne {pointer other : UInt64} (object : EbpfCoreObject) (different : other ≠ pointer) :
    (tracking.setObject pointer object).objects other = tracking.objects other := by
  simp [setObject, different]

@[simp] theorem setObject_idTable (pointer : UInt64) (object : EbpfCoreObject) :
    (tracking.setObject pointer object).idTable = tracking.idTable := rfl

@[simp] theorem setObject_nextId (pointer : UInt64) (object : EbpfCoreObject) :
    (tracking.setObject pointer object).nextId = tracking.nextId := rfl

/-- `ebpf_object_initialize` on the memory at `pointer`: the next ID, the free work item,
whose allocation may fail, and the insert of the ID entry. On failure the caller frees the
memory, so only a success leaves an object there. -/
def ebpfObjectInitialize (pointer : UInt64) (type : EbpfObjectType) (notifiesReferenceCountZeroed
      notifiesUserReferenceCountZeroed workItemAllocated : Bool) (environment : HashTableEnvironment) :
    EbpfResult × EbpfObjectTracking :=
  let id := tracking.nextId + 1
  let counted := { tracking with nextId := id }
  if !workItemAllocated then (.noMemory, counted)
  else
    let (result, idTable) :=
      ebpfHashTableUpdate tracking.idTable (idKey id) (some (ebpfIdEntryBytes type pointer)) .insert environment
    if result ≠ .success then (result, { counted with idTable })
    else
      (.success, { counted with idTable }.setObject pointer
        { referenceCount := 1, userReferenceCount := 0, type, id, pinnedPathCount := 0,
          notifiesReferenceCountZeroed, notifiesUserReferenceCountZeroed })

/-- `ebpf_object_acquire_reference`; it fails fast on memory that is not an object, on a
count that was zero, and on a user count that was negative. -/
def ebpfObjectAcquireReference (pointer : UInt64) (userReference : Bool) : Option EbpfObjectTracking :=
  match tracking.objects pointer with
  | none => none
  | some object =>
    let referenceCount := object.referenceCount + 1
    if referenceCount = 1 then none
    else if userReference then
      let userReferenceCount := object.userReferenceCount + 1
      if userReferenceCount = 0 then none
      else some (tracking.setObject pointer { object with referenceCount, userReferenceCount })
    else some (tracking.setObject pointer { object with referenceCount })

/-- `_ebpf_object_try_acquire_reference`: no reference on an object whose count is zero.
Run alone, its compare-exchange loop succeeds at once. -/
def ebpfObjectTryAcquireReference (pointer : UInt64) : Option (Bool × EbpfObjectTracking) :=
  match tracking.objects pointer with
  | none => none
  | some object =>
    if object.referenceCount < 0 then none
    else if object.referenceCount = 0 then some (false, tracking)
    else some (true, tracking.setObject pointer { object with referenceCount := object.referenceCount + 1 })

/-- `_ebpf_object_tracking_list_remove`: the delete of the object's ID entry. -/
def ebpfObjectTrackingListRemove (object : EbpfCoreObject) : EbpfObjectTracking :=
  { tracking with idTable := (ebpfHashTableDelete tracking.idTable (idKey object.id) idTableDeleteEnvironment).2 }

/-- The user count of `ebpf_object_release_reference`: the new count and the callback, or
`none` when it went negative. -/
def releaseUserReference (pointer : UInt64) (object : EbpfCoreObject) (userReference : Bool) :
    Option (Int × List ObjectEvent) :=
  if userReference then
    let userReferenceCount := object.userReferenceCount - 1
    if userReferenceCount < 0 then none
    else if userReferenceCount = 0 ∧ object.notifiesUserReferenceCountZeroed then
      some (userReferenceCount, [.userReferenceCountZeroed pointer])
    else some (userReferenceCount, [])
  else some (object.userReferenceCount, [])

/-- `ebpf_object_release_reference`: nothing for NULL; the user count first, then the
count, and at zero the removal of the ID entry, the callback and the scheduled free. -/
def ebpfObjectReleaseReference (pointer : UInt64) (userReference : Bool) :
    Option (EbpfObjectTracking × List ObjectEvent) :=
  if pointer = 0 then some (tracking, [])
  else
    match tracking.objects pointer with
    | none => none
    | some object =>
      match releaseUserReference pointer object userReference with
      | none => none
      | some (userReferenceCount, userEvents) =>
        let referenceCount := object.referenceCount - 1
        if referenceCount < 0 then none
        else
          let released := tracking.setObject pointer { object with referenceCount, userReferenceCount }
          if referenceCount = 0 then
            some (released.ebpfObjectTrackingListRemove object,
              userEvents ++ (if object.notifiesReferenceCountZeroed then [.referenceCountZeroed pointer] else []) ++
                [.freeScheduled pointer])
          else some (released, userEvents)

/-- `ebpf_object_reference_by_id`: the result, the object it took a reference on, and the
tracking after; `none` when the try-acquire fails fast. -/
def ebpfObjectReferenceById (id : UInt32) (type : EbpfObjectType) :
    Option (EbpfResult × Option UInt64 × EbpfObjectTracking) :=
  match ebpfHashTableFind tracking.idTable (idKey id) with
  | (.success, some entry) =>
    let found := idEntryObject entry
    -- entries that have been deleted, and entries of another type
    if found = 0 ∨ idEntryType entry ≠ type.toUInt32 then some (.keyNotFound, none, tracking)
    else
      match tracking.ebpfObjectTryAcquireReference found with
      | none => none
      | some (false, _) => some (.keyNotFound, none, tracking)
      | some (true, acquired) => some (.success, some found, acquired)
  | (result, _) => some (result, none, tracking)

/-- The loop of `ebpf_object_reference_next_object` from `previousKey`, where an ID of zero
stands for no previous key, with `fuel` rounds left: the object it took a reference on, or
none when the table has no more keys; `none` when it fails fast or runs out of fuel. -/
def referenceNextObjectLoop (type : EbpfObjectType) : Nat → EbpfObjectTracking → UInt32 →
    Option (Option UInt64 × EbpfObjectTracking)
  | 0, _, _ => none
  | fuel + 1, tracking, previousKey =>
    match ebpfHashTableNextKeyPointerAndValue tracking.idTable
        (if previousKey = 0 then none else some (idKey previousKey)) with
    | .error _ => some (none, tracking)
    | .ok entry =>
      let nextKey := (littleEndian (readBytes entry.key 0 4)).toUInt32
      let object := idEntryObject entry.data
      if object = 0 ∨ idEntryType entry.data ≠ type.toUInt32 then
        referenceNextObjectLoop type fuel tracking nextKey
      else
        match tracking.ebpfObjectTryAcquireReference object with
        | none => none
        | some (false, _) => referenceNextObjectLoop type fuel tracking nextKey
        | some (true, acquired) => some (some object, acquired)

/-- `ebpf_object_reference_next_object` after `previous`, NULL to start. -/
def ebpfObjectReferenceNextObject (previous : Option UInt64) (type : EbpfObjectType) (fuel : Nat) :
    Option (Option UInt64 × EbpfObjectTracking) :=
  let previousKey :=
    match previous with
    | none => 0
    | some pointer => ((tracking.objects pointer).map EbpfCoreObject.id).getD 0
  referenceNextObjectLoop type fuel tracking previousKey

/-- `_ebpf_object_id_sort` on two ID keys. -/
def ebpfObjectIdSort (first second : List UInt8) : Int :=
  let firstId := littleEndian (readBytes first 0 4)
  let secondId := littleEndian (readBytes second 0 4)
  if firstId < secondId then -1 else if firstId > secondId then 1 else 0

/-- `_ebpf_object_match_object_type` on an ID entry. -/
def ebpfObjectMatchObjectType (type : EbpfObjectType) (_key entry : List UInt8) : Bool :=
  idEntryType entry == type.toUInt32

/-- `ebpf_object_get_next_id`: the least ID above `start_id` of an object of the type, an
ID of zero starting from the least; `EBPF_NO_MORE_KEYS` on any failure. -/
def ebpfObjectGetNextId (startId : UInt32) (type : EbpfObjectType) : Except EbpfResult UInt32 :=
  match ebpfHashTableNextKeyAndValueSorted tracking.idTable (if startId = 0 then none else some (idKey startId))
      ebpfObjectIdSort (ebpfObjectMatchObjectType type) with
  | .error _ => .error .noMoreKeys
  | .ok entry => .ok (littleEndian (readBytes entry.key 0 4)).toUInt32

end EbpfObjectTracking

end EbpfWindows.Runtime
