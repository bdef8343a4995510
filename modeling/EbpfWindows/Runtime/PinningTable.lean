import EbpfWindows.Runtime.Object
import EbpfWindows.ExecutionContext.NativeMapCreation

/-! The pinning table (`ebpf_pinning_table.c`): the paths objects are pinned under.

The table is a hash table whose keys and values are pointers. A key points to a
`cxplat_utf8_string_t`, a value to the `ebpf_pinning_entry_t` that holds a copy of the
path and the object. The path is the entry's first field, so the key an insert stores is
the entry's own address. The hash table reaches the path through
`_ebpf_pinning_table_extract`, which reads the memory as it is when the hash table calls
it: each hash table call runs on the table with an extract function that reads the memory
of that moment (`EbpfHashTable.readingMemory`).

The memory is the string at each address and the `object` field of the entry at each
address. A string in a 64-bit address space is shorter than 2^61 bytes, so its length in
bits does not wrap. `pinned_path_count` is an `int32_t`, changed by interlocked
increments that wrap. Each function runs as one step: the lock covers its hash table
calls, and what it does outside the lock touches only the object it pins or unpins.
Tracing is left out.
-/

set_option autoImplicit false

namespace EbpfWindows.Runtime

open Bytes
open EbpfWindows.ExecutionContext (ebpfMaxPinPathLength)

/-- The memory the pinning table reads through its pointers. -/
structure PinningMemory where
  /-- The bytes of the `cxplat_utf8_string_t` at an address: `length` bytes from `value`. -/
  strings : UInt64 → List UInt8
  /-- The `object` field of the `ebpf_pinning_entry_t` at an address. -/
  entryObjects : UInt64 → UInt64

namespace PinningMemory

variable (memory : PinningMemory)

/-- A caller's string at `pointer` holds `bytes`. -/
def writeString (pointer : UInt64) (bytes : List UInt8) : PinningMemory :=
  { memory with strings := Function.update memory.strings pointer bytes }

/-- The entry at `entry` once `ebpf_duplicate_utf8_string` copied `path` into it and its
object was set. -/
def writeEntry (entry : UInt64) (path : List UInt8) (object : UInt64) : PinningMemory :=
  { strings := Function.update memory.strings entry path,
    entryObjects := Function.update memory.entryObjects entry object }

end PinningMemory

/-- The pointer a key or a value of the table holds, `*(T**)bytes`. -/
def pointerAt (bytes : List UInt8) : UInt64 := (littleEndian (readBytes bytes 0 8)).toUInt64

/-- `_ebpf_pinning_table_extract`: the value of the string the key points to, and its
length in bits. -/
def ebpfPinningTableExtract (memory : PinningMemory) (key : List UInt8) : List UInt8 × Nat :=
  let path := memory.strings (pointerAt key)
  (path, path.length * 8)

/-- The table as a hash table call made while the memory is `memory` sees it. -/
def EbpfHashTable.readingMemory (table : EbpfHashTable) (memory : PinningMemory) : EbpfHashTable :=
  { table with extract := some (ebpfPinningTableExtract memory) }

/-- The options `ebpf_pinning_table_allocate` creates the hash table with: pointer keys and
values, the default bucket count and no limit. -/
def pinningTableOptions (memory : PinningMemory) : EbpfHashTableCreationOptions :=
  { keySize := 8, valueSize := 8, extractFunction := some (ebpfPinningTableExtract memory),
    minimumBucketCount := 0, maxEntries := ebpfHashTableNoLimit, notificationCallback := false,
    notificationFlags := 0 }

/-- `ebpf_pinning_table_allocate`, given whether the table's allocation succeeds. -/
def ebpfPinningTableAllocate (memory : PinningMemory) (tableAllocated hashTableAllocated : Bool) (seed : UInt32)
    (supportsSse42 : Bool) : Except EbpfResult EbpfHashTable :=
  if !tableAllocated then .error .noMemory
  else ebpfHashTableCreate (pinningTableOptions memory) hashTableAllocated seed supportsSse42

namespace EbpfObjectTracking

variable (tracking : EbpfObjectTracking)

/-- `ebpf_object_get_type` on the memory at `pointer`; `none` where no object is. -/
def objectType (pointer : UInt64) : Option EbpfObjectType :=
  (tracking.objects pointer).map EbpfCoreObject.type

/-- `ebpf_interlocked_increment_int32` (`delta` one) and `ebpf_interlocked_decrement_int32`
(`delta` minus one) on `object->pinned_path_count`. -/
def addPinnedPathCount (pointer : UInt64) (delta : Int32) : EbpfObjectTracking :=
  match tracking.objects pointer with
  | some object =>
    tracking.setObject pointer { object with pinnedPathCount := (Int32.ofInt object.pinnedPathCount + delta).toInt }
  | none => tracking

end EbpfObjectTracking

/-- `_ebpf_pinning_entry_free` of an entry whose `object` field is `object`, `none` for a
NULL entry: the release of the user reference the entry holds. -/
def ebpfPinningEntryFree (tracking : EbpfObjectTracking) : Option UInt64 →
    Option (EbpfObjectTracking × List ObjectEvent)
  | none => some (tracking, [])
  | some object => tracking.ebpfObjectReleaseReference object true

/-- The pinning table, the memory it reads and the objects. -/
structure PinningState where
  table : EbpfHashTable
  memory : PinningMemory
  tracking : EbpfObjectTracking

/-- The outcomes of what `ebpf_pinning_table_insert` allocates: the entry and where it is,
the result of the path's copy, and the hash table insert's. -/
structure PinningInsertEnvironment where
  entryAllocated : Bool
  entry : UInt64
  duplicateResult : EbpfResult
  hashTable : HashTableEnvironment

namespace PinningState

variable (state : PinningState)

/-- `ebpf_pinning_table_insert` of the path the caller's string at `path` holds, for
`object`; `none` where the object functions fail fast. -/
def ebpfPinningTableInsert (path object : UInt64) (environment : PinningInsertEnvironment) :
    Option (EbpfResult × PinningState × List ObjectEvent) :=
  let value := state.memory.strings path
  if value.length ≥ ebpfMaxPinPathLength ∨ value.length = 0 then some (.invalidArgument, state, [])
  -- embedded null terminators
  else if value.contains 0 then some (.invalidArgument, state, [])
  else if !environment.entryAllocated then some (.noMemory, state, [])
  else if environment.duplicateResult ≠ .success then
    -- the entry was allocated zeroed, so its free releases a NULL object
    (ebpfPinningEntryFree state.tracking (some 0)).map fun (tracking, events) =>
      (environment.duplicateResult, { state with tracking }, events)
  else
    let memory := state.memory.writeEntry environment.entry value object
    (state.tracking.ebpfObjectAcquireReference object true).bind fun acquired =>
      let (result, table) := ebpfHashTableUpdate (state.table.readingMemory memory) (uint64Bytes environment.entry)
        (some (uint64Bytes environment.entry)) .insert environment.hashTable
      if result = .success then some (.success, ⟨table, memory, acquired.addPinnedPathCount object 1⟩, [])
      else
        (ebpfPinningEntryFree acquired (some object)).map fun (tracking, events) =>
          (if result = .keyAlreadyExists then .objectAlreadyExists else result, ⟨table, memory, tracking⟩, events)

/-- `ebpf_pinning_table_find` of the path the caller's string at `path` holds: the result,
the object it took a reference on, and the state after. -/
def ebpfPinningTableFind (path : UInt64) : Option (EbpfResult × Option UInt64 × PinningState) :=
  match ebpfHashTableFind (state.table.readingMemory state.memory) (uint64Bytes path) with
  | (.success, some entry) =>
    let object := state.memory.entryObjects (pointerAt entry)
    (state.tracking.ebpfObjectAcquireReference object false).map fun acquired =>
      (.success, some object, { state with tracking := acquired })
  | (result, _) => some (result, none, state)

/-- `ebpf_pinning_table_delete` of the path the caller's string at `path` holds; the
entry goes only once the hash table's delete succeeded. -/
def ebpfPinningTableDelete (path : UInt64) (environment : HashTableEnvironment) :
    Option (EbpfResult × PinningState × List ObjectEvent) :=
  let table := state.table.readingMemory state.memory
  match ebpfHashTableFind table (uint64Bytes path) with
  | (.success, some found) =>
    let (result, deleted) := ebpfHashTableDelete table (uint64Bytes path) environment
    if result = .success then
      let object := state.memory.entryObjects (pointerAt found)
      (ebpfPinningEntryFree (state.tracking.addPinnedPathCount object (-1)) (some object)).map fun (tracking, events) =>
        (.success, ⟨deleted, state.memory, tracking⟩, events)
    else some (result, { state with table := deleted }, [])
  | (result, _) => some (result, state, [])

end PinningState

/-- The comparison of `_ebpf_pinning_table_compare` on the two strings: `memcmp` over the
shorter length, then the shorter string first. -/
def compareUtf8Strings (str1 str2 : List UInt8) : Int :=
  let minLength := if str1.length < str2.length then str1.length else str2.length
  let result := memcmp (readBytes str1 0 minLength) (readBytes str2 0 minLength)
  if result ≠ 0 then result
  else if str1.length < str2.length then -1
  else if str1.length > str2.length then 1
  else 0

/-- `_ebpf_pinning_table_compare` on two keys, pointers to strings. -/
def ebpfPinningTableCompare (memory : PinningMemory) (key1 key2 : List UInt8) : Int :=
  compareUtf8Strings (memory.strings (pointerAt key1)) (memory.strings (pointerAt key2))

/-- `_ebpf_pinning_table_match_object_type` with `object_type` as its context. -/
def ebpfPinningTableMatchObjectType (memory : PinningMemory) (tracking : EbpfObjectTracking)
    (objectType : EbpfObjectType) (_key value : List UInt8) : Bool :=
  if objectType = .unknown then true
  else tracking.objectType (memory.entryObjects (pointerAt value)) = some objectType

namespace PinningState

variable (state : PinningState)

/-- `ebpf_pinning_table_get_next_path` from the caller's string at `startPath` into its
string at `nextPath`, whose length is the room its buffer has: the result, `*object_type`
and the memory after; `none` where the entry's object is not an object. -/
def ebpfPinningTableGetNextPath (objectType : EbpfObjectType) (startPath nextPath : UInt64) :
    Option (EbpfResult × EbpfObjectType × PinningMemory) :=
  if startPath = 0 ∨ nextPath = 0 then some (.invalidArgument, objectType, state.memory)
  else
    let previousKey := if (state.memory.strings startPath).length = 0 then none else some (uint64Bytes startPath)
    match ebpfHashTableNextKeyAndValueSorted (state.table.readingMemory state.memory) previousKey
        (ebpfPinningTableCompare state.memory) (ebpfPinningTableMatchObjectType state.memory state.tracking objectType) with
    | .error result => some (result, objectType, state.memory)
    | .ok next =>
      let entry := pointerAt next.data
      let path := state.memory.strings entry
      if (state.memory.strings nextPath).length < path.length then
        some (.insufficientBuffer, objectType, state.memory)
      else
        (state.tracking.objectType (state.memory.entryObjects entry)).map fun type =>
          (.success, type, state.memory.writeString nextPath path)

end PinningState

/-- The loop of `ebpf_pinning_table_free`, for at most `fuel` rounds: while
`ebpf_hash_table_next_key` finds a first key, the delete of the path it points to.
`ebpf_assert_success` checks nothing in a release build, so the delete's result is dropped.
`none` where an object function fails fast or the rounds run out. -/
def PinningState.ebpfPinningTableFreeLoop (state : PinningState) (environment : HashTableEnvironment) :
    Nat → Option (PinningState × List ObjectEvent)
  | 0 => none
  | fuel + 1 =>
    match ebpfHashTableNextKeyPointerAndValue (state.table.readingMemory state.memory) none with
    | .error _ => some (state, [])
    | .ok first =>
      (state.ebpfPinningTableDelete (pointerAt first.key) environment).bind fun (_, next, events) =>
        (next.ebpfPinningTableFreeLoop environment fuel).map fun (final, later) => (final, events ++ later)

/-- `sizeof(ebpf_pinning_entry_t)`: a `cxplat_utf8_string_t` and a pointer. -/
def sizeOfPinningEntry : UInt64 := 24

/-- The outcomes of what `ebpf_pinning_table_enumerate_entries` allocates: the output array,
and the copy of the path of each entry it lists, by position. -/
structure PinningEnumerateEnvironment where
  arrayAllocated : Bool
  duplicateResults : Nat → EbpfResult

/-- The release loop of `ebpf_pinning_entries_release` over the entries, an object and a
path each: the release of the reference on each object, in order. -/
def ebpfPinningEntriesReleaseLoop (tracking : EbpfObjectTracking) :
    List (UInt64 × List UInt8) → Option (EbpfObjectTracking × List ObjectEvent)
  | [] => some (tracking, [])
  | (object, _) :: rest =>
    (tracking.ebpfObjectReleaseReference object false).bind fun (released, events) =>
      (ebpfPinningEntriesReleaseLoop released rest).map fun (final, later) => (final, events ++ later)

/-- `ebpf_pinning_entries_release` of the first `entryCount` entries; `none` where the count
runs past the entries. -/
def ebpfPinningEntriesRelease (tracking : EbpfObjectTracking) (entryCount : UInt16)
    (entries : List (UInt64 × List UInt8)) : Option (EbpfObjectTracking × List ObjectEvent) :=
  if entries.length < entryCount.toNat then none
  else ebpfPinningEntriesReleaseLoop tracking (entries.take entryCount.toNat)

namespace PinningState

variable (state : PinningState)

/-- The loop of `ebpf_pinning_table_enumerate_entries` after the key `previousKey`, for at
most `fuel` rounds, with the objects and paths `listed` so far in an array of `length`
entries: the loop's result, the entries listed and the tracking after the references taken.
`none` where an object function fails fast, `ebpf_assert(local_entry_count <=
entries_array_length)` fails (a release build writes past the array) or the rounds run out. -/
def enumerateEntriesLoop (objectType : EbpfObjectType) (length : UInt16) (environment : PinningEnumerateEnvironment) :
    Nat → Option (List UInt8) → EbpfObjectTracking → List (UInt64 × List UInt8) →
      Option (EbpfResult × List (UInt64 × List UInt8) × EbpfObjectTracking)
  | 0, _, _, _ => none
  | fuel + 1, previousKey, tracking, listed =>
    match ebpfHashTableNextKeyPointerAndValue (state.table.readingMemory state.memory) previousKey with
    | .error .noMoreKeys => some (.success, listed, tracking)
    | .error result => some (result, listed, tracking)
    | .ok next =>
      -- the key copied into `next_object_path`, passed back unless it is NULL
      let nextKey := if pointerAt next.key = 0 then none else some next.key
      let object := state.memory.entryObjects (pointerAt next.data)
      (tracking.objectType object).bind fun type =>
        if objectType ≠ type then enumerateEntriesLoop objectType length environment fuel nextKey tracking listed
        else if length.toNat < listed.length + 1 then none
        else
          (tracking.ebpfObjectAcquireReference object false).bind fun acquired =>
            let result := environment.duplicateResults listed.length
            let listed := listed ++ [(object, state.memory.strings (pointerAt next.data))]
            if result ≠ .success then some (result, listed, acquired)
            else enumerateEntriesLoop objectType length environment fuel nextKey acquired listed

/-- `ebpf_pinning_table_enumerate_entries` with `fuel` rounds for its loop: the result,
`*entry_count`, the entries of `*pinning_entries` (none for NULL), the tracking after and
the events of the releases on failure. -/
def ebpfPinningTableEnumerateEntries (objectType : EbpfObjectType) (environment : PinningEnumerateEnvironment)
    (fuel : Nat) : Option (EbpfResult × UInt16 × List (UInt64 × List UInt8) × EbpfObjectTracking × List ObjectEvent) :=
  let length := (ebpfHashTableKeyCount state.table).toUInt16
  if length = 0 then some (.success, 0, [], state.tracking, [])
  else
    match ebpfSafeSizeTMultiply sizeOfPinningEntry length.toUInt64 with
    | .error result => some (result, 0, [], state.tracking, [])
    | .ok _ =>
      if !environment.arrayAllocated then some (.noMemory, 0, [], state.tracking, [])
      else
        (state.enumerateEntriesLoop objectType length environment fuel none state.tracking []).bind
          fun (result, listed, tracking) =>
            if result = .success then some (.success, listed.length.toUInt16, listed, tracking, [])
            else
              (ebpfPinningEntriesRelease tracking listed.length.toUInt16 listed).map fun (released, events) =>
                (result, 0, [], released, events)

end PinningState

end EbpfWindows.Runtime
