import EbpfWindows.Runtime.HashTable.Basic

/-! The hash table's operations (`ebpf_hash_table.c`).

Every change builds a new bucket and publishes it in one store:
`_ebpf_hash_table_bucket_insert` copies the bucket with one more entry,
`_ebpf_hash_table_bucket_update` copies it with one value replaced, and
`_ebpf_hash_table_bucket_delete` compacts it into the last entry's backup
bucket. `_ebpf_hash_table_replace_bucket` runs one of them under the bucket
lock, after copying the value and asking the notification callback.

When a limit is set, an insert increments `entry_count` before it allocates
and decrements it at `Done` on any failure. The model follows the source: the
decrement also follows the size checks that fail before the increment.

Frees and the cleanup notifications at `Done` release memory and report to the
owner of the table; neither changes the table, and neither is modelled.
-/

set_option autoImplicit false

namespace EbpfWindows.Runtime

open Bytes

/-- The outcomes of the allocations one call makes and of the notifications whose
result it reads; the allocation of a backup bucket returns its address or NULL. -/
structure HashTableEnvironment where
  newDataAllocated : Bool
  allocateNotification : EbpfResult
  newBucketAllocated : Bool
  backupBucket : Option UInt64
  preFreeNotification : EbpfResult
  deriving DecidableEq, Repr

inductive EbpfHashBucketOperation where
  | insertOrUpdate
  | insert
  | update
  | delete
  deriving DecidableEq, Repr

inductive EbpfHashTableOperations where
  | any
  | insert
  | replace
  deriving DecidableEq, Repr

namespace EbpfHashTable

/-- The callback is present and the notification type is enabled. -/
def notifies (table : EbpfHashTable) (type : UInt32) : Prop :=
  table.notificationCallback = true ∧ table.notificationFlags &&& type ≠ 0

instance (table : EbpfHashTable) (type : UInt32) : Decidable (table.notifies type) :=
  inferInstanceAs (Decidable (_ ∧ _))

end EbpfHashTable

/-- `_ebpf_hash_table_bucket_entry`: the offset of entry `index` from the first entry,
NULL (`none`) when it does not fit in `size_t`. -/
def ebpfHashTableBucketEntry (keySize index : UInt64) : Option UInt64 :=
  (do
    let entrySize ← ebpfSafeSizeTAdd offsetOfKey keySize
    ebpfSafeSizeTMultiply index entrySize).toOption

/-- The search loop of `_ebpf_hash_table_replace_bucket` and `ebpf_hash_table_find`,
started at `index`: the index of the first entry whose key compares equal, the count
when none does, and `none` when an entry's offset overflows. -/
def searchBucket (table : EbpfHashTable) (key : List UInt8) : List EbpfHashBucketEntry → Nat → Option Nat
  | [], index => some index
  | entry :: rest, index =>
    if (ebpfHashTableBucketEntry table.keySize index.toUInt64).isNone then none
    else if ebpfHashTableCompare table key entry.key = 0 then some index
    else searchBucket table key rest (index + 1)

/-- The copy of the value an update stores: `value_size` bytes of the value, zeros for NULL. -/
def newData (table : EbpfHashTable) (value : Option (List UInt8)) : List UInt8 :=
  match value with
  | some value => readBytes value 0 table.valueSize.toNat
  | none => List.replicate table.valueSize.toNat 0

/-! ## Building a replacement bucket -/

/-- The sizes `_ebpf_hash_table_bucket_insert` computes before it counts the entry:
the old bucket's size (zero for a NULL bucket) and the new bucket's. -/
def bucketInsertSizes (keySize : UInt64) (oldCount : Nat) : Except EbpfResult (UInt64 × UInt64) := do
  let entrySize ← ebpfSafeSizeTAdd offsetOfKey keySize
  let oldBucketSize ← if oldCount ≠ 0 then do
      let size ← ebpfSafeSizeTMultiply entrySize oldCount.toUInt64
      ebpfSafeSizeTAdd size sizeOfBucketHeader
    else pure 0
  let newBucketEntryCount ← ebpfSafeSizeTAdd oldCount.toUInt64 1
  let newBucketSize ← ebpfSafeSizeTMultiply entrySize newBucketEntryCount
  let newBucketSize ← ebpfSafeSizeTAdd newBucketSize sizeOfBucketHeader
  pure (oldBucketSize, newBucketSize)

/-- `_ebpf_hash_table_bucket_insert`: the new bucket or the error, and `entry_count` after `Done`.
The appended entry's backup bucket is the one allocated, its count that of the old bucket, and is NULL
when there were no old entries. -/
def ebpfHashTableBucketInsert (table : EbpfHashTable) (oldBucket : List EbpfHashBucketEntry)
    (key data : List UInt8) (environment : HashTableEnvironment) :
    Except EbpfResult (List EbpfHashBucketEntry) × UInt64 :=
  -- `Done` decrements the count on every failure when entries are counted
  let rollback (entryCount : UInt64) : UInt64 := if table.counting then entryCount - 1 else entryCount
  match bucketInsertSizes table.keySize oldBucket.length with
  | .error result => (.error result, rollback table.entryCount)
  | .ok (oldBucketSize, _) =>
    let entryCount := if table.counting then table.entryCount + 1 else table.entryCount
    if table.counting ∧ entryCount > table.maxEntryCount then (.error .outOfSpace, rollback entryCount)
    else if !environment.newBucketAllocated then (.error .noMemory, rollback entryCount)
    else if oldBucketSize ≠ 0 ∧ environment.backupBucket = none then (.error .noMemory, rollback entryCount)
    else if (ebpfHashTableBucketEntry table.keySize oldBucket.length.toUInt64).isNone then
      (.error .arithmeticOverflow, rollback entryCount)
    else
      let backupBucket := if oldBucketSize ≠ 0 then
        environment.backupBucket.map fun address => EbpfHashBackupBucket.mk address oldBucket.length else none
      (.ok (oldBucket ++ [{ data, backupBucket, key := readBytes key 0 table.keySize.toNat }]), entryCount)

def ebpfHashTableBucketUpdate (table : EbpfHashTable) (oldBucket : List EbpfHashBucketEntry) (keyIndex : Nat)
    (data : List UInt8) (environment : HashTableEnvironment) : Except EbpfResult (List EbpfHashBucketEntry) := do
  let entrySize ← ebpfSafeSizeTAdd offsetOfKey table.keySize
  let oldBucketSize ← ebpfSafeSizeTMultiply entrySize oldBucket.length.toUInt64
  let _ ← ebpfSafeSizeTAdd oldBucketSize sizeOfBucketHeader
  if !environment.newBucketAllocated then throw .noMemory
  if (ebpfHashTableBucketEntry table.keySize keyIndex.toUInt64).isNone then throw .arithmeticOverflow
  pure (oldBucket.modify keyIndex fun entry => { entry with data })

def ebpfHashTableBucketDeleteValidate (table : EbpfHashTable) (oldBucket : List EbpfHashBucketEntry) :
    EbpfResult :=
  if (ebpfHashTableBucketEntry table.keySize (oldBucket.length.toUInt64 - 1)).isNone then .arithmeticOverflow
  else if oldBucket.length = 1 then .success
  else if (ebpfHashTableBucketEntry table.keySize (oldBucket.length.toUInt64 - 2)).isNone then .arithmeticOverflow
  else .success

/-- One iteration of the first loop of `_ebpf_hash_table_bucket_delete`: every entry
but the one at `keyIndex` has its key and value copied to the end of the backup bucket. -/
def compactEntry (keySize : UInt64) (keyIndex : Nat) (copied : List EbpfHashBucketEntry)
    (entryAtIndex : EbpfHashBucketEntry × Nat) : Except EbpfResult (List EbpfHashBucketEntry) :=
  let (entry, index) := entryAtIndex
  if index = keyIndex then pure copied
  else if (ebpfHashTableBucketEntry keySize index.toUInt64).isNone ∨
      (ebpfHashTableBucketEntry keySize copied.length.toUInt64).isNone then
    throw .arithmeticOverflow
  else pure (copied ++ [entry])

/-- The first loop of `_ebpf_hash_table_bucket_delete`. -/
def compactEntries (keySize : UInt64) (oldBucket : List EbpfHashBucketEntry) (keyIndex : Nat) :
    Except EbpfResult (List EbpfHashBucketEntry) :=
  oldBucket.zipIdx.foldlM (compactEntry keySize keyIndex) []

/-- A copied entry with the backup bucket of the old entry at its position. -/
def inheritBackup (entry old : EbpfHashBucketEntry) : EbpfHashBucketEntry :=
  { entry with backupBucket := old.backupBucket }

/-- One iteration of the second loop of `_ebpf_hash_table_bucket_delete`: position `index`
of the new bucket takes the backup bucket of position `index` of the old one. -/
def inheritBackupBucket (keySize : UInt64) (rebuilt : List EbpfHashBucketEntry)
    (oldAtIndex : EbpfHashBucketEntry × Nat) : Except EbpfResult (List EbpfHashBucketEntry) :=
  let (old, index) := oldAtIndex
  if (ebpfHashTableBucketEntry keySize index.toUInt64).isNone then throw .arithmeticOverflow
  else pure (rebuilt.modify index fun entry => inheritBackup entry old)

/-- The second loop of `_ebpf_hash_table_bucket_delete`, over the positions below the last. -/
def inheritBackupBuckets (keySize : UInt64) (oldBucket copied : List EbpfHashBucketEntry) :
    Except EbpfResult (List EbpfHashBucketEntry) :=
  oldBucket.dropLast.zipIdx.foldlM (inheritBackupBucket keySize) copied

/-- `_ebpf_hash_table_bucket_delete`: the new bucket (NULL when the last entry goes) and
`entry_count` after `Done`, which decrements it on success. -/
def ebpfHashTableBucketDelete (table : EbpfHashTable) (oldBucket : List EbpfHashBucketEntry) (keyIndex : Nat) :
    Except EbpfResult (List EbpfHashBucketEntry) × UInt64 :=
  let outcome : Except EbpfResult (List EbpfHashBucketEntry) :=
    if (ebpfHashTableBucketEntry table.keySize (oldBucket.length.toUInt64 - 1)).isNone then
      throw .arithmeticOverflow
    else if oldBucket.length = 1 then pure []
    else do
      let copied ← compactEntries table.keySize oldBucket keyIndex
      inheritBackupBuckets table.keySize oldBucket copied
  match outcome with
  | .ok newBucket =>
    (.ok newBucket, if table.counting then table.entryCount - 1 else table.entryCount)
  | .error result => (.error result, table.entryCount)

/-! ## The table operations -/

/-- The switch of `_ebpf_hash_table_replace_bucket` on the operation, given the old bucket,
the index the search stopped at and the copied value: the new bucket or the error, and
`entry_count` afterwards. -/
def replaceBucketOutcome (table : EbpfHashTable) (key : List UInt8) (operation : EbpfHashBucketOperation)
    (environment : HashTableEnvironment) (oldBucket : List EbpfHashBucketEntry) (index : Nat)
    (data : List UInt8) : Except EbpfResult (List EbpfHashBucketEntry) × UInt64 :=
  let found := index ≠ oldBucket.length
  match operation with
  | .insertOrUpdate =>
    if found then (ebpfHashTableBucketUpdate table oldBucket index data environment, table.entryCount)
    else ebpfHashTableBucketInsert table oldBucket key data environment
  | .insert =>
    if found then (.error .objectAlreadyExists, table.entryCount)
    else ebpfHashTableBucketInsert table oldBucket key data environment
  | .update =>
    if found then (ebpfHashTableBucketUpdate table oldBucket index data environment, table.entryCount)
    else (.error .keyNotFound, table.entryCount)
  | .delete =>
    if !found then (.error .keyNotFound, table.entryCount)
    else
      match ebpfHashTableBucketDeleteValidate table oldBucket with
      | .success =>
        -- no failure path after a successful PRE_FREE notification
        if table.notifies notificationTypePreFree ∧ environment.preFreeNotification ≠ .success then
          (.error environment.preFreeNotification, table.entryCount)
        else ebpfHashTableBucketDelete table oldBucket index
      | result => (.error result, table.entryCount)

/-- `_ebpf_hash_table_replace_bucket`: the result, and the table afterwards. On success
the new bucket is published; on failure only `entry_count` may have moved. -/
def ebpfHashTableReplaceBucket (table : EbpfHashTable) (key : List UInt8) (value : Option (List UInt8))
    (operation : EbpfHashBucketOperation) (environment : HashTableEnvironment) : EbpfResult × EbpfHashTable :=
  let bucketIndex := ebpfHashTableComputeBucketIndex table key
  let copiesValue := operation ≠ .delete
  if copiesValue ∧ !environment.newDataAllocated then (.noMemory, table)
  else if copiesValue ∧ table.notifies notificationTypeAllocate ∧ environment.allocateNotification ≠ .success then
    (environment.allocateNotification, table)
  else
    let oldBucket := table.buckets bucketIndex
    match searchBucket table key oldBucket 0 with
    | none => (.arithmeticOverflow, table)
    | some index =>
      match replaceBucketOutcome table key operation environment oldBucket index (newData table value) with
      | (.error result, entryCount) => (result, { table with entryCount })
      | (.ok newBucket, entryCount) =>
        (.success, { table with entryCount, buckets := Function.update table.buckets bucketIndex newBucket })

def ebpfHashTableUpdate (table : EbpfHashTable) (key : List UInt8) (value : Option (List UInt8))
    (operation : EbpfHashTableOperations) (environment : HashTableEnvironment) : EbpfResult × EbpfHashTable :=
  let bucketOperation : EbpfHashBucketOperation :=
    match operation with
    | .any => .insertOrUpdate
    | .insert => .insert
    | .replace => .update
  ebpfHashTableReplaceBucket table key value bucketOperation environment

def ebpfHashTableDelete (table : EbpfHashTable) (key : List UInt8) (environment : HashTableEnvironment) :
    EbpfResult × EbpfHashTable :=
  ebpfHashTableReplaceBucket table key none .delete environment

/-- `ebpf_hash_table_find`: the result and the value the returned pointer designates. -/
def ebpfHashTableFind (table : EbpfHashTable) (key : List UInt8) : EbpfResult × Option (List UInt8) :=
  let bucket := table.buckets (ebpfHashTableComputeBucketIndex table key)
  if bucket = [] then (.keyNotFound, none)
  else
    match searchBucket table key bucket 0 with
    | none => (.invalidArgument, none)
    | some index =>
      match bucket[index]? with
      | none => (.keyNotFound, none)
      | some entry => (.success, some entry.data)

/-! ## Enumeration -/

/-- The scan of one bucket in `ebpf_hash_table_next_key_pointer_and_value`, from entry
`index` on, with `found` telling whether the previous key was seen: whether it was seen
by the end, and the entry after it if the bucket has one; an entry whose offset
overflows stops the scan with `EBPF_INVALID_ARGUMENT`. -/
def scanBucketAfter (table : EbpfHashTable) (previousKey : List UInt8) :
    Bool → List EbpfHashBucketEntry → Nat → Except EbpfResult (Bool × Option EbpfHashBucketEntry)
  | found, [], _ => .ok (found, none)
  | found, entry :: rest, index =>
    if (ebpfHashTableBucketEntry table.keySize index.toUInt64).isNone then .error .invalidArgument
    else if found then .ok (true, some entry)
    else scanBucketAfter table previousKey (ebpfHashTableCompare table previousKey entry.key = 0) rest (index + 1)

/-- The bucket loop of `ebpf_hash_table_next_key_pointer_and_value` at `bucketIndex`, with
`remaining` buckets left: empty buckets are skipped; without a previous key the first entry
of the first nonempty bucket is next, and with one each bucket is scanned for it. -/
def nextKeyLoop (table : EbpfHashTable) (previousKey : Option (List UInt8)) :
    Nat → Nat → Bool → Except EbpfResult (Bool × Option EbpfHashBucketEntry)
  | 0, _, found => .ok (found, none)
  | remaining + 1, bucketIndex, found =>
    match table.buckets bucketIndex with
    | [] => nextKeyLoop table previousKey remaining (bucketIndex + 1) found
    | first :: rest =>
      match previousKey with
      | none =>
        if (ebpfHashTableBucketEntry table.keySize 0).isNone then .error .invalidArgument
        else .ok (found, some first)
      | some key =>
        match scanBucketAfter table key found (first :: rest) 0 with
        | .error result => .error result
        | .ok (found, some entry) => .ok (found, some entry)
        | .ok (found, none) => nextKeyLoop table previousKey remaining (bucketIndex + 1) found

/-- `ebpf_hash_table_next_key_pointer_and_value`: the entry after `previous_key` in bucket
order, the first entry without one; `EBPF_KEY_NOT_FOUND` when the previous key is not in
the table, `EBPF_NO_MORE_KEYS` when no entry follows it. -/
def ebpfHashTableNextKeyPointerAndValue (table : EbpfHashTable) (previousKey : Option (List UInt8)) :
    Except EbpfResult EbpfHashBucketEntry :=
  let startingBucketIndex :=
    match previousKey with
    | some key => ebpfHashTableComputeBucketIndex table key
    | none => 0
  match nextKeyLoop table previousKey (table.bucketCount.toNat - startingBucketIndex) startingBucketIndex false with
  | .error result => .error result
  | .ok (found, next) =>
    if !found ∧ previousKey.isSome then .error .keyNotFound
    else
      match next with
      | none => .error .noMoreKeys
      | some entry => .ok entry

def ebpfHashTableKeyCount (table : EbpfHashTable) : UInt64 :=
  if table.counting then table.entryCount
  else (List.range table.bucketCount.toNat).foldl (fun count index => count + (table.buckets index).length.toUInt64) 0

/-- What `ebpf_hash_table_iterate` leaves: the result, `*bucket`, `*count`, and the entries
whose key and value pointers it wrote to `keys` and `values`. -/
structure EbpfHashTableIteration where
  result : EbpfResult
  bucket : Nat
  count : Nat
  entries : List EbpfHashBucketEntry
  deriving DecidableEq, Repr

/-- The loop of `ebpf_hash_table_iterate` at `bucketIndex`, with `remaining` buckets left
before `bucket_count`, `remainingSpace` slots left, the count of the last bucket it looked
at and the entries copied: where it stopped, that count and the entries. Empty buckets are
skipped; a bucket that does not fit in the space left stops the loop, and one that fits is
copied whole. -/
def iterateLoop (table : EbpfHashTable) :
    Nat → Nat → Nat → Nat → List EbpfHashBucketEntry → Except EbpfResult (Nat × Nat × List EbpfHashBucketEntry)
  | remaining, bucketIndex, remainingSpace, nextBucketCount, copied =>
    if remainingSpace = 0 then .ok (bucketIndex, nextBucketCount, copied)
    else
      match remaining with
      | 0 => .ok (bucketIndex, nextBucketCount, copied)
      | remaining + 1 =>
        match table.buckets bucketIndex with
        | [] => iterateLoop table remaining (bucketIndex + 1) remainingSpace nextBucketCount copied
        | first :: rest =>
          let bucket := first :: rest
          if remainingSpace < bucket.length then .ok (bucketIndex, bucket.length, copied)
          else if (List.range bucket.length).any fun index =>
              (ebpfHashTableBucketEntry table.keySize index.toUInt64).isNone then .error .invalidArgument
          else
            iterateLoop table remaining (bucketIndex + 1) (remainingSpace - bucket.length) bucket.length
              (copied ++ bucket)

/-- `ebpf_hash_table_iterate`, given `*bucket` and `*count`: when the loop stopped where it
started, `EBPF_INSUFFICIENT_BUFFER` with `*count` set to the count of the last bucket it
looked at. -/
def ebpfHashTableIterate (table : EbpfHashTable) (bucket count : Nat) : EbpfHashTableIteration :=
  if bucket ≥ table.bucketCount.toNat then ⟨.noMoreKeys, bucket, count, []⟩
  else
    match iterateLoop table (table.bucketCount.toNat - bucket) bucket count 0 [] with
    | .error result => ⟨result, bucket, count, []⟩
    | .ok (bucketIndex, nextBucketCount, copied) =>
      if bucket = bucketIndex then ⟨.insufficientBuffer, bucket, nextBucketCount, copied⟩
      else ⟨.success, bucketIndex, copied.length, copied⟩

/-- The test of `ebpf_hash_table_next_key_and_value_sorted` on one entry: the entry becomes
the candidate when it is above the previous key, below the candidate so far, and passes the
filter, which is called last. -/
def sortedCandidate (previousKey : Option (List UInt8)) (compare : List UInt8 → List UInt8 → Int)
    (filter : List UInt8 → List UInt8 → Bool) (next : Option EbpfHashBucketEntry) (entry : EbpfHashBucketEntry) :
    Option EbpfHashBucketEntry :=
  if previousKey.all fun key => compare key entry.key < 0 then
    if next.all fun candidate => compare candidate.key entry.key > 0 then
      if filter entry.key entry.data then some entry else next
    else next
  else next

/-- One iteration of the inner loop of `ebpf_hash_table_next_key_and_value_sorted`. -/
def sortedScanEntry (table : EbpfHashTable) (previousKey : Option (List UInt8))
    (compare : List UInt8 → List UInt8 → Int) (filter : List UInt8 → List UInt8 → Bool)
    (next : Option EbpfHashBucketEntry) (entryAtIndex : EbpfHashBucketEntry × Nat) :
    Except EbpfResult (Option EbpfHashBucketEntry) :=
  let (entry, index) := entryAtIndex
  if (ebpfHashTableBucketEntry table.keySize index.toUInt64).isNone then throw .invalidArgument
  else pure (sortedCandidate previousKey compare filter next entry)

/-- `ebpf_hash_table_next_key_and_value_sorted`, with the filter given its context: the
candidate left after every bucket, `EBPF_NO_MORE_KEYS` when there is none. -/
def ebpfHashTableNextKeyAndValueSorted (table : EbpfHashTable) (previousKey : Option (List UInt8))
    (compare : List UInt8 → List UInt8 → Int) (filter : List UInt8 → List UInt8 → Bool) :
    Except EbpfResult EbpfHashBucketEntry :=
  let scanned := (List.range table.bucketCount.toNat).foldlM (fun next bucketIndex =>
    (table.buckets bucketIndex).zipIdx.foldlM (sortedScanEntry table previousKey compare filter) next) none
  match scanned with
  | .error result => .error result
  | .ok none => .error .noMoreKeys
  | .ok (some entry) => .ok entry

end EbpfWindows.Runtime
