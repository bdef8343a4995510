import EbpfWindows.Shared.SafeArithmetic
import EbpfWindows.Runtime.HashTable.Hash

/-! The hash table's data model, creation, key comparison and bucket choice
(`ebpf_hash_table.c`).

A table is an array of buckets, each an immutable array of entries replaced as
a whole on every change. An entry holds a copy of its key, a pointer to its
value and a pointer to a pre-allocated bucket one entry smaller, which a
delete of the last entry fills. A value is modelled by its bytes and a
pre-allocated bucket by its address and the `count` its header was given, the
number of entries it has room for; the allocator, pool tags and notification
context are left out, and each allocation's outcome (the address, or NULL) is
an input of the operation that makes it. The header's count lives with the
entry that points to the bucket, which is faithful while no two entries point
to one bucket: `Backups` proves that of every run whose allocations return
memory not in use.

Keys are compared by `_ebpf_hash_table_compare`, through an extract function
when the table has one, otherwise as integers or as byte strings. What the
comparison looks at is `keyView`: two keys compare equal exactly when their
views are equal, and keys with equal views land in the same bucket.

The release build is modelled: there `max_entry_count` is the `max_entries`
option as given, and `EBPF_HASH_TABLE_NO_LIMIT` turns counting off.
-/

set_option autoImplicit false

namespace EbpfWindows.Runtime

open Bytes

/-- A pre-allocated backup bucket: its address and the `count` of its header. -/
structure EbpfHashBackupBucket where
  address : UInt64
  count : Nat
  deriving DecidableEq, Repr

structure EbpfHashBucketEntry where
  data : List UInt8
  backupBucket : Option EbpfHashBackupBucket
  key : List UInt8
  deriving DecidableEq, Repr

/-- The room of an entry's backup bucket, `NULL` as `none`. -/
def EbpfHashBucketEntry.backupCount (entry : EbpfHashBucketEntry) : Option Nat :=
  entry.backupBucket.map EbpfHashBackupBucket.count

/-- The address of an entry's backup bucket, `NULL` as `none`. -/
def EbpfHashBucketEntry.backupAddress (entry : EbpfHashBucketEntry) : Option UInt64 :=
  entry.backupBucket.map EbpfHashBackupBucket.address

/-- The extract function of a table: the bytes a key is hashed and compared by,
and their length in bits. -/
abbrev EbpfHashTableExtractFunction := List UInt8 → List UInt8 × Nat

def ebpfHashTableNoLimit : UInt64 := 0

def ebpfHashTableDefaultBucketCount : UInt64 := 64

/-- The notification types of `ebpf_hash_table_notification_type_t`. -/
def notificationTypeAllocate : UInt32 := 0x1
def notificationTypeFree : UInt32 := 0x2
def notificationTypePreFree : UInt32 := 0x4
def notificationTypeUse : UInt32 := 0x8

/-- `EBPF_OFFSET_OF(ebpf_hash_bucket_entry_t, key)` on a 64-bit target. -/
def offsetOfKey : UInt64 := 16

/-- `sizeof(ebpf_hash_bucket_header_t)`: the count and one padded entry. -/
def sizeOfBucketHeader : UInt64 := 32

/-- `sizeof(ebpf_hash_bucket_header_and_lock_t)`. -/
def sizeOfBucketHeaderAndLock : UInt64 := 16

/-- `EBPF_OFFSET_OF(ebpf_hash_table_t, buckets)`. -/
def offsetOfBuckets : UInt64 := 120

/-- `struct _ebpf_hash_table`. `supportsSse42` is the processor flag the hash reads;
`buckets` maps each index below `bucketCount` to its entries, the empty list for a
NULL header. -/
structure EbpfHashTable where
  bucketCount : UInt64
  bucketCountMask : UInt64
  entryCount : UInt64
  maxEntryCount : UInt64
  seed : UInt32
  keySize : UInt64
  valueSize : UInt64
  extract : Option EbpfHashTableExtractFunction
  notificationCallback : Bool
  notificationFlags : UInt32
  supportsSse42 : Bool
  buckets : Nat → List EbpfHashBucketEntry
  bucketCount_isPowerOfTwo : bucketCount.toNat.isPowerOfTwo
  bucketCountMask_eq : bucketCountMask = bucketCount - 1

/-- The fields of `ebpf_hash_table_creation_options_t` the table keeps. -/
structure EbpfHashTableCreationOptions where
  keySize : UInt64
  valueSize : UInt64
  extractFunction : Option EbpfHashTableExtractFunction
  minimumBucketCount : UInt64
  maxEntries : UInt64
  notificationCallback : Bool
  notificationFlags : UInt32

/-- Entries are counted when a limit is set. -/
def EbpfHashTable.counting (table : EbpfHashTable) : Prop :=
  table.maxEntryCount ≠ ebpfHashTableNoLimit

instance (table : EbpfHashTable) : Decidable table.counting :=
  inferInstanceAs (Decidable (table.maxEntryCount ≠ ebpfHashTableNoLimit))

/-! ## Creation -/

/-- The bucket count `ebpf_hash_table_create` settles on: the requested minimum or
the default, raised to the next power of two. `_BitScanReverse64` is the index of
the highest set bit; a shift by 64 is taken as x64 executes it, modulo 64. -/
def roundedBucketCount (minimumBucketCount : UInt64) : UInt64 :=
  let bucketCount := if minimumBucketCount ≠ 0 then minimumBucketCount else ebpfHashTableDefaultBucketCount
  let msbIndex := (Nat.log2 bucketCount.toNat).toUInt64
  if bucketCount ≠ 1 <<< msbIndex then 1 <<< (msbIndex + 1) else bucketCount

theorem one_shiftLeft_isPowerOfTwo (shift : UInt64) : ((1 : UInt64) <<< shift).toNat.isPowerOfTwo := by
  have small : 2 ^ (shift.toNat % 64) < 2 ^ 64 := Nat.pow_lt_pow_right (by norm_num) (Nat.mod_lt _ (by norm_num))
  refine ⟨shift.toNat % 64, ?_⟩
  rw [UInt64.toNat_shiftLeft, UInt64.toNat_one, Nat.one_shiftLeft, Nat.mod_eq_of_lt small]

theorem roundedBucketCount_isPowerOfTwo (minimumBucketCount : UInt64) :
    (roundedBucketCount minimumBucketCount).toNat.isPowerOfTwo := by
  unfold roundedBucketCount
  dsimp only
  generalize (if minimumBucketCount ≠ 0 then minimumBucketCount else ebpfHashTableDefaultBucketCount) = bucketCount
  split_ifs with different
  · exact one_shiftLeft_isPowerOfTwo _
  · rw [not_not.mp different]
    exact one_shiftLeft_isPowerOfTwo _

/-- `ebpf_hash_table_create`, given whether the table's allocation succeeds, the random
seed and the processor flag. Notification flags are masked to the four known types and
cleared when there is no callback. -/
def ebpfHashTableCreate (options : EbpfHashTableCreationOptions) (tableAllocated : Bool) (seed : UInt32)
    (supportsSse42 : Bool) : Except EbpfResult EbpfHashTable := do
  let bucketCount := roundedBucketCount options.minimumBucketCount
  let tableSize ← ebpfSafeSizeTMultiply sizeOfBucketHeaderAndLock bucketCount
  let _ ← ebpfSafeSizeTAdd tableSize offsetOfBuckets
  if !tableAllocated then throw .noMemory
  let notificationFlags := options.notificationFlags &&&
    (notificationTypeAllocate ||| notificationTypeFree ||| notificationTypeUse ||| notificationTypePreFree)
  pure {
    bucketCount, bucketCountMask := bucketCount - 1, entryCount := 0,
    maxEntryCount := options.maxEntries, seed, keySize := options.keySize,
    valueSize := options.valueSize, extract := options.extractFunction,
    notificationCallback := options.notificationCallback,
    notificationFlags := if options.notificationCallback then notificationFlags else 0,
    supportsSse42, buckets := fun _ => [],
    bucketCount_isPowerOfTwo := roundedBucketCount_isPowerOfTwo _, bucketCountMask_eq := rfl }

/-! ## Key comparison -/

/-- `_ebpf_hash_table_compare_integer_keys`: keys of 1, 2, 4 or 8 bytes loaded as
little-endian integers; any other size compares equal, after an assertion. -/
def ebpfHashTableCompareIntegerKeys (keySize : UInt64) (keyA keyB : List UInt8) : Int :=
  if keySize = 1 ∨ keySize = 2 ∨ keySize = 4 ∨ keySize = 8 then
    let lhs := littleEndian (readBytes keyA 0 keySize.toNat)
    let rhs := littleEndian (readBytes keyB 0 keySize.toNat)
    if lhs < rhs then -1 else if lhs > rhs then 1 else 0
  else 0

/-- The high-order `lengthInBits % 8` bits of the partial byte of a bit string. -/
def partialByte (data : List UInt8) (lengthInBits : Nat) : UInt8 :=
  data.getD (lengthInBits / 8) 0 >>> (8 - lengthInBits % 8).toUInt8

def ebpfHashTableCompareExtractedKeys (extract : EbpfHashTableExtractFunction) (keyA keyB : List UInt8) :
    Int :=
  let (dataA, lengthA) := extract keyA
  let (dataB, lengthB) := extract keyB
  if lengthA < lengthB then -1
  else if lengthA > lengthB then 1
  else
    let cmpResult := memcmp (readBytes dataA 0 (lengthA / 8)) (readBytes dataB 0 (lengthA / 8))
    -- no match, or the length ends on a byte boundary
    if cmpResult ≠ 0 ∨ lengthA % 8 = 0 then cmpResult
    else
      let remainderA := partialByte dataA lengthA
      let remainderB := partialByte dataB lengthB
      if remainderA < remainderB then -1 else if remainderA > remainderB then 1 else 0

def ebpfHashTableCompare (table : EbpfHashTable) (keyA keyB : List UInt8) : Int :=
  match table.extract with
  | some extract => ebpfHashTableCompareExtractedKeys extract keyA keyB
  | none =>
    if table.keySize &&& (table.keySize - 1) = 0 ∧ table.keySize ≤ 8 then
      ebpfHashTableCompareIntegerKeys table.keySize keyA keyB
    else memcmp (readBytes keyA 0 table.keySize.toNat) (readBytes keyB 0 table.keySize.toNat)

/-- `_ebpf_hash_table_compute_bucket_index`. The hash is 32 bits wide, so masking it
with `bucket_count - 1` already gives the `uint32_t` the function returns. -/
def ebpfHashTableComputeBucketIndex (table : EbpfHashTable) (key : List UInt8) : Nat :=
  let hash :=
    match table.extract with
    | none =>
      if table.supportsSse42 then ebpfComputeCrc32 key table.keySize.toNat table.seed
      else ebpfMurmur3_32 key (table.keySize * 8).toNat table.seed
    | some extract =>
      let (data, length) := extract key
      ebpfMurmur3_32 data length table.seed
  hash.toNat &&& table.bucketCountMask.toNat

/-- What `_ebpf_hash_table_compare` looks at in a key: the length in bits, the whole
bytes and the partial byte's high-order bits of its extracted bit string, or its first
`key_size` bytes. -/
def keyView (table : EbpfHashTable) (key : List UInt8) : Nat × List UInt8 × UInt8 :=
  match table.extract with
  | some extract =>
    let (data, length) := extract key
    (length, readBytes data 0 (length / 8), if length % 8 = 0 then 0 else partialByte data length)
  | none => (0, readBytes key 0 table.keySize.toNat, 0)

/-! ## What the comparison sees -/

namespace EbpfHashTable

theorem threeWay_eq_zero_iff {α : Type} [LinearOrder α] (x y : α) :
    (if x < y then -1 else if y < x then 1 else 0 : Int) = 0 ↔ x = y := by
  rcases lt_trichotomy x y with below | same | above
  · simp [below, ne_of_lt below]
  · simp [same]
  · simp [above, not_lt_of_gt above, ne_of_gt above]

theorem integer_key_sizes {keySize : UInt64} (powerOfTwo : keySize &&& (keySize - 1) = 0) (small : keySize ≤ 8) :
    keySize = 0 ∨ keySize = 1 ∨ keySize = 2 ∨ keySize = 4 ∨ keySize = 8 := by
  have bound : keySize.toNat ≤ 8 := UInt64.le_iff_toNat_le.mp small
  obtain ⟨size, rfl⟩ : ∃ size : Fin 9, keySize = size.val.toUInt64 := ⟨⟨keySize.toNat, by omega⟩, by simp⟩
  revert powerOfTwo
  revert size
  decide

theorem compareIntegerKeys_eq_zero_iff {keySize : UInt64}
    (sizes : keySize = 0 ∨ keySize = 1 ∨ keySize = 2 ∨ keySize = 4 ∨ keySize = 8) (keyA keyB : List UInt8) :
    ebpfHashTableCompareIntegerKeys keySize keyA keyB = 0 ↔
      readBytes keyA 0 keySize.toNat = readBytes keyB 0 keySize.toNat := by
  by_cases loaded : keySize = 1 ∨ keySize = 2 ∨ keySize = 4 ∨ keySize = 8
  · simp only [ebpfHashTableCompareIntegerKeys, if_pos loaded, gt_iff_lt, threeWay_eq_zero_iff]
    exact littleEndian_inj (by simp)
  · -- only the empty key is left, and all empty keys are equal
    have empty : keySize = 0 := by tauto
    simp [ebpfHashTableCompareIntegerKeys, empty, readBytes]

theorem compareExtractedKeys_eq_zero_iff (extract : EbpfHashTableExtractFunction) (keyA keyB : List UInt8) :
    ebpfHashTableCompareExtractedKeys extract keyA keyB = 0 ↔
      ((extract keyA).2, readBytes (extract keyA).1 0 ((extract keyA).2 / 8),
          if (extract keyA).2 % 8 = 0 then 0 else partialByte (extract keyA).1 (extract keyA).2) =
        ((extract keyB).2, readBytes (extract keyB).1 0 ((extract keyB).2 / 8),
          if (extract keyB).2 % 8 = 0 then 0 else partialByte (extract keyB).1 (extract keyB).2) := by
  simp only [ebpfHashTableCompareExtractedKeys]
  generalize extract keyA = extractedA
  generalize extract keyB = extractedB
  obtain ⟨dataA, lengthA⟩ := extractedA
  obtain ⟨dataB, lengthB⟩ := extractedB
  dsimp only
  rcases lt_trichotomy lengthA lengthB with shorter | sameLength | longer
  · simp [shorter, ne_of_lt shorter]
  · subst sameLength
    simp only [lt_irrefl, gt_iff_lt, if_false]
    have wholeBytes := memcmp_eq_zero_iff (by simp : (readBytes dataA 0 (lengthA / 8)).length =
      (readBytes dataB 0 (lengthA / 8)).length)
    by_cases matched : memcmp (readBytes dataA 0 (lengthA / 8)) (readBytes dataB 0 (lengthA / 8)) = 0
    · have same := wholeBytes.mp matched
      by_cases aligned : lengthA % 8 = 0
      · simp only [aligned, or_true, if_true, matched, true_iff, if_true]
        rw [same]
      · simp only [matched, aligned, ne_eq, not_true_eq_false, or_self, if_false]
        simp only [same, Prod.mk.injEq, true_and]
        simp only [UInt8.lt_iff_toNat_lt, ← UInt8.toNat_inj]
        exact threeWay_eq_zero_iff _ _
    · have different : readBytes dataA 0 (lengthA / 8) ≠ readBytes dataB 0 (lengthA / 8) :=
        fun same => matched (wholeBytes.mpr same)
      simp [matched, different]
  · simp [longer, not_lt_of_gt longer, ne_of_gt longer]

theorem compare_eq_zero_iff (table : EbpfHashTable) (keyA keyB : List UInt8) :
    ebpfHashTableCompare table keyA keyB = 0 ↔ keyView table keyA = keyView table keyB := by
  unfold ebpfHashTableCompare keyView
  cases table.extract with
  | some extract => exact compareExtractedKeys_eq_zero_iff extract keyA keyB
  | none =>
    by_cases integer : table.keySize &&& (table.keySize - 1) = 0 ∧ table.keySize ≤ 8
    · simp only [if_pos integer, compareIntegerKeys_eq_zero_iff (integer_key_sizes integer.1 integer.2)]
      simp
    · simp only [if_neg integer, memcmp_eq_zero_iff (by simp : (readBytes keyA 0 table.keySize.toNat).length =
        (readBytes keyB 0 table.keySize.toNat).length)]
      simp

/-! ## Bucket choice -/

theorem computeBucketIndex_eq_of_keyView_eq {table : EbpfHashTable} {keyA keyB : List UInt8}
    (same : keyView table keyA = keyView table keyB) :
    ebpfHashTableComputeBucketIndex table keyA = ebpfHashTableComputeBucketIndex table keyB := by
  unfold ebpfHashTableComputeBucketIndex
  unfold keyView at same
  cases extracted : table.extract with
  | none =>
    simp only [extracted, Prod.mk.injEq, true_and, and_true] at same ⊢
    by_cases sse : table.supportsSse42
    · simp only [sse, if_true, ebpfComputeCrc32_congr table.seed same]
    · -- the murmur path reads `key_size * 8` bits, which wrap in `size_t` but never exceed the key
      have bits : (table.keySize * 8).toNat = table.keySize.toNat * 8 % 2 ^ 64 := by simp [UInt64.toNat_mul]
      have hashed := @ebpfMurmur3_32_congr keyA keyB (table.keySize * 8).toNat table.seed
        (readBytes_eq_of_readBytes_eq same (by omega)) (fun wrong => absurd (by omega) wrong)
      simp only [sse, if_false, Bool.false_eq_true, hashed]
  | some extract =>
    simp only [extracted] at same ⊢
    generalize extract keyA = extractedA at same ⊢
    generalize extract keyB = extractedB at same ⊢
    obtain ⟨dataA, length⟩ := extractedA
    obtain ⟨dataB, lengthB⟩ := extractedB
    simp only [Prod.mk.injEq] at same
    obtain ⟨rfl, bytes, partialBits⟩ := same
    have wholeBytes : readBytes dataA 0 ((length % 2 ^ 32) / 8) = readBytes dataB 0 ((length % 2 ^ 32) / 8) :=
      readBytes_eq_of_readBytes_eq bytes (by omega)
    have highBits : length % 8 ≠ 0 →
        dataA.getD ((length % 2 ^ 32) / 8) 0 >>> (8 - length % 8).toUInt8 =
          dataB.getD ((length % 2 ^ 32) / 8) 0 >>> (8 - length % 8).toUInt8 := by
      intro unaligned
      by_cases short : length < 2 ^ 32
      · -- the cast to `uint32_t` keeps the length, so this is the compared partial byte
        have kept : length % 2 ^ 32 = length := Nat.mod_eq_of_lt short
        rw [kept]
        simpa [unaligned, partialByte] using partialBits
      · -- a truncated length stops at a whole byte the comparison reads
        rw [getD_eq_of_readBytes_eq bytes (by omega)]
    simp only [ebpfMurmur3_32_congr table.seed wholeBytes highBits]

theorem bucketCountMask_toNat (table : EbpfHashTable) :
    ∃ exponent, table.bucketCount.toNat = 2 ^ exponent ∧ table.bucketCountMask.toNat = 2 ^ exponent - 1 := by
  obtain ⟨exponent, power⟩ := table.bucketCount_isPowerOfTwo
  have positive : (1 : UInt64) ≤ table.bucketCount := by
    rw [UInt64.le_iff_toNat_le, power]
    exact Nat.one_le_two_pow
  refine ⟨exponent, power, ?_⟩
  rw [table.bucketCountMask_eq, UInt64.toNat_sub_of_le _ _ positive, power]
  rfl

theorem computeBucketIndex_lt (table : EbpfHashTable) (key : List UInt8) :
    ebpfHashTableComputeBucketIndex table key < table.bucketCount.toNat := by
  obtain ⟨exponent, power, mask⟩ := bucketCountMask_toNat table
  unfold ebpfHashTableComputeBucketIndex
  rw [mask, Nat.and_two_pow_sub_one_eq_mod, power]
  exact Nat.mod_lt _ (Nat.two_pow_pos _)

end EbpfHashTable

end EbpfWindows.Runtime
