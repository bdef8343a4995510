import EbpfWindows.Runtime.HashTable.Operations
import EbpfWindows.Lib.KeyedList
import EbpfWindows.Lib.Bits

/-! The operations while every size they compute fits in `size_t`.

`BucketFits key_size count` says that a bucket of `count` entries, with its
header, has a size below `2^64`, and `LayoutFits key_size count` that one more
entry would still fit. While a bucket fits, every offset and size check of
`_ebpf_hash_table_bucket_update` and `_ebpf_hash_table_bucket_delete` passes;
while it has room, those of `_ebpf_hash_table_bucket_insert` pass too, and
without room the insert fails with `EBPF_ARITHMETIC_OVERFLOW`. Each builds the
bucket stated here: the old entries and the new one, the old entries with one
value replaced, and the old entries but one with the backup buckets of the old
positions.
-/

set_option autoImplicit false

namespace EbpfWindows.Runtime

open Bytes
open Bits (toNat_toUInt64_of_lt toUInt64_sub)

/-- The size of a bucket of `count` entries fits in `size_t`. -/
def BucketFits (keySize : UInt64) (count : Nat) : Prop :=
  (keySize.toNat + 16) * count + 32 < 2 ^ 64

/-- Bucket sizes of up to `count + 1` entries fit in `size_t`. -/
def LayoutFits (keySize : UInt64) (count : Nat) : Prop :=
  (keySize.toNat + 16) * (count + 1) + 32 < 2 ^ 64

theorem LayoutFits.mono {keySize : UInt64} {count smaller : Nat} (fits : LayoutFits keySize count)
    (le : smaller ≤ count) : LayoutFits keySize smaller := by
  unfold LayoutFits at fits ⊢
  have within : (keySize.toNat + 16) * (smaller + 1) ≤ (keySize.toNat + 16) * (count + 1) :=
    Nat.mul_le_mul_left _ (by omega)
  omega

theorem BucketFits.mono {keySize : UInt64} {count smaller : Nat} (fits : BucketFits keySize count)
    (le : smaller ≤ count) : BucketFits keySize smaller := by
  unfold BucketFits at fits ⊢
  have within : (keySize.toNat + 16) * smaller ≤ (keySize.toNat + 16) * count := Nat.mul_le_mul_left _ le
  omega

theorem LayoutFits.bucketFits {keySize : UInt64} {count : Nat} (fits : LayoutFits keySize count) :
    BucketFits keySize (count + 1) := fits

/-- The view of a stored entry's key. -/
def EbpfHashTable.entryView (table : EbpfHashTable) (entry : EbpfHashBucketEntry) : Nat × List UInt8 × UInt8 :=
  keyView table entry.key

/-! ## Offsets and the search -/

theorem offsetOfKey_add_toNat {keySize : UInt64} (fits : keySize.toNat + 16 < 2 ^ 64) :
    (offsetOfKey + keySize).toNat = keySize.toNat + 16 := by
  rw [UInt64.toNat_add, Nat.mod_eq_of_lt (by simpa [offsetOfKey, Nat.add_comm] using fits)]
  simp [offsetOfKey, Nat.add_comm]

theorem bucketEntry_isSome {keySize : UInt64} {index : Nat} (fits : (keySize.toNat + 16) * (index + 1) < 2 ^ 64) :
    (ebpfHashTableBucketEntry keySize index.toUInt64).isSome := by
  have entrySize : keySize.toNat + 16 < 2 ^ 64 := by nlinarith
  have small : index < 2 ^ 64 := by nlinarith
  have product : index.toUInt64.toNat * (offsetOfKey + keySize).toNat < 2 ^ 64 := by
    rw [offsetOfKey_add_toNat entrySize, toNat_toUInt64_of_lt small]
    nlinarith
  unfold ebpfHashTableBucketEntry
  rw [ebpfSafeSizeTAdd_eq_ok (by simpa [offsetOfKey, Nat.add_comm] using entrySize)]
  simp [bind, Except.bind, ebpfSafeSizeTMultiply_eq_ok product, Except.toOption]

theorem searchBucket_eq (table : EbpfHashTable) (key : List UInt8) :
    ∀ (bucket : List EbpfHashBucketEntry) (start : Nat),
      (∀ index < start + bucket.length, (ebpfHashTableBucketEntry table.keySize index.toUInt64).isSome) →
        searchBucket table key bucket start =
          some (start + KeyedList.findIndex table.entryView bucket (keyView table key))
  | [], start, _ => by simp [searchBucket]
  | entry :: rest, start, offsets => by
    have here : (ebpfHashTableBucketEntry table.keySize start.toUInt64).isNone = false :=
      Option.isNone_eq_false_iff.mpr (offsets start (by simp))
    have later := searchBucket_eq table key rest (start + 1) fun index bound => offsets index (by simp; omega)
    have compared : ebpfHashTableCompare table key entry.key = 0 ↔ table.entryView entry = keyView table key :=
      (EbpfHashTable.compare_eq_zero_iff table key entry.key).trans eq_comm
    by_cases same : table.entryView entry = keyView table key
    · simp only [searchBucket, here, Bool.false_eq_true, if_false, compared.mpr same, if_true,
        KeyedList.findIndex_cons, same, Nat.add_zero]
    · simp only [searchBucket, here, Bool.false_eq_true, if_false, compared, same, later,
        KeyedList.findIndex_cons]
      congr 1
      omega

theorem bucketEntry_isNone_of_lt {keySize : UInt64} {count index : Nat} (fits : BucketFits keySize count)
    (lt : index < count) : (ebpfHashTableBucketEntry keySize index.toUInt64).isNone = false := by
  have below : BucketFits keySize (index + 1) := fits.mono lt
  unfold BucketFits at below
  exact Option.isNone_eq_false_iff.mpr (bucketEntry_isSome (by omega))

theorem bucketEntry_last_isNone {keySize : UInt64} {count : Nat} (fits : BucketFits keySize count)
    (positive : 0 < count) : (ebpfHashTableBucketEntry keySize (count.toUInt64 - 1)).isNone = false := by
  have small : count < 2 ^ 64 := by unfold BucketFits at fits; nlinarith
  have below : count.toUInt64 - 1 = (count - 1).toUInt64 := toUInt64_sub positive small
  rw [below]
  exact bucketEntry_isNone_of_lt fits (by omega)

/-! ## Building a bucket -/

theorem bucketInsertSizes_eq {keySize : UInt64} {count : Nat} (fits : LayoutFits keySize count) :
    ∃ oldBucketSize newBucketSize, bucketInsertSizes keySize count = .ok (oldBucketSize, newBucketSize) ∧
      (oldBucketSize ≠ 0 ↔ count ≠ 0) := by
  unfold LayoutFits at fits
  have entrySize : (offsetOfKey + keySize).toNat = keySize.toNat + 16 := offsetOfKey_add_toNat (by nlinarith)
  have countToNat : count.toUInt64.toNat = count := toNat_toUInt64_of_lt (by nlinarith)
  have succToNat : (count.toUInt64 + 1).toNat = count + 1 := by
    rw [UInt64.toNat_add, countToNat]
    simp only [UInt64.toNat_one]
    exact Nat.mod_eq_of_lt (by nlinarith)
  have oldProduct : (offsetOfKey + keySize).toNat * count.toUInt64.toNat < 2 ^ 64 := by
    rw [entrySize, countToNat]
    nlinarith
  have newProduct : (offsetOfKey + keySize).toNat * (count.toUInt64 + 1).toNat < 2 ^ 64 := by
    rw [entrySize, succToNat]
    nlinarith
  have oldHeader : ((offsetOfKey + keySize) * count.toUInt64).toNat + sizeOfBucketHeader.toNat < 2 ^ 64 := by
    rw [ebpfSafeSizeTMultiply_toNat oldProduct, entrySize, countToNat]
    simp only [sizeOfBucketHeader, UInt64.reduceToNat]
    nlinarith
  have newHeader : ((offsetOfKey + keySize) * (count.toUInt64 + 1)).toNat + sizeOfBucketHeader.toNat < 2 ^ 64 := by
    rw [ebpfSafeSizeTMultiply_toNat newProduct, entrySize, succToNat]
    simp only [sizeOfBucketHeader, UInt64.reduceToNat]
    nlinarith
  have oldPositive : (offsetOfKey + keySize) * count.toUInt64 + sizeOfBucketHeader ≠ 0 := by
    intro zero
    have := congrArg UInt64.toNat zero
    rw [ebpfSafeSizeTAdd_toNat oldHeader] at this
    simp [sizeOfBucketHeader] at this
  refine ⟨if count ≠ 0 then (offsetOfKey + keySize) * count.toUInt64 + sizeOfBucketHeader else 0,
    (offsetOfKey + keySize) * (count.toUInt64 + 1) + sizeOfBucketHeader, ?_, ?_⟩
  · have entryFits : offsetOfKey.toNat + keySize.toNat < 2 ^ 64 := by simp [offsetOfKey]; nlinarith
    have succFits : count.toUInt64.toNat + (1 : UInt64).toNat < 2 ^ 64 := by
      rw [countToNat]; simp; nlinarith
    by_cases empty : count = 0
    · subst empty
      simp only [bucketInsertSizes, ebpfSafeSizeTAdd_eq_ok entryFits, ne_eq, not_true_eq_false, if_false,
        ebpfSafeSizeTAdd_eq_ok succFits, ebpfSafeSizeTMultiply_eq_ok newProduct, ebpfSafeSizeTAdd_eq_ok newHeader,
        bind, Except.bind, pure, Except.pure]
    · simp only [bucketInsertSizes, ebpfSafeSizeTAdd_eq_ok entryFits, ne_eq, empty, not_false_eq_true, if_true,
        ebpfSafeSizeTMultiply_eq_ok oldProduct, ebpfSafeSizeTAdd_eq_ok oldHeader,
        ebpfSafeSizeTAdd_eq_ok succFits, ebpfSafeSizeTMultiply_eq_ok newProduct, ebpfSafeSizeTAdd_eq_ok newHeader,
        bind, Except.bind, pure, Except.pure]
  · by_cases empty : count = 0 <;> simp [empty, oldPositive]

theorem ebpfHashTableBucketInsert_eq {table : EbpfHashTable} {oldBucket : List EbpfHashBucketEntry}
    {key data : List UInt8} {environment : HashTableEnvironment} (fits : LayoutFits table.keySize oldBucket.length) :
    ebpfHashTableBucketInsert table oldBucket key data environment =
      if table.counting ∧ table.entryCount + 1 > table.maxEntryCount then (.error .outOfSpace, table.entryCount)
      else if environment.newBucketAllocated = false then (.error .noMemory, table.entryCount)
      else if oldBucket ≠ [] ∧ environment.backupBucket = none then (.error .noMemory, table.entryCount)
      else
        (.ok (oldBucket ++
            [{ data, key := readBytes key 0 table.keySize.toNat,
               backupBucket := if oldBucket = [] then none
                 else environment.backupBucket.map fun address => EbpfHashBackupBucket.mk address oldBucket.length }]),
          if table.counting then table.entryCount + 1 else table.entryCount) := by
  obtain ⟨oldBucketSize, newBucketSize, sizes, oldNonzero⟩ := bucketInsertSizes_eq fits
  have nonempty : oldBucketSize ≠ 0 ↔ oldBucket ≠ [] := oldNonzero.trans (by simp)
  have offset : (ebpfHashTableBucketEntry table.keySize oldBucket.length.toUInt64).isNone = false :=
    Option.isNone_eq_false_iff.mpr (bucketEntry_isSome (by unfold LayoutFits at fits; omega))
  unfold ebpfHashTableBucketInsert
  rw [sizes]
  by_cases counting : table.counting
  · simp only [counting, if_true, true_and, nonempty, offset]
    simp
  · simp only [counting, if_false, false_and, nonempty, offset]
    simp

theorem bucketInsertSizes_eq_error {keySize : UInt64} {count : Nat} (fits : BucketFits keySize count)
    (full : ¬ LayoutFits keySize count) : bucketInsertSizes keySize count = .error .arithmeticOverflow := by
  unfold BucketFits at fits
  unfold LayoutFits at full
  have countSmall : count + 1 < 2 ^ 64 := by nlinarith
  have countToNat : count.toUInt64.toNat = count := toNat_toUInt64_of_lt (by omega)
  have succFits : count.toUInt64.toNat + (1 : UInt64).toNat < 2 ^ 64 := by
    rw [countToNat]
    simpa using countSmall
  have succToNat : (count.toUInt64 + 1).toNat = count + 1 := by
    rw [ebpfSafeSizeTAdd_toNat succFits, countToNat]
    rfl
  by_cases entryFits : offsetOfKey.toNat + keySize.toNat < 2 ^ 64
  · have entrySize : (offsetOfKey + keySize).toNat = keySize.toNat + 16 :=
      offsetOfKey_add_toNat (by simpa [offsetOfKey, Nat.add_comm] using entryFits)
    have oldProduct : (offsetOfKey + keySize).toNat * count.toUInt64.toNat < 2 ^ 64 := by
      rw [entrySize, countToNat]
      omega
    have oldHeader : ((offsetOfKey + keySize) * count.toUInt64).toNat + sizeOfBucketHeader.toNat < 2 ^ 64 := by
      rw [ebpfSafeSizeTMultiply_toNat oldProduct, entrySize, countToNat]
      simp only [sizeOfBucketHeader, UInt64.reduceToNat]
      omega
    by_cases newProduct : (offsetOfKey + keySize).toNat * (count.toUInt64 + 1).toNat < 2 ^ 64
    · have newHeader :
          ¬ ((offsetOfKey + keySize) * (count.toUInt64 + 1)).toNat + sizeOfBucketHeader.toNat < 2 ^ 64 := by
        rw [ebpfSafeSizeTMultiply_toNat newProduct, entrySize, succToNat]
        simpa [sizeOfBucketHeader] using full
      by_cases empty : count = 0
      · subst empty
        simp only [bucketInsertSizes, ebpfSafeSizeTAdd_eq_ok entryFits, ne_eq, not_true_eq_false, if_false,
          ebpfSafeSizeTAdd_eq_ok succFits, ebpfSafeSizeTMultiply_eq_ok newProduct,
          ebpfSafeSizeTAdd_eq_error newHeader, bind, Except.bind, pure, Except.pure]
      · simp only [bucketInsertSizes, ebpfSafeSizeTAdd_eq_ok entryFits, ne_eq, empty, not_false_eq_true, if_true,
          ebpfSafeSizeTMultiply_eq_ok oldProduct, ebpfSafeSizeTAdd_eq_ok oldHeader, ebpfSafeSizeTAdd_eq_ok succFits,
          ebpfSafeSizeTMultiply_eq_ok newProduct, ebpfSafeSizeTAdd_eq_error newHeader, bind, Except.bind, pure,
          Except.pure]
    · by_cases empty : count = 0
      · subst empty
        simp only [bucketInsertSizes, ebpfSafeSizeTAdd_eq_ok entryFits, ne_eq, not_true_eq_false, if_false,
          ebpfSafeSizeTAdd_eq_ok succFits, ebpfSafeSizeTMultiply_eq_error newProduct, bind, Except.bind, pure,
          Except.pure]
      · simp only [bucketInsertSizes, ebpfSafeSizeTAdd_eq_ok entryFits, ne_eq, empty, not_false_eq_true, if_true,
          ebpfSafeSizeTMultiply_eq_ok oldProduct, ebpfSafeSizeTAdd_eq_ok oldHeader, ebpfSafeSizeTAdd_eq_ok succFits,
          ebpfSafeSizeTMultiply_eq_error newProduct, bind, Except.bind, pure, Except.pure]
  · simp only [bucketInsertSizes, ebpfSafeSizeTAdd_eq_error entryFits, bind, Except.bind]

theorem ebpfHashTableBucketInsert_of_full {table : EbpfHashTable} {oldBucket : List EbpfHashBucketEntry}
    {key data : List UInt8} {environment : HashTableEnvironment} (fits : BucketFits table.keySize oldBucket.length)
    (full : ¬ LayoutFits table.keySize oldBucket.length) :
    ebpfHashTableBucketInsert table oldBucket key data environment =
      (.error .arithmeticOverflow, if table.counting then table.entryCount - 1 else table.entryCount) := by
  unfold ebpfHashTableBucketInsert
  rw [bucketInsertSizes_eq_error fits full]

theorem ebpfHashTableBucketUpdate_eq {table : EbpfHashTable} {oldBucket : List EbpfHashBucketEntry} {keyIndex : Nat}
    {data : List UInt8} {environment : HashTableEnvironment} (fits : BucketFits table.keySize oldBucket.length)
    (found : keyIndex < oldBucket.length) :
    ebpfHashTableBucketUpdate table oldBucket keyIndex data environment =
      if environment.newBucketAllocated = false then .error .noMemory
      else .ok (oldBucket.modify keyIndex fun entry => { entry with data }) := by
  unfold BucketFits at fits
  have entryFits : offsetOfKey.toNat + table.keySize.toNat < 2 ^ 64 := by simp [offsetOfKey]; nlinarith
  have entrySize : (offsetOfKey + table.keySize).toNat = table.keySize.toNat + 16 := offsetOfKey_add_toNat (by nlinarith)
  have countToNat : oldBucket.length.toUInt64.toNat = oldBucket.length := toNat_toUInt64_of_lt (by nlinarith)
  have product : (offsetOfKey + table.keySize).toNat * oldBucket.length.toUInt64.toNat < 2 ^ 64 := by
    rw [entrySize, countToNat]
    nlinarith
  have header : ((offsetOfKey + table.keySize) * oldBucket.length.toUInt64).toNat + sizeOfBucketHeader.toNat < 2 ^ 64 := by
    rw [ebpfSafeSizeTMultiply_toNat product, entrySize, countToNat]
    simp only [sizeOfBucketHeader, UInt64.reduceToNat]
    nlinarith
  have offset : (ebpfHashTableBucketEntry table.keySize keyIndex.toUInt64).isNone = false :=
    Option.isNone_eq_false_iff.mpr (bucketEntry_isSome (by nlinarith))
  simp only [ebpfHashTableBucketUpdate, ebpfSafeSizeTAdd_eq_ok entryFits, ebpfSafeSizeTMultiply_eq_ok product,
    ebpfSafeSizeTAdd_eq_ok header, offset, bind, Except.bind, pure, Except.pure]
  cases environment.newBucketAllocated <;> rfl

theorem ebpfHashTableBucketDeleteValidate_eq {table : EbpfHashTable} {oldBucket : List EbpfHashBucketEntry}
    (fits : BucketFits table.keySize oldBucket.length) (nonempty : oldBucket ≠ []) :
    ebpfHashTableBucketDeleteValidate table oldBucket = .success := by
  have positive : 0 < oldBucket.length := List.length_pos_iff.mpr nonempty
  unfold ebpfHashTableBucketDeleteValidate
  rw [bucketEntry_last_isNone fits positive]
  by_cases single : oldBucket.length = 1
  · simp [single]
  · -- the backup bucket of the last entry holds one entry fewer
    have small : oldBucket.length < 2 ^ 64 := by unfold BucketFits at fits; nlinarith
    have twoBelow : oldBucket.length.toUInt64 - 2 = (oldBucket.length - 2).toUInt64 :=
      toUInt64_sub (show 2 ≤ oldBucket.length by omega) small
    rw [twoBelow, bucketEntry_isNone_of_lt fits (by omega)]
    simp [single]

section DeleteLoops

variable {keySize : UInt64} {keyIndex : Nat}

theorem compactEntries_foldlM_past :
    ∀ (bucket copied : List EbpfHashBucketEntry) (start : Nat), keyIndex < start → copied.length ≤ start →
      (∀ index < start + bucket.length, (ebpfHashTableBucketEntry keySize index.toUInt64).isNone = false) →
        (bucket.zipIdx start).foldlM (compactEntry keySize keyIndex) copied = .ok (copied ++ bucket)
  | [], copied, start, _, _, _ => by simp [pure, Except.pure]
  | entry :: rest, copied, start, after, shorter, offsets => by
    have here := offsets start (by simp)
    have copiedOffset := offsets copied.length (by simp; omega)
    have step : compactEntry keySize keyIndex copied (entry, start) = .ok (copied ++ [entry]) := by
      simp [compactEntry, Nat.ne_of_gt after, here, copiedOffset, pure, Except.pure]
    rw [List.zipIdx_cons, List.foldlM_cons, step]
    have later := compactEntries_foldlM_past rest (copied ++ [entry]) (start + 1) (by omega)
      (by simp; omega) fun index bound => offsets index (by simp; omega)
    simpa [bind, Except.bind] using later

theorem compactEntries_foldlM :
    ∀ (bucket copied : List EbpfHashBucketEntry) (start : Nat), start ≤ keyIndex → copied.length ≤ start →
      (∀ index < start + bucket.length, (ebpfHashTableBucketEntry keySize index.toUInt64).isNone = false) →
        (bucket.zipIdx start).foldlM (compactEntry keySize keyIndex) copied =
          .ok (copied ++ bucket.eraseIdx (keyIndex - start))
  | [], copied, start, _, _, _ => by simp [pure, Except.pure]
  | entry :: rest, copied, start, before, shorter, offsets => by
    rw [List.zipIdx_cons, List.foldlM_cons]
    by_cases deleted : start = keyIndex
    · -- the deleted entry is skipped and the rest is copied
      subst deleted
      have step : compactEntry keySize start copied (entry, start) = .ok copied := by
        simp [compactEntry, pure, Except.pure]
      rw [step]
      have later := @compactEntries_foldlM_past keySize start rest copied (start + 1) (by omega) (by omega)
        fun index bound => offsets index (by simp; omega)
      simpa [bind, Except.bind] using later
    · have here := offsets start (by simp)
      have copiedOffset := offsets copied.length (by simp; omega)
      have step : compactEntry keySize keyIndex copied (entry, start) = .ok (copied ++ [entry]) := by
        simp [compactEntry, deleted, here, copiedOffset, pure, Except.pure]
      rw [step]
      have later := compactEntries_foldlM rest (copied ++ [entry]) (start + 1) (by omega)
        (by simp; omega) fun index bound => offsets index (by simp; omega)
      have shift : keyIndex - start = keyIndex - (start + 1) + 1 := by omega
      simpa [bind, Except.bind, shift, List.eraseIdx_cons_succ] using later

theorem inheritBackupBuckets_foldlM :
    ∀ (olds done todo : List EbpfHashBucketEntry), todo.length = olds.length →
      (∀ index < done.length + olds.length, (ebpfHashTableBucketEntry keySize index.toUInt64).isNone = false) →
        (olds.zipIdx done.length).foldlM (inheritBackupBucket keySize) (done ++ todo) =
          .ok (done ++ List.zipWith inheritBackup todo olds)
  | [], done, todo, length, _ => by
    simp [List.length_eq_zero_iff.mp length, pure, Except.pure]
  | old :: olds, done, [], length, _ => by simp at length
  | old :: olds, done, entry :: todo, length, offsets => by
    have here := offsets done.length (by simp)
    have step : inheritBackupBucket keySize (done ++ entry :: todo) (old, done.length) =
        .ok ((done ++ [inheritBackup entry old]) ++ todo) := by
      have modified : ((done ++ entry :: todo).modify done.length fun entry => inheritBackup entry old) =
          done ++ inheritBackup entry old :: todo := by
        rw [List.modify_eq_take_cons_drop (by simp)]
        simp
      simp [inheritBackupBucket, here, modified, pure, Except.pure]
    rw [List.zipIdx_cons, List.foldlM_cons, step]
    have later := inheritBackupBuckets_foldlM olds (done ++ [inheritBackup entry old]) todo (by simpa using length)
      fun index bound => offsets index (by simp at bound ⊢; omega)
    simp only [List.length_append, List.length_singleton] at later
    simpa [bind, Except.bind] using later

end DeleteLoops

theorem ebpfHashTableBucketDelete_eq {table : EbpfHashTable} {oldBucket : List EbpfHashBucketEntry} {keyIndex : Nat}
    (fits : BucketFits table.keySize oldBucket.length) (found : keyIndex < oldBucket.length) :
    ebpfHashTableBucketDelete table oldBucket keyIndex =
      (.ok (List.zipWith inheritBackup (oldBucket.eraseIdx keyIndex) oldBucket.dropLast),
        if table.counting then table.entryCount - 1 else table.entryCount) := by
  have offsets : ∀ index < oldBucket.length, (ebpfHashTableBucketEntry table.keySize index.toUInt64).isNone = false :=
    fun index bound => bucketEntry_isNone_of_lt fits bound
  have outcome : (if (ebpfHashTableBucketEntry table.keySize (oldBucket.length.toUInt64 - 1)).isNone then
        throw .arithmeticOverflow
      else if oldBucket.length = 1 then pure []
      else do
        let copied ← compactEntries table.keySize oldBucket keyIndex
        inheritBackupBuckets table.keySize oldBucket copied : Except EbpfResult (List EbpfHashBucketEntry)) =
      .ok (List.zipWith inheritBackup (oldBucket.eraseIdx keyIndex) oldBucket.dropLast) := by
    rw [bucketEntry_last_isNone fits (by omega)]
    by_cases single : oldBucket.length = 1
    · -- the only entry is the deleted one
      obtain ⟨entry, rfl⟩ := List.length_eq_one_iff.mp single
      have first : keyIndex = 0 := by simp at found; omega
      simp [single, first, pure, Except.pure]
    · have copied : compactEntries table.keySize oldBucket keyIndex = .ok (oldBucket.eraseIdx keyIndex) := by
        have loop := @compactEntries_foldlM table.keySize keyIndex oldBucket [] 0 (Nat.zero_le _) (le_refl _)
          fun index bound => offsets index (by omega)
        simpa [compactEntries] using loop
      have inherited : inheritBackupBuckets table.keySize oldBucket (oldBucket.eraseIdx keyIndex) =
          .ok (List.zipWith inheritBackup (oldBucket.eraseIdx keyIndex) oldBucket.dropLast) := by
        have loop := inheritBackupBuckets_foldlM oldBucket.dropLast [] (oldBucket.eraseIdx keyIndex)
          (by simp [List.length_eraseIdx_of_lt found])
          fun index bound => offsets index (by simp at bound; omega)
        simpa [inheritBackupBuckets] using loop
      simp [single, copied, inherited, bind, Except.bind]
  unfold ebpfHashTableBucketDelete
  rw [outcome]


end EbpfWindows.Runtime
