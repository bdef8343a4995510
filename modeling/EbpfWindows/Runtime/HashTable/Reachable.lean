import EbpfWindows.Runtime.HashTable.Refinement

/-! The buckets of every reachable table.

The refinement of `Refinement` follows the count, which a counted table can lose: an
insert refused for want of room still takes one off it. The buckets do not read the
count. An operation on a counted table publishes the bucket the same operation on the
table without a limit publishes, or it fails and publishes nothing. So the buckets of
every table reachable from a created one, by a run of any length, hold a map as those of
a table without a limit do, and they keep fitting in `size_t`.

Each bucket of such a table has its keys in the bucket they hash to, no two comparing
equal, and at position `i` a backup bucket with room for `i` entries. Its delete passes
validation and builds the compacted bucket, so a delete that finds its key fails only
by its `PRE_FREE` notification.
-/

set_option autoImplicit false

namespace EbpfWindows.Runtime

namespace EbpfHashTable

/-- The table with the same buckets and no limit, which counts nothing. -/
def uncounted (table : EbpfHashTable) : EbpfHashTable :=
  { table with maxEntryCount := ebpfHashTableNoLimit }

/-- The buckets hold a map, as those of the table without a limit would, and fit in
`size_t`. -/
def BucketsHold (table : EbpfHashTable) : Prop :=
  (∃ contents, Represents table.uncounted contents) ∧ table.BucketsFit

theorem not_counting_uncounted (table : EbpfHashTable) : ¬ table.uncounted.counting := by
  simp [counting, uncounted]

-- dropping the limit changes nothing the buckets are built from
@[simp] theorem computeBucketIndex_uncounted (table : EbpfHashTable) :
    ebpfHashTableComputeBucketIndex table.uncounted = ebpfHashTableComputeBucketIndex table := rfl

@[simp] theorem entryView_uncounted (table : EbpfHashTable) : table.uncounted.entryView = table.entryView := rfl

@[simp] theorem keyView_uncounted (table : EbpfHashTable) : keyView table.uncounted = keyView table := rfl

@[simp] theorem newData_uncounted (table : EbpfHashTable) : newData table.uncounted = newData table := rfl

@[simp] theorem buckets_uncounted (table : EbpfHashTable) : table.uncounted.buckets = table.buckets := rfl

@[simp] theorem keySize_uncounted (table : EbpfHashTable) : table.uncounted.keySize = table.keySize := rfl

@[simp] theorem notifies_uncounted (table : EbpfHashTable) (type : UInt32) :
    table.uncounted.notifies type ↔ table.notifies type := Iff.rfl

@[simp] theorem entryCount_uncounted (table : EbpfHashTable) : table.uncounted.entryCount = table.entryCount := rfl

@[simp] theorem ebpfHashTableBucketUpdate_uncounted (table : EbpfHashTable) :
    ebpfHashTableBucketUpdate table.uncounted = ebpfHashTableBucketUpdate table := rfl

@[simp] theorem ebpfHashTableBucketDeleteValidate_uncounted (table : EbpfHashTable) :
    ebpfHashTableBucketDeleteValidate table.uncounted = ebpfHashTableBucketDeleteValidate table := rfl

theorem ebpfHashTableBucketDelete_fst (table : EbpfHashTable) (oldBucket : List EbpfHashBucketEntry)
    (keyIndex : Nat) :
    (ebpfHashTableBucketDelete table oldBucket keyIndex).1 =
      if (ebpfHashTableBucketEntry table.keySize (oldBucket.length.toUInt64 - 1)).isNone then
        throw .arithmeticOverflow
      else if oldBucket.length = 1 then pure []
      else compactEntries table.keySize oldBucket keyIndex >>= inheritBackupBuckets table.keySize oldBucket := by
  unfold ebpfHashTableBucketDelete
  dsimp only
  split
  · next built => exact built.symm
  · next failed => exact failed.symm

@[simp] theorem ebpfHashTableBucketDelete_uncounted (table : EbpfHashTable) (oldBucket : List EbpfHashBucketEntry)
    (keyIndex : Nat) :
    (ebpfHashTableBucketDelete table.uncounted oldBucket keyIndex).1 =
      (ebpfHashTableBucketDelete table oldBucket keyIndex).1 := by
  rw [ebpfHashTableBucketDelete_fst, ebpfHashTableBucketDelete_fst]
  rfl

theorem BucketsFit.uncounted {table : EbpfHashTable} (fits : table.BucketsFit) : table.uncounted.BucketsFit :=
  fits

theorem publish_buckets (table : EbpfHashTable) (index : Nat)
    (outcome : Except EbpfResult (List EbpfHashBucketEntry) × UInt64) :
    (table.publish index outcome).2.buckets =
      match outcome.1 with
      | .ok newBucket => Function.update table.buckets index newBucket
      | .error _ => table.buckets := by
  rcases outcome with ⟨result | newBucket, entryCount⟩ <;> rfl

end EbpfHashTable

open EbpfHashTable

theorem Represents.withEntryCount {table : EbpfHashTable} {contents : BoundedMap}
    (represents : Represents table contents) (uncounted : ¬ table.counting) (entryCount : UInt64) :
    Represents { table with entryCount } contents :=
  ⟨represents.placed, represents.unique, represents.stored, fun counting => absurd counting uncounted,
    fun counting => absurd counting uncounted, represents.backups⟩

/-! ## A counted table builds the buckets of the table without a limit -/

theorem ebpfHashTableBucketInsert_uncounted (table : EbpfHashTable) (oldBucket : List EbpfHashBucketEntry)
    (key data : List UInt8) (environment : HashTableEnvironment) :
    (∃ result, (ebpfHashTableBucketInsert table oldBucket key data environment).1 = .error result) ∨
      (ebpfHashTableBucketInsert table oldBucket key data environment).1 =
        (ebpfHashTableBucketInsert table.uncounted oldBucket key data environment).1 := by
  unfold ebpfHashTableBucketInsert
  simp only [keySize_uncounted]
  cases bucketInsertSizes table.keySize oldBucket.length with
  | error result => exact Or.inl ⟨result, rfl⟩
  | ok sizes =>
    have uncounted := not_counting_uncounted table
    dsimp only
    split_ifs <;> first | exact Or.inl ⟨_, rfl⟩ | exact Or.inr rfl | simp_all

theorem replaceBucketOutcome_uncounted (table : EbpfHashTable) (key : List UInt8)
    (operation : EbpfHashBucketOperation) (environment : HashTableEnvironment)
    (oldBucket : List EbpfHashBucketEntry) (index : Nat) (data : List UInt8) :
    (∃ result, (replaceBucketOutcome table key operation environment oldBucket index data).1 = .error result) ∨
      (replaceBucketOutcome table key operation environment oldBucket index data).1 =
        (replaceBucketOutcome table.uncounted key operation environment oldBucket index data).1 := by
  cases operation with
  | insertOrUpdate =>
    dsimp only [replaceBucketOutcome]
    split_ifs
    · exact Or.inr rfl
    · exact ebpfHashTableBucketInsert_uncounted table oldBucket key data environment
  | insert =>
    dsimp only [replaceBucketOutcome]
    split_ifs
    · exact Or.inl ⟨_, rfl⟩
    · exact ebpfHashTableBucketInsert_uncounted table oldBucket key data environment
  | update =>
    right
    dsimp only [replaceBucketOutcome]
    simp only [ebpfHashTableBucketUpdate_uncounted, entryCount_uncounted]
  | delete =>
    right
    dsimp only [replaceBucketOutcome]
    simp only [ebpfHashTableBucketDeleteValidate_uncounted, notifies_uncounted, entryCount_uncounted]
    split_ifs
    · rfl
    · split <;> rfl
    · split
      · exact (ebpfHashTableBucketDelete_uncounted table oldBucket index).symm
      · rfl

theorem HashTableOperation.apply_uncounted {table : EbpfHashTable} (fits : table.BucketsFit)
    (operation : HashTableOperation) :
    (operation.apply table).2.buckets = table.buckets ∨
      (operation.apply table).2.buckets = (operation.apply table.uncounted).2.buckets := by
  have replaced : ∀ key value bucketOperation environment,
      (ebpfHashTableReplaceBucket table key value bucketOperation environment).2.buckets = table.buckets ∨
        (ebpfHashTableReplaceBucket table key value bucketOperation environment).2.buckets =
          (ebpfHashTableReplaceBucket table.uncounted key value bucketOperation environment).2.buckets := by
    intro key value bucketOperation environment
    rw [fits.ebpfHashTableReplaceBucket_eq, fits.uncounted.ebpfHashTableReplaceBucket_eq]
    simp only [notifies_uncounted, computeBucketIndex_uncounted, buckets_uncounted, entryView_uncounted,
      keyView_uncounted, newData_uncounted]
    split_ifs
    · exact Or.inl rfl
    · exact Or.inl rfl
    · rw [publish_buckets, publish_buckets, buckets_uncounted]
      rcases replaceBucketOutcome_uncounted table key bucketOperation environment
          (table.buckets (ebpfHashTableComputeBucketIndex table key))
          (KeyedList.findIndex table.entryView (table.buckets (ebpfHashTableComputeBucketIndex table key))
            (keyView table key)) (newData table value) with ⟨result, failed⟩ | same
      · exact Or.inl (by rw [failed])
      · exact Or.inr (by rw [same])
  cases operation with
  | update key value operation environment => exact replaced key value _ environment
  | delete key environment => exact replaced key none .delete environment
  | find key => exact Or.inl rfl

/-! ## Every run -/

theorem EbpfHashTable.BucketsHold.apply {table : EbpfHashTable} (holds : table.BucketsHold)
    (operation : HashTableOperation) (stored : table.StoresKey operation.key) :
    (operation.apply table).2.BucketsHold := by
  obtain ⟨⟨contents, represents⟩, fits⟩ := holds
  obtain ⟨next, -, nextRepresents, nextFits, -⟩ := represents.apply_step fits.uncounted
    (fun counting => absurd counting (not_counting_uncounted table)) operation stored
  obtain ⟨entryCount, buckets, shape⟩ := HashTableOperation.apply_withBuckets table operation
  obtain ⟨otherCount, otherBuckets, otherShape⟩ := HashTableOperation.apply_withBuckets table.uncounted operation
  rcases HashTableOperation.apply_uncounted fits operation with unchanged | same
  · -- nothing was published: the old map, with the old buckets
    rw [shape] at unchanged ⊢
    subst unchanged
    exact ⟨⟨contents, represents.withEntryCount (not_counting_uncounted table) entryCount⟩, fits⟩
  · -- the buckets the table without a limit published, under its map
    rw [shape, otherShape] at same
    rw [otherShape] at nextRepresents nextFits
    rw [shape]
    subst same
    exact ⟨⟨next, nextRepresents.withEntryCount (not_counting_uncounted table) entryCount⟩, nextFits⟩

theorem HashTableOperation.storesKey_apply {table : EbpfHashTable} (operation : HashTableOperation)
    {key : List UInt8} (stored : table.StoresKey key) : (operation.apply table).2.StoresKey key := by
  obtain ⟨entryCount, buckets, shape⟩ := HashTableOperation.apply_withBuckets table operation
  rw [shape]
  exact stored

theorem EbpfHashTable.BucketsHold.run {table : EbpfHashTable} (holds : table.BucketsHold)
    (operations : List HashTableOperation) (stored : ∀ operation ∈ operations, table.StoresKey operation.key) :
    (Simulation.run HashTableOperation.apply table operations).2.BucketsHold := by
  induction operations generalizing table with
  | nil => exact holds
  | cons operation rest ih =>
    rw [Simulation.run_cons]
    exact ih (holds.apply operation (stored operation (List.mem_cons_self ..)))
      fun later member => operation.storesKey_apply (stored later (List.mem_cons_of_mem _ member))

theorem bucketsHold_of_created {options : EbpfHashTableCreationOptions} {seed : UInt32} {supportsSse42 : Bool}
    {table : EbpfHashTable} (created : ebpfHashTableCreate options true seed supportsSse42 = .ok table) :
    table.BucketsHold := by
  obtain ⟨empty, zero, -, -, -⟩ := ebpfHashTableCreate_eq_ok created
  exact ⟨⟨∅, Represents.empty empty zero⟩, fun index => by simp [BucketFits, empty index]⟩

/-! ## What a bucket of a reachable table looks like -/

namespace EbpfHashTable.BucketsHold

variable {table : EbpfHashTable}

theorem placed (holds : table.BucketsHold) (index : Nat) :
    ∀ entry ∈ table.buckets index, ebpfHashTableComputeBucketIndex table entry.key = index := by
  obtain ⟨⟨contents, represents⟩, -⟩ := holds
  exact represents.placed index

theorem pairwise_compare (holds : table.BucketsHold) (index : Nat) :
    (table.buckets index).Pairwise fun first second => ebpfHashTableCompare table first.key second.key ≠ 0 := by
  obtain ⟨⟨contents, represents⟩, -⟩ := holds
  have distinct := List.pairwise_map.mp (represents.unique index)
  refine distinct.imp fun different same => different ?_
  exact (compare_eq_zero_iff table _ _).mp same

theorem backupCount_getElem (holds : table.BucketsHold) (index position : Nat)
    (inside : position < (table.buckets index).length) :
    (table.buckets index)[position].backupCount = if position = 0 then none else some position := by
  obtain ⟨⟨contents, represents⟩, -⟩ := holds
  have layout := congrArg (·[position]?) (represents.backups index)
  simpa [backupLayout, inside] using layout

theorem bucketDelete_ok (holds : table.BucketsHold) {index : Nat} (nonempty : table.buckets index ≠ []) :
    ebpfHashTableBucketDeleteValidate table (table.buckets index) = .success ∧
      ∀ keyIndex < (table.buckets index).length,
        (ebpfHashTableBucketDelete table (table.buckets index) keyIndex).1 =
          .ok (List.zipWith inheritBackup ((table.buckets index).eraseIdx keyIndex) (table.buckets index).dropLast) :=
  ⟨ebpfHashTableBucketDeleteValidate_eq (holds.2 index) nonempty,
    fun _ found => by rw [ebpfHashTableBucketDelete_eq (holds.2 index) found]⟩

theorem ebpfHashTableDelete_result (holds : table.BucketsHold) (key : List UInt8)
    (environment : HashTableEnvironment) :
    (ebpfHashTableDelete table key environment).1 = .success ∨
      (ebpfHashTableDelete table key environment).1 = .keyNotFound ∨
      table.notifies notificationTypePreFree ∧ environment.preFreeNotification ≠ .success ∧
        (ebpfHashTableDelete table key environment).1 = environment.preFreeNotification := by
  unfold ebpfHashTableDelete
  rw [holds.2.ebpfHashTableReplaceBucket_eq]
  simp only [ne_eq, not_true_eq_false, false_and, if_false]
  unfold replaceBucketOutcome
  dsimp only
  split_ifs with absent preFreeFailed
  · exact Or.inr (Or.inl rfl)
  · -- the key was found, so its bucket is not empty and validates
    have nonempty : table.buckets (ebpfHashTableComputeBucketIndex table key) ≠ [] := by
      intro empty
      simp [empty] at absent
    rw [(holds.bucketDelete_ok nonempty).1]
    exact Or.inr (Or.inr ⟨preFreeFailed.1, preFreeFailed.2, rfl⟩)
  · have nonempty : table.buckets (ebpfHashTableComputeBucketIndex table key) ≠ [] := by
      intro empty
      simp [empty] at absent
    have found : KeyedList.findIndex table.entryView (table.buckets (ebpfHashTableComputeBucketIndex table key))
        (keyView table key) < (table.buckets (ebpfHashTableComputeBucketIndex table key)).length :=
      lt_of_le_of_ne List.findIdx_le_length (by simpa using absent)
    rw [(holds.bucketDelete_ok nonempty).1]
    dsimp only
    rw [ebpfHashTableBucketDelete_eq (holds.2 _) found]
    exact Or.inl rfl

end EbpfHashTable.BucketsHold

end EbpfWindows.Runtime
