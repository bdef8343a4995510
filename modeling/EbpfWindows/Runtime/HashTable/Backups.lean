import EbpfWindows.Runtime.HashTable.Reachable
import EbpfWindows.Runtime.HashTable.Entries

/-! No two entries of a table point to one backup bucket.

An insert points its new entry at the backup bucket it allocated, an update copies the entries
with their backup buckets, and a delete builds its bucket in the last entry's backup bucket and
hands the others down by position. So the backup buckets of a bucket an operation publishes are
some of the old bucket's and the one allocated, and while the allocator returns memory that no
entry points to, no two entries of the table, in one bucket or in two, point to one backup bucket.
-/

set_option autoImplicit false

namespace EbpfWindows.Runtime

open EbpfHashTable

/-- The addresses of the backup buckets of a bucket's entries. -/
def bucketBackups (bucket : List EbpfHashBucketEntry) : List UInt64 :=
  bucket.filterMap EbpfHashBucketEntry.backupAddress

/-- The addresses of the backup buckets of a table's entries, in bucket order. -/
def EbpfHashTable.backupAddresses (table : EbpfHashTable) : List UInt64 :=
  table.entries.filterMap EbpfHashBucketEntry.backupAddress

/-- The address the allocation of a backup bucket returns in an operation that may make one:
an update, which inserts a new key. -/
def HashTableOperation.allocatedBackup : HashTableOperation → Option UInt64
  | .update _ _ _ environment => environment.backupBucket
  | _ => none

/-- Every backup bucket a run may allocate is at an address no entry's backup bucket has at that
call: the allocator returns memory not in use. -/
def FreshBackupBuckets : EbpfHashTable → List HashTableOperation → Prop
  | _, [] => True
  | table, operation :: operations =>
    (∀ address ∈ operation.allocatedBackup, address ∉ table.backupAddresses) ∧
      FreshBackupBuckets (operation.apply table).2 operations

instance decidableFreshBackupBuckets :
    (table : EbpfHashTable) → (operations : List HashTableOperation) → Decidable (FreshBackupBuckets table operations)
  | _, [] => inferInstanceAs (Decidable True)
  | table, operation :: operations =>
    -- the membership test on the option, not a search of all of `UInt64`
    @instDecidableAnd _ _
      (@Option.decidableForallMem _ (fun address => address ∉ table.backupAddresses) _ operation.allocatedBackup)
      (decidableFreshBackupBuckets (operation.apply table).2 operations)

/-- No two entries point to one backup bucket, in one bucket or in two. -/
structure BackupsDistinct (buckets : Nat → List EbpfHashBucketEntry) : Prop where
  nodup : ∀ index, (bucketBackups (buckets index)).Nodup
  disjoint : ∀ first second, first ≠ second → (bucketBackups (buckets first)).Disjoint (bucketBackups (buckets second))

@[simp] theorem bucketBackups_append (first second : List EbpfHashBucketEntry) :
    bucketBackups (first ++ second) = bucketBackups first ++ bucketBackups second :=
  List.filterMap_append

theorem bucketBackups_of_backups {first second : List EbpfHashBucketEntry}
    (same : first.map EbpfHashBucketEntry.backupBucket = second.map EbpfHashBucketEntry.backupBucket) :
    bucketBackups first = bucketBackups second := by
  have addresses := congrArg (List.filterMap (Option.map EbpfHashBackupBucket.address)) same
  rw [List.filterMap_map, List.filterMap_map] at addresses
  exact addresses

/-! ## The bucket an operation builds -/

theorem bucketBackups_insert {table : EbpfHashTable} {oldBucket newBucket : List EbpfHashBucketEntry}
    {key data : List UInt8} {environment : HashTableEnvironment} {entryCount : UInt64}
    (built : ebpfHashTableBucketInsert table oldBucket key data environment = (.ok newBucket, entryCount)) :
    (bucketBackups newBucket).Sublist (bucketBackups oldBucket ++ environment.backupBucket.toList) := by
  obtain ⟨backupBucket, allocated, rfl⟩ := ebpfHashTableBucketInsert_ok built
  rw [bucketBackups_append]
  refine List.Sublist.append_left ?_ _
  cases backupBucket with
  | none => exact List.nil_sublist _
  | some backup => simp [bucketBackups, EbpfHashBucketEntry.backupAddress, allocated backup rfl]

theorem bucketBackups_update {table : EbpfHashTable} {oldBucket newBucket : List EbpfHashBucketEntry}
    {keyIndex : Nat} {data : List UInt8} {environment : HashTableEnvironment}
    (fits : BucketFits table.keySize oldBucket.length) (found : keyIndex < oldBucket.length)
    (built : ebpfHashTableBucketUpdate table oldBucket keyIndex data environment = .ok newBucket) :
    bucketBackups newBucket = bucketBackups oldBucket := by
  rw [ebpfHashTableBucketUpdate_eq fits found] at built
  split_ifs at built
  obtain rfl := Except.ok.inj built
  apply bucketBackups_of_backups
  apply KeyedList.map_modify
  intro _
  rfl

theorem bucketBackups_delete {table : EbpfHashTable} {oldBucket newBucket : List EbpfHashBucketEntry}
    {keyIndex : Nat} {entryCount : UInt64} (fits : BucketFits table.keySize oldBucket.length)
    (found : keyIndex < oldBucket.length)
    (built : ebpfHashTableBucketDelete table oldBucket keyIndex = (.ok newBucket, entryCount)) :
    (bucketBackups newBucket).Sublist (bucketBackups oldBucket) := by
  rw [ebpfHashTableBucketDelete_eq fits found] at built
  obtain rfl := Except.ok.inj (Prod.mk.inj built).1
  have lengths : (oldBucket.eraseIdx keyIndex).length = oldBucket.dropLast.length := by
    rw [List.length_eraseIdx_of_lt found, List.length_dropLast]
  rw [bucketBackups_of_backups (backups_zipWith_inheritBackup lengths)]
  exact (List.dropLast_sublist oldBucket).filterMap _

theorem bucketBackups_replaceBucketOutcome {table : EbpfHashTable} {key : List UInt8}
    {operation : EbpfHashBucketOperation} {environment : HashTableEnvironment}
    {oldBucket newBucket : List EbpfHashBucketEntry} {index : Nat} {data : List UInt8} {entryCount : UInt64}
    (fits : BucketFits table.keySize oldBucket.length) (within : index ≤ oldBucket.length)
    (built : replaceBucketOutcome table key operation environment oldBucket index data = (.ok newBucket, entryCount)) :
    (bucketBackups newBucket).Sublist
      (bucketBackups oldBucket ++ if operation = .delete then [] else environment.backupBucket.toList) := by
  unfold replaceBucketOutcome at built
  cases operation
  case delete =>
    rw [if_pos rfl, List.append_nil]
    dsimp only at built
    split_ifs at built with absent preFreeFailed
    · cases built
    · split at built <;> cases built
    · have found : index < oldBucket.length := by simp at absent; omega
      split at built
      · exact bucketBackups_delete fits found built
      · cases built
  all_goals
    rw [if_neg (by decide)]
    dsimp only at built
    split_ifs at built with found
    all_goals first
      | cases built
      | exact bucketBackups_insert built
      | exact (bucketBackups_update fits (by omega) (Prod.mk.inj built).1).symm ▸
          List.sublist_append_left _ _

theorem EbpfHashTable.BucketsFit.backups_apply {table : EbpfHashTable} (fits : table.BucketsFit)
    (operation : HashTableOperation) :
    (operation.apply table).2.buckets = table.buckets ∨
      ∃ index newBucket, (operation.apply table).2.buckets = Function.update table.buckets index newBucket ∧
        (bucketBackups newBucket).Sublist (bucketBackups (table.buckets index) ++ operation.allocatedBackup.toList) := by
  have replaced : ∀ key value bucketOperation environment,
      (ebpfHashTableReplaceBucket table key value bucketOperation environment).2.buckets = table.buckets ∨
        ∃ index newBucket, (ebpfHashTableReplaceBucket table key value bucketOperation environment).2.buckets =
            Function.update table.buckets index newBucket ∧
          (bucketBackups newBucket).Sublist (bucketBackups (table.buckets index) ++
            if bucketOperation = .delete then [] else environment.backupBucket.toList) := by
    intro key value bucketOperation environment
    rw [fits.ebpfHashTableReplaceBucket_eq]
    by_cases noData : bucketOperation ≠ .delete ∧ !environment.newDataAllocated
    · rw [if_pos noData]
      exact Or.inl rfl
    rw [if_neg noData]
    by_cases refused : bucketOperation ≠ .delete ∧ table.notifies notificationTypeAllocate ∧
        environment.allocateNotification ≠ .success
    · rw [if_pos refused]
      exact Or.inl rfl
    rw [if_neg refused, publish_buckets]
    generalize built : replaceBucketOutcome table key bucketOperation environment _ _ _ = outcome
    rcases outcome with ⟨result | newBucket, entryCount⟩
    · exact Or.inl rfl
    · exact Or.inr ⟨_, newBucket, rfl, bucketBackups_replaceBucketOutcome (fits _) List.findIdx_le_length built⟩
  cases operation with
  | update key value operation environment =>
    cases operation
    all_goals
      rcases replaced key value _ environment with same | ⟨index, newBucket, published, kept⟩
      · exact Or.inl same
      · exact Or.inr ⟨index, newBucket, published, by simpa [HashTableOperation.allocatedBackup] using kept⟩
  | delete key environment =>
    rcases replaced key none .delete environment with same | ⟨index, newBucket, published, kept⟩
    · exact Or.inl same
    · exact Or.inr ⟨index, newBucket, published, by simpa [HashTableOperation.allocatedBackup] using kept⟩
  | find key => exact Or.inl rfl

/-! ## Distinct backup buckets over every run -/

namespace BackupsDistinct

variable {buckets : Nat → List EbpfHashBucketEntry}

theorem of_empty (empty : ∀ index, buckets index = []) : BackupsDistinct buckets where
  nodup index := by simp [empty, bucketBackups]
  disjoint first second _ := by simp [empty, bucketBackups]

theorem update (distinct : BackupsDistinct buckets) {index : Nat} {newBucket : List EbpfHashBucketEntry}
    {allocated : Option UInt64} (fresh : ∀ address ∈ allocated, ∀ other, address ∉ bucketBackups (buckets other))
    (kept : (bucketBackups newBucket).Sublist (bucketBackups (buckets index) ++ allocated.toList)) :
    BackupsDistinct (Function.update buckets index newBucket) := by
  have source : ∀ address ∈ bucketBackups newBucket,
      address ∈ bucketBackups (buckets index) ∨ address ∈ allocated := by
    intro address member
    rcases List.mem_append.mp (kept.subset member) with old | new
    · exact Or.inl old
    · exact Or.inr (Option.mem_toList.mp new)
  have againstOther : ∀ other, other ≠ index →
      (bucketBackups newBucket).Disjoint (bucketBackups (buckets other)) := by
    intro other away address inNew inOther
    rcases source address inNew with old | new
    · exact distinct.disjoint index other (Ne.symm away) old inOther
    · exact fresh address new other inOther
  constructor
  · intro other
    by_cases here : other = index
    · subst here
      rw [Function.update_self]
      refine kept.nodup (List.nodup_append.mpr ⟨distinct.nodup other, ?_, ?_⟩)
      · cases allocated <;> simp
      · intro old oldMember new newMember same
        subst same
        exact fresh old (Option.mem_toList.mp newMember) other oldMember
    · rw [Function.update_of_ne here]
      exact distinct.nodup other
  · intro first second different
    by_cases firstHere : first = index
    · subst firstHere
      rw [Function.update_self, Function.update_of_ne (Ne.symm different)]
      exact againstOther second (Ne.symm different)
    · by_cases secondHere : second = index
      · subst secondHere
        rw [Function.update_self, Function.update_of_ne firstHere]
        exact (againstOther first firstHere).symm
      · rw [Function.update_of_ne firstHere, Function.update_of_ne secondHere]
        exact distinct.disjoint first second different

theorem backupAddresses_nodup {table : EbpfHashTable} (distinct : BackupsDistinct table.buckets) :
    table.backupAddresses.Nodup := by
  rw [EbpfHashTable.backupAddresses, entries, entriesFrom, List.filterMap_flatMap, List.nodup_flatMap]
  exact ⟨fun index _ => distinct.nodup index,
    (@List.nodup_range' 0 table.bucketCount.toNat 1 Nat.one_pos).imp fun different => distinct.disjoint _ _ different⟩

end BackupsDistinct

theorem EbpfHashTable.BucketsHold.not_mem_bucketBackups {table : EbpfHashTable} (holds : table.BucketsHold)
    {address : UInt64} (fresh : address ∉ table.backupAddresses) (index : Nat) :
    address ∉ bucketBackups (table.buckets index) := by
  intro member
  obtain ⟨entry, inBucket, pointed⟩ := List.mem_filterMap.mp member
  have inRange : index < table.bucketCount.toNat :=
    holds.placed index entry inBucket ▸ computeBucketIndex_lt table entry.key
  exact fresh (List.mem_filterMap.mpr ⟨entry, mem_entriesFrom.mpr ⟨index, Nat.zero_le _, by omega, inBucket⟩, pointed⟩)

theorem BackupsDistinct.apply {table : EbpfHashTable} (holds : table.BucketsHold)
    (distinct : BackupsDistinct table.buckets) {operation : HashTableOperation}
    (fresh : ∀ address ∈ operation.allocatedBackup, address ∉ table.backupAddresses) :
    BackupsDistinct (operation.apply table).2.buckets := by
  rcases holds.2.backups_apply operation with same | ⟨index, newBucket, published, kept⟩
  · rw [same]
    exact distinct
  · rw [published]
    exact distinct.update (fun address allocated other => holds.not_mem_bucketBackups (fresh address allocated) other)
      kept

theorem BackupsDistinct.run : ∀ (operations : List HashTableOperation) {table : EbpfHashTable},
    table.BucketsHold → (∀ operation ∈ operations, table.StoresKey operation.key) →
      BackupsDistinct table.buckets → FreshBackupBuckets table operations →
        BackupsDistinct (Simulation.run HashTableOperation.apply table operations).2.buckets
  | [], _, _, _, distinct, _ => distinct
  | operation :: operations, _, holds, stored, distinct, ⟨fresh, later⟩ =>
    BackupsDistinct.run operations (holds.apply operation (stored operation List.mem_cons_self))
      (fun other member => HashTableOperation.storesKey_apply operation (stored other (List.mem_cons_of_mem _ member)))
      (distinct.apply holds fresh) later

/-! ## Every run from a created table -/

theorem hash_table_buckets_keep_their_layout {options : EbpfHashTableCreationOptions} {seed : UInt32}
    {supportsSse42 : Bool} {table : EbpfHashTable}
    (created : ebpfHashTableCreate options true seed supportsSse42 = .ok table) (operations : List HashTableOperation)
    (sized : ∀ operation ∈ operations, operation.key.length = options.keySize.toNat) {final : EbpfHashTable}
    (reached : (Simulation.run HashTableOperation.apply table operations).2 = final) :
    (∀ index, final.buckets index ≠ [] →
      (∀ entry ∈ final.buckets index, ebpfHashTableComputeBucketIndex final entry.key = index) ∧
      (final.buckets index).Pairwise (fun first second => ebpfHashTableCompare final first.key second.key ≠ 0) ∧
      (∀ position (inside : position < (final.buckets index).length),
        (final.buckets index)[position].backupCount = if position = 0 then none else some position) ∧
      ebpfHashTableBucketDeleteValidate final (final.buckets index) = .success ∧
      ∀ keyIndex < (final.buckets index).length,
        ∃ newBucket, (ebpfHashTableBucketDelete final (final.buckets index) keyIndex).1 = .ok newBucket) ∧
    (FreshBackupBuckets table operations → final.backupAddresses.Nodup) ∧
    ∀ key environment,
      (ebpfHashTableDelete final key environment).1 = .success ∨
      (ebpfHashTableDelete final key environment).1 = .keyNotFound ∨
      final.notifies notificationTypePreFree ∧ environment.preFreeNotification ≠ .success ∧
        (ebpfHashTableDelete final key environment).1 = environment.preFreeNotification := by
  obtain ⟨-, -, sameKeySize, -, -⟩ := ebpfHashTableCreate_eq_ok created
  have stored : ∀ operation ∈ operations, table.StoresKey operation.key := fun operation member => by
    unfold EbpfHashTable.StoresKey
    rw [sameKeySize, ← sized operation member, Bytes.readBytes_length_self]
  have holds : final.BucketsHold := reached ▸ (bucketsHold_of_created created).run operations stored
  refine ⟨fun index nonempty => ⟨holds.placed index, holds.pairwise_compare index, holds.backupCount_getElem index,
    (holds.bucketDelete_ok nonempty).1, fun keyIndex found => ⟨_, (holds.bucketDelete_ok nonempty).2 keyIndex found⟩⟩,
    fun fresh => ?_, holds.ebpfHashTableDelete_result⟩
  have empty := BackupsDistinct.of_empty (ebpfHashTableCreate_eq_ok created).1
  exact reached ▸ (BackupsDistinct.run operations (bucketsHold_of_created created) stored empty fresh).backupAddresses_nodup

/-- Three inserts of four-byte keys into one bucket, the second and third allocating backup
buckets at two addresses, and the delete of the first. -/
def threeInsertsAndADelete : List HashTableOperation :=
  [.update [1, 2, 3, 4] (some [5, 6, 7, 8]) .any ⟨true, .success, true, some 4096, .success⟩,
    .update [9, 10, 11, 12] (some [13, 14, 15, 16]) .insert ⟨true, .success, true, some 4096, .success⟩,
    .update [17, 18, 19, 20] (some [21, 22, 23, 24]) .insert ⟨true, .success, true, some 8192, .success⟩,
    .delete [1, 2, 3, 4] ⟨true, .success, true, none, .success⟩]

theorem hash_table_buckets_keep_their_layout_after_three_inserts_and_a_delete :
    ∃ table final, ebpfHashTableCreate
        { keySize := 4, valueSize := 4, extractFunction := none, minimumBucketCount := 1, maxEntries := 0,
          notificationCallback := false, notificationFlags := 0 } true 0 false = .ok table ∧
      (Simulation.run HashTableOperation.apply table threeInsertsAndADelete).2 = final ∧
      FreshBackupBuckets table threeInsertsAndADelete ∧
      (∀ index, final.buckets index ≠ [] →
        (∀ entry ∈ final.buckets index, ebpfHashTableComputeBucketIndex final entry.key = index) ∧
        (final.buckets index).Pairwise (fun first second => ebpfHashTableCompare final first.key second.key ≠ 0) ∧
        (∀ position (inside : position < (final.buckets index).length),
          (final.buckets index)[position].backupCount = if position = 0 then none else some position) ∧
        ebpfHashTableBucketDeleteValidate final (final.buckets index) = .success ∧
        ∀ keyIndex < (final.buckets index).length,
          ∃ newBucket, (ebpfHashTableBucketDelete final (final.buckets index) keyIndex).1 = .ok newBucket) ∧
      (FreshBackupBuckets table threeInsertsAndADelete → final.backupAddresses.Nodup) ∧
      ∀ key environment,
        (ebpfHashTableDelete final key environment).1 = .success ∨
        (ebpfHashTableDelete final key environment).1 = .keyNotFound ∨
        final.notifies notificationTypePreFree ∧ environment.preFreeNotification ≠ .success ∧
          (ebpfHashTableDelete final key environment).1 = environment.preFreeNotification :=
  ⟨_, _, rfl, rfl, by decide, @hash_table_buckets_keep_their_layout
    { keySize := 4, valueSize := 4, extractFunction := none, minimumBucketCount := 1, maxEntries := 0,
      notificationCallback := false, notificationFlags := 0 } 0 false _ rfl threeInsertsAndADelete (by decide) _ rfl⟩

end EbpfWindows.Runtime
