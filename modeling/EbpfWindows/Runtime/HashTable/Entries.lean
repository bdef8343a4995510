import EbpfWindows.Runtime.HashTable.Enumeration

/-! The entries of a table across its operations.

An insert leaves the old entries, with their keys and values, and adds at most one
entry, whose key is the copy of the key it was given and whose value is the copy of the
value. A delete leaves some of the old entries and adds none. A represented table's
entries, seen as views and values, are the bindings of its map, each once.

The comparison and the hash read a key through the table's extract function, and nothing
else of the table depends on it: a table keeps representing its map under another
extract function that reads every stored key as the old one did.
-/

set_option autoImplicit false

namespace EbpfWindows.Runtime

open Bytes

namespace EbpfHashTable

/-- The key and the value of each entry, in bucket order. -/
def pairs (table : EbpfHashTable) : List (List UInt8 × List UInt8) :=
  table.entries.map fun entry => (entry.key, entry.data)

/-- The view and the value of each entry, in bucket order. -/
def bindings (table : EbpfHashTable) : List ((Nat × List UInt8 × UInt8) × List UInt8) :=
  table.entries.map fun entry => (table.entryView entry, entry.data)

theorem mem_entries_update {table : EbpfHashTable} {entryCount : UInt64} {index : Nat}
    {newBucket : List EbpfHashBucketEntry} {entry : EbpfHashBucketEntry}
    (member : entry ∈ EbpfHashTable.entries
      { table with entryCount, buckets := Function.update table.buckets index newBucket }) :
    entry ∈ table.entries ∨ entry ∈ newBucket := by
  obtain ⟨other, -, inRange, inBucket⟩ := mem_entriesFrom.mp member
  dsimp only at inBucket
  by_cases same : other = index
  · subst same
    exact .inr (by simpa using inBucket)
  · rw [Function.update_of_ne same] at inBucket
    exact .inl (mem_entriesFrom.mpr ⟨other, Nat.zero_le _, inRange, inBucket⟩)

end EbpfHashTable

open EbpfHashTable

theorem ebpfHashTableBucketInsert_ok {table : EbpfHashTable} {oldBucket newBucket : List EbpfHashBucketEntry}
    {key data : List UInt8} {environment : HashTableEnvironment} {entryCount : UInt64}
    (built : ebpfHashTableBucketInsert table oldBucket key data environment = (.ok newBucket, entryCount)) :
    ∃ backupBucket : Option EbpfHashBackupBucket, (∀ backup ∈ backupBucket, environment.backupBucket = some backup.address) ∧
      newBucket = oldBucket ++ [{ data, backupBucket, key := readBytes key 0 table.keySize.toNat }] := by
  unfold ebpfHashTableBucketInsert at built
  cases sizes : bucketInsertSizes table.keySize oldBucket.length with
  | error result =>
    rw [sizes] at built
    cases built
  | ok bucketSizes =>
    rw [sizes] at built
    dsimp only at built
    split_ifs at built <;> simp only [Prod.mk.injEq, reduceCtorEq, false_and, Except.ok.injEq] at built
    all_goals refine ⟨_, fun backup member => ?_, built.1.symm⟩
    all_goals first
      | cases member
      | obtain ⟨address, allocated, rfl⟩ := Option.map_eq_some_iff.mp member
        exact allocated

theorem pairs_update_insert (table : EbpfHashTable) (key : List UInt8) (value : Option (List UInt8))
    (environment : HashTableEnvironment) :
    ∀ pair ∈ (ebpfHashTableUpdate table key value .insert environment).2.pairs,
      pair ∈ table.pairs ∨ pair = (readBytes key 0 table.keySize.toNat, newData table value) := by
  intro pair member
  obtain ⟨entry, entryMember, rfl⟩ := List.mem_map.mp member
  have cases : entry ∈ table.entries ∨
      entry.key = readBytes key 0 table.keySize.toNat ∧ entry.data = newData table value := by
    unfold ebpfHashTableUpdate ebpfHashTableReplaceBucket at entryMember
    dsimp only at entryMember
    split_ifs at entryMember
    · exact .inl entryMember
    · exact .inl entryMember
    · split at entryMember
      · exact .inl entryMember
      · rename_i index _
        unfold replaceBucketOutcome at entryMember
        dsimp only at entryMember
        split_ifs at entryMember
        · exact .inl entryMember
        · generalize built : ebpfHashTableBucketInsert table _ key (newData table value) environment = outcome
            at entryMember
          obtain ⟨result | newBucket, entryCount⟩ := outcome
          · exact .inl entryMember
          · obtain ⟨backupBucket, -, rfl⟩ := ebpfHashTableBucketInsert_ok built
            rcases mem_entries_update entryMember with old | appended
            · exact .inl old
            · rcases List.mem_append.mp appended with old | fresh
              · have inRange := computeBucketIndex_lt table key
                exact .inl (mem_entriesFrom.mpr ⟨_, Nat.zero_le _, by omega, old⟩)
              · simp only [List.mem_singleton] at fresh
                exact .inr ⟨by rw [fresh], by rw [fresh]⟩
  rcases cases with old | ⟨sameKey, sameData⟩
  · exact .inl (List.mem_map_of_mem old)
  · exact .inr (by rw [sameKey, sameData])

theorem BucketsFit.pairs_delete {table : EbpfHashTable} (fits : table.BucketsFit) (key : List UInt8)
    (environment : HashTableEnvironment) :
    ∀ pair ∈ (ebpfHashTableDelete table key environment).2.pairs, pair ∈ table.pairs := by
  intro pair member
  obtain ⟨entry, entryMember, rfl⟩ := List.mem_map.mp member
  suffices old : entry ∈ table.entries ∨ ∃ other ∈ table.entries, other.key = entry.key ∧ other.data = entry.data by
    rcases old with old | ⟨other, otherMember, sameKey, sameData⟩
    · exact List.mem_map_of_mem old
    · exact List.mem_map.mpr ⟨other, otherMember, by rw [sameKey, sameData]⟩
  unfold ebpfHashTableDelete at entryMember
  rw [fits.ebpfHashTableReplaceBucket_eq] at entryMember
  simp only [ne_eq, not_true_eq_false, false_and, if_false] at entryMember
  generalize indexEq : ebpfHashTableComputeBucketIndex table key = index at entryMember
  generalize foundEq : KeyedList.findIndex table.entryView (table.buckets index) (keyView table key) = found
    at entryMember
  unfold replaceBucketOutcome at entryMember
  dsimp only at entryMember
  by_cases absent : found = (table.buckets index).length
  · simp only [absent, decide_false, Bool.not_false, if_true, publish_error, ne_eq, not_true_eq_false]
      at entryMember
    exact .inl entryMember
  · have inBucket : found < (table.buckets index).length := by
      have atMost : KeyedList.findIndex table.entryView (table.buckets index) (keyView table key) ≤
          (table.buckets index).length := List.findIdx_le_length
      omega
    have nonempty : table.buckets index ≠ [] := by
      intro empty
      simp [empty] at inBucket
    simp only [ne_eq, absent, not_false_eq_true, decide_true, Bool.not_true, Bool.false_eq_true, if_false,
      ebpfHashTableBucketDeleteValidate_eq (fits index) nonempty] at entryMember
    split_ifs at entryMember with preFreeFailed
    · exact .inl entryMember
    · rw [ebpfHashTableBucketDelete_eq (fits index) inBucket] at entryMember
      rcases mem_entries_update entryMember with old | compacted
      · exact .inl old
      · -- a compacted entry is an old one with the backup bucket of another position
        have lengths : ((table.buckets index).eraseIdx found).length = (table.buckets index).dropLast.length := by
          rw [List.length_eraseIdx_of_lt inBucket, List.length_dropLast]
        have kept := map_zipWith_inheritBackup (fun entry => (entry.key, entry.data)) (fun _ _ => rfl) lengths
        have listed : (entry.key, entry.data) ∈
            (List.zipWith inheritBackup ((table.buckets index).eraseIdx found) (table.buckets index).dropLast).map
              fun entry => (entry.key, entry.data) :=
          List.mem_map_of_mem compacted
        rw [kept] at listed
        obtain ⟨other, otherMember, same⟩ := List.mem_map.mp listed
        have inTable : other ∈ table.entries := by
          have placed : index < table.bucketCount.toNat := indexEq ▸ computeBucketIndex_lt table key
          exact mem_entriesFrom.mpr ⟨index, Nat.zero_le _, by omega, List.mem_of_mem_eraseIdx otherMember⟩
        simp only [Prod.mk.injEq] at same
        exact .inr ⟨other, inTable, same.1, same.2⟩

namespace Represents

variable {table : EbpfHashTable} {contents : BoundedMap}

theorem mem_entries_of_mem_buckets (represents : Represents table contents) {index : Nat}
    {entry : EbpfHashBucketEntry} (member : entry ∈ table.buckets index) : entry ∈ table.entries := by
  have placed : index < table.bucketCount.toNat :=
    represents.placed index entry member ▸ computeBucketIndex_lt table entry.key
  exact mem_entriesFrom.mpr ⟨index, Nat.zero_le _, by omega, member⟩

theorem mem_bindings (represents : Represents table contents) {binding : (Nat × List UInt8 × UInt8) × List UInt8} :
    binding ∈ table.bindings ↔ contents.lookup binding.1 = some binding.2 := by
  rw [represents.lookup_eq_some_iff, bindings, List.mem_map]
  constructor
  · rintro ⟨entry, member, rfl⟩
    exact ⟨entry, member, rfl, rfl⟩
  · rintro ⟨entry, member, sameView, sameData⟩
    exact ⟨entry, member, by rw [sameView, sameData]⟩

theorem nodup_bindings (represents : Represents table contents) : table.bindings.Nodup := by
  have views := represents.nodup_entries
  rw [show table.entries.map table.entryView = table.bindings.map Prod.fst from by simp [bindings]] at views
  exact views.of_map _

theorem bindings_perm {other : EbpfHashTable} (represents : Represents table contents)
    (same : Represents other contents) : other.bindings.Perm table.bindings :=
  (List.perm_ext_iff_of_nodup same.nodup_bindings represents.nodup_bindings).mpr fun binding => by
    rw [same.mem_bindings, represents.mem_bindings]

theorem bindings_perm_insert {other : EbpfHashTable} {view : Nat × List UInt8 × UInt8} {value : List UInt8}
    (represents : Represents table contents) (absent : view ∉ contents)
    (inserted : Represents other (contents.insert view value)) :
    other.bindings.Perm ((view, value) :: table.bindings) := by
  have fresh : (view, value) ∉ table.bindings := by
    rw [represents.mem_bindings]
    simp [Finmap.lookup_eq_none.mpr absent]
  refine (List.perm_ext_iff_of_nodup inserted.nodup_bindings (List.nodup_cons.mpr ⟨fresh, represents.nodup_bindings⟩)).mpr ?_
  rintro ⟨otherView, otherValue⟩
  rw [inserted.mem_bindings, List.mem_cons, represents.mem_bindings]
  by_cases same : otherView = view
  · subst same
    simp [Finmap.lookup_eq_none.mpr absent, eq_comm]
  · simp [Finmap.lookup_insert_of_ne _ same, same]

theorem bindings_perm_erase {other : EbpfHashTable} {view : Nat × List UInt8 × UInt8} {value : List UInt8}
    (represents : Represents table contents) (bound : contents.lookup view = some value)
    (erased : Represents other (contents.erase view)) :
    table.bindings.Perm ((view, value) :: other.bindings) := by
  have gone : (view, value) ∉ other.bindings := by
    rw [erased.mem_bindings]
    simp
  refine (List.perm_ext_iff_of_nodup represents.nodup_bindings (List.nodup_cons.mpr ⟨gone, erased.nodup_bindings⟩)).mpr ?_
  rintro ⟨otherView, otherValue⟩
  rw [represents.mem_bindings, List.mem_cons, erased.mem_bindings]
  by_cases same : otherView = view
  · subst same
    simp [bound, eq_comm]
  · simp [Finmap.lookup_erase_ne same, same]

theorem of_extract {extract other : EbpfHashTableExtractFunction}
    (represents : Represents { table with extract := some extract } contents)
    (agree : ∀ entry ∈ table.entries, extract entry.key = other entry.key) :
    Represents { table with extract := some other } contents := by
  have stored : ∀ index, ∀ entry ∈ table.buckets index, extract entry.key = other entry.key :=
    fun index entry member => agree entry (represents.mem_entries_of_mem_buckets member)
  have sameIndex : ∀ index, ∀ entry ∈ table.buckets index,
      ebpfHashTableComputeBucketIndex { table with extract := some other } entry.key =
        ebpfHashTableComputeBucketIndex { table with extract := some extract } entry.key := by
    intro index entry member
    simp [ebpfHashTableComputeBucketIndex, stored index entry member]
  have sameView : ∀ index, ∀ entry ∈ table.buckets index,
      EbpfHashTable.entryView { table with extract := some other } entry =
        EbpfHashTable.entryView { table with extract := some extract } entry := by
    intro index entry member
    simp [EbpfHashTable.entryView, keyView, stored index entry member]
  refine ⟨fun index entry member => ?_, fun index => ?_, fun view value => ?_, represents.counted,
    represents.bounded, represents.backups⟩
  · rw [sameIndex index entry member]
    exact represents.placed index entry member
  · rw [List.map_congr_left (sameView index)]
    exact represents.unique index
  · rw [represents.stored view value]
    refine exists_congr fun index => ?_
    simp only [EbpfHashTable.bucketValue]
    rw [KeyedList.find_congr (sameView index)]

end Represents

/-! ## Tables without notifications -/

theorem ebpfHashTableDelete_of_quiet {table : EbpfHashTable} (quiet : ¬ table.notifies notificationTypePreFree)
    (key : List UInt8) (environment other : HashTableEnvironment) :
    ebpfHashTableDelete table key environment = ebpfHashTableDelete table key other := by
  simp only [ebpfHashTableDelete, ebpfHashTableReplaceBucket, replaceBucketOutcome, quiet, ne_eq, not_true_eq_false,
    false_and, if_false]

theorem Represents.update_insert_present {table : EbpfHashTable} {contents : BoundedMap}
    (represents : Represents table contents) (fits : table.BucketsFit) {key : List UInt8}
    (present : keyView table key ∈ contents) (value : Option (List UInt8)) {environment : HashTableEnvironment}
    (allocated : environment.newDataAllocated = true) (quiet : ¬ table.notifies notificationTypeAllocate) :
    ebpfHashTableUpdate table key value .insert environment = (.objectAlreadyExists, table) := by
  have found := Nat.ne_of_lt ((represents.mem_iff_findIndex_lt key).mp present)
  unfold ebpfHashTableUpdate
  rw [fits.ebpfHashTableReplaceBucket_eq]
  simp only [allocated, quiet, replaceBucketOutcome, ne_eq, found, not_false_eq_true, if_true, publish_error,
    reduceCtorEq, false_and, Bool.not_true, Bool.false_eq_true, and_false, if_false]

/-! ## The sorted successor of a represented table -/

section Sorted

open Successor

variable {table : EbpfHashTable} {contents : BoundedMap} {compare : List UInt8 → List UInt8 → Int}
  {filter : List UInt8 → List UInt8 → Bool}

theorem Represents.nextKeyAndValueSorted_eq_ok_iff (represents : Represents table contents) (fits : table.BucketsFit)
    (order : ThreeWayOn compare {key | key ∈ table.entries.map EbpfHashBucketEntry.key})
    (previousKey : Option (List UInt8)) {entry : EbpfHashBucketEntry} :
    ebpfHashTableNextKeyAndValueSorted table previousKey compare filter = .ok entry ↔
      IsLeastOf EbpfHashBucketEntry.key compare
        (Admits EbpfHashBucketEntry.key compare previousKey fun entry => filter entry.key entry.data)
        table.entries entry := by
  rw [fits.nextKeyAndValueSorted_eq, resultOr_eq_ok_iff,
    leastAbove_eq_some_iff order (fun _ member => List.mem_map_of_mem member) represents.nodup_keys]

theorem EbpfHashTable.BucketsFit.nextKeyAndValueSorted_eq_error (fits : table.BucketsFit)
    (previousKey : Option (List UInt8)) {result : EbpfResult} :
    ebpfHashTableNextKeyAndValueSorted table previousKey compare filter = .error result ↔
      result = .noMoreKeys ∧ ∀ entry ∈ table.entries,
        ¬ Admits EbpfHashBucketEntry.key compare previousKey (fun entry => filter entry.key entry.data) entry := by
  rw [fits.nextKeyAndValueSorted_eq, resultOr_eq_error_iff, leastAbove_eq_none_iff, and_comm]

theorem Represents.sortedKeyChain_sorted (represents : Represents table contents) (fits : table.BucketsFit)
    (order : ThreeWayOn compare {key | key ∈ table.entries.map EbpfHashBucketEntry.key})
    (filter : List UInt8 → List UInt8 → Bool) :
    ∃ sorted : List EbpfHashBucketEntry, sorted.Pairwise (fun first second => compare first.key second.key < 0) ∧
      (∀ entry, entry ∈ sorted ↔ entry ∈ table.entries ∧ filter entry.key entry.data = true) ∧
      ∀ i ≤ sorted.length, sortedKeyChain table compare filter i = resultOr .noMoreKeys sorted[i]? := by
  have inKeys : ∀ entry ∈ table.entries, entry.key ∈ {key | key ∈ table.entries.map EbpfHashBucketEntry.key} :=
    fun _ member => List.mem_map_of_mem member
  let passes : EbpfHashBucketEntry → Bool := fun entry => filter entry.key entry.data
  obtain ⟨sorted, ordered, perm⟩ := exists_sorted order
    (show ∀ entry ∈ table.entries.filter passes, _ from fun entry member => inKeys entry (List.mem_filter.mp member).1)
    (represents.nodup_keys.sublist (List.filter_sublist.map _))
  have exactly : ∀ entry, entry ∈ sorted ↔ entry ∈ table.entries ∧ filter entry.key entry.data = true :=
    fun entry => perm.mem_iff.trans List.mem_filter
  refine ⟨sorted, ordered, exactly, ?_⟩
  unfold sortedKeyChain
  simp only [fits.nextKeyAndValueSorted_eq]
  exact chain_leastAbove order inKeys represents.nodup_keys EbpfResult.noMoreKeys ordered exactly

end Sorted

end EbpfWindows.Runtime
