import EbpfWindows.Runtime.HashTable.Refinement
import EbpfWindows.Lib.Successor
import EbpfWindows.Lib.Except

/-! Enumerating a table.

The loops of `ebpf_hash_table_next_key_pointer_and_value` and
`ebpf_hash_table_next_key_and_value_sorted` visit the entries in bucket order, `entries`.
While the buckets fit, the first is a `Successor.scanAfter` over the entries from the
previous key's bucket on, and the buckets before that one hold no key that compares equal
to the previous key; the second is a `Successor.leastAbove` over all of them. In a
represented table the entries' views are distinct and are the map's keys, so feeding each
returned key back lists the map's bindings once each: in bucket order, or, sorted, in the
order of the comparison the caller supplies.
-/

set_option autoImplicit false

namespace EbpfWindows.Runtime

open Successor

namespace EbpfHashTable

/-- The entries of `count` buckets from `start` on, in the order the bucket loops visit them. -/
def entriesFrom (table : EbpfHashTable) (start count : Nat) : List EbpfHashBucketEntry :=
  (List.range' start count).flatMap table.buckets

/-- Every entry of the table, in bucket order. -/
def entries (table : EbpfHashTable) : List EbpfHashBucketEntry :=
  table.entriesFrom 0 table.bucketCount.toNat

/-- The test `_ebpf_hash_table_compare(hash_table, key, entry->key) == 0`. -/
def comparesEqual (table : EbpfHashTable) (key : List UInt8) (entry : EbpfHashBucketEntry) : Bool :=
  ebpfHashTableCompare table key entry.key = 0

theorem entriesFrom_succ (table : EbpfHashTable) (start count : Nat) :
    table.entriesFrom start (count + 1) = table.buckets start ++ table.entriesFrom (start + 1) count := by
  simp [entriesFrom, List.range'_succ]

theorem mem_entriesFrom {table : EbpfHashTable} {start count : Nat} {entry : EbpfHashBucketEntry} :
    entry ∈ table.entriesFrom start count ↔
      ∃ index, start ≤ index ∧ index < start + count ∧ entry ∈ table.buckets index := by
  simp only [entriesFrom, List.mem_flatMap, List.mem_range'_1]
  constructor
  · rintro ⟨index, ⟨low, high⟩, member⟩
    exact ⟨index, low, high, member⟩
  · rintro ⟨index, low, high, member⟩
    exact ⟨index, ⟨low, high⟩, member⟩

theorem entriesFrom_append (table : EbpfHashTable) (start first second : Nat) :
    table.entriesFrom start first ++ table.entriesFrom (start + first) second =
      table.entriesFrom start (first + second) := by
  rw [entriesFrom, entriesFrom, entriesFrom, ← List.flatMap_append]
  have split := @List.range'_append start first second 1
  rw [Nat.one_mul] at split
  rw [split]

theorem entriesFrom_prefix_append (table : EbpfHashTable) {start stop : Nat} (low : start ≤ stop) :
    table.entriesFrom 0 start ++ table.entriesFrom start (stop - start) = table.entriesFrom 0 stop := by
  have joined := entriesFrom_append table 0 start (stop - start)
  rwa [Nat.zero_add, Nat.add_sub_cancel' low] at joined

theorem entries_eq_append (table : EbpfHashTable) {start : Nat} (within : start ≤ table.bucketCount.toNat) :
    table.entries = table.entriesFrom 0 start ++ table.entriesFrom start (table.bucketCount.toNat - start) :=
  (entriesFrom_prefix_append table within).symm

theorem comparesEqual_iff {table : EbpfHashTable} {key : List UInt8} {entry : EbpfHashBucketEntry} :
    table.comparesEqual key entry = true ↔ keyView table key = table.entryView entry := by
  rw [comparesEqual, decide_eq_true_iff, compare_eq_zero_iff]
  rfl

theorem comparesEqual_self (table : EbpfHashTable) (entry : EbpfHashBucketEntry) :
    table.comparesEqual entry.key entry = true :=
  comparesEqual_iff.mpr rfl

theorem foldl_bucketLengths (table : EbpfHashTable) :
    ∀ (indices : List Nat) (count : UInt64),
      indices.foldl (fun count index => count + (table.buckets index).length.toUInt64) count =
        count + (indices.flatMap table.buckets).length.toUInt64
  | [], count => by simp
  | index :: rest, count => by
    rw [List.foldl_cons, foldl_bucketLengths table rest, List.flatMap_cons, List.length_append, UInt64.add_assoc,
      ← UInt64.ofNat_add]

theorem keyCount_of_uncounted {table : EbpfHashTable} (uncounted : ¬ table.counting) :
    ebpfHashTableKeyCount table = table.entries.length.toUInt64 := by
  rw [ebpfHashTableKeyCount, if_neg uncounted, foldl_bucketLengths, UInt64.zero_add, entries, entriesFrom,
    List.range_eq_range']

end EbpfHashTable

open EbpfHashTable

/-! ## The scan for the previous key -/

section NextKey

variable {table : EbpfHashTable} {contents : BoundedMap}

theorem scanBucketAfter_eq (key : List UInt8) {bucket : List EbpfHashBucketEntry} :
    ∀ {found : Bool} {start : Nat},
      (∀ index < start + bucket.length, (ebpfHashTableBucketEntry table.keySize index.toUInt64).isNone = false) →
        scanBucketAfter table key found bucket start = .ok (scanAfter (table.comparesEqual key) found bucket) := by
  induction bucket with
  | nil => intro found start _; rfl
  | cons entry rest ih =>
    intro found start offsets
    have here : (ebpfHashTableBucketEntry table.keySize start.toUInt64).isNone = false := offsets start (by simp)
    cases found with
    | true => simp only [scanBucketAfter, here, Bool.false_eq_true, if_false, if_true]; rfl
    | false =>
      simp only [scanBucketAfter, here, Bool.false_eq_true, if_false]
      exact ih fun index bound => offsets index (by simp; omega)

theorem nextKeyLoop_some (fits : table.BucketsFit) (key : List UInt8) :
    ∀ remaining start found, nextKeyLoop table (some key) remaining start found =
      .ok (scanAfter (table.comparesEqual key) found (table.entriesFrom start remaining)) := by
  intro remaining
  induction remaining with
  | zero => intro start found; rfl
  | succ remaining ih =>
    intro start found
    rw [entriesFrom_succ, scanAfter_append]
    cases bucket : table.buckets start with
    | nil =>
      simp only [nextKeyLoop, bucket]
      exact ih (start + 1) found
    | cons first rest =>
      have offsets : ∀ index < 0 + (first :: rest).length,
          (ebpfHashTableBucketEntry table.keySize index.toUInt64).isNone = false :=
        fun index bound => bucketEntry_isNone_of_lt (fits start) (by rw [bucket]; omega)
      simp only [nextKeyLoop, bucket, scanBucketAfter_eq key offsets]
      generalize scanAfter (table.comparesEqual key) found (first :: rest) = scanned
      rcases scanned with ⟨seen, _ | next⟩
      · exact ih (start + 1) seen
      · rfl

theorem nextKeyLoop_none (fits : table.BucketsFit) :
    ∀ remaining start found, nextKeyLoop table none remaining start found =
      .ok (found, (table.entriesFrom start remaining).head?) := by
  intro remaining
  induction remaining with
  | zero => intro start found; rfl
  | succ remaining ih =>
    intro start found
    rw [entriesFrom_succ]
    cases bucket : table.buckets start with
    | nil =>
      simp only [nextKeyLoop, bucket, List.nil_append]
      exact ih (start + 1) found
    | cons first rest =>
      have first : (ebpfHashTableBucketEntry table.keySize 0).isNone = false := by
        simpa using @bucketEntry_isNone_of_lt table.keySize _ 0 (fits start) (by simp [bucket])
      simp [nextKeyLoop, bucket, first]

theorem nextKeyPointerAndValue_none (fits : table.BucketsFit) :
    ebpfHashTableNextKeyPointerAndValue table none = resultOr .noMoreKeys table.entries.head? := by
  unfold ebpfHashTableNextKeyPointerAndValue
  simp only [Nat.sub_zero, nextKeyLoop_none fits]
  rw [← entries]
  cases table.entries.head? <;> rfl

theorem Represents.nextKeyPointerAndValue_some (represents : Represents table contents) (fits : table.BucketsFit)
    (key : List UInt8) :
    ebpfHashTableNextKeyPointerAndValue table (some key) =
      if (scanAfter (table.comparesEqual key) false table.entries).1 then
        resultOr .noMoreKeys (scanAfter (table.comparesEqual key) false table.entries).2
      else .error .keyNotFound := by
  have within := (computeBucketIndex_lt table key).le
  have before : ∀ entry ∈ table.entriesFrom 0 (ebpfHashTableComputeBucketIndex table key),
      table.comparesEqual key entry = false := by
    intro entry member
    obtain ⟨index, -, below, inBucket⟩ := mem_entriesFrom.mp member
    rw [Bool.eq_false_iff]
    intro same
    have hashed := computeBucketIndex_eq_of_keyView_eq (comparesEqual_iff.mp same)
    have placed := represents.placed index entry inBucket
    omega
  have whole : scanAfter (table.comparesEqual key) false table.entries =
      scanAfter (table.comparesEqual key) false
        (table.entriesFrom (ebpfHashTableComputeBucketIndex table key)
          (table.bucketCount.toNat - ebpfHashTableComputeBucketIndex table key)) := by
    rw [entries_eq_append table within, scanAfter_append, scanAfter_of_rejected _ _ before]
  unfold ebpfHashTableNextKeyPointerAndValue
  simp only [nextKeyLoop_some fits, ← whole]
  generalize scanAfter (table.comparesEqual key) false table.entries = scanned
  rcases scanned with ⟨_ | _, _ | next⟩ <;> rfl

theorem Represents.nodup_entries (represents : Represents table contents) :
    (table.entries.map table.entryView).Nodup := by
  rw [entries, entriesFrom, List.map_flatMap, List.nodup_flatMap]
  refine ⟨fun index _ => represents.unique index, ?_⟩
  refine List.Pairwise.imp ?_ (@List.nodup_range' 0 table.bucketCount.toNat 1 Nat.one_pos)
  intro first second different view inFirst inSecond
  obtain ⟨entry, member, rfl⟩ := List.mem_map.mp inFirst
  obtain ⟨other, otherMember, same⟩ := List.mem_map.mp inSecond
  apply different
  rw [← represents.placed first entry member, ← represents.placed second other otherMember]
  exact computeBucketIndex_eq_of_keyView_eq same.symm

theorem Represents.nodup_keys (represents : Represents table contents) :
    (table.entries.map EbpfHashBucketEntry.key).Nodup := by
  have views := represents.nodup_entries
  rw [show table.entries.map table.entryView = (table.entries.map EbpfHashBucketEntry.key).map (keyView table)
    from (List.map_map).symm] at views
  exact views.of_map _

theorem Represents.lookup_eq_some_iff (represents : Represents table contents) {view : Nat × List UInt8 × UInt8}
    {value : List UInt8} :
    contents.lookup view = some value ↔ ∃ entry ∈ table.entries, table.entryView entry = view ∧ entry.data = value := by
  rw [represents.stored]
  constructor
  · rintro ⟨index, holds⟩
    obtain ⟨entry, found, rfl⟩ := Option.map_eq_some_iff.mp holds
    obtain ⟨member, sameView⟩ := (KeyedList.find_eq_some_iff (represents.unique index)).mp found
    have inRange : index < table.bucketCount.toNat :=
      represents.placed index entry member ▸ computeBucketIndex_lt table entry.key
    exact ⟨entry, mem_entriesFrom.mpr ⟨index, Nat.zero_le _, by omega, member⟩, sameView, rfl⟩
  · rintro ⟨entry, member, rfl, rfl⟩
    obtain ⟨index, -, -, inBucket⟩ := mem_entriesFrom.mp member
    have found := (KeyedList.find_eq_some_iff (represents.unique index)).mpr ⟨inBucket, rfl⟩
    exact ⟨index, by simp [EbpfHashTable.bucketValue, found]⟩

theorem Represents.length_entries (represents : Represents table contents) :
    table.entries.length = contents.size := by
  have keys : (table.entries.map table.entryView).toFinset = contents.keys := by
    ext view
    rw [List.mem_toFinset, Finmap.mem_keys, Finmap.mem_iff]
    constructor
    · intro member
      obtain ⟨entry, entryMember, rfl⟩ := List.mem_map.mp member
      exact ⟨entry.data, represents.lookup_eq_some_iff.mpr ⟨entry, entryMember, rfl, rfl⟩⟩
    · rintro ⟨value, bound⟩
      obtain ⟨entry, member, rfl, -⟩ := represents.lookup_eq_some_iff.mp bound
      exact List.mem_map_of_mem member
  rw [BoundedMap.size, ← keys, List.toFinset_card_of_nodup represents.nodup_entries, List.length_map]

theorem Represents.nextKeyPointerAndValue_getElem (represents : Represents table contents)
    (fits : table.BucketsFit) (i : Nat) (h : i < table.entries.length) :
    ebpfHashTableNextKeyPointerAndValue table (some table.entries[i].key) = resultOr .noMoreKeys table.entries[i + 1]? := by
  have split : table.entries = table.entries.take i ++ table.entries[i] :: table.entries.drop (i + 1) := by
    rw [← List.drop_eq_getElem_cons h, List.take_append_drop]
  have rejected : ∀ entry ∈ table.entries.take i, table.comparesEqual table.entries[i].key entry = false := by
    intro entry member
    rw [Bool.eq_false_iff]
    intro same
    have distinct := represents.nodup_entries
    rw [split, List.map_append, List.nodup_append] at distinct
    exact distinct.2.2 _ (List.mem_map_of_mem member) _ (List.mem_map_of_mem List.mem_cons_self)
      (comparesEqual_iff.mp same).symm
  have scanned := scanAfter_middle (table.comparesEqual table.entries[i].key) _ (table.entries.drop (i + 1))
    table.entries[i] rejected (comparesEqual_self table _)
  rw [← split, List.head?_drop] at scanned
  rw [represents.nextKeyPointerAndValue_some fits, scanned]
  rfl

theorem Represents.nextKeyPointerAndValue_absent (represents : Represents table contents) (fits : table.BucketsFit)
    {key : List UInt8} (absent : keyView table key ∉ contents) :
    ebpfHashTableNextKeyPointerAndValue table (some key) = .error .keyNotFound := by
  have rejected : ∀ entry ∈ table.entries, table.comparesEqual key entry = false := by
    intro entry member
    rw [Bool.eq_false_iff]
    intro same
    exact absent (Finmap.mem_iff.mpr
      ⟨entry.data, represents.lookup_eq_some_iff.mpr ⟨entry, member, (comparesEqual_iff.mp same).symm, rfl⟩⟩)
  rw [represents.nextKeyPointerAndValue_some fits, scanAfter_of_rejected _ _ rejected]
  rfl

theorem Represents.mem_of_nextKeyPointerAndValue (represents : Represents table contents) (fits : table.BucketsFit)
    {previousKey : Option (List UInt8)} {entry : EbpfHashBucketEntry}
    (found : ebpfHashTableNextKeyPointerAndValue table previousKey = .ok entry) : entry ∈ table.entries := by
  cases previousKey with
  | none =>
    rw [nextKeyPointerAndValue_none fits, resultOr_eq_ok_iff] at found
    exact List.mem_of_head? found
  | some key =>
    rw [represents.nextKeyPointerAndValue_some fits] at found
    generalize scanned : scanAfter (table.comparesEqual key) false table.entries = result at found
    obtain ⟨seen, next⟩ := result
    dsimp only at found
    split_ifs at found
    rw [resultOr_eq_ok_iff] at found
    exact mem_of_scanAfter _ (found ▸ scanned)

/-- The calls a caller makes to list a table: the first without a key, each later one with
the key the call before returned. -/
def nextKeyChain (table : EbpfHashTable) : Nat → Except EbpfResult EbpfHashBucketEntry :=
  chain (ebpfHashTableNextKeyPointerAndValue table none) fun entry =>
    ebpfHashTableNextKeyPointerAndValue table (some entry.key)

theorem Represents.nextKeyChain_eq (represents : Represents table contents) (fits : table.BucketsFit) :
    ∀ i ≤ table.entries.length, nextKeyChain table i = resultOr .noMoreKeys table.entries[i]? :=
  chain_eq_getElem? _ (by rw [nextKeyPointerAndValue_none fits, List.head?_eq_getElem?])
    (represents.nextKeyPointerAndValue_getElem fits)

theorem hash_table_next_key_lists_each_key_once (represents : Represents table contents) (fits : table.BucketsFit) :
    (table.entries.map table.entryView).Nodup ∧
      (∀ view value, contents.lookup view = some value ↔
        ∃ entry ∈ table.entries, table.entryView entry = view ∧ entry.data = value) ∧
      table.entries.length = contents.size ∧
      (∀ i ≤ table.entries.length, nextKeyChain table i = resultOr .noMoreKeys table.entries[i]?) ∧
      ∀ previousKey, keyView table previousKey ∉ contents →
        ebpfHashTableNextKeyPointerAndValue table (some previousKey) = .error .keyNotFound :=
  ⟨represents.nodup_entries, fun _ _ => represents.lookup_eq_some_iff, represents.length_entries,
    represents.nextKeyChain_eq fits, fun _ absent => represents.nextKeyPointerAndValue_absent fits absent⟩

end NextKey

theorem hash_table_next_key_lists_each_key_once_after_two_updates :
    ∃ created, ebpfHashTableCreate
        { keySize := 4, valueSize := 4, extractFunction := none, minimumBucketCount := 0,
          maxEntries := ebpfHashTableNoLimit, notificationCallback := false, notificationFlags := 0 }
        true 0 false = .ok created ∧
      ∃ table contents, table = (Simulation.run HashTableOperation.apply created
          [.update [1, 2, 3, 4] (some [5, 6, 7, 8]) .any ⟨true, .success, true, some 4096, .success⟩,
            .update [9, 9, 9, 9] (some [1, 1, 1, 1]) .any ⟨true, .success, true, some 4096, .success⟩]).2 ∧
        Represents table contents ∧ table.BucketsFit ∧
        (table.entries.map table.entryView).Nodup ∧
        (∀ view value, contents.lookup view = some value ↔
          ∃ entry ∈ table.entries, table.entryView entry = view ∧ entry.data = value) ∧
        table.entries.length = contents.size ∧
        (∀ i ≤ table.entries.length, nextKeyChain table i = resultOr .noMoreKeys table.entries[i]?) ∧
        ∀ previousKey, keyView table previousKey ∉ contents →
          ebpfHashTableNextKeyPointerAndValue table (some previousKey) = .error .keyNotFound := by
  obtain ⟨created, hcreated⟩ : ∃ created, ebpfHashTableCreate
      { keySize := 4, valueSize := 4, extractFunction := none, minimumBucketCount := 0,
        maxEntries := ebpfHashTableNoLimit, notificationCallback := false, notificationFlags := 0 }
      true 0 false = .ok created := ⟨_, rfl⟩
  obtain ⟨empty, zero, -, -, sameLimit⟩ := ebpfHashTableCreate_eq_ok hcreated
  obtain ⟨final, -, represents, fits⟩ := run_represents_unlimited (Represents.empty empty zero)
    (fun index => by simp [BucketFits, empty index]) (by simp [EbpfHashTable.counting, sameLimit])
    [.update [1, 2, 3, 4] (some [5, 6, 7, 8]) .any ⟨true, .success, true, some 4096, .success⟩,
      .update [9, 9, 9, 9] (some [1, 1, 1, 1]) .any ⟨true, .success, true, some 4096, .success⟩]
    (fun operation _ => storesKey_of_created hcreated (fun _ none => by simp at none) operation.key)
  exact ⟨created, hcreated, _, final, rfl, represents, fits, hash_table_next_key_lists_each_key_once represents fits⟩

/-! ## The sorted successor -/

section Sorted

variable {table : EbpfHashTable} {contents : BoundedMap}

theorem sortedCandidate_eq (previousKey : Option (List UInt8)) (compare : List UInt8 → List UInt8 → Int)
    (filter : List UInt8 → List UInt8 → Bool) :
    sortedCandidate previousKey compare filter =
      improve EbpfHashBucketEntry.key compare previousKey fun entry => filter entry.key entry.data :=
  rfl

theorem EbpfHashTable.BucketsFit.nextKeyAndValueSorted_eq (fits : table.BucketsFit)
    (previousKey : Option (List UInt8)) (compare : List UInt8 → List UInt8 → Int)
    (filter : List UInt8 → List UInt8 → Bool) :
    ebpfHashTableNextKeyAndValueSorted table previousKey compare filter =
      resultOr .noMoreKeys
        (leastAbove EbpfHashBucketEntry.key compare previousKey (fun entry => filter entry.key entry.data)
          table.entries) := by
  have scanBucket : ∀ next, ∀ index ∈ List.range table.bucketCount.toNat,
      (table.buckets index).zipIdx.foldlM (sortedScanEntry table previousKey compare filter) next =
        .ok ((table.buckets index).foldl (sortedCandidate previousKey compare filter) next) := by
    intro next index _
    have steps : ∀ acc, ∀ entryAtIndex ∈ (table.buckets index).zipIdx,
        sortedScanEntry table previousKey compare filter acc entryAtIndex =
          .ok (sortedCandidate previousKey compare filter acc entryAtIndex.1) := by
      rintro acc ⟨entry, position⟩ member
      have within : position < (table.buckets index).length := by
        have := (List.mem_zipIdx member).2.1
        omega
      simp [sortedScanEntry, bucketEntry_isNone_of_lt (fits index) within, pure, Except.pure]
    rw [Except.foldlM_eq_ok steps, ← List.foldl_map, List.zipIdx_map_fst]
  have entriesFold : table.entries.foldl (sortedCandidate previousKey compare filter) none =
      (List.range table.bucketCount.toNat).foldl
        (fun next index => (table.buckets index).foldl (sortedCandidate previousKey compare filter) next) none := by
    rw [entries, entriesFrom, List.foldl_flatMap, List.range_eq_range']
  unfold ebpfHashTableNextKeyAndValueSorted
  dsimp only
  rw [Except.foldlM_eq_ok scanBucket, ← entriesFold, leastAbove, ← sortedCandidate_eq]
  generalize table.entries.foldl (sortedCandidate previousKey compare filter) none = scanned
  cases scanned <;> rfl

/-- The calls a caller makes to list a table in order: the first without a key, each later
one with the key the call before returned. -/
def sortedKeyChain (table : EbpfHashTable) (compare : List UInt8 → List UInt8 → Int)
    (filter : List UInt8 → List UInt8 → Bool) : Nat → Except EbpfResult EbpfHashBucketEntry :=
  chain (ebpfHashTableNextKeyAndValueSorted table none compare filter) fun entry =>
    ebpfHashTableNextKeyAndValueSorted table (some entry.key) compare filter

theorem hash_table_sorted_next_key_is_least_above (represents : Represents table contents)
    (fits : table.BucketsFit) (compare : List UInt8 → List UInt8 → Int)
    (order : ThreeWayOn compare {key | key ∈ table.entries.map EbpfHashBucketEntry.key})
    (filter : List UInt8 → List UInt8 → Bool) (previousKey : Option (List UInt8)) :
    (∀ entry, ebpfHashTableNextKeyAndValueSorted table previousKey compare filter = .ok entry ↔
        IsLeastOf EbpfHashBucketEntry.key compare
          (Admits EbpfHashBucketEntry.key compare previousKey fun entry => filter entry.key entry.data)
          table.entries entry) ∧
      (ebpfHashTableNextKeyAndValueSorted table previousKey compare filter = .error .noMoreKeys ↔
        ∀ entry ∈ table.entries,
          ¬ Admits EbpfHashBucketEntry.key compare previousKey (fun entry => filter entry.key entry.data) entry) ∧
      (∀ result, ebpfHashTableNextKeyAndValueSorted table previousKey compare filter = .error result →
        result = .noMoreKeys) ∧
      ∃ sorted : List EbpfHashBucketEntry, sorted.Pairwise (fun first second => compare first.key second.key < 0) ∧
        (∀ entry, entry ∈ sorted ↔ entry ∈ table.entries ∧ filter entry.key entry.data = true) ∧
        ∀ i ≤ sorted.length, sortedKeyChain table compare filter i = resultOr .noMoreKeys sorted[i]? := by
  have inKeys : ∀ entry ∈ table.entries, entry.key ∈ {key | key ∈ table.entries.map EbpfHashBucketEntry.key} :=
    fun _ member => List.mem_map_of_mem member
  have distinct := represents.nodup_keys
  refine ⟨fun entry => ?_, ?_, fun result failed => ?_, ?_⟩
  · rw [fits.nextKeyAndValueSorted_eq, resultOr_eq_ok_iff, leastAbove_eq_some_iff order inKeys distinct]
  · rw [fits.nextKeyAndValueSorted_eq, resultOr_eq_error_iff, leastAbove_eq_none_iff]
    simp
  · rw [fits.nextKeyAndValueSorted_eq, resultOr_eq_error_iff] at failed
    exact failed.2
  · -- the passing entries, in increasing order of their keys, are what the calls return
    let passes : EbpfHashBucketEntry → Bool := fun entry => filter entry.key entry.data
    obtain ⟨sorted, ordered, perm⟩ := exists_sorted order
      (show ∀ entry ∈ table.entries.filter passes, _ from fun entry member => inKeys entry (List.mem_filter.mp member).1)
      (distinct.sublist (List.filter_sublist.map _))
    have exactly : ∀ entry, entry ∈ sorted ↔ entry ∈ table.entries ∧ filter entry.key entry.data = true :=
      fun entry => perm.mem_iff.trans List.mem_filter
    refine ⟨sorted, ordered, exactly, ?_⟩
    unfold sortedKeyChain
    simp only [fits.nextKeyAndValueSorted_eq]
    exact chain_leastAbove order inKeys distinct EbpfResult.noMoreKeys ordered exactly

theorem hash_table_sorted_next_key_is_least_above_after_two_updates :
    ∃ created, ebpfHashTableCreate
        { keySize := 4, valueSize := 4, extractFunction := none, minimumBucketCount := 0,
          maxEntries := ebpfHashTableNoLimit, notificationCallback := false, notificationFlags := 0 }
        true 0 false = .ok created ∧
      ∃ table contents compare, table = (Simulation.run HashTableOperation.apply created
          [.update [1, 2, 3, 4] (some [5, 6, 7, 8]) .any ⟨true, .success, true, some 4096, .success⟩,
            .update [9, 9, 9, 9] (some [1, 1, 1, 1]) .any ⟨true, .success, true, some 4096, .success⟩]).2 ∧
        Represents table contents ∧ table.BucketsFit ∧
        ThreeWayOn compare {key | key ∈ table.entries.map EbpfHashBucketEntry.key} ∧
        (∀ entry, ebpfHashTableNextKeyAndValueSorted table none compare (fun _ _ => true) = .ok entry ↔
          IsLeastOf EbpfHashBucketEntry.key compare (Admits EbpfHashBucketEntry.key compare none fun _ => true)
            table.entries entry) ∧
        (ebpfHashTableNextKeyAndValueSorted table none compare (fun _ _ => true) = .error .noMoreKeys ↔
          ∀ entry ∈ table.entries, ¬ Admits EbpfHashBucketEntry.key compare none (fun _ => true) entry) ∧
        (∀ result, ebpfHashTableNextKeyAndValueSorted table none compare (fun _ _ => true) = .error result →
          result = .noMoreKeys) ∧
        ∃ sorted : List EbpfHashBucketEntry, sorted.Pairwise (fun first second => compare first.key second.key < 0) ∧
          (∀ entry, entry ∈ sorted ↔ entry ∈ table.entries ∧ true = true) ∧
          ∀ i ≤ sorted.length, sortedKeyChain table compare (fun _ _ => true) i = resultOr .noMoreKeys sorted[i]? := by
  obtain ⟨created, hcreated⟩ : ∃ created, ebpfHashTableCreate
      { keySize := 4, valueSize := 4, extractFunction := none, minimumBucketCount := 0,
        maxEntries := ebpfHashTableNoLimit, notificationCallback := false, notificationFlags := 0 }
      true 0 false = .ok created := ⟨_, rfl⟩
  obtain ⟨empty, zero, -, -, sameLimit⟩ := ebpfHashTableCreate_eq_ok hcreated
  obtain ⟨final, -, represents, fits⟩ := run_represents_unlimited (Represents.empty empty zero)
    (fun index => by simp [BucketFits, empty index]) (by simp [EbpfHashTable.counting, sameLimit])
    [.update [1, 2, 3, 4] (some [5, 6, 7, 8]) .any ⟨true, .success, true, some 4096, .success⟩,
      .update [9, 9, 9, 9] (some [1, 1, 1, 1]) .any ⟨true, .success, true, some 4096, .success⟩]
    (fun operation _ => storesKey_of_created hcreated (fun _ none => by simp at none) operation.key)
  let bytes : List UInt8 → List Nat := List.map UInt8.toNat
  let lexicographic : List UInt8 → List UInt8 → Int := fun first second =>
    if bytes first < bytes second then -1 else if bytes second < bytes first then 1 else 0
  have below : ∀ first second, lexicographic first second < 0 ↔ bytes first < bytes second := by
    intro first second
    simp only [lexicographic]
    split_ifs with lt gt <;> simp [lt]
  have above : ∀ first second, 0 < lexicographic first second ↔ bytes second < bytes first := by
    intro first second
    simp only [lexicographic]
    split_ifs with lt gt
    · simp [lt_asymm lt]
    · simp [gt]
    · simp [gt]
  have injective : Function.Injective bytes := List.map_injective_iff.mpr fun _ _ same => UInt8.toNat_inj.mp same
  have order : ThreeWayOn lexicographic {key | key ∈ (Simulation.run HashTableOperation.apply created
      [.update [1, 2, 3, 4] (some [5, 6, 7, 8]) .any ⟨true, .success, true, some 4096, .success⟩,
        .update [9, 9, 9, 9] (some [1, 1, 1, 1]) .any ⟨true, .success, true, some 4096, .success⟩]).2.entries.map
      EbpfHashBucketEntry.key} := by
    refine ⟨fun key _ => ?_, fun first _ second _ third _ => ?_, fun first _ second _ => ?_, fun first _ second _ => ?_⟩
    · rw [below]
      exact lt_irrefl _
    · rw [below, below, below]
      exact lt_trans
    · rw [below, below]
      rcases lt_trichotomy (bytes first) (bytes second) with lt | same | gt
      · exact .inl lt
      · exact .inr (.inl (injective same))
      · exact .inr (.inr gt)
    · rw [above, below]
  exact ⟨created, hcreated, _, final, lexicographic, rfl, represents, fits, order,
    hash_table_sorted_next_key_is_least_above represents fits lexicographic order (fun _ _ => true) none⟩

end Sorted

/-! ## Iterating bucket by bucket -/

section Iterate

variable {table : EbpfHashTable}

theorem iterateLoop_no_space (remaining bucketIndex nextBucketCount : Nat) (copied : List EbpfHashBucketEntry) :
    iterateLoop table remaining bucketIndex 0 nextBucketCount copied = .ok (bucketIndex, nextBucketCount, copied) := by
  cases remaining <;> simp [iterateLoop]

theorem bucketCount_pos (table : EbpfHashTable) : 0 < table.bucketCount.toNat := by
  obtain ⟨exponent, power, -⟩ := EbpfHashTable.bucketCountMask_toNat table
  rw [power]
  exact Nat.two_pow_pos exponent

theorem hash_table_iterate_with_no_room_reports_a_zero_count (table : EbpfHashTable) :
    ebpfHashTableIterate table 0 0 = ⟨.insufficientBuffer, 0, 0, []⟩ := by
  have inside : ¬ 0 ≥ table.bucketCount.toNat := Nat.not_le.mpr (bucketCount_pos table)
  rw [ebpfHashTableIterate, if_neg inside, iterateLoop_no_space]
  rfl

theorem iterateLoop_copies_buckets (fits : table.BucketsFit) :
    ∀ remaining bucketIndex remainingSpace nextBucketCount (copied : List EbpfHashBucketEntry), 0 < remainingSpace →
      ∃ stop last, iterateLoop table remaining bucketIndex remainingSpace nextBucketCount copied =
          .ok (stop, last, copied ++ table.entriesFrom bucketIndex (stop - bucketIndex)) ∧
        bucketIndex ≤ stop ∧ stop ≤ bucketIndex + remaining ∧
        (stop = bucketIndex → remaining = 0 ∨
          (remainingSpace < (table.buckets bucketIndex).length ∧ last = (table.buckets bucketIndex).length)) := by
  intro remaining
  induction remaining with
  | zero =>
    intro bucketIndex remainingSpace nextBucketCount copied room
    refine ⟨bucketIndex, nextBucketCount, ?_, Nat.le_refl _, Nat.le_refl _, fun _ => .inl rfl⟩
    simp [iterateLoop, Nat.pos_iff_ne_zero.mp room, entriesFrom]
  | succ remaining ih =>
    intro bucketIndex remainingSpace nextBucketCount copied room
    have notEmpty : remainingSpace ≠ 0 := Nat.pos_iff_ne_zero.mp room
    cases bucket : table.buckets bucketIndex with
    | nil =>
      obtain ⟨stop, last, loop, low, high, -⟩ := ih (bucketIndex + 1) remainingSpace nextBucketCount copied room
      have skipped : table.entriesFrom bucketIndex (stop - bucketIndex) = table.entriesFrom (bucketIndex + 1) (stop - (bucketIndex + 1)) := by
        rw [show stop - bucketIndex = stop - (bucketIndex + 1) + 1 by omega, entriesFrom_succ, bucket, List.nil_append]
      refine ⟨stop, last, ?_, by omega, by omega, fun same => by omega⟩
      simp only [iterateLoop, notEmpty, if_false, bucket, loop, skipped]
    | cons first rest =>
      have offsets : ((List.range (first :: rest).length).any fun index =>
          (ebpfHashTableBucketEntry table.keySize index.toUInt64).isNone) = false := by
        rw [List.any_eq_false]
        intro index member
        rw [bucketEntry_isNone_of_lt (fits bucketIndex) (by rw [bucket]; exact List.mem_range.mp member)]
        decide
      by_cases tooBig : remainingSpace < (first :: rest).length
      · -- a bucket that does not fit stops the loop before it
        have loop : iterateLoop table (remaining + 1) bucketIndex remainingSpace nextBucketCount copied =
            .ok (bucketIndex, (first :: rest).length, copied) := by
          simp only [iterateLoop, notEmpty, if_false, bucket]
          rw [if_pos tooBig]
        refine ⟨bucketIndex, (first :: rest).length, ?_, Nat.le_refl _, by omega, fun _ => .inr ⟨tooBig, rfl⟩⟩
        simpa [entriesFrom] using loop
      · -- a bucket that fits is copied whole
        have copiedBucket : table.entriesFrom bucketIndex 1 = first :: rest := by simp [entriesFrom, bucket]
        by_cases full : remainingSpace - (first :: rest).length = 0
        · refine ⟨bucketIndex + 1, (first :: rest).length, ?_, by omega, by omega, fun same => by omega⟩
          simp only [iterateLoop, notEmpty, if_false, bucket, tooBig, offsets, full, iterateLoop_no_space,
            Bool.false_eq_true, Nat.add_sub_cancel_left, copiedBucket]
        · obtain ⟨stop, last, loop, low, high, -⟩ := ih (bucketIndex + 1) (remainingSpace - (first :: rest).length)
            (first :: rest).length (copied ++ (first :: rest)) (Nat.pos_of_ne_zero full)
          have joined : (first :: rest) ++ table.entriesFrom (bucketIndex + 1) (stop - (bucketIndex + 1)) =
              table.entriesFrom bucketIndex (stop - bucketIndex) := by
            rw [← copiedBucket, entriesFrom_append, show 1 + (stop - (bucketIndex + 1)) = stop - bucketIndex by omega]
          refine ⟨stop, last, ?_, by omega, by omega, fun same => by omega⟩
          simp only [iterateLoop, notEmpty, if_false, bucket, tooBig, offsets, Bool.false_eq_true, loop,
            List.append_assoc, joined]

theorem iterate_cases (fits : table.BucketsFit) {bucket count : Nat} (inside : bucket < table.bucketCount.toNat)
    (room : 0 < count) :
    (ebpfHashTableIterate table bucket count = ⟨.insufficientBuffer, bucket, (table.buckets bucket).length, []⟩ ∧
        count < (table.buckets bucket).length) ∨
      ∃ next, bucket < next ∧ next ≤ table.bucketCount.toNat ∧
        ebpfHashTableIterate table bucket count =
          ⟨.success, next, (table.entriesFrom bucket (next - bucket)).length, table.entriesFrom bucket (next - bucket)⟩ := by
  obtain ⟨stop, last, loop, low, high, stopped⟩ :=
    iterateLoop_copies_buckets fits (table.bucketCount.toNat - bucket) bucket count 0 [] room
  rw [List.nil_append] at loop
  have outside : ¬ bucket ≥ table.bucketCount.toNat := Nat.not_le.mpr inside
  by_cases same : bucket = stop
  · subst same
    obtain ⟨tooBig, rfl⟩ := (stopped rfl).resolve_left (by omega)
    refine .inl ⟨?_, tooBig⟩
    simp [ebpfHashTableIterate, outside, loop, entriesFrom]
  · refine .inr ⟨stop, by omega, by omega, ?_⟩
    simp [ebpfHashTableIterate, outside, loop, same]

/-- The cursor a caller passes to each call: it starts at zero and takes what each call hands back. -/
def iterateCursor (table : EbpfHashTable) (slots : Nat → Nat) : Nat → Nat
  | 0 => 0
  | call + 1 => (ebpfHashTableIterate table (iterateCursor table slots call) (slots call)).bucket

/-- The `call`-th call of a caller that supplies `slots call` slots to it. -/
def iterateCall (table : EbpfHashTable) (slots : Nat → Nat) (call : Nat) : EbpfHashTableIteration :=
  ebpfHashTableIterate table (iterateCursor table slots call) (slots call)

/-- A call that hands back the whole buckets between its cursor and the next one, and that
refuses only with a count above the room it was given. -/
def IterateCallWhole (table : EbpfHashTable) (slots : Nat → Nat) (call : Nat) : Prop :=
  ((iterateCall table slots call).result = .success ∨ (iterateCall table slots call).result = .insufficientBuffer) ∧
    (iterateCall table slots call).entries =
      table.entriesFrom (iterateCursor table slots call)
        (iterateCursor table slots (call + 1) - iterateCursor table slots call) ∧
    ((iterateCall table slots call).result = .insufficientBuffer → slots call < (iterateCall table slots call).count)

theorem iterateCursor_succ (table : EbpfHashTable) (slots : Nat → Nat) (call : Nat) :
    iterateCursor table slots (call + 1) = (iterateCall table slots call).bucket :=
  rfl

theorem iterate_lists_every_entry (fits : table.BucketsFit) (slots : Nat → Nat) (room : ∀ call, 0 < slots call)
    (retries : ∀ call, (iterateCall table slots call).result = .insufficientBuffer →
      (iterateCall table slots call).count ≤ slots (call + 1)) :
    ∃ last, (iterateCall table slots last).result = .noMoreKeys ∧
      (∀ call < last, (iterateCall table slots call).result = .success ∨
        (iterateCall table slots call).result = .insufficientBuffer) ∧
      (∀ call < last, (iterateCall table slots call).entries =
        table.entriesFrom (iterateCursor table slots call)
          (iterateCursor table slots (call + 1) - iterateCursor table slots call)) ∧
      (∀ call < last, (iterateCall table slots call).result = .insufficientBuffer →
        slots call < (iterateCall table slots call).count) ∧
      (List.range last).flatMap (fun call => (iterateCall table slots call).entries) = table.entries := by
  let listed (call : Nat) : List EbpfHashBucketEntry :=
    (List.range call).flatMap fun call => (iterateCall table slots call).entries
  have listed_succ : ∀ call, listed (call + 1) = listed call ++ (iterateCall table slots call).entries := by
    intro call
    simp [listed, List.range_succ, List.flatMap_append]
  -- the calls so far have listed the buckets below the cursor, and within two calls the cursor
  -- moves on: the induction is on the buckets left
  suffices progress : ∀ left call, table.bucketCount.toNat - iterateCursor table slots call = left →
      iterateCursor table slots call ≤ table.bucketCount.toNat →
      listed call = table.entriesFrom 0 (iterateCursor table slots call) →
      (∀ earlier < call, IterateCallWhole table slots earlier) →
      ∃ last, (iterateCall table slots last).result = .noMoreKeys ∧
        (∀ earlier < last, IterateCallWhole table slots earlier) ∧ listed last = table.entries by
    obtain ⟨last, finished, earlier, whole⟩ :=
      progress _ 0 rfl (Nat.zero_le _) rfl fun _ none => absurd none (Nat.not_lt_zero _)
    exact ⟨last, finished, fun call below => (earlier call below).1, fun call below => (earlier call below).2.1,
      fun call below => (earlier call below).2.2, whole⟩
  intro left
  induction left using Nat.strong_induction_on with
  | _ left ih =>
  intro call distance within before earlier
  have moves : ∀ {later next : Nat}, call < later → iterateCursor table slots later = next →
      iterateCursor table slots call < next → next ≤ table.bucketCount.toNat →
      listed later = table.entriesFrom 0 next → (∀ earlier < later, IterateCallWhole table slots earlier) →
      ∃ last, (iterateCall table slots last).result = .noMoreKeys ∧
        (∀ earlier < last, IterateCallWhole table slots earlier) ∧ listed last = table.entries := by
    intro later next _ cursor moved high listedLater earlierLater
    exact ih (table.bucketCount.toNat - next) (by omega) later (by rw [cursor]) (by rw [cursor]; exact high)
      (by rw [cursor]; exact listedLater) earlierLater
  by_cases atEnd : iterateCursor table slots call = table.bucketCount.toNat
  · -- the cursor is at the end: this call reports that there are no more keys
    refine ⟨call, ?_, earlier, ?_⟩
    · simp [iterateCall, ebpfHashTableIterate, atEnd]
    · rw [before, atEnd]
      rfl
  have inside : iterateCursor table slots call < table.bucketCount.toNat := by omega
  rcases iterate_cases fits inside (room call) with ⟨refused, tooBig⟩ | ⟨next, moved, high, copied⟩
  · -- refused: the next call is given room for the bucket, so it copies it
    have thisCall : iterateCall table slots call =
        ⟨.insufficientBuffer, iterateCursor table slots call,
          (table.buckets (iterateCursor table slots call)).length, []⟩ := refused
    have stays : iterateCursor table slots (call + 1) = iterateCursor table slots call := by
      rw [iterateCursor_succ, thisCall]
    have enough : (table.buckets (iterateCursor table slots call)).length ≤ slots (call + 1) := by
      simpa [thisCall] using retries call (by rw [thisCall])
    rcases iterate_cases fits (stays ▸ inside) (room (call + 1)) with ⟨-, tooBig'⟩ | ⟨next, moved, high, copied⟩
    · rw [stays] at tooBig'
      omega
    · have nextCall : iterateCall table slots (call + 1) =
          ⟨.success, next, (table.entriesFrom (iterateCursor table slots call) (next - iterateCursor table slots call)).length,
            table.entriesFrom (iterateCursor table slots call) (next - iterateCursor table slots call)⟩ := by
        rw [← stays]
        exact copied
      rw [stays] at moved
      refine moves (by omega : call < call + 2) (by rw [iterateCursor_succ, nextCall]) moved high ?_ ?_
      · rw [listed_succ, listed_succ, before, thisCall, nextCall, List.append_nil]
        exact entriesFrom_prefix_append table moved.le
      · intro earlier' below
        rcases Nat.lt_or_ge earlier' call with old | new
        · exact earlier earlier' old
        · rcases Nat.eq_or_lt_of_le new with rfl | later
          · refine ⟨.inr (by rw [thisCall]), ?_, fun _ => ?_⟩
            · rw [thisCall, stays, Nat.sub_self]
              rfl
            · rw [thisCall]
              exact tooBig
          · have same : earlier' = call + 1 := by omega
            subst same
            refine ⟨.inl (by rw [nextCall]), ?_, fun refusedAgain => ?_⟩
            · rw [nextCall, iterateCursor_succ table slots (call + 1), nextCall, stays]
            · rw [nextCall] at refusedAgain
              cases refusedAgain
  · -- whole buckets were copied and the cursor moved past them
    have thisCall : iterateCall table slots call =
        ⟨.success, next, (table.entriesFrom (iterateCursor table slots call) (next - iterateCursor table slots call)).length,
          table.entriesFrom (iterateCursor table slots call) (next - iterateCursor table slots call)⟩ := copied
    refine moves (Nat.lt_succ_self call) (by rw [iterateCursor_succ, thisCall]) moved high ?_ ?_
    · rw [listed_succ, before, thisCall]
      exact entriesFrom_prefix_append table moved.le
    · intro earlier' below
      rcases Nat.lt_or_ge earlier' call with old | new
      · exact earlier earlier' old
      · have same : earlier' = call := by omega
        subst same
        refine ⟨.inl (by rw [thisCall]), ?_, fun refused => ?_⟩
        · rw [thisCall, iterateCursor_succ, thisCall]
        · rw [thisCall] at refused
          cases refused

end Iterate

end EbpfWindows.Runtime
