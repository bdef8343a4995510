import EbpfWindows.Runtime.HashTable.Spec
import EbpfWindows.Runtime.HashTable.Bounded
import EbpfWindows.Lib.Simulation

/-! The hash table refines a bounded finite map.

`Represents` ties a table to the map: every entry sits in the bucket its key
hashes to, no bucket holds two keys with one view, the entries are exactly the
map's bindings, the count is the map's size when a limit is set, and every
entry's backup bucket has room for the entries before it.

Every size the operations compute stays below `2^64` while the buckets fit
(`BucketsFit`), and every operation keeps them fitting: an insert into a bucket
without room fails before it builds anything. In a table without a limit that
failure changes nothing, so every run of such a table refines the map, whose
inserts may then be refused. A counted table still takes one off its count
after the failure, so its refinement is stated for runs short enough that no
bucket fills.
-/

set_option autoImplicit false

namespace EbpfWindows.Runtime

open Bytes

/-! ## The representation -/

/-- The backup buckets of a bucket of `count` entries: none for the first entry, and
room for `position` entries for the entry at `position`. -/
def backupLayout (count : Nat) : List (Option Nat) :=
  (List.range count).map fun position => if position = 0 then none else some position

/-- The value a bucket holds under a view. -/
def EbpfHashTable.bucketValue (table : EbpfHashTable) (bucket : List EbpfHashBucketEntry)
    (view : Nat × List UInt8 × UInt8) : Option (List UInt8) :=
  (KeyedList.find table.entryView bucket view).map EbpfHashBucketEntry.data

structure Represents (table : EbpfHashTable) (contents : BoundedMap) : Prop where
  placed : ∀ index, ∀ entry ∈ table.buckets index, ebpfHashTableComputeBucketIndex table entry.key = index
  unique : ∀ index, ((table.buckets index).map table.entryView).Nodup
  stored : ∀ view value, contents.lookup view = some value ↔
    ∃ index, table.bucketValue (table.buckets index) view = some value
  counted : table.counting → table.entryCount.toNat = contents.size
  bounded : table.counting → contents.size ≤ table.maxEntryCount.toNat
  backups : ∀ index, (table.buckets index).map EbpfHashBucketEntry.backupCount = backupLayout (table.buckets index).length

/-- Every bucket's size fits in `size_t`. -/
def EbpfHashTable.BucketsFit (table : EbpfHashTable) : Prop :=
  ∀ index, BucketFits table.keySize (table.buckets index).length

namespace Represents

variable {table : EbpfHashTable} {contents : BoundedMap}

theorem bucket_of_bucketValue (represents : Represents table contents) {index : Nat} {key : List UInt8}
    {value : List UInt8} (holds : table.bucketValue (table.buckets index) (keyView table key) = some value) :
    index = ebpfHashTableComputeBucketIndex table key := by
  obtain ⟨entry, found, -⟩ := Option.map_eq_some_iff.mp holds
  have sameView : table.entryView entry = keyView table key := by simpa using List.find?_some found
  exact (represents.placed index entry (List.mem_of_find?_eq_some found)).symm.trans
    (EbpfHashTable.computeBucketIndex_eq_of_keyView_eq sameView)

theorem length_le (represents : Represents table contents) (index : Nat) :
    (table.buckets index).length ≤ contents.size := by
  have views : ((table.buckets index).map table.entryView).toFinset ⊆ contents.keys := by
    intro view member
    obtain ⟨entry, entryMember, rfl⟩ := List.mem_map.mp (List.mem_toFinset.mp member)
    have found : KeyedList.find table.entryView (table.buckets index) (table.entryView entry) = some entry :=
      (KeyedList.find_eq_some_iff (represents.unique index)).mpr ⟨entryMember, rfl⟩
    have bound := (represents.stored (table.entryView entry) entry.data).mpr
      ⟨index, by simp [EbpfHashTable.bucketValue, found]⟩
    exact Finmap.mem_keys.mpr (Finmap.mem_iff.mpr ⟨entry.data, bound⟩)
  calc (table.buckets index).length
      = ((table.buckets index).map table.entryView).toFinset.card := by
        rw [List.toFinset_card_of_nodup (represents.unique index), List.length_map]
    _ ≤ contents.size := Finset.card_le_card views

theorem exists_keyView_of_mem (represents : Represents table contents) {view : Nat × List UInt8 × UInt8}
    (member : view ∈ contents) : ∃ key, view = keyView table key := by
  obtain ⟨value, bound⟩ := Finmap.mem_iff.mp member
  obtain ⟨index, holds⟩ := (represents.stored view value).mp bound
  obtain ⟨entry, found, -⟩ := Option.map_eq_some_iff.mp holds
  have sameView : table.entryView entry = view := by simpa using List.find?_some found
  exact ⟨entry.key, sameView.symm⟩

theorem find_bucket (represents : Represents table contents) (key : List UInt8) :
    table.bucketValue (table.buckets (ebpfHashTableComputeBucketIndex table key)) (keyView table key) =
      contents.lookup (keyView table key) := by
  cases bound : contents.lookup (keyView table key) with
  | some value =>
    obtain ⟨index, holds⟩ := (represents.stored _ _).mp bound
    rwa [← represents.bucket_of_bucketValue holds]
  | none =>
    rw [Option.eq_none_iff_forall_ne_some]
    intro value holds
    have := (represents.stored _ value).mpr ⟨_, holds⟩
    simp [bound] at this

theorem bucketsFit (represents : Represents table contents) (fits : LayoutFits table.keySize contents.size) :
    table.BucketsFit :=
  fun index => fits.bucketFits.mono (Nat.le_succ_of_le (represents.length_le index))

theorem searchBucket_eq (fits : table.BucketsFit) (key : List UInt8) (index : Nat) :
    searchBucket table key (table.buckets index) 0 =
      some (KeyedList.findIndex table.entryView (table.buckets index) (keyView table key)) := by
  have bucketFits := fits index
  unfold BucketFits at bucketFits
  have offsets := EbpfWindows.Runtime.searchBucket_eq table key (table.buckets index) 0 fun position bound =>
    bucketEntry_isSome (by simp at bound; nlinarith)
  simpa using offsets

theorem find_eq (represents : Represents table contents) (fits : table.BucketsFit)
    (key : List UInt8) : ebpfHashTableFind table key = contents.find (keyView table key) := by
  have binding := represents.find_bucket key
  unfold ebpfHashTableFind BoundedMap.find
  generalize ebpfHashTableComputeBucketIndex table key = index at binding ⊢
  rw [← binding, EbpfHashTable.bucketValue]
  by_cases empty : table.buckets index = []
  · simp [empty]
  · rw [if_neg empty, searchBucket_eq fits key index]
    dsimp only
    by_cases found : KeyedList.findIndex table.entryView (table.buckets index) (keyView table key) <
        (table.buckets index).length
    · rw [KeyedList.find_eq_getElem_findIndex found, List.getElem?_eq_getElem found]
      rfl
    · have atEnd := Nat.le_antisymm List.findIdx_le_length (Nat.le_of_not_lt found)
      have absent : KeyedList.find table.entryView (table.buckets index) (keyView table key) = none :=
        KeyedList.find_eq_none_iff.mpr (KeyedList.findIndex_eq_length_iff.mp atEnd)
      rw [absent, List.getElem?_eq_none (Nat.le_of_not_lt found)]
      rfl

end Represents

/-! ## Publishing a bucket -/

/-- How `_ebpf_hash_table_replace_bucket` ends: the outcome of its switch, with the new
bucket published on success and only the count kept on failure. -/
def EbpfHashTable.publish (table : EbpfHashTable) (bucketIndex : Nat) :
    Except EbpfResult (List EbpfHashBucketEntry) × UInt64 → EbpfResult × EbpfHashTable
  | (.error result, entryCount) => (result, { table with entryCount })
  | (.ok newBucket, entryCount) =>
    (.success, { table with entryCount, buckets := Function.update table.buckets bucketIndex newBucket })

/-- The limit on the number of keys a table enforces. -/
def EbpfHashTable.limit (table : EbpfHashTable) : Option Nat :=
  if table.counting then some table.maxEntryCount.toNat else none

/-- The copy of a key the table stores, its first `key_size` bytes, has the key's view:
what the comparison reads of the key lies within them. -/
def EbpfHashTable.StoresKey (table : EbpfHashTable) (key : List UInt8) : Prop :=
  keyView table (readBytes key 0 table.keySize.toNat) = keyView table key

section Configuration

variable (table : EbpfHashTable) (entryCount : UInt64) (buckets : Nat → List EbpfHashBucketEntry)

-- a published table differs from the old one in its count and buckets only
@[simp] theorem computeBucketIndex_withBuckets :
    ebpfHashTableComputeBucketIndex { table with entryCount, buckets } = ebpfHashTableComputeBucketIndex table := rfl

@[simp] theorem entryView_withBuckets :
    EbpfHashTable.entryView { table with entryCount, buckets } = table.entryView := rfl

@[simp] theorem bucketValue_withBuckets :
    EbpfHashTable.bucketValue { table with entryCount, buckets } = table.bucketValue := rfl

@[simp] theorem keyView_withBuckets : keyView { table with entryCount, buckets } = keyView table := rfl

@[simp] theorem newData_withBuckets : newData { table with entryCount, buckets } = newData table := rfl

@[simp] theorem limit_withBuckets : EbpfHashTable.limit { table with entryCount, buckets } = table.limit := rfl

@[simp] theorem counting_withBuckets : EbpfHashTable.counting { table with entryCount, buckets } ↔ table.counting :=
  Iff.rfl

end Configuration

theorem EbpfHashTable.BucketsFit.replace {table : EbpfHashTable} (fits : table.BucketsFit) (entryCount : UInt64)
    {index : Nat} {newBucket : List EbpfHashBucketEntry} (newFits : BucketFits table.keySize newBucket.length) :
    EbpfHashTable.BucketsFit { table with entryCount, buckets := Function.update table.buckets index newBucket } := by
  intro other
  by_cases here : other = index
  · subst here
    simpa using newFits
  · simpa [Function.update_of_ne here] using fits other

theorem publish_error (table : EbpfHashTable) (bucketIndex : Nat) (result : EbpfResult) :
    table.publish bucketIndex (.error result, table.entryCount) = (result, table) := rfl

theorem storesKey_of_extract {table : EbpfHashTable} {key : List UInt8}
    (extracts : ∀ extract, table.extract = some extract →
      extract (readBytes key 0 table.keySize.toNat) = extract key) :
    table.StoresKey key := by
  unfold EbpfHashTable.StoresKey keyView
  cases extraction : table.extract with
  | some extract => simp only [extracts extract extraction]
  | none =>
    have copy := readBytes_length_self (readBytes key 0 table.keySize.toNat)
    rw [length_readBytes] at copy
    simp only [copy]

theorem backupLayout_succ (count : Nat) :
    backupLayout (count + 1) = backupLayout count ++ [if count = 0 then none else some count] := by
  simp [backupLayout, List.range_succ]

theorem backupLayout_dropLast (count : Nat) : (backupLayout count).dropLast = backupLayout (count - 1) := by
  cases count with
  | zero => rfl
  | succ count => rw [backupLayout_succ, List.dropLast_concat, Nat.add_sub_cancel]

theorem map_zipWith_inheritBackup {β : Type} (project : EbpfHashBucketEntry → β)
    (keeps : ∀ entry old, project (inheritBackup entry old) = project entry) :
    ∀ {entries olds : List EbpfHashBucketEntry}, entries.length = olds.length →
      (List.zipWith inheritBackup entries olds).map project = entries.map project
  | [], [], _ => rfl
  | entry :: entries, old :: olds, length => by
    simp only [List.zipWith_cons_cons, List.map_cons, keeps,
      map_zipWith_inheritBackup project keeps (by simpa using length)]

theorem backups_zipWith_inheritBackup :
    ∀ {entries olds : List EbpfHashBucketEntry}, entries.length = olds.length →
      (List.zipWith inheritBackup entries olds).map EbpfHashBucketEntry.backupBucket =
        olds.map EbpfHashBucketEntry.backupBucket
  | [], [], _ => rfl
  | entry :: entries, old :: olds, length => by
    simp only [List.zipWith_cons_cons, List.map_cons, inheritBackup,
      backups_zipWith_inheritBackup (by simpa using length)]

theorem map_backupCount_of_backups {first second : List EbpfHashBucketEntry}
    (same : first.map EbpfHashBucketEntry.backupBucket = second.map EbpfHashBucketEntry.backupBucket) :
    first.map EbpfHashBucketEntry.backupCount = second.map EbpfHashBucketEntry.backupCount := by
  have counts := congrArg (List.map (Option.map EbpfHashBackupBucket.count)) same
  rw [List.map_map, List.map_map] at counts
  exact counts

theorem placed_of_keys {table : EbpfHashTable} {entries others : List EbpfHashBucketEntry} {index : Nat}
    (keys : entries.map EbpfHashBucketEntry.key = others.map EbpfHashBucketEntry.key)
    (placed : ∀ entry ∈ others, ebpfHashTableComputeBucketIndex table entry.key = index) :
    ∀ entry ∈ entries, ebpfHashTableComputeBucketIndex table entry.key = index := by
  intro entry member
  have listed : entry.key ∈ others.map EbpfHashBucketEntry.key := keys ▸ List.mem_map_of_mem member
  obtain ⟨other, otherMember, sameKey⟩ := List.mem_map.mp listed
  rw [← sameKey]
  exact placed other otherMember

namespace Represents

variable {table : EbpfHashTable} {contents : BoundedMap}

theorem empty (empty : ∀ index, table.buckets index = []) (zero : table.entryCount = 0) :
    Represents table ∅ where
  placed index entry member := by simp [empty] at member
  unique index := by simp [empty]
  stored view value := by simp [empty, EbpfHashTable.bucketValue]
  counted _ := by simp [zero, BoundedMap.size]
  bounded _ := by simp [BoundedMap.size]
  backups index := by simp [empty, backupLayout]

theorem mem_iff_findIndex_lt (represents : Represents table contents) (key : List UInt8) :
    keyView table key ∈ contents ↔
      KeyedList.findIndex table.entryView (table.buckets (ebpfHashTableComputeBucketIndex table key))
        (keyView table key) < (table.buckets (ebpfHashTableComputeBucketIndex table key)).length := by
  rw [KeyedList.findIndex_lt_length_iff, ← Finmap.lookup_isSome, ← represents.find_bucket key,
    EbpfHashTable.bucketValue, Option.isSome_map, ← Option.ne_none_iff_isSome, Ne, KeyedList.find_eq_none_iff,
    not_not]

theorem replaceBucket (represents : Represents table contents) {key : List UInt8} {next : BoundedMap}
    {entryCount : UInt64} {oldBucket newBucket : List EbpfHashBucketEntry}
    (old : table.buckets (ebpfHashTableComputeBucketIndex table key) = oldBucket)
    (placedNew : ∀ entry ∈ newBucket,
      ebpfHashTableComputeBucketIndex table entry.key = ebpfHashTableComputeBucketIndex table key)
    (uniqueNew : (newBucket.map table.entryView).Nodup)
    (valueNew : ∀ view, table.bucketValue newBucket view =
      if view = keyView table key then next.lookup view else table.bucketValue oldBucket view)
    (others : ∀ view, view ≠ keyView table key → next.lookup view = contents.lookup view)
    (countedNew : table.counting → entryCount.toNat = next.size)
    (boundedNew : table.counting → next.size ≤ table.maxEntryCount.toNat)
    (backupsNew : newBucket.map EbpfHashBucketEntry.backupCount = backupLayout newBucket.length) :
    Represents
      { table with entryCount,
                   buckets := Function.update table.buckets (ebpfHashTableComputeBucketIndex table key) newBucket }
      next := by
  subst old
  constructor
  case placed =>
    intro index entry member
    simp only [computeBucketIndex_withBuckets]
    by_cases here : index = ebpfHashTableComputeBucketIndex table key
    · subst here
      exact placedNew entry (by simpa using member)
    · exact represents.placed index entry (by simpa [Function.update_of_ne here] using member)
  case unique =>
    intro index
    simp only [entryView_withBuckets]
    by_cases here : index = ebpfHashTableComputeBucketIndex table key
    · subst here
      simpa using uniqueNew
    · simpa [Function.update_of_ne here] using represents.unique index
  case stored =>
    intro view value
    simp only [bucketValue_withBuckets]
    by_cases sameView : view = keyView table key
    · -- only the published bucket can hold the key's view
      subst sameView
      constructor
      · intro bound
        refine ⟨ebpfHashTableComputeBucketIndex table key, ?_⟩
        rw [Function.update_self, valueNew, if_pos rfl]
        exact bound
      · rintro ⟨index, holds⟩
        by_cases here : index = ebpfHashTableComputeBucketIndex table key
        · subst here
          rw [Function.update_self, valueNew, if_pos rfl] at holds
          exact holds
        · rw [Function.update_of_ne here] at holds
          exact absurd (represents.bucket_of_bucketValue holds) here
    · rw [others view sameView, represents.stored]
      refine exists_congr fun index => ?_
      by_cases here : index = ebpfHashTableComputeBucketIndex table key
      · subst here
        rw [Function.update_self, valueNew, if_neg sameView]
      · rw [Function.update_of_ne here]
  case counted => exact countedNew
  case bounded => exact boundedNew
  case backups =>
    intro index
    by_cases here : index = ebpfHashTableComputeBucketIndex table key
    · subst here
      simpa using backupsNew
    · simpa [Function.update_of_ne here] using represents.backups index

theorem insertEntry (represents : Represents table contents) {key : List UInt8} {oldBucket : List EbpfHashBucketEntry}
    (old : table.buckets (ebpfHashTableComputeBucketIndex table key) = oldBucket)
    (absent : keyView table key ∉ contents) {entry : EbpfHashBucketEntry}
    (view : keyView table entry.key = keyView table key)
    (backup : entry.backupCount = if oldBucket = [] then none else some oldBucket.length) {entryCount : UInt64}
    (countedNew : table.counting → entryCount.toNat = contents.size + 1)
    (boundedNew : table.counting → contents.size + 1 ≤ table.maxEntryCount.toNat) :
    Represents
      { table with entryCount,
                   buckets := Function.update table.buckets (ebpfHashTableComputeBucketIndex table key)
                     (oldBucket ++ [entry]) }
      (contents.insert (keyView table key) entry.data) := by
  subst old
  have absentBucket : table.entryView entry ∉
      (table.buckets (ebpfHashTableComputeBucketIndex table key)).map table.entryView := by
    intro member
    exact absent ((represents.mem_iff_findIndex_lt key).mpr
      (KeyedList.findIndex_lt_length_iff.mpr (view ▸ member)))
  have placedNew : ∀ stored ∈ table.buckets (ebpfHashTableComputeBucketIndex table key) ++ [entry],
      ebpfHashTableComputeBucketIndex table stored.key = ebpfHashTableComputeBucketIndex table key := by
    intro stored member
    rcases List.mem_append.mp member with inOld | isNew
    · exact represents.placed _ stored inOld
    · rw [List.mem_singleton.mp isNew]
      exact EbpfHashTable.computeBucketIndex_eq_of_keyView_eq view
  have valueNew : ∀ other, table.bucketValue (table.buckets (ebpfHashTableComputeBucketIndex table key) ++ [entry])
      other = if other = keyView table key then (contents.insert (keyView table key) entry.data).lookup other
        else table.bucketValue (table.buckets (ebpfHashTableComputeBucketIndex table key)) other := by
    intro other
    rw [EbpfHashTable.bucketValue, KeyedList.find_append_of_not_mem absentBucket]
    by_cases same : other = keyView table key
    · subst same
      simp [EbpfHashTable.entryView, view]
    · simp [same, EbpfHashTable.entryView, view, Ne.symm same, EbpfHashTable.bucketValue]
  have backupsNew : (table.buckets (ebpfHashTableComputeBucketIndex table key) ++ [entry]).map
      EbpfHashBucketEntry.backupCount =
        backupLayout (table.buckets (ebpfHashTableComputeBucketIndex table key) ++ [entry]).length := by
    simp [represents.backups, backupLayout_succ, backup]
  exact represents.replaceBucket rfl placedNew (KeyedList.nodup_append_of_not_mem (represents.unique _) absentBucket)
    valueNew (fun other different => Finmap.lookup_insert_of_ne _ different)
    (fun counting => (BoundedMap.size_insert_of_not_mem _ _ _ absent).symm ▸ countedNew counting)
    (fun counting => (BoundedMap.size_insert_of_not_mem _ _ _ absent).symm ▸ boundedNew counting) backupsNew

theorem updateEntry (represents : Represents table contents) {key data : List UInt8}
    (present : keyView table key ∈ contents) :
    Represents
      { table with buckets := Function.update table.buckets (ebpfHashTableComputeBucketIndex table key)
                     ((table.buckets (ebpfHashTableComputeBucketIndex table key)).modify
                       (KeyedList.findIndex table.entryView (table.buckets (ebpfHashTableComputeBucketIndex table key))
                         (keyView table key)) fun entry => { entry with data }) }
      (contents.insert (keyView table key) data) := by
  generalize oldBucketEq : table.buckets (ebpfHashTableComputeBucketIndex table key) = oldBucket
  have found := (represents.mem_iff_findIndex_lt key).mp present
  rw [oldBucketEq] at found
  generalize indexEq : KeyedList.findIndex table.entryView oldBucket (keyView table key) = index at found
  have sameKeys : (oldBucket.modify index fun entry => { entry with data }).map EbpfHashBucketEntry.key =
      oldBucket.map EbpfHashBucketEntry.key := by
    apply KeyedList.map_modify
    intro _
    rfl
  have sameViews : (oldBucket.modify index fun entry => { entry with data }).map table.entryView =
      oldBucket.map table.entryView := by
    apply KeyedList.map_modify
    intro _
    rfl
  have sameBackups : (oldBucket.modify index fun entry => { entry with data }).map EbpfHashBucketEntry.backupCount =
      oldBucket.map EbpfHashBucketEntry.backupCount := by
    apply KeyedList.map_modify
    intro _
    rfl
  have valueNew : ∀ other, table.bucketValue (oldBucket.modify index fun entry => { entry with data }) other =
      if other = keyView table key then (contents.insert (keyView table key) data).lookup other
        else table.bucketValue oldBucket other := by
    intro other
    subst indexEq
    have keepsView : ∀ entry : EbpfHashBucketEntry, table.entryView { entry with data } = table.entryView entry :=
      fun _ => rfl
    rw [EbpfHashTable.bucketValue, KeyedList.find_modify_findIndex keepsView,
      KeyedList.find_eq_getElem_findIndex found]
    by_cases same : other = keyView table key
    · subst same
      simp
    · simp [same, Ne.symm same, EbpfHashTable.bucketValue]
  have placedOld := represents.placed (ebpfHashTableComputeBucketIndex table key)
  have uniqueOld := represents.unique (ebpfHashTableComputeBucketIndex table key)
  have backupsOld := represents.backups (ebpfHashTableComputeBucketIndex table key)
  rw [oldBucketEq] at placedOld uniqueOld backupsOld
  have unchangedSize := BoundedMap.size_insert_of_mem _ _ data present
  exact represents.replaceBucket oldBucketEq (placed_of_keys sameKeys placedOld) (sameViews ▸ uniqueOld) valueNew
    (fun other different => Finmap.lookup_insert_of_ne _ different)
    (fun counting => unchangedSize.symm ▸ represents.counted counting)
    (fun counting => unchangedSize.symm ▸ represents.bounded counting)
    (by rw [sameBackups, backupsOld, List.length_modify])

theorem deleteEntry (represents : Represents table contents) {key : List UInt8}
    (present : keyView table key ∈ contents) {entryCount : UInt64}
    (countedNew : table.counting → entryCount.toNat + 1 = contents.size) :
    Represents
      { table with entryCount,
                   buckets := Function.update table.buckets (ebpfHashTableComputeBucketIndex table key)
                     (List.zipWith inheritBackup
                       ((table.buckets (ebpfHashTableComputeBucketIndex table key)).eraseIdx
                         (KeyedList.findIndex table.entryView (table.buckets (ebpfHashTableComputeBucketIndex table key))
                           (keyView table key)))
                       (table.buckets (ebpfHashTableComputeBucketIndex table key)).dropLast) }
      (contents.erase (keyView table key)) := by
  generalize oldBucketEq : table.buckets (ebpfHashTableComputeBucketIndex table key) = oldBucket
  have found := (represents.mem_iff_findIndex_lt key).mp present
  rw [oldBucketEq] at found
  have placedOld := represents.placed (ebpfHashTableComputeBucketIndex table key)
  have uniqueOld := represents.unique (ebpfHashTableComputeBucketIndex table key)
  have backupsOld := represents.backups (ebpfHashTableComputeBucketIndex table key)
  rw [oldBucketEq] at placedOld uniqueOld backupsOld
  generalize indexEq : KeyedList.findIndex table.entryView oldBucket (keyView table key) = index at found
  have lengths : (oldBucket.eraseIdx index).length = oldBucket.dropLast.length := by
    rw [List.length_eraseIdx_of_lt found, List.length_dropLast]
  have sameKeys := map_zipWith_inheritBackup EbpfHashBucketEntry.key (fun _ _ => rfl) lengths
  have sameViews := map_zipWith_inheritBackup table.entryView (fun _ _ => rfl) lengths
  have sameBindings := map_zipWith_inheritBackup (fun entry => (table.entryView entry, entry.data))
    (fun _ _ => rfl) lengths
  have valueNew : ∀ other, table.bucketValue (List.zipWith inheritBackup (oldBucket.eraseIdx index) oldBucket.dropLast)
      other = if other = keyView table key then (contents.erase (keyView table key)).lookup other
        else table.bucketValue oldBucket other := by
    intro other
    subst indexEq
    rw [EbpfHashTable.bucketValue, KeyedList.find_map_congr sameBindings, KeyedList.find_eraseIdx_findIndex uniqueOld]
    by_cases same : other = keyView table key
    · subst same
      simp
    · simp [same, Ne.symm same, EbpfHashTable.bucketValue]
  have placedRest : ∀ entry ∈ oldBucket.eraseIdx index,
      ebpfHashTableComputeBucketIndex table entry.key = ebpfHashTableComputeBucketIndex table key :=
    fun entry member => placedOld entry (List.mem_of_mem_eraseIdx member)
  have backupsNew : (List.zipWith inheritBackup (oldBucket.eraseIdx index) oldBucket.dropLast).map
      EbpfHashBucketEntry.backupCount =
        backupLayout (List.zipWith inheritBackup (oldBucket.eraseIdx index) oldBucket.dropLast).length := by
    rw [map_backupCount_of_backups (backups_zipWith_inheritBackup lengths), List.map_dropLast, backupsOld, backupLayout_dropLast,
      List.length_zipWith, lengths, Nat.min_self, List.length_dropLast]
  have erasedSize := BoundedMap.size_erase_of_mem _ _ present
  exact represents.replaceBucket oldBucketEq (placed_of_keys sameKeys placedRest)
    (sameViews ▸ KeyedList.nodup_eraseIdx uniqueOld index) valueNew
    (fun other different => Finmap.lookup_erase_ne different)
    (fun counting => by have := countedNew counting; omega)
    (fun counting => by have := represents.bounded counting; omega) backupsNew

end Represents

/-! ## One operation -/

/-- What a changing operation did to a represented map: the specified outcome, a failure
of the environment that left the map as it was, or, where `full` allows it, a refusal
with `EBPF_ARITHMETIC_OVERFLOW` that left it as it was. The table afterwards represents
the map afterwards, which has at most one key more, and its buckets still fit. -/
def Changed (environment : HashTableEnvironment) (full : Prop) (contents : BoundedMap)
    (specified : EbpfResult × BoundedMap) (outcome : EbpfResult × EbpfHashTable) : Prop :=
  ∃ next, ((outcome.1, next) = specified ∨ environment.Failure outcome.1 ∧ next = contents ∨
      full ∧ outcome.1 = .arithmeticOverflow ∧ next = contents) ∧
    Represents outcome.2 next ∧ outcome.2.BucketsFit ∧ next.size ≤ contents.size + 1

namespace Changed

variable {environment : HashTableEnvironment} {full : Prop} {contents : BoundedMap}
  {specified : EbpfResult × BoundedMap} {table : EbpfHashTable} {result : EbpfResult}

theorem unchanged (represents : Represents table contents) (fits : table.BucketsFit)
    (same : specified = (result, contents)) : Changed environment full contents specified (result, table) :=
  ⟨contents, Or.inl same.symm, represents, fits, Nat.le_succ _⟩

theorem failure (represents : Represents table contents) (fits : table.BucketsFit)
    (failed : environment.Failure result) : Changed environment full contents specified (result, table) :=
  ⟨contents, Or.inr (Or.inl ⟨failed, rfl⟩), represents, fits, Nat.le_succ _⟩

theorem overflow (represents : Represents table contents) (fits : table.BucketsFit) (allowed : full) :
    Changed environment full contents specified (.arithmeticOverflow, table) :=
  ⟨contents, Or.inr (Or.inr ⟨allowed, rfl, rfl⟩), represents, fits, Nat.le_succ _⟩

theorem success {next : BoundedMap} {published : EbpfHashTable} (represents : Represents published next)
    (fits : published.BucketsFit) (same : specified = (.success, next)) (size : next.size ≤ contents.size + 1) :
    Changed environment full contents specified (.success, published) :=
  ⟨next, Or.inl same.symm, represents, fits, size⟩

end Changed

theorem EbpfHashTable.BucketsFit.ebpfHashTableReplaceBucket_eq {table : EbpfHashTable} (fits : table.BucketsFit)
    (key : List UInt8) (value : Option (List UInt8))
    (operation : EbpfHashBucketOperation) (environment : HashTableEnvironment) :
    ebpfHashTableReplaceBucket table key value operation environment =
      if operation ≠ .delete ∧ !environment.newDataAllocated then (.noMemory, table)
      else if operation ≠ .delete ∧ table.notifies notificationTypeAllocate ∧
          environment.allocateNotification ≠ .success then (environment.allocateNotification, table)
      else table.publish (ebpfHashTableComputeBucketIndex table key)
        (replaceBucketOutcome table key operation environment
          (table.buckets (ebpfHashTableComputeBucketIndex table key))
          (KeyedList.findIndex table.entryView (table.buckets (ebpfHashTableComputeBucketIndex table key))
            (keyView table key))
          (newData table value)) := by
  unfold ebpfHashTableReplaceBucket
  dsimp only
  rw [Represents.searchBucket_eq fits]
  split_ifs
  · rfl
  · rfl
  · dsimp only
    generalize replaceBucketOutcome table key operation environment _ _ _ = outcome
    rcases outcome with ⟨result | newBucket, entryCount⟩ <;> rfl

namespace Represents

variable {table : EbpfHashTable} {contents : BoundedMap} {environment : HashTableEnvironment} {full : Prop}

theorem insert_changed (represents : Represents table contents) (fits : table.BucketsFit)
    (countFits : table.counting → LayoutFits table.keySize contents.size)
    {key data : List UInt8} (stored : table.StoresKey key) (absent : keyView table key ∉ contents) :
    Changed environment (¬ LayoutFits table.keySize contents.size ∧ keyView table key ∉ contents) contents
      (contents.insertNew table.limit (keyView table key) data)
      (table.publish (ebpfHashTableComputeBucketIndex table key)
        (ebpfHashTableBucketInsert table (table.buckets (ebpfHashTableComputeBucketIndex table key)) key data
          environment)) := by
  have shorter := represents.length_le (ebpfHashTableComputeBucketIndex table key)
  by_cases room : LayoutFits table.keySize (table.buckets (ebpfHashTableComputeBucketIndex table key)).length
  swap
  · -- no room: the size checks fail before anything is built
    have uncounted : ¬ table.counting := fun counting => room ((countFits counting).mono shorter)
    rw [ebpfHashTableBucketInsert_of_full (fits _) room, if_neg uncounted, publish_error]
    exact Changed.overflow represents fits ⟨fun whole => room (whole.mono shorter), absent⟩
  rw [ebpfHashTableBucketInsert_eq room]
  have succToNat : table.counting → (table.entryCount + 1).toNat = contents.size + 1 := fun counting => by
    have countSmall : contents.size + 1 < 2 ^ 64 := by
      have whole := countFits counting
      unfold LayoutFits at whole
      nlinarith
    rw [UInt64.toNat_add, represents.counted counting, UInt64.toNat_one, Nat.mod_eq_of_lt countSmall]
  by_cases reachedLimit : table.counting ∧ table.entryCount + 1 > table.maxEntryCount
  · -- the limit is reached
    obtain ⟨counting, above⟩ := reachedLimit
    have reached : table.maxEntryCount.toNat = contents.size := by
      have atMost := represents.bounded counting
      rw [gt_iff_lt, UInt64.lt_iff_toNat_lt, succToNat counting] at above
      omega
    rw [if_pos ⟨counting, above⟩, publish_error]
    exact Changed.unchanged represents fits
      (by simp [BoundedMap.insertNew, EbpfHashTable.limit, counting, reached])
  rw [if_neg reachedLimit]
  by_cases noBucket : environment.newBucketAllocated = false
  · rw [if_pos noBucket, publish_error]
    exact Changed.failure represents fits
      (HashTableEnvironment.failure_noMemory fun succeeds => by simp [succeeds.2.2.1] at noBucket)
  rw [if_neg noBucket]
  by_cases noBackup : table.buckets (ebpfHashTableComputeBucketIndex table key) ≠ [] ∧
      environment.backupBucket = none
  · rw [if_pos noBackup, publish_error]
    exact Changed.failure represents fits
      (HashTableEnvironment.failure_noMemory fun succeeds => by simpa [noBackup.2] using succeeds.2.2.2.1)
  rw [if_neg noBackup]
  have below : table.counting → contents.size + 1 ≤ table.maxEntryCount.toNat := fun counting => by
    have notAbove := reachedLimit
    simp only [counting, true_and, gt_iff_lt, UInt64.lt_iff_toNat_lt, succToNat counting] at notAbove
    omega
  have notReached : table.limit ≠ some contents.size := by
    unfold EbpfHashTable.limit
    split_ifs with counting
    · have := below counting
      simp only [ne_eq, Option.some.injEq]
      omega
    · simp
  have backup : (EbpfHashBucketEntry.mk data
      (if table.buckets (ebpfHashTableComputeBucketIndex table key) = [] then none
        else environment.backupBucket.map fun address =>
          EbpfHashBackupBucket.mk address (table.buckets (ebpfHashTableComputeBucketIndex table key)).length)
      (readBytes key 0 table.keySize.toNat)).backupCount =
        if table.buckets (ebpfHashTableComputeBucketIndex table key) = [] then none
        else some (table.buckets (ebpfHashTableComputeBucketIndex table key)).length := by
    unfold EbpfHashBucketEntry.backupCount
    split_ifs with empty
    · rfl
    · obtain ⟨address, allocated⟩ := Option.ne_none_iff_exists'.mp fun missing => noBackup ⟨empty, missing⟩
      simp [allocated]
  refine Changed.success (represents.insertEntry rfl absent (by exact stored) backup ?_ below)
    (fits.replace _ (by rw [List.length_append, List.length_singleton]; exact room.bucketFits)) ?_
    (by rw [BoundedMap.size_insert_of_not_mem _ _ _ absent])
  · intro counting
    simp [counting, succToNat counting]
  · simp [BoundedMap.insertNew, notReached]

theorem update_changed (represents : Represents table contents) (fits : table.BucketsFit)
    {key data : List UInt8} (present : keyView table key ∈ contents) :
    Changed environment full contents (.success, contents.insert (keyView table key) data)
      (table.publish (ebpfHashTableComputeBucketIndex table key)
        (ebpfHashTableBucketUpdate table (table.buckets (ebpfHashTableComputeBucketIndex table key))
          (KeyedList.findIndex table.entryView (table.buckets (ebpfHashTableComputeBucketIndex table key))
            (keyView table key)) data environment, table.entryCount)) := by
  rw [ebpfHashTableBucketUpdate_eq (fits _) ((represents.mem_iff_findIndex_lt key).mp present)]
  split_ifs with noBucket
  · rw [publish_error]
    exact Changed.failure represents fits
      (HashTableEnvironment.failure_noMemory fun succeeds => by simp [succeeds.2.2.1] at noBucket)
  · exact Changed.success (represents.updateEntry present)
      (fits.replace _ (by rw [List.length_modify]; exact fits _)) rfl
      (by rw [BoundedMap.size_insert_of_mem _ _ _ present]; omega)

theorem delete_changed (represents : Represents table contents) (fits : table.BucketsFit)
    {key : List UInt8} (present : keyView table key ∈ contents) :
    Changed environment full contents (.success, contents.erase (keyView table key))
      (table.publish (ebpfHashTableComputeBucketIndex table key)
        (ebpfHashTableBucketDelete table (table.buckets (ebpfHashTableComputeBucketIndex table key))
          (KeyedList.findIndex table.entryView (table.buckets (ebpfHashTableComputeBucketIndex table key))
            (keyView table key)))) := by
  have erasedSize := BoundedMap.size_erase_of_mem _ _ present
  rw [ebpfHashTableBucketDelete_eq (fits _) ((represents.mem_iff_findIndex_lt key).mp present)]
  refine Changed.success (represents.deleteEntry present ?_)
    (fits.replace _ ((fits (ebpfHashTableComputeBucketIndex table key)).mono
      (by simp only [List.length_zipWith, List.length_dropLast]; exact (Nat.min_le_right _ _).trans (Nat.sub_le _ _))))
    rfl
    (by omega)
  intro counting
  have count := represents.counted counting
  have positive : (1 : UInt64) ≤ table.entryCount := by
    rw [UInt64.le_iff_toNat_le, UInt64.toNat_one]
    omega
  simp only [counting, if_true, UInt64.toNat_sub_of_le _ _ positive, UInt64.toNat_one]
  omega

theorem update_step (represents : Represents table contents) (fits : table.BucketsFit)
    (countFits : table.counting → LayoutFits table.keySize contents.size)
    {key : List UInt8} (stored : table.StoresKey key) (value : Option (List UInt8))
    (operation : EbpfHashTableOperations) (environment : HashTableEnvironment) :
    Changed environment (¬ LayoutFits table.keySize contents.size ∧ keyView table key ∉ contents) contents
      (contents.update table.limit (keyView table key) (newData table value) operation)
      (ebpfHashTableUpdate table key value operation environment) := by
  unfold ebpfHashTableUpdate
  rw [fits.ebpfHashTableReplaceBucket_eq]
  split_ifs with noData allocationFailed
  · exact Changed.failure represents fits
      (HashTableEnvironment.failure_noMemory fun succeeds => by simp [succeeds.1] at noData)
  · exact Changed.failure represents fits
      (HashTableEnvironment.failure_allocateNotification allocationFailed.2.2)
  · -- the switch of `_ebpf_hash_table_replace_bucket` on whether the view is bound
    by_cases present : keyView table key ∈ contents
    · have found := Nat.ne_of_lt ((represents.mem_iff_findIndex_lt key).mp present)
      cases operation with
      | any =>
        simp only [replaceBucketOutcome, ne_eq, found, not_false_eq_true, if_true, BoundedMap.update, present]
        exact represents.update_changed fits present
      | insert =>
        simp only [replaceBucketOutcome, ne_eq, found, not_false_eq_true, if_true, BoundedMap.update, present,
          publish_error]
        exact Changed.unchanged represents fits rfl
      | replace =>
        simp only [replaceBucketOutcome, ne_eq, found, not_false_eq_true, if_true, BoundedMap.update, present]
        exact represents.update_changed fits present
    · have atEnd := (KeyedList.findIndex_eq_length_iff.mpr
        (mt (represents.mem_iff_findIndex_lt key).mpr present ∘ KeyedList.findIndex_lt_length_iff.mpr))
      cases operation with
      | any =>
        simp only [replaceBucketOutcome, atEnd, ne_eq, not_true_eq_false, if_false, BoundedMap.update,
          if_neg present]
        exact represents.insert_changed fits countFits stored present
      | insert =>
        simp only [replaceBucketOutcome, atEnd, ne_eq, not_true_eq_false, if_false, BoundedMap.update,
          if_neg present]
        exact represents.insert_changed fits countFits stored present
      | replace =>
        simp only [replaceBucketOutcome, atEnd, ne_eq, not_true_eq_false, if_false, BoundedMap.update, present,
          publish_error]
        exact Changed.unchanged represents fits rfl

theorem delete_step (represents : Represents table contents) (fits : table.BucketsFit)
    (key : List UInt8) (environment : HashTableEnvironment) :
    Changed environment False contents (contents.delete (keyView table key))
      (ebpfHashTableDelete table key environment) := by
  unfold ebpfHashTableDelete
  rw [fits.ebpfHashTableReplaceBucket_eq]
  simp only [ne_eq, not_true_eq_false, false_and, if_false]
  by_cases present : keyView table key ∈ contents
  · have found := (represents.mem_iff_findIndex_lt key).mp present
    have nonempty : table.buckets (ebpfHashTableComputeBucketIndex table key) ≠ [] := by
      intro empty
      simp [empty] at found
    simp only [replaceBucketOutcome, ne_eq, Nat.ne_of_lt found, not_false_eq_true, decide_true, Bool.not_true,
      Bool.false_eq_true, if_false, ebpfHashTableBucketDeleteValidate_eq (fits _) nonempty,
      BoundedMap.delete, present, if_true]
    split_ifs with preFreeFailed
    · rw [publish_error]
      exact Changed.failure represents fits (HashTableEnvironment.failure_preFreeNotification preFreeFailed.2)
    · exact represents.delete_changed fits present
  · have atEnd := (KeyedList.findIndex_eq_length_iff.mpr
      (mt (represents.mem_iff_findIndex_lt key).mpr present ∘ KeyedList.findIndex_lt_length_iff.mpr))
    simp only [replaceBucketOutcome, atEnd, ne_eq, not_true_eq_false, decide_false, Bool.not_false, if_true,
      BoundedMap.delete, present, if_false, publish_error]
    exact Changed.unchanged represents fits rfl

theorem apply_step (represents : Represents table contents) (fits : table.BucketsFit)
    (countFits : table.counting → LayoutFits table.keySize contents.size)
    (operation : HashTableOperation) (stored : table.StoresKey operation.key) :
    ∃ next, (BoundedMapStep (keyView table) (newData table) table.limit contents operation
          (operation.apply table).1 next ∨
        ¬ LayoutFits table.keySize contents.size ∧
          OverflowStep (keyView table) contents operation (operation.apply table).1 next) ∧
      Represents (operation.apply table).2 next ∧ (operation.apply table).2.BucketsFit ∧
        next.size ≤ contents.size + 1 := by
  cases operation with
  | update key value operation environment =>
    obtain ⟨next, outcome, nextRepresents, nextFits, size⟩ :=
      represents.update_step fits countFits stored value operation environment
    refine ⟨next, ?_, nextRepresents, nextFits, size⟩
    rcases outcome with specified | ⟨failed, rfl⟩ | ⟨⟨passed, absent⟩, overflowed, rfl⟩
    · exact Or.inl (Or.inl ⟨specified, rfl⟩)
    · exact Or.inl (Or.inr ⟨failed, rfl, rfl⟩)
    · exact Or.inr ⟨passed, absent, Prod.ext overflowed rfl, rfl⟩
  | delete key environment =>
    obtain ⟨next, outcome, nextRepresents, nextFits, size⟩ := represents.delete_step fits key environment
    refine ⟨next, Or.inl ?_, nextRepresents, nextFits, size⟩
    rcases outcome with specified | ⟨failed, rfl⟩ | ⟨impossible, -⟩
    · exact Or.inl ⟨specified, rfl⟩
    · exact Or.inr ⟨failed, rfl, rfl⟩
    · exact impossible.elim
  | find key =>
    exact ⟨contents, Or.inl ⟨represents.find_eq fits key, rfl⟩, represents, fits, Nat.le_succ _⟩

end Represents

theorem ebpfHashTableReplaceBucket_withBuckets (table : EbpfHashTable) (key : List UInt8)
    (value : Option (List UInt8)) (operation : EbpfHashBucketOperation) (environment : HashTableEnvironment) :
    ∃ entryCount buckets,
      (ebpfHashTableReplaceBucket table key value operation environment).2 = { table with entryCount, buckets } := by
  unfold ebpfHashTableReplaceBucket
  dsimp only
  split_ifs
  · exact ⟨table.entryCount, table.buckets, rfl⟩
  · exact ⟨table.entryCount, table.buckets, rfl⟩
  · split
    · exact ⟨table.entryCount, table.buckets, rfl⟩
    · split
      · exact ⟨_, table.buckets, rfl⟩
      · exact ⟨_, _, rfl⟩

theorem HashTableOperation.apply_withBuckets (table : EbpfHashTable) (operation : HashTableOperation) :
    ∃ entryCount buckets, (operation.apply table).2 = { table with entryCount, buckets } := by
  cases operation with
  | update key value operation environment =>
    exact ebpfHashTableReplaceBucket_withBuckets table key value _ environment
  | delete key environment => exact ebpfHashTableReplaceBucket_withBuckets table key none .delete environment
  | find key => exact ⟨table.entryCount, table.buckets, rfl⟩

/-! ## Runs from a created table -/

theorem ebpfHashTableCreate_eq_ok {options : EbpfHashTableCreationOptions} {tableAllocated : Bool}
    {seed : UInt32} {supportsSse42 : Bool} {table : EbpfHashTable}
    (created : ebpfHashTableCreate options tableAllocated seed supportsSse42 = .ok table) :
    (∀ index, table.buckets index = []) ∧ table.entryCount = 0 ∧ table.keySize = options.keySize ∧
      table.extract = options.extractFunction ∧ table.maxEntryCount = options.maxEntries := by
  unfold ebpfHashTableCreate at created
  cases multiply : ebpfSafeSizeTMultiply sizeOfBucketHeaderAndLock (roundedBucketCount options.minimumBucketCount)
    with
  | error => simp [multiply, bind, Except.bind] at created
  | ok tableSize =>
    cases add : ebpfSafeSizeTAdd tableSize offsetOfBuckets with
    | error => simp [multiply, add, bind, Except.bind] at created
    | ok _ =>
      cases tableAllocated
      · simp [multiply, add, bind, Except.bind, throw, throwThe, MonadExceptOf.throw] at created
      · simp only [multiply, add, bind, Except.bind, pure, Except.pure, Bool.not_true, Bool.false_eq_true,
          if_false, Except.ok.injEq] at created
        subst created
        exact ⟨fun _ => rfl, rfl, rfl, rfl, rfl⟩

theorem run_represents {table : EbpfHashTable} {contents : BoundedMap} (represents : Represents table contents)
    (operations : List HashTableOperation) (stored : ∀ operation ∈ operations, table.StoresKey operation.key)
    (fits : LayoutFits table.keySize (contents.size + operations.length)) :
    ∃ final, Simulation.Run (BoundedMapStep (keyView table) (newData table) table.limit) contents operations
        (Simulation.run HashTableOperation.apply table operations).1 final ∧
      Represents (Simulation.run HashTableOperation.apply table operations).2 final := by
  -- the tables along the run keep the configuration, and the bound has room for the steps left
  obtain ⟨final, run, -, finalRepresents, -⟩ := Simulation.run_simulates
    (fun operation => table.StoresKey operation.key)
    (fun remaining (state : EbpfHashTable) (abstract : BoundedMap) =>
      (∃ entryCount buckets, state = { table with entryCount, buckets }) ∧ Represents state abstract ∧
        LayoutFits table.keySize (abstract.size + remaining))
    (fun remaining state abstract operation operationStored ⟨⟨entryCount, buckets, shape⟩, represents, fits⟩ => by
      subst shape
      have sizeFits : LayoutFits table.keySize abstract.size := fits.mono (Nat.le_add_right _ _)
      obtain ⟨next, step, nextRepresents, -, size⟩ :=
        represents.apply_step (represents.bucketsFit sizeFits) (fun _ => sizeFits) operation operationStored
      have step : BoundedMapStep (keyView table) (newData table) table.limit abstract operation
          (operation.apply _).1 next := step.resolve_right fun ⟨passed, _⟩ => passed sizeFits
      rw [keyView_withBuckets, newData_withBuckets, limit_withBuckets] at step
      obtain ⟨nextCount, nextBuckets, nextShape⟩ := HashTableOperation.apply_withBuckets _ operation
      exact ⟨next, step, ⟨nextCount, nextBuckets, nextShape⟩, nextRepresents, fits.mono (by omega)⟩)
    operations table contents stored ⟨⟨table.entryCount, table.buckets, rfl⟩, represents, fits⟩
  exact ⟨final, run, finalRepresents⟩

theorem run_represents_unlimited {table : EbpfHashTable} {contents : BoundedMap}
    (represents : Represents table contents) (fits : table.BucketsFit) (uncounted : ¬ table.counting)
    (operations : List HashTableOperation) (stored : ∀ operation ∈ operations, table.StoresKey operation.key) :
    ∃ final, Simulation.Run (UnboundedMapStep (keyView table) (newData table)) contents operations
        (Simulation.run HashTableOperation.apply table operations).1 final ∧
      Represents (Simulation.run HashTableOperation.apply table operations).2 final ∧
        (Simulation.run HashTableOperation.apply table operations).2.BucketsFit := by
  have noLimit : table.limit = none := by simp [EbpfHashTable.limit, uncounted]
  obtain ⟨final, run, -, finalRepresents, finalFits⟩ := Simulation.run_simulates
    (fun operation => table.StoresKey operation.key)
    (fun _ (state : EbpfHashTable) (abstract : BoundedMap) =>
      (∃ entryCount buckets, state = { table with entryCount, buckets }) ∧ Represents state abstract ∧
        state.BucketsFit)
    (fun _ state abstract operation operationStored ⟨⟨entryCount, buckets, shape⟩, represents, fits⟩ => by
      subst shape
      obtain ⟨next, step, nextRepresents, nextFits, -⟩ :=
        represents.apply_step fits (fun counting => absurd counting uncounted) operation operationStored
      rw [keyView_withBuckets, newData_withBuckets, limit_withBuckets, noLimit] at step
      have step : UnboundedMapStep (keyView table) (newData table) abstract operation (operation.apply _).1 next :=
        step.imp_right And.right
      obtain ⟨nextCount, nextBuckets, nextShape⟩ := HashTableOperation.apply_withBuckets _ operation
      exact ⟨next, step, ⟨nextCount, nextBuckets, nextShape⟩, nextRepresents, nextFits⟩)
    operations table contents stored ⟨⟨table.entryCount, table.buckets, rfl⟩, represents, fits⟩
  exact ⟨final, run, finalRepresents, finalFits⟩

theorem storesKey_of_created {options : EbpfHashTableCreationOptions} {seed : UInt32} {supportsSse42 : Bool}
    {table : EbpfHashTable} (created : ebpfHashTableCreate options true seed supportsSse42 = .ok table)
    (extracts : ∀ extract, options.extractFunction = some extract →
      ∀ key, extract (readBytes key 0 options.keySize.toNat) = extract key)
    (key : List UInt8) : table.StoresKey key := by
  obtain ⟨-, -, sameKeySize, sameExtract, -⟩ := ebpfHashTableCreate_eq_ok created
  apply storesKey_of_extract
  intro extract extraction
  rw [sameKeySize]
  exact extracts extract (sameExtract ▸ extraction) key

theorem hash_table_refines_bounded_map {options : EbpfHashTableCreationOptions} {seed : UInt32}
    {supportsSse42 : Bool} {table : EbpfHashTable}
    (created : ebpfHashTableCreate options true seed supportsSse42 = .ok table)
    (extracts : ∀ extract, options.extractFunction = some extract →
      ∀ key, extract (readBytes key 0 options.keySize.toNat) = extract key)
    (operations : List HashTableOperation)
    (short : (options.keySize.toNat + 16) * (operations.length + 1) + 32 < 2 ^ 64) :
    ∃ final, Simulation.Run (BoundedMapStep (keyView table) (newData table) table.limit) ∅ operations
        (Simulation.run HashTableOperation.apply table operations).1 final ∧
      Represents (Simulation.run HashTableOperation.apply table operations).2 final := by
  obtain ⟨empty, zero, sameKeySize, -, -⟩ := ebpfHashTableCreate_eq_ok created
  refine run_represents (Represents.empty empty zero) operations
    (fun operation _ => storesKey_of_created created extracts operation.key) ?_
  unfold LayoutFits
  rw [sameKeySize]
  simpa [BoundedMap.size] using short

theorem hash_table_refines_bounded_map_on_four_byte_keys :
    ∃ table, ebpfHashTableCreate
        { keySize := 4, valueSize := 4, extractFunction := none, minimumBucketCount := 0, maxEntries := 1,
          notificationCallback := false, notificationFlags := 0 } true 0 false = .ok table ∧
      ∃ final, Simulation.Run (BoundedMapStep (keyView table) (newData table) table.limit) ∅
          [.update [1, 2, 3, 4] (some [5, 6, 7, 8]) .any
            ⟨true, .success, true, some 4096, .success⟩, .find [1, 2, 3, 4]]
          (Simulation.run HashTableOperation.apply table
            [.update [1, 2, 3, 4] (some [5, 6, 7, 8]) .any ⟨true, .success, true, some 4096, .success⟩,
              .find [1, 2, 3, 4]]).1 final ∧
        Represents (Simulation.run HashTableOperation.apply table
          [.update [1, 2, 3, 4] (some [5, 6, 7, 8]) .any ⟨true, .success, true, some 4096, .success⟩,
            .find [1, 2, 3, 4]]).2 final :=
  ⟨_, rfl, @hash_table_refines_bounded_map
    { keySize := 4, valueSize := 4, extractFunction := none, minimumBucketCount := 0, maxEntries := 1,
      notificationCallback := false, notificationFlags := 0 } 0 false _ rfl (fun _ none => by simp at none) _
    (by decide)⟩

theorem unlimited_hash_table_refines_map {options : EbpfHashTableCreationOptions} {seed : UInt32}
    {supportsSse42 : Bool} {table : EbpfHashTable}
    (created : ebpfHashTableCreate options true seed supportsSse42 = .ok table)
    (unlimited : options.maxEntries = ebpfHashTableNoLimit)
    (extracts : ∀ extract, options.extractFunction = some extract →
      ∀ key, extract (readBytes key 0 options.keySize.toNat) = extract key)
    (operations : List HashTableOperation) :
    ∃ final, Simulation.Run (UnboundedMapStep (keyView table) (newData table)) ∅ operations
        (Simulation.run HashTableOperation.apply table operations).1 final ∧
      Represents (Simulation.run HashTableOperation.apply table operations).2 final := by
  obtain ⟨empty, zero, -, -, sameLimit⟩ := ebpfHashTableCreate_eq_ok created
  have fits : table.BucketsFit := fun index => by simp [BucketFits, empty index]
  have uncounted : ¬ table.counting := by simp [EbpfHashTable.counting, sameLimit, unlimited]
  obtain ⟨final, run, represents, -⟩ := run_represents_unlimited (Represents.empty empty zero) fits uncounted
    operations fun operation _ => storesKey_of_created created extracts operation.key
  exact ⟨final, run, represents⟩

end EbpfWindows.Runtime
