import EbpfWindows.Runtime.PinningTable
import EbpfWindows.Runtime.ObjectLifetime
import EbpfWindows.Runtime.HashTable.Entries

/-! The pinning table's hash table as a map of paths.

The key of an entry is the entry's address, the view of its key is the entry's path, and
its value is the address again: the table holds a path-keyed map
(`PinningTableHolds`), with each path one that passed the checks of
`ebpf_pinning_table_insert`. The lemmas say what the hash table's find, insert and delete
do to that map when each call reads the memory of its moment, and in what order the
table's comparison puts the paths.
-/

set_option autoImplicit false

namespace EbpfWindows.Runtime

open Bytes EbpfHashTable
open EbpfWindows.ExecutionContext (ebpfMaxPinPathLength)

/-! ## Pointers and paths as the hash table sees them -/

@[simp] theorem pointerAt_uint64Bytes (pointer : UInt64) : pointerAt (uint64Bytes pointer) = pointer := by
  have whole : readBytes (uint64Bytes pointer) 0 8 = uint64Bytes pointer := readBytes_length_self _
  rw [pointerAt, whole, littleEndian_uint64Bytes]
  exact UInt64.ofNat_toNat

/-- The view of a key that points to `path`. -/
def pathView (path : List UInt8) : Nat × List UInt8 × UInt8 := (path.length * 8, path, 0)

theorem pathView_injective : Function.Injective pathView := by
  intro first second same
  simp only [pathView, Prod.mk.injEq] at same
  exact same.2.1

section Reading

variable (table : EbpfHashTable) (memory : PinningMemory)

@[simp] theorem readingMemory_keySize : (table.readingMemory memory).keySize = table.keySize := rfl

@[simp] theorem readingMemory_entries : (table.readingMemory memory).entries = table.entries := rfl

@[simp] theorem readingMemory_readingMemory (other : PinningMemory) :
    (table.readingMemory memory).readingMemory other = table.readingMemory other := rfl

theorem bucketsFit_readingMemory : (table.readingMemory memory).BucketsFit ↔ table.BucketsFit := Iff.rfl

theorem keyView_readingMemory (key : List UInt8) :
    keyView (table.readingMemory memory) key = pathView (memory.strings (pointerAt key)) := by
  simp [keyView, EbpfHashTable.readingMemory, ebpfPinningTableExtract, pathView]

theorem storesKey_readingMemory (pointer : UInt64) (keySize : table.keySize = 8) :
    (table.readingMemory memory).StoresKey (uint64Bytes pointer) := by
  unfold EbpfHashTable.StoresKey
  rw [readingMemory_keySize, keySize, keyView_readingMemory, keyView_readingMemory]
  rfl

theorem newData_readingMemory (pointer : UInt64) (valueSize : table.valueSize = 8) :
    newData (table.readingMemory memory) (some (uint64Bytes pointer)) = uint64Bytes pointer := by
  simp only [newData, EbpfHashTable.readingMemory, valueSize]
  exact readBytes_length_self _

end Reading

/-! ## The order of paths -/

theorem readBytes_cons_succ (byte : UInt8) (rest : List UInt8) (count : Nat) :
    readBytes (byte :: rest) 0 (count + 1) = byte :: readBytes rest 0 count := by
  simp [readBytes, List.range_succ_eq_map]

@[simp] theorem compareUtf8Strings_nil_nil : compareUtf8Strings [] [] = 0 := rfl

@[simp] theorem compareUtf8Strings_nil_cons (byte : UInt8) (rest : List UInt8) :
    compareUtf8Strings [] (byte :: rest) = -1 := by
  simp [compareUtf8Strings, readBytes, memcmp]

@[simp] theorem compareUtf8Strings_cons_nil (byte : UInt8) (rest : List UInt8) :
    compareUtf8Strings (byte :: rest) [] = 1 := by
  simp [compareUtf8Strings, readBytes, memcmp]

theorem compareUtf8Strings_cons_cons (first second : UInt8) (firstRest secondRest : List UInt8) :
    compareUtf8Strings (first :: firstRest) (second :: secondRest) =
      if first < second then -1 else if second < first then 1 else compareUtf8Strings firstRest secondRest := by
  have shorter : (if firstRest.length + 1 < secondRest.length + 1 then firstRest.length + 1 else secondRest.length + 1) =
      (if firstRest.length < secondRest.length then firstRest.length else secondRest.length) + 1 := by
    split_ifs <;> omega
  simp only [compareUtf8Strings, List.length_cons, shorter, readBytes_cons_succ, memcmp]
  split_ifs <;> first | rfl | omega

theorem compareUtf8Strings_neg_iff : ∀ {first second : List UInt8},
    compareUtf8Strings first second < 0 ↔ first < second
  | [], [] => by simp
  | [], _ :: _ => by simp [List.nil_lt_cons]
  | _ :: _, [] => by simp [List.not_lt_nil]
  | first :: firstRest, second :: secondRest => by
    rw [compareUtf8Strings_cons_cons, List.cons_lt_cons_iff]
    by_cases below : first < second
    · simp [below]
    · by_cases above : second < first
      · have different : first ≠ second := fun same => UInt8.lt_irrefl _ (same ▸ above)
        simp [below, above, different]
      · have same : first = second := UInt8.le_antisymm (UInt8.not_lt.mp above) (UInt8.not_lt.mp below)
        subst same
        simp [compareUtf8Strings_neg_iff]

theorem compareUtf8Strings_eq_zero_iff : ∀ {first second : List UInt8},
    compareUtf8Strings first second = 0 ↔ first = second
  | [], [] => by simp
  | [], _ :: _ => by simp
  | _ :: _, [] => by simp
  | first :: firstRest, second :: secondRest => by
    rw [compareUtf8Strings_cons_cons]
    by_cases below : first < second
    · have different : first ≠ second := fun same => UInt8.lt_irrefl _ (same ▸ below)
      simp [below, different]
    · by_cases above : second < first
      · have different : first ≠ second := fun same => UInt8.lt_irrefl _ (same ▸ above)
        simp [below, above, different]
      · have same : first = second := UInt8.le_antisymm (UInt8.not_lt.mp above) (UInt8.not_lt.mp below)
        subst same
        simp [compareUtf8Strings_eq_zero_iff]

theorem compareUtf8Strings_swap : ∀ (first second : List UInt8),
    compareUtf8Strings second first = -compareUtf8Strings first second
  | [], [] => rfl
  | [], _ :: _ => by simp
  | _ :: _, [] => by simp
  | first :: firstRest, second :: secondRest => by
    rw [compareUtf8Strings_cons_cons, compareUtf8Strings_cons_cons, compareUtf8Strings_swap firstRest secondRest]
    by_cases below : first < second
    · simp [below, UInt8.lt_asymm below]
    · by_cases above : second < first
      · simp [below, above]
      · simp [below, above]

theorem compareUtf8Strings_threeWayOn : Successor.ThreeWayOn compareUtf8Strings Set.univ where
  irrefl path _ := by
    rw [compareUtf8Strings_neg_iff]
    exact List.lt_irrefl _
  trans first _ second _ third _ below above := by
    rw [compareUtf8Strings_neg_iff] at below above ⊢
    exact List.lt_trans below above
  trichotomous first _ second _ := by
    rw [compareUtf8Strings_swap first]
    rcases lt_trichotomy (compareUtf8Strings first second) 0 with below | same | above
    · exact .inl below
    · exact .inr (.inl (compareUtf8Strings_eq_zero_iff.mp same))
    · exact .inr (.inr (by omega))
  flip first _ second _ := by
    rw [compareUtf8Strings_swap first]
    omega

/-! ## The table's configuration -/

theorem uint64Bytes_injective : Function.Injective uint64Bytes := fun first second same => by
  rw [← pointerAt_uint64Bytes first, same, pointerAt_uint64Bytes]

/-- The configuration `ebpf_pinning_table_allocate` gives the hash table: pointer keys and
values, no limit and no notification callback. -/
structure PinningTableShaped (table : EbpfHashTable) : Prop where
  keySize : table.keySize = 8
  valueSize : table.valueSize = 8
  uncounted : ¬ table.counting
  silent : table.notificationCallback = false

namespace PinningTableShaped

variable {table : EbpfHashTable}

theorem limit (shaped : PinningTableShaped table) : table.limit = none := by
  simp [EbpfHashTable.limit, shaped.uncounted]

theorem quiet (shaped : PinningTableShaped table) (type : UInt32) : ¬ table.notifies type := by
  simp [EbpfHashTable.notifies, shaped.silent]

theorem readingMemory (shaped : PinningTableShaped table) (memory : PinningMemory) :
    PinningTableShaped (table.readingMemory memory) :=
  ⟨shaped.keySize, shaped.valueSize, shaped.uncounted, shaped.silent⟩

theorem replaceBucket (shaped : PinningTableShaped table) (key : List UInt8) (value : Option (List UInt8))
    (operation : EbpfHashBucketOperation) (environment : HashTableEnvironment) :
    PinningTableShaped (ebpfHashTableReplaceBucket table key value operation environment).2 := by
  obtain ⟨entryCount, buckets, shape⟩ := ebpfHashTableReplaceBucket_withBuckets table key value operation environment
  rw [shape]
  exact ⟨shaped.keySize, shaped.valueSize, shaped.uncounted, shaped.silent⟩

end PinningTableShaped

theorem ebpfHashTableCreate_notificationCallback {options : EbpfHashTableCreationOptions} {tableAllocated : Bool}
    {seed : UInt32} {supportsSse42 : Bool} {table : EbpfHashTable}
    (created : ebpfHashTableCreate options tableAllocated seed supportsSse42 = .ok table) :
    table.notificationCallback = options.notificationCallback := by
  unfold ebpfHashTableCreate at created
  cases multiply : ebpfSafeSizeTMultiply sizeOfBucketHeaderAndLock (roundedBucketCount options.minimumBucketCount)
    with
  | error => simp [multiply, bind, Except.bind] at created
  | ok tableSize =>
    cases add : ebpfSafeSizeTAdd tableSize offsetOfBuckets with
    | error => simp [multiply, add, bind, Except.bind] at created
    | ok _ =>
      cases tableAllocated
      · simp [multiply, add, bind, Except.bind, throw, throwThe, MonadExceptOf.throw] at created
      · simp only [multiply, add, bind, Except.bind, pure, Except.pure, Bool.not_true, Bool.false_eq_true,
          if_false, Except.ok.injEq] at created
        subst created
        rfl

theorem ebpfPinningTableAllocate_eq_ok {memory : PinningMemory} {tableAllocated hashTableAllocated : Bool}
    {seed : UInt32} {supportsSse42 : Bool} {table : EbpfHashTable}
    (allocated : ebpfPinningTableAllocate memory tableAllocated hashTableAllocated seed supportsSse42 = .ok table) :
    PinningTableShaped table ∧ (∀ index, table.buckets index = []) ∧ table.entryCount = 0 := by
  unfold ebpfPinningTableAllocate at allocated
  split_ifs at allocated
  obtain ⟨empty, zero, keySize, -, limit⟩ := ebpfHashTableCreate_eq_ok allocated
  exact ⟨⟨keySize, ebpfHashTableCreate_valueSize allocated, by simp [EbpfHashTable.counting, limit, pinningTableOptions],
    ebpfHashTableCreate_notificationCallback allocated⟩, empty, zero⟩

theorem readingMemory_replaceBucket (table : EbpfHashTable) (memory : PinningMemory) (key : List UInt8)
    (value : Option (List UInt8)) (operation : EbpfHashBucketOperation) (environment : HashTableEnvironment) :
    (ebpfHashTableReplaceBucket (table.readingMemory memory) key value operation environment).2.readingMemory memory =
      (ebpfHashTableReplaceBucket (table.readingMemory memory) key value operation environment).2 := by
  obtain ⟨entryCount, buckets, shape⟩ :=
    ebpfHashTableReplaceBucket_withBuckets (table.readingMemory memory) key value operation environment
  rw [shape]
  rfl

/-! ## What the table holds -/

/-- The addresses of the pinning entries the table holds, in bucket order. -/
def EbpfHashTable.pinnedEntries (table : EbpfHashTable) : List UInt64 :=
  table.entries.map fun entry => pointerAt entry.data

/-- The entry the table holds for `path`, read through the memory. -/
def EbpfHashTable.pinnedEntry (table : EbpfHashTable) (memory : PinningMemory) (path : List UInt8) : Option UInt64 :=
  table.pinnedEntries.find? fun entry => memory.strings entry = path

@[simp] theorem readingMemory_pinnedEntries (table : EbpfHashTable) (memory : PinningMemory) :
    (table.readingMemory memory).pinnedEntries = table.pinnedEntries := rfl

theorem pinnedEntries_eq_bindings (table : EbpfHashTable) :
    table.pinnedEntries = table.bindings.map fun binding => pointerAt binding.2 := by
  simp only [EbpfHashTable.pinnedEntries, EbpfHashTable.bindings, List.map_map]
  rfl

/-- A path `ebpf_pinning_table_insert` accepts: not empty, shorter than
`EBPF_MAX_PIN_PATH_LENGTH`, and with no embedded null terminator. -/
def PathAccepted (path : List UInt8) : Prop :=
  0 < path.length ∧ path.length < ebpfMaxPinPathLength ∧ (0 : UInt8) ∉ path

instance (path : List UInt8) : Decidable (PathAccepted path) :=
  inferInstanceAs (Decidable (_ ∧ _ ∧ _))

theorem pathAccepted_iff (path : List UInt8) :
    PathAccepted path ↔ ¬ (path.length ≥ ebpfMaxPinPathLength ∨ path.length = 0) ∧ path.contains 0 = false := by
  rw [Bool.eq_false_iff, ne_eq, List.contains_iff_mem]
  constructor
  · rintro ⟨positive, short, noNull⟩
    exact ⟨by omega, noNull⟩
  · rintro ⟨lengths, noNull⟩
    exact ⟨by omega, by omega, noNull⟩

/-- The pinning table holds the map `contents` from path views to entry addresses: the
hash table keeps its configuration and its buckets fit; read through the memory it
represents `contents`; the key and the value of each entry are the address of one pinning
entry; and the path of each entry passed the checks of the insert. -/
structure PinningTableHolds (table : EbpfHashTable) (memory : PinningMemory) (contents : BoundedMap) : Prop where
  shaped : PinningTableShaped table
  fits : table.BucketsFit
  represents : Represents (table.readingMemory memory) contents
  stored : ∀ pair ∈ table.pairs, ∃ entry, pair = (uint64Bytes entry, uint64Bytes entry)
  accepted : ∀ entry ∈ table.pinnedEntries, PathAccepted (memory.strings entry)

namespace PinningTableHolds

variable {table : EbpfHashTable} {memory : PinningMemory} {contents : BoundedMap}

theorem entry_stored (holds : PinningTableHolds table memory contents) {entry : EbpfHashBucketEntry}
    (member : entry ∈ table.entries) :
    entry.key = uint64Bytes (pointerAt entry.data) ∧ entry.data = uint64Bytes (pointerAt entry.data) := by
  obtain ⟨pointer, same⟩ := holds.stored (entry.key, entry.data) (List.mem_map_of_mem member)
  simp only [Prod.mk.injEq] at same
  rw [same.1, same.2, pointerAt_uint64Bytes]
  exact ⟨rfl, rfl⟩

theorem entryView_eq (holds : PinningTableHolds table memory contents) {entry : EbpfHashBucketEntry}
    (member : entry ∈ table.entries) :
    (table.readingMemory memory).entryView entry = pathView (memory.strings (pointerAt entry.data)) := by
  rw [EbpfHashTable.entryView, keyView_readingMemory, (holds.entry_stored member).1, pointerAt_uint64Bytes]

theorem lookup_eq_some_iff (holds : PinningTableHolds table memory contents) {view : Nat × List UInt8 × UInt8}
    {value : List UInt8} :
    contents.lookup view = some value ↔
      ∃ entry ∈ table.pinnedEntries, view = pathView (memory.strings entry) ∧ value = uint64Bytes entry := by
  rw [holds.represents.lookup_eq_some_iff, readingMemory_entries]
  constructor
  · rintro ⟨stored, member, rfl, rfl⟩
    exact ⟨pointerAt stored.data, List.mem_map_of_mem member, holds.entryView_eq member, (holds.entry_stored member).2⟩
  · rintro ⟨entry, pinned, rfl, rfl⟩
    obtain ⟨stored, member, rfl⟩ := List.mem_map.mp pinned
    exact ⟨stored, member, holds.entryView_eq member, (holds.entry_stored member).2⟩

theorem nodup_paths (holds : PinningTableHolds table memory contents) :
    (table.pinnedEntries.map memory.strings).Nodup := by
  have views := holds.represents.nodup_entries
  rw [readingMemory_entries, List.map_congr_left fun entry member => holds.entryView_eq member] at views
  have paths : (table.entries.map fun entry => pathView (memory.strings (pointerAt entry.data))) =
      (table.pinnedEntries.map memory.strings).map pathView := by
    simp only [EbpfHashTable.pinnedEntries, List.map_map]
    rfl
  rw [paths] at views
  exact views.of_map _

theorem nodup (holds : PinningTableHolds table memory contents) : table.pinnedEntries.Nodup :=
  holds.nodup_paths.of_map _

theorem pinnedEntry_eq_some_iff (holds : PinningTableHolds table memory contents) {path : List UInt8}
    {entry : UInt64} :
    table.pinnedEntry memory path = some entry ↔ entry ∈ table.pinnedEntries ∧ memory.strings entry = path := by
  unfold EbpfHashTable.pinnedEntry
  constructor
  · intro found
    have passes := List.find?_some found
    exact ⟨List.mem_of_find?_eq_some found, of_decide_eq_true passes⟩
  · rintro ⟨member, rfl⟩
    cases found : table.pinnedEntries.find? (fun other => memory.strings other = memory.strings entry) with
    | none => exact absurd (decide_eq_true rfl) (List.find?_eq_none.mp found entry member)
    | some other =>
      have passes := List.find?_some found
      have samePath : memory.strings other = memory.strings entry := of_decide_eq_true passes
      rw [List.inj_on_of_nodup_map holds.nodup_paths (List.mem_of_find?_eq_some found) member samePath]

theorem lookup_pathView (holds : PinningTableHolds table memory contents) (path : List UInt8) :
    contents.lookup (pathView path) = (table.pinnedEntry memory path).map uint64Bytes := by
  cases found : table.pinnedEntry memory path with
  | some entry =>
    obtain ⟨member, rfl⟩ := holds.pinnedEntry_eq_some_iff.mp found
    exact holds.lookup_eq_some_iff.mpr ⟨entry, member, rfl, rfl⟩
  | none =>
    rw [Option.map_none, Option.eq_none_iff_forall_ne_some]
    intro value bound
    obtain ⟨entry, member, view, -⟩ := holds.lookup_eq_some_iff.mp bound
    have found' := holds.pinnedEntry_eq_some_iff.mpr ⟨member, (pathView_injective view).symm⟩
    rw [found] at found'
    cases found'

theorem mem_iff (holds : PinningTableHolds table memory contents) (path : List UInt8) :
    pathView path ∈ contents ↔ table.pinnedEntry memory path ≠ none := by
  rw [← Finmap.lookup_isSome, holds.lookup_pathView, Option.isSome_map, Option.isSome_iff_ne_none]

theorem write (holds : PinningTableHolds table memory contents) {other : PinningMemory}
    (agree : ∀ entry ∈ table.pinnedEntries, other.strings entry = memory.strings entry) :
    PinningTableHolds table other contents where
  shaped := holds.shaped
  fits := holds.fits
  represents := by
    refine @Represents.of_extract table contents (ebpfPinningTableExtract memory) (ebpfPinningTableExtract other)
      holds.represents fun entry member => ?_
    have pinned : pointerAt entry.data ∈ table.pinnedEntries := List.mem_map_of_mem member
    rw [(holds.entry_stored member).1]
    simp [ebpfPinningTableExtract, agree _ pinned]
  stored := holds.stored
  accepted entry member := agree entry member ▸ holds.accepted entry member

theorem find_eq (holds : PinningTableHolds table memory contents) (path : UInt64) :
    ebpfHashTableFind (table.readingMemory memory) (uint64Bytes path) =
      match table.pinnedEntry memory (memory.strings path) with
      | some entry => (.success, some (uint64Bytes entry))
      | none => (.keyNotFound, none) := by
  rw [holds.represents.find_eq holds.fits, keyView_readingMemory, pointerAt_uint64Bytes, BoundedMap.find,
    holds.lookup_pathView]
  cases table.pinnedEntry memory (memory.strings path) <;> rfl

end PinningTableHolds

theorem pinnedEntries_eq_pairs (table : EbpfHashTable) :
    table.pinnedEntries = table.pairs.map fun pair => pointerAt pair.2 := by
  simp only [EbpfHashTable.pinnedEntries, EbpfHashTable.pairs, List.map_map]
  rfl

/-! ## The hash table calls on the table -/

namespace PinningTableHolds

variable {table : EbpfHashTable} {memory : PinningMemory} {contents : BoundedMap}

theorem writeEntry (holds : PinningTableHolds table memory contents) {entry : UInt64}
    (fresh : entry ∉ table.pinnedEntries) (path : List UInt8) (object : UInt64) :
    PinningTableHolds table (memory.writeEntry entry path object) contents :=
  holds.write fun other member => by
    have different : other ≠ entry := fun same => fresh (same ▸ member)
    simp [PinningMemory.writeEntry, different]

theorem pinned_of_pairs {other : EbpfHashTable} {pair : List UInt8 × List UInt8}
    (pairs : ∀ stored ∈ other.pairs, stored ∈ table.pairs ∨ stored = pair) {entry : UInt64}
    (member : entry ∈ other.pinnedEntries) : entry ∈ table.pinnedEntries ∨ entry = pointerAt pair.2 := by
  rw [pinnedEntries_eq_pairs] at member
  obtain ⟨stored, storedMember, rfl⟩ := List.mem_map.mp member
  rcases pairs stored storedMember with old | rfl
  · exact .inl (by rw [pinnedEntries_eq_pairs]; exact List.mem_map_of_mem old)
  · exact .inr rfl

theorem update_insert (holds : PinningTableHolds table memory contents) {entry : UInt64}
    (accepted : PathAccepted (memory.strings entry)) {environment : HashTableEnvironment}
    {outcome : EbpfResult × EbpfHashTable}
    (updated : ebpfHashTableUpdate (table.readingMemory memory) (uint64Bytes entry) (some (uint64Bytes entry)) .insert
      environment = outcome)
    {next : BoundedMap} (represents : Represents outcome.2 next) (fits : outcome.2.BucketsFit) :
    PinningTableHolds outcome.2 memory next := by
  subst updated
  have pairs := pairs_update_insert (table.readingMemory memory) (uint64Bytes entry) (some (uint64Bytes entry))
    environment
  rw [readingMemory_keySize, holds.shaped.keySize, newData_readingMemory _ _ _ holds.shaped.valueSize,
    show (8 : UInt64).toNat = (uint64Bytes entry).length from rfl, readBytes_length_self] at pairs
  refine ⟨?_, fits, ?_, fun pair member => ?_, fun pinned member => ?_⟩
  · unfold ebpfHashTableUpdate
    exact (holds.shaped.readingMemory memory).replaceBucket _ _ _ environment
  · unfold ebpfHashTableUpdate at represents ⊢
    rw [readingMemory_replaceBucket]
    exact represents
  · rcases pairs pair member with old | rfl
    · exact holds.stored pair old
    · exact ⟨entry, rfl⟩
  · rcases pinned_of_pairs pairs member with old | rfl
    · exact holds.accepted pinned old
    · rw [pointerAt_uint64Bytes]
      exact accepted

theorem delete (holds : PinningTableHolds table memory contents) {key : List UInt8}
    {environment : HashTableEnvironment} {outcome : EbpfResult × EbpfHashTable}
    (deleted : ebpfHashTableDelete (table.readingMemory memory) key environment = outcome)
    {next : BoundedMap} (represents : Represents outcome.2 next) (fits : outcome.2.BucketsFit) :
    PinningTableHolds outcome.2 memory next := by
  subst deleted
  have readingFits : (table.readingMemory memory).BucketsFit := holds.fits
  refine ⟨?_, fits, ?_, fun pair member => ?_, fun pinned member => ?_⟩
  · exact (holds.shaped.readingMemory memory).replaceBucket _ _ _ environment
  · unfold ebpfHashTableDelete at represents ⊢
    rw [readingMemory_replaceBucket]
    exact represents
  · exact holds.stored pair (BucketsFit.pairs_delete readingFits key environment pair member)
  · rw [pinnedEntries_eq_pairs] at member
    obtain ⟨stored, storedMember, rfl⟩ := List.mem_map.mp member
    refine holds.accepted _ ?_
    rw [pinnedEntries_eq_pairs]
    exact List.mem_map_of_mem (BucketsFit.pairs_delete readingFits key environment stored storedMember)

theorem insert_outcome (holds : PinningTableHolds table memory contents) {entry : UInt64}
    (accepted : PathAccepted (memory.strings entry)) {environment : HashTableEnvironment}
    {outcome : EbpfResult × EbpfHashTable}
    (updated : ebpfHashTableUpdate (table.readingMemory memory) (uint64Bytes entry) (some (uint64Bytes entry)) .insert
      environment = outcome) :
    ∃ next, PinningTableHolds outcome.2 memory next ∧
      (outcome.1 = .success → table.pinnedEntry memory (memory.strings entry) = none ∧
        outcome.2.pinnedEntries.Perm (entry :: table.pinnedEntries)) ∧
      (outcome.1 ≠ .success → outcome.2.pinnedEntries.Perm table.pinnedEntries) ∧
      (environment.Succeeds → table.pinnedEntry memory (memory.strings entry) = none →
        LayoutFits 8 contents.size → outcome.1 = .success) := by
  have shaped := holds.shaped.readingMemory memory
  obtain ⟨next, step, represents, fits, -⟩ := holds.represents.update_step holds.fits
    (fun counting => absurd counting shaped.uncounted) (storesKey_readingMemory table memory entry holds.shaped.keySize)
    (some (uint64Bytes entry)) .insert environment
  rw [keyView_readingMemory, pointerAt_uint64Bytes, shaped.limit, newData_readingMemory _ _ _ holds.shaped.valueSize,
    BoundedMap.update_insert_unlimited, readingMemory_keySize, holds.shaped.keySize, updated] at step
  rw [updated] at represents fits
  have absentIff := holds.mem_iff (memory.strings entry)
  have cases : (outcome.1 = .success ∧ pathView (memory.strings entry) ∉ contents ∧
      next = contents.insert (pathView (memory.strings entry)) (uint64Bytes entry)) ∨
      (outcome.1 ≠ .success ∧ next = contents) := by
    rcases step with specified | ⟨failed, rfl⟩ | ⟨-, overflowed, rfl⟩
    · split_ifs at specified with present
      · simp only [Prod.mk.injEq] at specified
        exact .inr ⟨by rw [specified.1]; decide, specified.2⟩
      · simp only [Prod.mk.injEq] at specified
        exact .inl ⟨specified.1, present, specified.2⟩
    · exact .inr ⟨failed.2.1, rfl⟩
    · exact .inr ⟨by rw [overflowed]; decide, rfl⟩
  refine ⟨next, holds.update_insert accepted updated represents fits, fun success => ?_, fun failed => ?_,
    fun succeeds absent room => ?_⟩
  · rcases cases with ⟨-, absent, rfl⟩ | ⟨failed, -⟩
    · refine ⟨not_not.mp (mt absentIff.mpr absent), ?_⟩
      have perm := holds.represents.bindings_perm_insert absent represents
      rw [← readingMemory_pinnedEntries table memory, pinnedEntries_eq_bindings (table.readingMemory memory),
        pinnedEntries_eq_bindings outcome.2]
      simpa using perm.map fun binding => pointerAt binding.2
    · exact absurd success failed
  · rcases cases with ⟨success, -⟩ | ⟨-, rfl⟩
    · exact absurd success failed
    · have perm := holds.represents.bindings_perm represents
      rw [pinnedEntries_eq_bindings outcome.2, ← readingMemory_pinnedEntries table memory,
        pinnedEntries_eq_bindings (table.readingMemory memory)]
      exact perm.map _
  · rcases step with specified | ⟨failed, -⟩ | ⟨⟨overflows, -⟩, -⟩
    · rw [if_neg (mt absentIff.mp (not_not.mpr absent))] at specified
      simp only [Prod.mk.injEq] at specified
      exact specified.1
    · exact absurd succeeds failed.1
    · exact absurd room overflows

theorem insert_present (holds : PinningTableHolds table memory contents) {entry : UInt64}
    (present : table.pinnedEntry memory (memory.strings entry) ≠ none) {environment : HashTableEnvironment}
    (allocated : environment.newDataAllocated = true) :
    ebpfHashTableUpdate (table.readingMemory memory) (uint64Bytes entry) (some (uint64Bytes entry)) .insert
      environment = (.objectAlreadyExists, table.readingMemory memory) := by
  refine holds.represents.update_insert_present holds.fits ?_ _ allocated (holds.shaped.quiet _)
  rw [keyView_readingMemory, pointerAt_uint64Bytes]
  exact (holds.mem_iff _).mpr present

theorem delete_outcome (holds : PinningTableHolds table memory contents) {path entry : UInt64}
    (found : table.pinnedEntry memory (memory.strings path) = some entry) (environment : HashTableEnvironment)
    {outcome : EbpfResult × EbpfHashTable}
    (deleted : ebpfHashTableDelete (table.readingMemory memory) (uint64Bytes path) environment = outcome) :
    outcome.1 = .success ∧ PinningTableHolds outcome.2 memory (contents.erase (pathView (memory.strings path))) ∧
      table.pinnedEntries.Perm (entry :: outcome.2.pinnedEntries) := by
  let succeeding : HashTableEnvironment := ⟨true, .success, true, some 4096, .success⟩
  rw [ebpfHashTableDelete_of_quiet ((holds.shaped.readingMemory memory).quiet _) _ environment succeeding] at deleted
  obtain ⟨next, step, represents, fits, -⟩ := holds.represents.delete_step holds.fits (uint64Bytes path) succeeding
  rw [keyView_readingMemory, pointerAt_uint64Bytes, deleted] at step
  rw [deleted] at represents fits
  have bound : contents.lookup (pathView (memory.strings path)) = some (uint64Bytes entry) := by
    rw [holds.lookup_pathView, found]
    rfl
  have present : pathView (memory.strings path) ∈ contents := Finmap.mem_of_lookup_eq_some bound
  rcases step with specified | ⟨failed, -⟩ | ⟨impossible, -⟩
  · simp only [BoundedMap.delete, if_pos present, Prod.mk.injEq] at specified
    obtain ⟨success, rfl⟩ := specified
    refine ⟨success, holds.delete deleted represents fits, ?_⟩
    have perm := holds.represents.bindings_perm_erase bound represents
    rw [← readingMemory_pinnedEntries table memory, pinnedEntries_eq_bindings (table.readingMemory memory),
      pinnedEntries_eq_bindings outcome.2]
    simpa using perm.map fun binding => pointerAt binding.2
  · exact absurd ⟨rfl, rfl, rfl, rfl, rfl⟩ failed.1
  · exact impossible.elim

end PinningTableHolds

end EbpfWindows.Runtime
