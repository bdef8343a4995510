import EbpfWindows.ExecutionContext.HashMap
import Mathlib.Data.List.GetD

/-! Least-recently-used hash maps (`BPF_MAP_TYPE_LRU_HASH`, `ebpf_maps.c`).

An LRU map is a hash map with a fixed limit whose every stored value carries a key
history entry: per partition (one per CPU, at most eight) a generation, a last used time
and a link into the partition's hot or cold list. The hash table's notifications keep it:
a newly allocated value goes to the hot list of the current CPU's partition, a freed one
leaves every list. A hot list that outgrows its limit is appended to the cold list and a
new generation starts. An update that finds the table full deletes the oldest key at the
heads of the cold lists and tries again.

Key history entries are named by numbers, a new one by the number past the live ones, and
`owners` says which entry belongs to the value stored under each key. The
current CPU and the approximate time are the caller's. Each loop of the source is given
fuel here, and a loop that runs out returns `none`.
-/

set_option autoImplicit false

namespace EbpfWindows.ExecutionContext

open EbpfWindows.Runtime Bytes

def ebpfLruInitialGeneration : UInt64 := 1

def ebpfLruInvalidGeneration : UInt64 := 0xFFFFFFFFFFFFFFFF

def ebpfLruGenerationCount : UInt32 := 10

def ebpfLruMaximumPartitions : UInt32 := 8

/-- `EBPF_MAP_FLAG_HELPER`: the call comes from an eBPF program. -/
def ebpfMapFlagHelper : Nat := 0x01

/-- The notifications of an LRU map's hash table: `ALLOCATE | FREE | USE`. -/
def lruNotificationTypes : UInt32 := notificationTypeAllocate ||| notificationTypeFree ||| notificationTypeUse

inductive EbpfLruKeyState where
  | uninitialized
  | cold
  | hot
  | deleted
  deriving DecidableEq, Repr

/-- `ebpf_lru_entry_t` without its list links, which the partitions' lists stand for. -/
structure EbpfLruEntry where
  generation : List UInt64
  lastUsedTime : List UInt64
  key : List UInt8
  deriving DecidableEq, Repr, Inhabited

/-- `ebpf_lru_partition_t`, its lists as the entries on them from the head. -/
structure EbpfLruPartition where
  hotList : List Nat
  coldList : List Nat
  currentGeneration : UInt64
  hotListSize : UInt64
  hotListLimit : UInt64
  deriving DecidableEq, Repr, Inhabited

/-- `ebpf_core_lru_map_t`, with the key history entries of the stored values. -/
structure EbpfCoreLruMap where
  table : EbpfHashTable
  partitionCount : Nat
  partitions : List EbpfLruPartition
  entries : List (Nat × EbpfLruEntry)
  owners : List (List UInt8 × Nat)

def EbpfLruPartition.mergeHotIntoColdListIfNeeded (partition : EbpfLruPartition) : EbpfLruPartition :=
  if partition.hotListSize ≤ partition.hotListLimit then partition
  else
    { partition with coldList := partition.coldList ++ partition.hotList, hotList := [], hotListSize := 0,
                     currentGeneration := partition.currentGeneration + 1 }

namespace EbpfCoreLruMap

variable (map : EbpfCoreLruMap)

def entry (id : Nat) : Option EbpfLruEntry := map.entries.lookup id

def partition (index : Nat) : EbpfLruPartition := map.partitions.getD index default

def setPartition (index : Nat) (partition : EbpfLruPartition) : EbpfCoreLruMap :=
  { map with partitions := map.partitions.set index partition }

def setEntry (id : Nat) (entry : EbpfLruEntry) : EbpfCoreLruMap :=
  { map with entries := map.entries.map fun (other, old) => (other, if other = id then entry else old) }

/-- The key as the table and the entry keep it: its first `key_size` bytes. -/
def storedKey (key : List UInt8) : List UInt8 := readBytes key 0 map.table.keySize.toNat

/-- The entry of the value stored under a key. -/
def owner (key : List UInt8) : Option Nat := map.owners.lookup (map.storedKey key)

/-- A number past every live entry's. -/
def freshEntry : Nat := map.entries.foldr (fun live next => max next (live.1 + 1)) 0

/-- A new value's memory, its key history entry zeroed. -/
def allocateEntry (id : Nat) : EbpfCoreLruMap :=
  { map with entries := (id, { generation := List.replicate map.partitionCount 0,
                               lastUsedTime := List.replicate map.partitionCount 0,
                               key := List.replicate map.table.keySize.toNat 0 }) :: map.entries }

def getKeyState (partition : Nat) (entry : EbpfLruEntry) : EbpfLruKeyState :=
  let generation := entry.generation.getD partition 0
  if generation = 0 then .uninitialized
  else if generation = ebpfLruInvalidGeneration then .deleted
  else if generation = (map.partition partition).currentGeneration then .hot
  else .cold

/-- What `_initialize_lru_entry` and `_insert_into_hot_list` do under the partition's lock:
the entry takes the partition's generation and the time, goes to the tail of the hot list,
and the hot list is merged if it outgrew its limit. `coldList` is the cold list once the
entry has left it. -/
def moveToHotList (partition id : Nat) (entry : EbpfLruEntry) (time : UInt64) (coldList : List Nat) :
    EbpfCoreLruMap :=
  let current := map.partition partition
  let hot : EbpfLruPartition :=
    { current with hotList := current.hotList ++ [id], coldList, hotListSize := current.hotListSize + 1 }
  (map.setEntry id { entry with generation := entry.generation.set partition current.currentGeneration,
                                lastUsedTime := entry.lastUsedTime.set partition time }).setPartition partition
    hot.mergeHotIntoColdListIfNeeded

def initializeLruEntry (id partition : Nat) (key : List UInt8) (time : UInt64) : EbpfCoreLruMap :=
  match map.entry id with
  | none => map
  | some entry => map.moveToHotList partition id { entry with key := map.storedKey key } time
      (map.partition partition).coldList

def insertIntoHotList (partition id : Nat) (time : UInt64) : EbpfCoreLruMap :=
  match map.entry id with
  | none => map
  | some entry =>
    match map.getKeyState partition entry with
    | .uninitialized => map.moveToHotList partition id entry time (map.partition partition).coldList
    | .cold => map.moveToHotList partition id entry time ((map.partition partition).coldList.erase id)
    | .hot | .deleted => map

/-- One partition of `_uninitialize_lru_entry`: the entry leaves the partition's list and is
marked deleted there. -/
def uninitializeLruEntryIn (id : Nat) (map : EbpfCoreLruMap) (partition : Nat) : EbpfCoreLruMap :=
  match map.entry id with
  | none => map
  | some entry =>
    let current := map.partition partition
    let invalidated :=
      map.setEntry id { entry with generation := entry.generation.set partition ebpfLruInvalidGeneration }
    match map.getKeyState partition entry with
    | .uninitialized => invalidated
    | .cold => invalidated.setPartition partition { current with coldList := current.coldList.erase id }
    | .hot =>
      invalidated.setPartition partition
        { current with hotList := current.hotList.erase id, hotListSize := current.hotListSize - 1 }
    | .deleted => map

def uninitializeLruEntry (id : Nat) : EbpfCoreLruMap :=
  (List.range map.partitionCount).foldl (uninitializeLruEntryIn id) map

/-- The `FREE` notification of a value and the free of its memory. -/
def release (id : Nat) : EbpfCoreLruMap :=
  let uninitialized := map.uninitializeLruEntry id
  { uninitialized with entries := uninitialized.entries.filter (·.1 ≠ id),
                       owners := uninitialized.owners.filter (·.2 ≠ id) }

/-- `ebpf_hash_table_update` on the map's table with the notifications it sends the map:
`ALLOCATE` once the new value is allocated, whose callback always succeeds, then `FREE` of
the new value when the update fails, or of the value it replaced when it succeeds. -/
def lruHashTableUpdate (key : List UInt8) (data : Option (List UInt8)) (operation : EbpfHashTableOperations)
    (cpu : Nat) (time : UInt64) (environment : HashTableEnvironment) : EbpfResult × EbpfCoreLruMap :=
  let (result, table) :=
    ebpfHashTableUpdate map.table key data operation { environment with allocateNotification := .success }
  if !environment.newDataAllocated then (result, { map with table })
  else
    let id := map.freshEntry
    let notified := { (map.allocateEntry id).initializeLruEntry id (cpu % map.partitionCount) key time with table }
    if result = .success then
      let stored := { notified with owners := (map.storedKey key, id) :: notified.owners }
      match map.owner key with
      | some replaced => (result, stored.release replaced)
      | none => (result, stored)
    else (result, notified.release id)

/-- `_delete_hash_map_entry` on an LRU map: the table's delete, then `FREE` of the value. -/
def deleteLruHashMapEntry (key : List UInt8) (environment : HashTableEnvironment) : EbpfResult × EbpfCoreLruMap :=
  let (result, table) := deleteHashMapEntry map.table key environment
  match result, map.owner key with
  | .success, some deleted => (result, { map with table }.release deleted)
  | _, _ => (result, { map with table })

/-- The effective age of an entry: its highest last used time over the partitions. -/
def highestTimestamp (entry : EbpfLruEntry) : UInt64 :=
  (List.range map.partitionCount).foldl (fun highest partition => max highest (entry.lastUsedTime.getD partition 0)) 0

end EbpfCoreLruMap

/-- One partition of a pass of `_reap_lru_cold_lists`, on the map, the oldest entry and its
time so far, and whether a cold list was found nonempty: the head of the partition's cold
list is dropped from it if another partition used its key later, and taken as the oldest
if it is older than the oldest so far. -/
def reapPartition (state : EbpfCoreLruMap × Option Nat × UInt64 × Bool) (partition : Nat) :
    EbpfCoreLruMap × Option Nat × UInt64 × Bool :=
  let (map, oldest, oldestTimestamp, _) := state
  match (map.partition partition).coldList with
  | [] => state
  | id :: _ =>
    match map.entry id with
    | none => (map, oldest, oldestTimestamp, true)
    | some entry =>
      let highestTimestamp := map.highestTimestamp entry
      if highestTimestamp ≠ entry.lastUsedTime.getD partition 0 then
        match map.getKeyState partition entry with
        | .cold =>
          let current := map.partition partition
          ((map.setEntry id { entry with generation := entry.generation.set partition 0 }).setPartition partition
            { current with coldList := current.coldList.erase id }, oldest, oldestTimestamp, true)
        | _ => (map, oldest, oldestTimestamp, true)
      else if highestTimestamp < oldestTimestamp then (map, some id, highestTimestamp, true)
      else (map, oldest, oldestTimestamp, true)

/-- `_reap_lru_cold_lists`: passes over the partitions until one finds an oldest entry or
every cold list is empty. -/
def reapLruColdLists : Nat → EbpfCoreLruMap → Option (EbpfCoreLruMap × Option Nat)
  | 0, _ => none
  | fuel + 1, map =>
    let (map, oldest, _, found) :=
      (List.range map.partitionCount).foldl reapPartition (map, none, 0xFFFFFFFFFFFFFFFF, false)
    if oldest.isNone ∧ found then reapLruColdLists fuel map else some (map, oldest)

/-- A pass that finds no oldest entry drops the head of every nonempty cold list, unless
the scan cannot end, so one pass more than there are cold entries suffices. -/
def EbpfCoreLruMap.reapFuel (map : EbpfCoreLruMap) : Nat :=
  (map.partitions.map (·.coldList.length)).sum + 1

def EbpfCoreLruMap.reapOldestMapEntry (map : EbpfCoreLruMap) (environment : HashTableEnvironment) :
    Option EbpfCoreLruMap :=
  match reapLruColdLists map.reapFuel map with
  | none => none
  | some (map, none) => some map
  | some (map, some oldest) =>
    match map.entry oldest with
    | some entry => some (map.deleteLruHashMapEntry entry.key environment).2
    | none => some map

/-- The `for (;;)` loop of `_update_hash_map_entry_operation_context` on an LRU map: an
update that fails with `EBPF_OUT_OF_SPACE` reaps the oldest entry and is tried again. -/
def lruUpdateLoop (key : List UInt8) (data : Option (List UInt8)) (operation : EbpfHashTableOperations) (cpu : Nat)
    (time : UInt64) (environment : HashTableEnvironment) : Nat → EbpfCoreLruMap → Option (EbpfResult × EbpfCoreLruMap)
  | 0, _ => none
  | fuel + 1, map =>
    match map.lruHashTableUpdate key data operation cpu time environment with
    | (.outOfSpace, map) =>
      match map.reapOldestMapEntry environment with
      | some map => lruUpdateLoop key data operation cpu time environment fuel map
      | none => none
    | outcome => some outcome

/-- `_update_hash_map_entry` on an LRU map, from CPU `cpu` at time `time`, its loop given
`fuel` rounds. -/
def updateLruHashMapEntry (map : EbpfCoreLruMap) (key : Option (List UInt8)) (data : Option (List UInt8))
    (option : Nat) (cpu : Nat) (time : UInt64) (environment : HashTableEnvironment) (fuel : Nat) :
    Option (EbpfResult × EbpfCoreLruMap) :=
  match key, tableOperation option with
  | some key, some operation => lruUpdateLoop key data operation cpu time environment fuel map
  | _, _ => some (.invalidArgument, map)

/-- `_find_lru_hash_map_entry`: a lookup with the delete flag deletes the key; a lookup by an
eBPF program puts the key on the hot list of its CPU's partition. -/
def findLruHashMapEntry (map : EbpfCoreLruMap) (key : Option (List UInt8)) (flags : Nat) (cpu : Nat) (time : UInt64)
    (environment : HashTableEnvironment) : (EbpfResult × Option (List UInt8)) × EbpfCoreLruMap :=
  match key with
  | none => ((.invalidArgument, none), map)
  | some key =>
    let value := match ebpfHashTableFind map.table key with
      | (.success, value) => value
      | _ => none
    let (value, map) :=
      if flags &&& ebpfMapFindFlagDelete ≠ 0 then
        match map.deleteLruHashMapEntry key environment with
        | (.success, map) => (value, map)
        | (_, map) => (none, map)
      else
        match value, map.owner key with
        | some _, some id =>
          if flags &&& ebpfMapFlagHelper ≠ 0 then (value, map.insertIntoHotList (cpu % map.partitionCount) id time)
          else (value, map)
        | _, _ => (value, map)
    match value with
    | some value => ((.success, some value), map)
    | none => ((.objectNotFound, none), map)

/-- `_create_lru_hash_map` on a machine with `cpuCount` CPUs: a fixed-size hash map whose
table notifies the map, and `min(cpu_count, 8)` empty partitions whose hot lists hold a
tenth of their share of the entries, and at least one. The size checks on the key history
entry are left out: for 32-bit key and value sizes they cannot fail. -/
def createLruHashMap (definition : EbpfMapDefinitionInMemory) (innerMapHandleValid : Bool) (cpuCount : UInt32)
    (mapAllocated tableAllocated : Bool) (seed : UInt32) (supportsSse42 : Bool) : Except EbpfResult EbpfCoreLruMap := do
  let partitionCount := min cpuCount ebpfLruMaximumPartitions
  if innerMapHandleValid then throw .invalidArgument
  let table ← createHashMapInternal definition 0 true none true lruNotificationTypes mapAllocated tableAllocated seed
    supportsSse42
  let averageEntriesPerPartition := definition.maxEntries / partitionCount
  let hotListLimit := max (averageEntriesPerPartition / ebpfLruGenerationCount) 1
  pure { table, partitionCount := partitionCount.toNat,
         partitions := List.replicate partitionCount.toNat
           { hotList := [], coldList := [], currentGeneration := ebpfLruInitialGeneration, hotListSize := 0,
             hotListLimit := hotListLimit.toUInt64 },
         entries := [], owners := [] }

/-! ## An insert that is refused for want of space forever

When every stored key sits on the hot list of some partition and no cold list has an
entry, an insert from a CPU whose hot list has room leaves no trace: the new value's entry
joins that hot list without a merge, the `FREE` of the refused value takes it off again,
and the reap finds nothing to delete. The retry then starts where the first try did. -/

namespace EbpfCoreLruMap

/-- The shape of the key history the proofs below rest on: a partition per CPU, list members
and owned values that are live entries, and current generations that `_get_key_state`
reads as neither uninitialized nor deleted. -/
structure WellFormed (map : EbpfCoreLruMap) : Prop where
  partitions_length : map.partitions.length = map.partitionCount
  partitionCount_pos : 0 < map.partitionCount
  listed_live : ∀ part ∈ map.partitions, ∀ id ∈ part.hotList ++ part.coldList, id ∈ map.entries.map (·.1)
  owned_live : ∀ pair ∈ map.owners, pair.2 ∈ map.entries.map (·.1)
  generation_valid : ∀ part ∈ map.partitions,
    part.currentGeneration ≠ 0 ∧ part.currentGeneration ≠ ebpfLruInvalidGeneration

variable {map : EbpfCoreLruMap}

theorem lt_freshEntry (map : EbpfCoreLruMap) : ∀ live ∈ map.entries, live.1 < map.freshEntry := by
  unfold freshEntry
  generalize map.entries = entries
  induction entries with
  | nil => intro live member; cases member
  | cons head rest ih =>
    intro live member
    rw [List.foldr_cons]
    rcases List.mem_cons.mp member with rfl | later
    · exact lt_of_lt_of_le (Nat.lt_succ_self _) (le_max_right _ _)
    · exact lt_of_lt_of_le (ih live later) (le_max_left _ _)

theorem freshEntry_not_mem (map : EbpfCoreLruMap) : map.freshEntry ∉ map.entries.map (·.1) := by
  intro member
  obtain ⟨live, mem, same⟩ := List.mem_map.mp member
  exact absurd (same ▸ lt_freshEntry map live mem) (lt_irrefl _)

theorem entry_cons_self (id : Nat) (entry : EbpfLruEntry) (rest : List (Nat × EbpfLruEntry))
    (partitions : List EbpfLruPartition) :
    ({ map with entries := (id, entry) :: rest, partitions } : EbpfCoreLruMap).entry id = some entry := by
  simp [EbpfCoreLruMap.entry]

theorem setEntry_cons_fresh {id : Nat} {old new : EbpfLruEntry} {rest : List (Nat × EbpfLruEntry)}
    {partitions : List EbpfLruPartition} (fresh : id ∉ rest.map (·.1)) :
    ({ map with entries := (id, old) :: rest, partitions } : EbpfCoreLruMap).setEntry id new =
      { map with entries := (id, new) :: rest, partitions } := by
  have untouched : rest.map (fun (other, old) => (other, if other = id then new else old)) = rest := by
    conv_rhs => rw [← List.map_id rest]
    apply List.map_congr_left
    rintro ⟨other, value⟩ member
    have different : other ≠ id := fun same => fresh (List.mem_map.mpr ⟨_, member, same⟩)
    simp [different]
  simp only [setEntry, List.map_cons, if_pos, untouched]

theorem getD_set_of_ne {α : Type} (list : List α) (value fallback : α) {index other : Nat} (different : index ≠ other) :
    (list.set index value).getD other fallback = list.getD other fallback := by
  simp only [List.getD_eq_getElem?_getD, List.getElem?_set_ne different]

theorem uninitializeLruEntryIn_of_unused {id partition : Nat} {entry : EbpfLruEntry}
    {partitions : List EbpfLruPartition} (fresh : id ∉ map.entries.map (·.1))
    (unused : entry.generation.getD partition 0 = 0) :
    uninitializeLruEntryIn id { map with entries := (id, entry) :: map.entries, partitions } partition =
      { map with entries := (id, { entry with generation := entry.generation.set partition ebpfLruInvalidGeneration })
                   :: map.entries, partitions } := by
  have state : getKeyState { map with entries := (id, entry) :: map.entries, partitions } partition entry =
      .uninitialized := by
    simp only [getKeyState, unused]
    rfl
  simp only [uninitializeLruEntryIn, entry_cons_self, state]
  exact setEntry_cons_fresh fresh

theorem uninitializeLruEntryIn_of_hot {id partition : Nat} {entry : EbpfLruEntry}
    {partitions : List EbpfLruPartition} (fresh : id ∉ map.entries.map (·.1))
    (hot : entry.generation.getD partition 0 = (partitions.getD partition default).currentGeneration)
    (valid : (partitions.getD partition default).currentGeneration ≠ 0 ∧
      (partitions.getD partition default).currentGeneration ≠ ebpfLruInvalidGeneration) :
    uninitializeLruEntryIn id { map with entries := (id, entry) :: map.entries, partitions } partition =
      { map with entries := (id, { entry with generation := entry.generation.set partition ebpfLruInvalidGeneration })
                   :: map.entries,
                 partitions := partitions.set partition
                   { partitions.getD partition default with
                     hotList := (partitions.getD partition default).hotList.erase id,
                     hotListSize := (partitions.getD partition default).hotListSize - 1 } } := by
  have state : getKeyState { map with entries := (id, entry) :: map.entries, partitions } partition entry = .hot := by
    simp only [getKeyState, EbpfCoreLruMap.partition, hot, if_neg valid.1, if_neg valid.2, if_true]
  simp only [uninitializeLruEntryIn, entry_cons_self, state]
  rw [setEntry_cons_fresh fresh]
  rfl

theorem foldl_uninitializeLruEntryIn {id : Nat} (hotIn : Nat) (fresh : id ∉ map.entries.map (·.1)) :
    ∀ (visited : List Nat) (entry : EbpfLruEntry) (partitions : List EbpfLruPartition), visited.Nodup →
      (∀ other ∈ visited, other ≠ hotIn → entry.generation.getD other 0 = 0) →
      (hotIn ∈ visited → entry.generation.getD hotIn 0 = (partitions.getD hotIn default).currentGeneration ∧
        (partitions.getD hotIn default).currentGeneration ≠ 0 ∧
        (partitions.getD hotIn default).currentGeneration ≠ ebpfLruInvalidGeneration) →
      ∃ final, visited.foldl (uninitializeLruEntryIn id)
          { map with entries := (id, entry) :: map.entries, partitions } =
        { map with entries := (id, final) :: map.entries,
                   partitions := if hotIn ∈ visited then partitions.set hotIn
                     { partitions.getD hotIn default with
                       hotList := (partitions.getD hotIn default).hotList.erase id,
                       hotListSize := (partitions.getD hotIn default).hotListSize - 1 }
                     else partitions } := by
  intro visited
  induction visited with
  | nil => intro entry partitions _ _ _; exact ⟨entry, rfl⟩
  | cons partition rest ih =>
    intro entry partitions distinct unused hot
    obtain ⟨notLater, restDistinct⟩ := List.nodup_cons.mp distinct
    rw [List.foldl_cons]
    by_cases here : partition = hotIn
    · -- the hot partition: visited once, so the rest of the loop finds the entry nowhere
      subst here
      obtain ⟨generation, valid⟩ := hot List.mem_cons_self
      rw [uninitializeLruEntryIn_of_hot fresh generation valid]
      obtain ⟨final, folded⟩ := ih { entry with generation := entry.generation.set partition ebpfLruInvalidGeneration }
        _ restDistinct
        (fun other later different => by
          rw [getD_set_of_ne _ _ _ (Ne.symm different)]
          exact unused other (List.mem_cons_of_mem _ later) different)
        (fun later => absurd later notLater)
      refine ⟨final, ?_⟩
      rw [folded, if_neg notLater, if_pos List.mem_cons_self]
    · have different : partition ≠ hotIn := here
      rw [uninitializeLruEntryIn_of_unused fresh (unused partition List.mem_cons_self different)]
      obtain ⟨final, folded⟩ := ih { entry with generation := entry.generation.set partition ebpfLruInvalidGeneration }
        partitions restDistinct
        (fun other later otherDifferent => by
          have apart : partition ≠ other := fun same => notLater (same ▸ later)
          rw [getD_set_of_ne _ _ _ apart]
          exact unused other (List.mem_cons_of_mem _ later) otherDifferent)
        (fun later => by
          rw [getD_set_of_ne _ _ _ different]
          exact hot (List.mem_cons_of_mem _ later))
      refine ⟨final, ?_⟩
      rw [folded]
      simp only [List.mem_cons, Ne.symm different, false_or]

theorem initializeLruEntry_allocateEntry {id partition : Nat} {key : List UInt8} {time : UInt64}
    (fresh : id ∉ map.entries.map (·.1))
    (room : (map.partition partition).hotListSize.toNat + 1 ≤ (map.partition partition).hotListLimit.toNat) :
    (map.allocateEntry id).initializeLruEntry id partition key time =
      { map with
        entries := (id, ⟨(List.replicate map.partitionCount 0).set partition (map.partition partition).currentGeneration,
                         (List.replicate map.partitionCount 0).set partition time, map.storedKey key⟩) :: map.entries,
        partitions := map.partitions.set partition
          { map.partition partition with hotList := (map.partition partition).hotList ++ [id],
                                         hotListSize := (map.partition partition).hotListSize + 1 } } := by
  have noMerge : (map.partition partition).hotListSize + 1 ≤ (map.partition partition).hotListLimit := by
    have below := (map.partition partition).hotListLimit.toNat_lt
    rw [UInt64.le_iff_toNat_le, UInt64.toNat_add, UInt64.toNat_one, Nat.mod_eq_of_lt (by omega)]
    exact room
  have allocated : map.allocateEntry id = { map with
      entries := (id, ⟨List.replicate map.partitionCount 0, List.replicate map.partitionCount 0,
        List.replicate map.table.keySize.toNat 0⟩) :: map.entries, partitions := map.partitions } := rfl
  rw [allocated]
  simp only [initializeLruEntry, entry_cons_self, moveToHotList]
  rw [setEntry_cons_fresh fresh]
  simp only [EbpfCoreLruMap.partition] at noMerge ⊢
  simp only [EbpfLruPartition.mergeHotIntoColdListIfNeeded, if_pos noMerge]
  rfl

theorem release_initializeLruEntry_allocateEntry (wellFormed : map.WellFormed) {cpu : Nat} {key : List UInt8}
    {time : UInt64}
    (room : (map.partition (cpu % map.partitionCount)).hotListSize.toNat + 1 ≤
      (map.partition (cpu % map.partitionCount)).hotListLimit.toNat) :
    ((map.allocateEntry map.freshEntry).initializeLruEntry map.freshEntry (cpu % map.partitionCount) key
      time).release map.freshEntry = map := by
  have fresh := freshEntry_not_mem map
  have inRange : cpu % map.partitionCount < map.partitionCount := Nat.mod_lt _ wellFormed.partitionCount_pos
  have below : cpu % map.partitionCount < map.partitions.length := wellFormed.partitions_length ▸ inRange
  have current : map.partition (cpu % map.partitionCount) ∈ map.partitions := by
    rw [EbpfCoreLruMap.partition, List.getD_eq_getElem _ _ below]
    exact List.getElem_mem below
  have notListed : map.freshEntry ∉ (map.partition (cpu % map.partitionCount)).hotList := fun listed =>
    fresh (wellFormed.listed_live _ current _ (List.mem_append_left _ listed))
  rw [initializeLruEntry_allocateEntry fresh room]
  unfold release uninitializeLruEntry
  obtain ⟨final, folded⟩ := foldl_uninitializeLruEntryIn (cpu % map.partitionCount) fresh
    (List.range map.partitionCount)
    ⟨(List.replicate map.partitionCount 0).set (cpu % map.partitionCount)
        (map.partition (cpu % map.partitionCount)).currentGeneration,
      (List.replicate map.partitionCount 0).set (cpu % map.partitionCount) time, map.storedKey key⟩
    (map.partitions.set (cpu % map.partitionCount)
      { map.partition (cpu % map.partitionCount) with
        hotList := (map.partition (cpu % map.partitionCount)).hotList ++ [map.freshEntry],
        hotListSize := (map.partition (cpu % map.partitionCount)).hotListSize + 1 })
    List.nodup_range
    (fun other _ different => by
      rw [getD_set_of_ne _ _ _ (Ne.symm different), List.getD_eq_getElem?_getD, List.getElem?_replicate]
      split <;> rfl)
    (fun _ => by
      rw [List.getD_eq_getElem?_getD, List.getElem?_set_self (by simpa using inRange),
        List.getD_eq_getElem _ _ (by simpa using below), List.getElem_set_self]
      exact ⟨rfl, wellFormed.generation_valid (map.partition (cpu % map.partitionCount)) current⟩)
  rw [folded, if_pos (List.mem_range.mpr inRange), List.getD_eq_getElem _ _ (by simpa using below),
    List.getElem_set_self, List.set_set]
  have restored : { map.partition (cpu % map.partitionCount) with
      hotList := ((map.partition (cpu % map.partitionCount)).hotList ++ [map.freshEntry]).erase map.freshEntry,
      hotListSize := (map.partition (cpu % map.partitionCount)).hotListSize + 1 - 1 } =
      map.partitions[cpu % map.partitionCount] := by
    rw [List.erase_append_right _ notListed, List.erase_cons_head, List.append_nil, UInt64.add_sub_cancel]
    rw [EbpfCoreLruMap.partition, List.getD_eq_getElem _ _ below]
  have entriesKept : ((map.freshEntry, final) :: map.entries).filter (·.1 ≠ map.freshEntry) = map.entries := by
    rw [List.filter_cons_of_neg (by simp), List.filter_eq_self]
    intro live member
    have different : live.1 ≠ map.freshEntry := Nat.ne_of_lt (lt_freshEntry map live member)
    simpa using different
  have ownersKept : map.owners.filter (·.2 ≠ map.freshEntry) = map.owners := by
    rw [List.filter_eq_self]
    intro pair member
    have different : pair.2 ≠ map.freshEntry := fun same => fresh (same ▸ wellFormed.owned_live pair member)
    simpa using different
  dsimp only
  rw [restored, List.set_getElem_self, entriesKept, ownersKept]

theorem foldl_reapPartition_of_empty (empty : ∀ partition, (map.partition partition).coldList = [])
    (partitions : List Nat) (oldest : Option Nat) (oldestTimestamp : UInt64) (found : Bool) :
    partitions.foldl reapPartition (map, oldest, oldestTimestamp, found) = (map, oldest, oldestTimestamp, found) := by
  induction partitions with
  | nil => rfl
  | cons partition rest ih =>
    rw [List.foldl_cons]
    have skipped : reapPartition (map, oldest, oldestTimestamp, found) partition =
        (map, oldest, oldestTimestamp, found) := by
      simp only [reapPartition, empty partition]
    rw [skipped, ih]

theorem reapOldestMapEntry_of_empty (empty : ∀ partition, (map.partition partition).coldList = [])
    (environment : HashTableEnvironment) : map.reapOldestMapEntry environment = some map := by
  simp only [reapOldestMapEntry, reapFuel, reapLruColdLists, foldl_reapPartition_of_empty empty]
  rfl

theorem coldList_eq_nil (empty : ∀ part ∈ map.partitions, part.coldList = [])
    (partition : Nat) : (map.partition partition).coldList = [] := by
  rw [EbpfCoreLruMap.partition, List.getD_eq_getElem?_getD]
  cases present : map.partitions[partition]? with
  | none => rfl
  | some part => exact empty part (List.mem_of_getElem? present)

end EbpfCoreLruMap

theorem lruUpdateLoop_eq_none_of_retry {map full : EbpfCoreLruMap} {key : List UInt8} {data : Option (List UInt8)}
    {operation : EbpfHashTableOperations} {cpu : Nat} {time : UInt64} {environment : HashTableEnvironment}
    (refused : map.lruHashTableUpdate key data operation cpu time environment = (.outOfSpace, full))
    (reaped : full.reapOldestMapEntry environment = some map) (fuel : Nat) :
    lruUpdateLoop key data operation cpu time environment fuel map = none := by
  induction fuel with
  | zero => rfl
  | succ fuel ih => simp only [lruUpdateLoop, refused, reaped, ih]

theorem lruUpdateLoop_never_returns {map : EbpfCoreLruMap} (wellFormed : map.WellFormed)
    (empty : ∀ part ∈ map.partitions, part.coldList = []) {key : List UInt8} {data : Option (List UInt8)}
    {operation : EbpfHashTableOperations} {cpu : Nat} {time : UInt64} {environment : HashTableEnvironment}
    (room : (map.partition (cpu % map.partitionCount)).hotListSize.toNat + 1 ≤
      (map.partition (cpu % map.partitionCount)).hotListLimit.toNat)
    (allocated : environment.newDataAllocated = true)
    (refused : ebpfHashTableUpdate map.table key data operation { environment with allocateNotification := .success } =
      (.outOfSpace, map.table)) (fuel : Nat) :
    lruUpdateLoop key data operation cpu time environment fuel map = none := by
  have round : map.lruHashTableUpdate key data operation cpu time environment = (.outOfSpace, map) := by
    have released : ((map.allocateEntry map.freshEntry).initializeLruEntry map.freshEntry (cpu % map.partitionCount)
        key time).release map.freshEntry = map :=
      EbpfCoreLruMap.release_initializeLruEntry_allocateEntry wellFormed room
    unfold EbpfCoreLruMap.lruHashTableUpdate
    rw [refused]
    simp only [allocated, Bool.not_true, Bool.false_eq_true, if_false]
    rw [if_neg (by decide)]
    rw [EbpfCoreLruMap.initializeLruEntry_allocateEntry (EbpfCoreLruMap.freshEntry_not_mem map) room] at released ⊢
    exact congrArg (Prod.mk _) released
  exact lruUpdateLoop_eq_none_of_retry round
    (EbpfCoreLruMap.reapOldestMapEntry_of_empty (EbpfCoreLruMap.coldList_eq_nil empty) environment) fuel

/-- On a machine with two CPUs, a one-entry LRU map into which CPU 1 inserted a key holds it
on the hot list of partition 1 with both cold lists empty: an insert of a second key from
CPU 0 is refused for want of space, and its reap finds nothing to delete, round after
round. -/
theorem lru_insert_into_a_full_map_retries_forever :
    ∃ map, createLruHashMap ⟨4, 4, 1⟩ false 2 true true 0 false = .ok map ∧
      let environment : HashTableEnvironment := ⟨true, .success, true, some 4096, .success⟩
      ∃ full, updateLruHashMapEntry map (some [1, 0, 0, 0]) (some [10, 0, 0, 0]) ebpfAny 1 5 environment 1 =
          some (.success, full) ∧
        full.table.entryCount = full.table.maxEntryCount ∧
        ∀ fuel, updateLruHashMapEntry full (some [2, 0, 0, 0]) (some [20, 0, 0, 0]) ebpfAny 0 6 environment fuel =
          none :=
  ⟨_, rfl, _, rfl, by decide, fun fuel =>
    lruUpdateLoop_never_returns ⟨rfl, by decide, by decide, by decide, by decide⟩ (by decide) (by decide) rfl rfl fuel⟩

end EbpfWindows.ExecutionContext
