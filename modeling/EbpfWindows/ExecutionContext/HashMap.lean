import EbpfWindows.Runtime.HashTable.Operations
import EbpfWindows.ExecutionContext.MapDefinition

/-! Hash maps (`ebpf_maps.c` over `ebpf_hash_table.c`).

A hash map keeps its entries in one hash table created from the map's
definition. Lookups, updates and deletes pass the key on to the table; an
update first turns the map option into the table's operation, and a lookup
that asks for a delete returns the value only when the delete succeeds.

The maps modelled here keep no key history and try an update once; the
least-recently-used maps, which reap their oldest entry and retry, are in `LruMap`.
-/

set_option autoImplicit false

namespace EbpfWindows.ExecutionContext

open EbpfWindows.Runtime

/-- `_create_hash_map_internal` with `_initialize_hash_map_internal`: the map's allocation,
then a hash table with the definition's key size, the given value size or else the
definition's, `max_entries` buckets at least, and `max_entries` as its limit only for a
fixed-size map. -/
def createHashMapInternal (definition : EbpfMapDefinitionInMemory) (valueSize : UInt64) (fixedSizeMap : Bool)
    (extractFunction : Option EbpfHashTableExtractFunction) (notificationCallback : Bool)
    (notificationFlags : UInt32) (mapAllocated tableAllocated : Bool) (seed : UInt32) (supportsSse42 : Bool) :
    Except EbpfResult EbpfHashTable :=
  if !mapAllocated then .error .noMemory
  else
    let actualValueSize := if valueSize ≠ 0 then valueSize else definition.valueSize.toUInt64
    ebpfHashTableCreate
      { keySize := definition.keySize.toUInt64, valueSize := actualValueSize, extractFunction,
        minimumBucketCount := definition.maxEntries.toUInt64,
        maxEntries := if fixedSizeMap then definition.maxEntries.toUInt64 else ebpfHashTableNoLimit,
        notificationCallback, notificationFlags }
      tableAllocated seed supportsSse42

def deleteHashMapEntry (table : EbpfHashTable) (key : List UInt8) (environment : HashTableEnvironment) :
    EbpfResult × EbpfHashTable :=
  ebpfHashTableDelete table key environment

/-- `_find_hash_map_entry` for a map whose values are not maps: the value found, removed when
`EBPF_MAP_FIND_FLAG_DELETE` is set and then returned only if the delete succeeded. -/
def findHashMapEntry (table : EbpfHashTable) (key : List UInt8) (flags : Nat) (environment : HashTableEnvironment) :
    (EbpfResult × Option (List UInt8)) × EbpfHashTable :=
  let value := match ebpfHashTableFind table key with
    | (.success, value) => value
    | _ => none
  let (value, table) :=
    if flags &&& ebpfMapFindFlagDelete ≠ 0 then
      match deleteHashMapEntry table key environment with
      | (.success, table) => (value, table)
      | (_, table) => (none, table)
    else (value, table)
  match value with
  | some value => ((.success, some value), table)
  | none => ((.objectNotFound, none), table)

/-- `_update_hash_map_entry`: the map option as the table's operation, others refused. -/
def updateHashMapEntry (table : EbpfHashTable) (key : List UInt8) (data : Option (List UInt8)) (option : Nat)
    (environment : HashTableEnvironment) : EbpfResult × EbpfHashTable :=
  if option = ebpfAny then ebpfHashTableUpdate table key data .any environment
  else if option = ebpfNoexist then ebpfHashTableUpdate table key data .insert environment
  else if option = ebpfExist then ebpfHashTableUpdate table key data .replace environment
  else (.invalidArgument, table)

/-- The table operation an accepted map option stands for. -/
def tableOperation (option : Nat) : Option EbpfHashTableOperations :=
  if option = ebpfAny then some .any
  else if option = ebpfNoexist then some .insert
  else if option = ebpfExist then some .replace
  else none

theorem updateHashMapEntry_eq (table : EbpfHashTable) (key : List UInt8) (data : Option (List UInt8))
    (option : Nat) (environment : HashTableEnvironment) :
    updateHashMapEntry table key data option environment =
      match tableOperation option with
      | some operation => ebpfHashTableUpdate table key data operation environment
      | none => (.invalidArgument, table) := by
  unfold updateHashMapEntry tableOperation
  split_ifs <;> rfl

theorem findHashMapEntry_of_not_delete (table : EbpfHashTable) (key : List UInt8) {flags : Nat}
    (keep : flags &&& ebpfMapFindFlagDelete = 0) (environment : HashTableEnvironment) :
    findHashMapEntry table key flags environment =
      match ebpfHashTableFind table key with
      | (.success, some value) => ((.success, some value), table)
      | _ => ((.objectNotFound, none), table) := by
  unfold findHashMapEntry
  simp only [keep, ne_eq, not_true_eq_false, if_false]
  rcases ebpfHashTableFind table key with ⟨_ | _ | _ | _ | _ | _ | _ | _ | _ | _ | _ | _ | _ | _ | _ | _ | _ | _ |
    _ | _ | _ | _ | _ | _ | _ | _ | _ | _ | _ | _ | _ | _ | _, _ | value⟩ <;> rfl

end EbpfWindows.ExecutionContext
