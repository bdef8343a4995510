import EbpfWindows.Runtime.HashTable.Operations
import Mathlib.Data.Finmap

/-! What a hash table is for: a finite map with an optional bound on its size.

The abstract state is a finite map from key views to values: keys the
comparison cannot tell apart are one key. `BoundedMap.update`, `delete` and
`find` say what each operation does to it when every allocation and
notification succeeds; `BoundedMapStep` adds the runs in which one of them
fails, which return that failure and leave the map as it was. A map without a
limit takes `UnboundedMapStep`, which may also refuse a new key when the bucket
it would join has no room left in `size_t`.
-/

set_option autoImplicit false

namespace EbpfWindows.Runtime

/-- The abstract state of a hash table: values under key views. -/
abbrev BoundedMap := Finmap fun _ : Nat × List UInt8 × UInt8 => List UInt8

namespace BoundedMap

variable (limit : Option Nat) (contents : BoundedMap) (key : Nat × List UInt8 × UInt8) (value : List UInt8)

/-- The number of keys. -/
def size : Nat := contents.keys.card

/-- Adding a key that is not there: refused when the limit is reached. -/
def insertNew : EbpfResult × BoundedMap :=
  if limit = some contents.size then (.outOfSpace, contents) else (.success, contents.insert key value)

/-- `ebpf_hash_table_update` on the map. -/
def update : EbpfHashTableOperations → EbpfResult × BoundedMap
  | .any => if key ∈ contents then (.success, contents.insert key value) else insertNew limit contents key value
  | .insert => if key ∈ contents then (.objectAlreadyExists, contents) else insertNew limit contents key value
  | .replace => if key ∈ contents then (.success, contents.insert key value) else (.keyNotFound, contents)

/-- `ebpf_hash_table_delete` on the map. -/
def delete : EbpfResult × BoundedMap :=
  if key ∈ contents then (.success, contents.erase key) else (.keyNotFound, contents)

theorem keys_insert : (contents.insert key value).keys = insert key contents.keys :=
  Finset.ext fun other => by simp only [Finmap.mem_keys, Finmap.mem_insert, Finset.mem_insert]

theorem size_insert_of_not_mem (absent : key ∉ contents) : size (contents.insert key value) = contents.size + 1 := by
  unfold size
  rw [keys_insert, Finset.card_insert_of_notMem (by rwa [Finmap.mem_keys])]

theorem size_insert_of_mem (present : key ∈ contents) : size (contents.insert key value) = contents.size := by
  unfold size
  rw [keys_insert, Finset.insert_eq_of_mem (Finmap.mem_keys.mpr present)]

theorem size_erase_of_mem (present : key ∈ contents) : size (contents.erase key) + 1 = contents.size := by
  unfold size
  rw [Finmap.keys_erase, Finset.card_erase_add_one (Finmap.mem_keys.mpr present)]

/-- `ebpf_hash_table_find` on the map. -/
def find : EbpfResult × Option (List UInt8) :=
  match contents.lookup key with
  | some value => (.success, some value)
  | none => (.keyNotFound, none)

end BoundedMap

/-- An operation on a hash table, with the outcomes of what it allocates and notifies. -/
inductive HashTableOperation where
  | update (key : List UInt8) (value : Option (List UInt8)) (operation : EbpfHashTableOperations)
      (environment : HashTableEnvironment)
  | delete (key : List UInt8) (environment : HashTableEnvironment)
  | find (key : List UInt8)

namespace HashTableOperation

/-- The key the operation is given. -/
def key : HashTableOperation → List UInt8
  | .update key _ _ _ => key
  | .delete key _ => key
  | .find key => key

/-- One operation on the table: its result, the value found, and the table afterwards. -/
def apply (table : EbpfHashTable) : HashTableOperation → (EbpfResult × Option (List UInt8)) × EbpfHashTable
  | .update key value operation environment =>
    let (result, table) := ebpfHashTableUpdate table key value operation environment
    ((result, none), table)
  | .delete key environment =>
    let (result, table) := ebpfHashTableDelete table key environment
    ((result, none), table)
  | .find key => (ebpfHashTableFind table key, table)

end HashTableOperation

/-- Every allocation succeeds and every notification whose result is read succeeds. -/
def HashTableEnvironment.Succeeds (environment : HashTableEnvironment) : Prop :=
  environment.newDataAllocated = true ∧ environment.allocateNotification = .success ∧
    environment.newBucketAllocated = true ∧ environment.backupBucket.isSome ∧
    environment.preFreeNotification = .success

/-- A failed allocation or notification, reported as what failed. -/
def HashTableEnvironment.Failure (environment : HashTableEnvironment) (result : EbpfResult) : Prop :=
  ¬ environment.Succeeds ∧ result ≠ .success ∧
    (result = .noMemory ∨ result = environment.allocateNotification ∨ result = environment.preFreeNotification)

namespace HashTableEnvironment

variable {environment : HashTableEnvironment}

theorem failure_noMemory (failed : ¬ environment.Succeeds) : environment.Failure .noMemory :=
  ⟨failed, by decide, Or.inl rfl⟩

theorem failure_allocateNotification (failed : environment.allocateNotification ≠ .success) :
    environment.Failure environment.allocateNotification :=
  ⟨fun succeeds => failed succeeds.2.1, failed, Or.inr (Or.inl rfl)⟩

theorem failure_preFreeNotification (failed : environment.preFreeNotification ≠ .success) :
    environment.Failure environment.preFreeNotification :=
  ⟨fun succeeds => failed succeeds.2.2.2.2, failed, Or.inr (Or.inr rfl)⟩

end HashTableEnvironment

/-- One step of the abstract map, for keys seen through `view`, values stored as
`storedValue` makes them and a limit on the number of keys: the specified outcome, or
a failure of the environment that leaves the map unchanged. -/
def BoundedMapStep (view : List UInt8 → Nat × List UInt8 × UInt8) (storedValue : Option (List UInt8) → List UInt8)
    (limit : Option Nat) (contents : BoundedMap) :
    HashTableOperation → EbpfResult × Option (List UInt8) → BoundedMap → Prop
  | .update key value operation environment, output, next =>
    (output.1, next) = contents.update limit (view key) (storedValue value) operation ∧ output.2 = none ∨
      environment.Failure output.1 ∧ output.2 = none ∧ next = contents
  | .delete key environment, output, next =>
    (output.1, next) = contents.delete (view key) ∧ output.2 = none ∨
      environment.Failure output.1 ∧ output.2 = none ∧ next = contents
  | .find key, output, next => output = contents.find (view key) ∧ next = contents

/-- An update of a key that is not there, refused with `EBPF_ARITHMETIC_OVERFLOW` and the
map unchanged: the bucket the key would join has no room left in `size_t`. -/
def OverflowStep (view : List UInt8 → Nat × List UInt8 × UInt8) (contents : BoundedMap) :
    HashTableOperation → EbpfResult × Option (List UInt8) → BoundedMap → Prop
  | .update key _ _ _, output, next => view key ∉ contents ∧ output = (.arithmeticOverflow, none) ∧ next = contents
  | _, _, _ => False

/-- One step of a map without a limit: a step of the bounded map with no limit, or an
insert refused because its bucket is full. -/
def UnboundedMapStep (view : List UInt8 → Nat × List UInt8 × UInt8) (storedValue : Option (List UInt8) → List UInt8)
    (contents : BoundedMap) (operation : HashTableOperation) (output : EbpfResult × Option (List UInt8))
    (next : BoundedMap) : Prop :=
  BoundedMapStep view storedValue none contents operation output next ∨ OverflowStep view contents operation output next

end EbpfWindows.Runtime
