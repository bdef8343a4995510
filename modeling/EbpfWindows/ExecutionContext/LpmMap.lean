import EbpfWindows.ExecutionContext.HashMap
import EbpfWindows.Runtime.Bitmap
import EbpfWindows.Lib.BitString

/-! Longest-prefix-match maps (`BPF_MAP_TYPE_LPM_TRIE`, `ebpf_maps.c`).

A key is an `ebpf_core_lpm_key_t`: a little-endian 32-bit prefix length, then
the prefix, most significant bit first. The map is a hash map whose extract
function hands the hash table the prefix length and the first
`prefix_length` bits of the prefix, so keys with one prefix are one key, and a
bitmap with the bit of every prefix length an update stored.

A lookup writes each stored prefix length from the key's own downwards into
the caller's key, probes the hash table with it, stops at the first hit, and
then writes the key's own length back.
-/

set_option autoImplicit false

namespace EbpfWindows.ExecutionContext

open EbpfWindows.Runtime Bytes

def maxUInt32 : UInt32 := 0xFFFFFFFF

/-- `ebpf_core_lpm_key_t.prefix_length`. -/
def prefixLength (key : List UInt8) : UInt32 :=
  (littleEndian (readBytes key 0 4)).toUInt32

/-- The key after a store to its `prefix_length`. -/
def setPrefixLength (key : List UInt8) (prefixLength : UInt32) : List UInt8 :=
  writeBytes key (uint32Bytes prefixLength)

/-- `_lpm_extract`: the whole key, whose length in bits is the 32 bits of the prefix
length and then the prefix. -/
def lpmExtract : EbpfHashTableExtractFunction :=
  fun value => (value, 4 * 8 + (prefixLength value).toNat)

/-- `ebpf_core_lpm_map_t`: the hash map, the longest prefix a key may have, and the
prefix-length bitmap kept in `data`. -/
structure EbpfCoreLpmMap where
  table : EbpfHashTable
  maxPrefix : UInt32
  bitmap : EbpfBitmap

/-- `_create_lpm_map`, given the outcomes of its two allocations. The last check on the
size of the map with its bitmap, `lpm_data_size`, is left out: for a 32-bit key size the
bitmap takes less than `2^33` bytes, so it cannot fail. -/
def createLpmMap (definition : EbpfMapDefinitionInMemory) (innerMapHandleValid : Bool)
    (mapAllocated tableAllocated : Bool) (seed : UInt32) (supportsSse42 : Bool) :
    Except EbpfResult EbpfCoreLpmMap := do
  if innerMapHandleValid then throw .invalidArgument
  if definition.keySize < 4 then throw .invalidArgument
  let keySuffixSize ← ebpfSafeSizeTSubtract definition.keySize.toUInt64 4
  let maxPrefixLength ← ebpfSafeSizeTMultiply keySuffixSize 8
  let prefixLengthBitCount ← ebpfSafeSizeTAdd maxPrefixLength 1
  let prefixBitmapSize := ebpfBitmapSize prefixLengthBitCount
  if prefixBitmapSize = maxSizeT.toUInt64 then throw .arithmeticOverflow
  let table ← createHashMapInternal definition 0 false (some lpmExtract) false 0 mapAllocated tableAllocated seed
    supportsSse42
  let bitmap ← ebpfBitmapInitialize prefixLengthBitCount
  pure { table, maxPrefix := maxPrefixLength.toUInt32, bitmap }

/-- The loop of `_find_lpm_map_entry`, at a key holding the prefix length the cursor returned
last: stop at `MAXUINT32`, stop when the hash map finds the key, or write the next prefix
length into the key. Each round returns a lower prefix length, so `fuel` rounds past the
key's own length suffice (`fuel` is the model's bound on the loop, not the source's). -/
def lpmSearch (bitmap : EbpfBitmap) (flags : Nat) (environment : HashTableEnvironment) :
    Nat → EbpfHashTable → EbpfBitmapCursor → List UInt8 → Option (List UInt8) × List UInt8 × EbpfHashTable
  | 0, table, _, key => (none, key, table)
  | fuel + 1, table, cursor, key =>
    if prefixLength key = maxUInt32 then (none, key, table)
    else
      match findHashMapEntry table key flags environment with
      | ((.success, value), table) => (value, key, table)
      | (_, table) =>
        let (nextBit, cursor) := ebpfBitmapReverseSearchNextBit bitmap cursor
        lpmSearch bitmap flags environment fuel table cursor (setPrefixLength key nextBit.toUInt32)

/-- `_find_lpm_map_entry`: the result, the value found and the caller's key afterwards, and
the map. `environment` is what the hash map's lookup would be given; a lookup without
`EBPF_MAP_FIND_FLAG_DELETE` allocates nothing and does not read it. -/
def findLpmMapEntry (map : EbpfCoreLpmMap) (key : Option (List UInt8)) (flags : Nat)
    (environment : HashTableEnvironment) :
    (EbpfResult × Option (List UInt8) × Option (List UInt8)) × EbpfCoreLpmMap :=
  match key with
  | none => ((.invalidArgument, none, none), map)
  | some key =>
    if flags &&& ebpfMapFindFlagDelete ≠ 0 then ((.invalidArgument, none, some key), map)
    else if prefixLength key > map.maxPrefix then ((.invalidArgument, none, some key), map)
    else
      let originalPrefixLength := prefixLength key
      let cursor := ebpfBitmapStartReverseSearchAt map.bitmap originalPrefixLength.toNat
      let (nextBit, cursor) := ebpfBitmapReverseSearchNextBit map.bitmap cursor
      -- `flags & ~EBPF_MAP_FIND_FLAG_DELETE` on the 64-bit flags
      let (value, key, table) :=
        lpmSearch map.bitmap (flags &&& (2 ^ 64 - 1 - ebpfMapFindFlagDelete)) environment
          (originalPrefixLength.toNat + 2) map.table cursor (setPrefixLength key nextBit.toUInt32)
      let key := setPrefixLength key originalPrefixLength
      match value with
      | none => ((.keyNotFound, none, some key), { map with table })
      | some value => ((.success, some value, some key), { map with table })

def deleteLpmMapEntry (map : EbpfCoreLpmMap) (key : List UInt8) (environment : HashTableEnvironment) :
    EbpfResult × EbpfCoreLpmMap :=
  if prefixLength key > map.maxPrefix then (.invalidArgument, map)
  else
    let (result, table) := deleteHashMapEntry map.table key environment
    (result, { map with table })

/-- `_update_lpm_map_entry`: the hash map's update, and on success the key's prefix length
set in the bitmap, tested first to skip the interlocked store. -/
def updateLpmMapEntry (map : EbpfCoreLpmMap) (key : Option (List UInt8)) (data : Option (List UInt8))
    (option : Nat) (environment : HashTableEnvironment) : EbpfResult × EbpfCoreLpmMap :=
  match key with
  | none => (.invalidArgument, map)
  | some key =>
    if prefixLength key > map.maxPrefix then (.invalidArgument, map)
    else
      let (result, table) := updateHashMapEntry map.table key data option environment
      let map := { map with table }
      if result = .success ∧ !map.bitmap.ebpfBitmapTestBit (prefixLength key).toNat then
        (result, { map with bitmap := (map.bitmap.ebpfBitmapSetBit (prefixLength key).toNat).2 })
      else (result, map)

/-- A call into an LPM map, with the outcomes of what it allocates. -/
inductive LpmOperation where
  | update (key : Option (List UInt8)) (data : Option (List UInt8)) (option : Nat)
      (environment : HashTableEnvironment)
  | delete (key : List UInt8) (environment : HashTableEnvironment)
  | find (key : Option (List UInt8)) (flags : Nat) (environment : HashTableEnvironment)

/-- One call: its result, the value found, the caller's key afterwards, and the map. -/
def LpmOperation.apply (map : EbpfCoreLpmMap) :
    LpmOperation → (EbpfResult × Option (List UInt8) × Option (List UInt8)) × EbpfCoreLpmMap
  | .update key data option environment =>
    let (result, map) := updateLpmMapEntry map key data option environment
    ((result, none, key), map)
  | .delete key environment =>
    let (result, map) := deleteLpmMapEntry map key environment
    ((result, none, some key), map)
  | .find key flags environment => findLpmMapEntry map key flags environment

@[simp] theorem LpmOperation.apply_update (map : EbpfCoreLpmMap) (key data : Option (List UInt8)) (option : Nat)
    (environment : HashTableEnvironment) :
    LpmOperation.apply map (.update key data option environment) =
      (((updateLpmMapEntry map key data option environment).1, none, key),
        (updateLpmMapEntry map key data option environment).2) := rfl

@[simp] theorem LpmOperation.apply_delete (map : EbpfCoreLpmMap) (key : List UInt8)
    (environment : HashTableEnvironment) :
    LpmOperation.apply map (.delete key environment) =
      (((deleteLpmMapEntry map key environment).1, none, some key), (deleteLpmMapEntry map key environment).2) := rfl

@[simp] theorem LpmOperation.apply_find (map : EbpfCoreLpmMap) (key : Option (List UInt8)) (flags : Nat)
    (environment : HashTableEnvironment) :
    LpmOperation.apply map (.find key flags environment) = findLpmMapEntry map key flags environment := rfl

/-! ## The key's fields -/

@[simp] theorem prefixLength_setPrefixLength (key : List UInt8) (length : UInt32) :
    prefixLength (setPrefixLength key length) = length := by
  have stored : readBytes (setPrefixLength key length) 0 4 = uint32Bytes length :=
    readBytes_writeBytes_self key (uint32Bytes length)
  rw [prefixLength, stored, littleEndian_uint32Bytes]
  exact UInt32.ofNat_toNat

@[simp] theorem drop_setPrefixLength (key : List UInt8) (length : UInt32) :
    (setPrefixLength key length).drop 4 = key.drop 4 :=
  drop_writeBytes key (uint32Bytes length)

theorem setPrefixLength_prefixLength {key : List UInt8} (long : 4 ≤ key.length) :
    setPrefixLength key (prefixLength key) = key := by
  rw [setPrefixLength, prefixLength, uint32Bytes_littleEndian]
  exact writeBytes_readBytes long

theorem setPrefixLength_congr {first second : List UInt8} (same : first.drop 4 = second.drop 4)
    (length : UInt32) : setPrefixLength first length = setPrefixLength second length := by
  simp only [setPrefixLength, writeBytes, length_uint32Bytes, same]

theorem setPrefixLength_setPrefixLength (key : List UInt8) (first second : UInt32) :
    setPrefixLength (setPrefixLength key first) second = setPrefixLength key second :=
  writeBytes_writeBytes key rfl

theorem flags_and_not_delete (flags : Nat) :
    flags &&& (2 ^ 64 - 1 - ebpfMapFindFlagDelete) &&& ebpfMapFindFlagDelete = 0 := by
  rw [Nat.and_assoc]
  have cleared : (2 ^ 64 - 1 - ebpfMapFindFlagDelete) &&& ebpfMapFindFlagDelete = 0 := by decide
  rw [cleared, Nat.and_zero]

end EbpfWindows.ExecutionContext
