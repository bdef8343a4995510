import EbpfWindows.Shared.SafeArithmetic
import EbpfWindows.Lib.Bytes
import EbpfWindows.Lib.Bits
import EbpfWindows.Lib.Except

/-! `ebpf_serialize_internal_map_info_array` and `ebpf_deserialize_map_info_array`
(`ebpf_serialize.c`): the pinned maps as the kernel writes them into a reply and the API reads
them back.

An entry of the serialized array is an `ebpf_serialized_map_info_t` cut just after its path: the
definition, the path's length in 16 bits and the path's bytes, `26 + length` bytes in all, one
entry after the other. The reader walks the buffer with a pointer and the count of bytes left,
here the bytes from the pointer on and that count. Before each entry it checks that a whole
`ebpf_serialized_map_info_t` is left, 28 bytes, two more than an entry with an empty path takes,
so an array whose last path is shorter than two bytes does not read back.
-/

set_option autoImplicit false

namespace EbpfWindows

open Bytes
open Bits (toNat_toUInt64_of_lt toUInt64_sub)

/-- `sizeof(ebpf_map_definition_in_memory_t)`: six 32-bit fields. -/
def sizeOfMapDefinitionInMemory : Nat := 24

/-- An `ebpf_map_definition_in_memory_t`, as the bytes a structure copy moves. -/
structure MapDefinitionBytes where
  bytes : List UInt8
  length_bytes : bytes.length = sizeOfMapDefinitionInMemory
  deriving DecidableEq

/-- `ebpf_map_info_internal_t`: a definition and the bytes of a `cxplat_utf8_string_t` path. -/
structure EbpfMapInfoInternal where
  definition : MapDefinitionBytes
  pinPath : List UInt8
  deriving DecidableEq

/-- `ebpf_map_info_t`: a definition and a path, `NULL` or the bytes of its allocation. -/
structure EbpfMapInfo where
  definition : MapDefinitionBytes
  pinPath : Option (List UInt8)
  deriving DecidableEq

/-- `EBPF_OFFSET_OF(ebpf_serialized_map_info_t, pin_path)`. -/
def offsetOfPinPath : UInt64 := 26

/-- `sizeof(ebpf_serialized_map_info_t)`: one byte of path after the length, padded to the
four-byte alignment of the definition. -/
def sizeOfSerializedMapInfo : UInt64 := 28

/-- `sizeof(ebpf_map_info_t)` on a 64-bit target: the definition and a pointer. -/
def sizeOfMapInfo : UInt64 := 32

/-! ## Serializing -/

/-- The first loop of `ebpf_serialize_internal_map_info_array`: `*required_length` grown by each
map's offset of `pin_path` and path length. -/
def requiredLengthLoop : UInt64 → List EbpfMapInfoInternal → Except EbpfResult UInt64
  | requiredLength, [] => .ok requiredLength
  | requiredLength, info :: infos => do
    let requiredLength ← ebpfSafeSizeTAdd requiredLength offsetOfPinPath
    let requiredLength ← ebpfSafeSizeTAdd requiredLength info.pinPath.length.toUInt64
    requiredLengthLoop requiredLength infos

/-- The bytes the second loop stores at `destination` for one map: the definition, the path's
length cast to `uint16_t`, and the path. -/
def serializedMapInfo (info : EbpfMapInfoInternal) : List UInt8 :=
  info.definition.bytes ++ uint16Bytes info.pinPath.length.toUInt16 ++ info.pinPath

/-- The second loop of `ebpf_serialize_internal_map_info_array`, over the buffer from `current`
on: the loop's result and those bytes after it. -/
def serializeLoop : List UInt8 → List EbpfMapInfoInternal → EbpfResult × List UInt8
  | current, [] => (.success, current)
  | current, info :: infos =>
    match ebpfSafeSizeTAdd offsetOfPinPath info.pinPath.length.toUInt64 with
    | .error result => (result, current)
    | .ok serializedMapInfoLength =>
      let current := writeBytes current (serializedMapInfo info)
      let later := serializeLoop (current.drop serializedMapInfoLength.toNat) infos
      (later.1, current.take serializedMapInfoLength.toNat ++ later.2)

/-- What `ebpf_serialize_internal_map_info_array` returns and leaves in its outputs. The required
length is `none` after a checked add overflowed, which leaves there what the platform's add
stores. -/
structure SerializeOutput where
  result : EbpfResult
  outputBuffer : List UInt8
  serializedDataLength : UInt64
  requiredLength : Option UInt64
  deriving DecidableEq

/-- `ebpf_serialize_internal_map_info_array` for the `map_count` maps of `map_info` and an output
buffer of `output_buffer_length` bytes. -/
def ebpfSerializeInternalMapInfoArray (mapInfo : List EbpfMapInfoInternal) (outputBuffer : List UInt8) :
    SerializeOutput :=
  match requiredLengthLoop 0 mapInfo with
  | .error result => ⟨result, outputBuffer, 0, none⟩
  | .ok requiredLength =>
    if outputBuffer.length < requiredLength.toNat then
      ⟨.insufficientBuffer, outputBuffer, 0, some requiredLength⟩
    else
      let written := serializeLoop outputBuffer mapInfo
      ⟨written.1, written.2, requiredLength, some requiredLength⟩

/-! ## Deserializing -/

/-- `source->definition`, at the start of the entry. -/
def readMapDefinition (current : List UInt8) : MapDefinitionBytes :=
  ⟨readBytes current 0 sizeOfMapDefinitionInMemory, length_readBytes current 0 sizeOfMapDefinitionInMemory⟩

/-- `source->pin_path_length`, the 16-bit field after the definition. -/
def readPinPathLength (current : List UInt8) : UInt16 :=
  (littleEndian (readBytes current sizeOfMapDefinitionInMemory 2)).toUInt16

/-- Whether the allocations of `ebpf_deserialize_map_info_array` succeed: the array, and the path
of the map at each index. -/
structure DeserializeEnvironment where
  mapInfoAllocated : Bool
  pinPathAllocated : Nat → Bool

/-- The loop of `ebpf_deserialize_map_info_array` for `remaining` maps from `map_index` on, over
the bytes from `current` on and `buffer_left`. A path is copied into an allocation one byte
longer, which the zeroing allocator leaves terminated; an empty path leaves `pin_path` `NULL`. -/
def deserializeLoop (environment : DeserializeEnvironment) :
    Nat → Nat → List UInt8 → UInt64 → Except EbpfResult (List EbpfMapInfo)
  | _, 0, _, _ => .ok []
  | mapIndex, remaining + 1, current, bufferLeft =>
    if bufferLeft < sizeOfSerializedMapInfo then .error .invalidArgument
    else do
      let definition := readMapDefinition current
      let pinPathLength := readPinPathLength current
      let current := current.drop offsetOfPinPath.toNat
      let bufferLeft ← ebpfSafeSizeTSubtract bufferLeft offsetOfPinPath
      if bufferLeft < pinPathLength.toUInt64 then .error .invalidArgument
      else if 0 < pinPathLength then do
        let destinationPinPathLength ← ebpfSafeSizeTAdd pinPathLength.toUInt64 1
        if environment.pinPathAllocated mapIndex then do
          let pinPath :=
            writeBytes (List.replicate destinationPinPathLength.toNat 0) (readBytes current 0 pinPathLength.toNat)
          let bufferLeft ← ebpfSafeSizeTSubtract bufferLeft pinPathLength.toUInt64
          let later ← deserializeLoop environment (mapIndex + 1) remaining (current.drop pinPathLength.toNat) bufferLeft
          return ⟨definition, some pinPath⟩ :: later
        else .error .noMemory
      else do
        let later ← deserializeLoop environment (mapIndex + 1) remaining current bufferLeft
        return ⟨definition, none⟩ :: later

/-- `ebpf_deserialize_map_info_array`: `map_count` maps read from `input_buffer_length` bytes of
`input_buffer`. -/
def ebpfDeserializeMapInfoArray (environment : DeserializeEnvironment) (inputBufferLength : UInt64)
    (inputBuffer : List UInt8) (mapCount : UInt16) : Except EbpfResult (List EbpfMapInfo) :=
  if mapCount = 0 then .ok []
  else do
    let _ ← ebpfSafeSizeTMultiply sizeOfMapInfo mapCount.toUInt64
    if environment.mapInfoAllocated then
      deserializeLoop environment 0 mapCount.toNat inputBuffer inputBufferLength
    else .error .noMemory

/-! ## The serialized array -/

/-- The maps' entries one after the other: the bytes the second loop of
`ebpf_serialize_internal_map_info_array` stores. -/
def serializedMapInfoArray (mapInfo : List EbpfMapInfoInternal) : List UInt8 :=
  mapInfo.flatMap serializedMapInfo

/-- What the reader builds from an entry: the definition, and the path with the zero that ends its
one byte longer, zeroed allocation, or `NULL` for an empty path. -/
def EbpfMapInfoInternal.deserialized (info : EbpfMapInfoInternal) : EbpfMapInfo :=
  ⟨info.definition, if info.pinPath = [] then none else some (info.pinPath ++ [0])⟩

@[simp] theorem length_serializedMapInfo (info : EbpfMapInfoInternal) :
    (serializedMapInfo info).length = 26 + info.pinPath.length := by
  simp [serializedMapInfo, info.definition.length_bytes, sizeOfMapDefinitionInMemory]
  omega

@[simp] theorem serializedMapInfoArray_nil : serializedMapInfoArray [] = [] := rfl

@[simp] theorem serializedMapInfoArray_cons (info : EbpfMapInfoInternal) (mapInfo : List EbpfMapInfoInternal) :
    serializedMapInfoArray (info :: mapInfo) = serializedMapInfo info ++ serializedMapInfoArray mapInfo := by
  simp [serializedMapInfoArray]

@[simp] theorem length_serializedMapInfoArray_cons (info : EbpfMapInfoInternal) (mapInfo : List EbpfMapInfoInternal) :
    (serializedMapInfoArray (info :: mapInfo)).length = 26 + info.pinPath.length + (serializedMapInfoArray mapInfo).length := by
  rw [serializedMapInfoArray_cons, List.length_append, length_serializedMapInfo]

theorem length_serializedMapInfoArray_le {mapInfo : List EbpfMapInfoInternal}
    (pathsShort : ∀ info ∈ mapInfo, info.pinPath.length < 2 ^ 16) :
    (serializedMapInfoArray mapInfo).length ≤ mapInfo.length * (26 + 2 ^ 16) := by
  induction mapInfo with
  | nil => simp
  | cons info mapInfo ih =>
    obtain ⟨first, rest⟩ := List.forall_mem_cons.mp pathsShort
    have restBound := ih rest
    rw [length_serializedMapInfoArray_cons, List.length_cons, Nat.succ_mul]
    omega

/-! ## Serializing -/

theorem requiredLengthLoop_eq_ok {requiredLength : UInt64} {mapInfo : List EbpfMapInfoInternal}
    (fits : requiredLength.toNat + (serializedMapInfoArray mapInfo).length < 2 ^ 64) :
    requiredLengthLoop requiredLength mapInfo =
      .ok (requiredLength.toNat + (serializedMapInfoArray mapInfo).length).toUInt64 := by
  induction mapInfo generalizing requiredLength with
  | nil => simp [requiredLengthLoop]
  | cons info mapInfo ih =>
    rw [length_serializedMapInfoArray_cons] at fits
    have pathSmall : info.pinPath.length.toUInt64.toNat = info.pinPath.length := toNat_toUInt64_of_lt (by omega)
    have offset : (requiredLength + offsetOfPinPath).toNat = requiredLength.toNat + 26 :=
      ebpfSafeSizeTAdd_toNat (by simp [offsetOfPinPath]; omega)
    have path : (requiredLength + offsetOfPinPath + info.pinPath.length.toUInt64).toNat =
        requiredLength.toNat + 26 + info.pinPath.length :=
      by rw [ebpfSafeSizeTAdd_toNat (by omega), offset, pathSmall]
    rw [requiredLengthLoop, ebpfSafeSizeTAdd_eq_ok (by simp [offsetOfPinPath]; omega),
      Except.ok_bind, ebpfSafeSizeTAdd_eq_ok (by omega), Except.ok_bind, ih (by omega), path,
      length_serializedMapInfoArray_cons]
    congr 2
    omega

theorem requiredLengthLoop_eq_error {requiredLength : UInt64} {mapInfo : List EbpfMapInfoInternal}
    (pathsFit : ∀ info ∈ mapInfo, info.pinPath.length < 2 ^ 64)
    (overflows : 2 ^ 64 ≤ requiredLength.toNat + (serializedMapInfoArray mapInfo).length) :
    requiredLengthLoop requiredLength mapInfo = .error .arithmeticOverflow := by
  induction mapInfo generalizing requiredLength with
  | nil =>
    have small := requiredLength.toNat_lt
    simp at overflows
    omega
  | cons info mapInfo ih =>
    obtain ⟨pathFit, restFit⟩ := List.forall_mem_cons.mp pathsFit
    rw [length_serializedMapInfoArray_cons] at overflows
    have offsetSmall : offsetOfPinPath.toNat = 26 := rfl
    rw [requiredLengthLoop]
    by_cases offsetFits : requiredLength.toNat + offsetOfPinPath.toNat < 2 ^ 64
    case neg => rw [ebpfSafeSizeTAdd_eq_error offsetFits, Except.error_bind]
    rw [ebpfSafeSizeTAdd_eq_ok offsetFits, Except.ok_bind]
    have offset := ebpfSafeSizeTAdd_toNat offsetFits
    by_cases pathFits : (requiredLength + offsetOfPinPath).toNat + info.pinPath.length.toUInt64.toNat < 2 ^ 64
    case neg => rw [ebpfSafeSizeTAdd_eq_error pathFits, Except.error_bind]
    rw [ebpfSafeSizeTAdd_eq_ok pathFits, Except.ok_bind]
    apply ih restFit
    rw [ebpfSafeSizeTAdd_toNat pathFits, offset, toNat_toUInt64_of_lt pathFit]
    omega

theorem serializeLoop_eq (current : List UInt8) {mapInfo : List EbpfMapInfoInternal}
    (fits : (serializedMapInfoArray mapInfo).length < 2 ^ 64) :
    serializeLoop current mapInfo = (.success, writeBytes current (serializedMapInfoArray mapInfo)) := by
  induction mapInfo generalizing current with
  | nil => simp [serializeLoop, writeBytes]
  | cons info mapInfo ih =>
    simp only [serializedMapInfoArray_cons, List.length_append] at fits
    have entryLength : ebpfSafeSizeTAdd offsetOfPinPath info.pinPath.length.toUInt64 =
        .ok (serializedMapInfo info).length.toUInt64 := by
      have pathSmall := toNat_toUInt64_of_lt (show info.pinPath.length < 2 ^ 64 by simp at fits; omega)
      have offsetToNat : offsetOfPinPath.toNat = 26 := rfl
      rw [ebpfSafeSizeTAdd_eq_ok (by rw [offsetToNat, pathSmall]; simp at fits; omega)]
      simp [offsetOfPinPath]
    rw [serializeLoop, entryLength]
    simp only [toNat_toUInt64_of_lt (show (serializedMapInfo info).length < 2 ^ 64 by omega), take_writeBytes,
      drop_writeBytes, ih _ (by omega), serializedMapInfoArray_cons, writeBytes_append]

theorem ebpfSerializeInternalMapInfoArray_eq {mapInfo : List EbpfMapInfoInternal} (outputBuffer : List UInt8)
    (pathsFit : ∀ info ∈ mapInfo, info.pinPath.length < 2 ^ 64) :
    ebpfSerializeInternalMapInfoArray mapInfo outputBuffer =
      if (serializedMapInfoArray mapInfo).length < 2 ^ 64 then
        if outputBuffer.length < (serializedMapInfoArray mapInfo).length then
          ⟨.insufficientBuffer, outputBuffer, 0, some (serializedMapInfoArray mapInfo).length.toUInt64⟩
        else
          ⟨.success, writeBytes outputBuffer (serializedMapInfoArray mapInfo),
            (serializedMapInfoArray mapInfo).length.toUInt64, some (serializedMapInfoArray mapInfo).length.toUInt64⟩
      else ⟨.arithmeticOverflow, outputBuffer, 0, none⟩ := by
  by_cases fits : (serializedMapInfoArray mapInfo).length < 2 ^ 64
  case neg =>
    have overflows : 2 ^ 64 ≤ (0 : UInt64).toNat + (serializedMapInfoArray mapInfo).length := by simp; omega
    rw [if_neg fits, ebpfSerializeInternalMapInfoArray, requiredLengthLoop_eq_error pathsFit overflows]
  have loop := @requiredLengthLoop_eq_ok 0 mapInfo (by simpa using fits)
  rw [UInt64.toNat_zero, Nat.zero_add] at loop
  rw [if_pos fits, ebpfSerializeInternalMapInfoArray, loop]
  simp only [toNat_toUInt64_of_lt fits, serializeLoop_eq _ fits]

/-! ## Deserializing -/

theorem readMapDefinition_serializedMapInfo (info : EbpfMapInfoInternal) (later : List UInt8) :
    readMapDefinition (serializedMapInfo info ++ later) = info.definition := by
  obtain ⟨⟨bytes, length⟩, pinPath⟩ := info
  simp only [readMapDefinition, serializedMapInfo, MapDefinitionBytes.mk.injEq]
  rw [← length, List.append_assoc, List.append_assoc, readBytes_append_self]

theorem readPinPathLength_serializedMapInfo (info : EbpfMapInfoInternal) (later : List UInt8) :
    readPinPathLength (serializedMapInfo info ++ later) = info.pinPath.length.toUInt16 := by
  obtain ⟨⟨bytes, length⟩, pinPath⟩ := info
  have lengthField : (uint16Bytes pinPath.length.toUInt16).length = 2 := rfl
  simp only [readPinPathLength, serializedMapInfo]
  rw [← length, List.append_assoc, List.append_assoc, readBytes_append_length, ← lengthField,
    readBytes_append_self, littleEndian_uint16Bytes]
  exact UInt16.toNat_inj.mp (by simp)

theorem drop_serializedMapInfo (info : EbpfMapInfoInternal) (later : List UInt8) :
    (serializedMapInfo info ++ later).drop offsetOfPinPath.toNat = info.pinPath ++ later := by
  have header : (info.definition.bytes ++ uint16Bytes info.pinPath.length.toUInt16).length = offsetOfPinPath.toNat := by
    simp [info.definition.length_bytes, sizeOfMapDefinitionInMemory, offsetOfPinPath]
  rw [serializedMapInfo, List.append_assoc, ← header, List.drop_left]

theorem deserializeLoop_of_lt {environment : DeserializeEnvironment} {bufferLeft : UInt64}
    (short : bufferLeft.toNat < 28) (mapIndex remaining : Nat) (current : List UInt8) :
    deserializeLoop environment mapIndex (remaining + 1) current bufferLeft = .error .invalidArgument := by
  have below : bufferLeft < sizeOfSerializedMapInfo := UInt64.lt_iff_toNat_lt.mpr short
  rw [deserializeLoop, if_pos below]

theorem deserializeLoop_serializedMapInfo {environment : DeserializeEnvironment}
    (pinPathAllocated : ∀ index, environment.pinPathAllocated index) {info : EbpfMapInfoInternal}
    (pathShort : info.pinPath.length < 2 ^ 16) (later : List UInt8) {after : Nat}
    (fits : 26 + info.pinPath.length + after < 2 ^ 64) (room : 28 ≤ 26 + info.pinPath.length + after)
    (mapIndex remaining : Nat) :
    deserializeLoop environment mapIndex (remaining + 1) (serializedMapInfo info ++ later)
        (26 + info.pinPath.length + after).toUInt64 =
      (info.deserialized :: ·) <$> deserializeLoop environment (mapIndex + 1) remaining later after.toUInt64 := by
  have lengthCast : info.pinPath.length.toUInt16.toUInt64 = info.pinPath.length.toUInt64 := by
    apply UInt64.toNat_inj.mp
    simp
    omega
  have enough : ¬ (26 + info.pinPath.length + after).toUInt64 < sizeOfSerializedMapInfo := by
    rw [UInt64.lt_iff_toNat_lt, toNat_toUInt64_of_lt fits]
    exact Nat.not_lt.mpr room
  have header : ebpfSafeSizeTSubtract (26 + info.pinPath.length + after).toUInt64 offsetOfPinPath =
      .ok (info.pinPath.length + after).toUInt64 := by
    have offset : offsetOfPinPath = (26 : Nat).toUInt64 := rfl
    rw [offset, ebpfSafeSizeTSubtract_eq_ok (by rw [UInt64.le_iff_toNat_le, toNat_toUInt64_of_lt fits]; simp; omega),
      toUInt64_sub (by omega) fits]
    congr 2
    omega
  have pathFits : ¬ (info.pinPath.length + after).toUInt64 < info.pinPath.length.toUInt64 := by
    rw [UInt64.lt_iff_toNat_lt, toNat_toUInt64_of_lt (by omega), toNat_toUInt64_of_lt (by omega)]
    omega
  rw [deserializeLoop, if_neg enough]
  simp only [readMapDefinition_serializedMapInfo, readPinPathLength_serializedMapInfo, drop_serializedMapInfo,
    header, Except.ok_bind, lengthCast, if_neg pathFits]
  by_cases empty : info.pinPath = []
  case pos =>
    simp [empty, EbpfMapInfoInternal.deserialized]
  case neg =>
    have lengthToNat : info.pinPath.length.toUInt16.toNat = info.pinPath.length := by
      simp
      omega
    have positive : 0 < info.pinPath.length.toUInt16 := by
      rw [UInt16.lt_iff_toNat_lt, UInt16.toNat_zero, lengthToNat]
      exact List.length_pos_of_ne_nil empty
    have terminated : ebpfSafeSizeTAdd info.pinPath.length.toUInt64 1 = .ok (info.pinPath.length + 1).toUInt64 := by
      rw [ebpfSafeSizeTAdd_eq_ok (by rw [toNat_toUInt64_of_lt (by omega)]; simp; omega)]
      simp
    have path : ebpfSafeSizeTSubtract (info.pinPath.length + after).toUInt64 info.pinPath.length.toUInt64 =
        .ok after.toUInt64 := by
      rw [ebpfSafeSizeTSubtract_eq_ok (by rw [UInt64.le_iff_toNat_le, toNat_toUInt64_of_lt (by omega),
        toNat_toUInt64_of_lt (by omega)]; omega), toUInt64_sub (by omega) (by omega), Nat.add_sub_cancel_left]
    have copied : writeBytes (List.replicate (info.pinPath.length + 1) 0) info.pinPath = info.pinPath ++ [0] := by
      simp [writeBytes, List.drop_replicate]
    rw [if_pos positive]
    simp only [terminated, Except.ok_bind, pinPathAllocated, if_true, path, lengthToNat, List.drop_left,
      readBytes_append_self, toNat_toUInt64_of_lt (show info.pinPath.length + 1 < 2 ^ 64 by omega), copied]
    simp [EbpfMapInfoInternal.deserialized, empty]

theorem deserializeLoop_serializedMapInfoArray {environment : DeserializeEnvironment}
    (pinPathAllocated : ∀ index, environment.pinPathAllocated index) {mapInfo : List EbpfMapInfoInternal}
    (pathsShort : ∀ info ∈ mapInfo, info.pinPath.length < 2 ^ 16)
    (fits : (serializedMapInfoArray mapInfo).length < 2 ^ 64) (later : List UInt8) (mapIndex : Nat) :
    deserializeLoop environment mapIndex mapInfo.length (serializedMapInfoArray mapInfo ++ later)
        (serializedMapInfoArray mapInfo).length.toUInt64 =
      if ∀ last ∈ mapInfo.getLast?, 2 ≤ last.pinPath.length then .ok (mapInfo.map EbpfMapInfoInternal.deserialized)
      else .error .invalidArgument := by
  induction mapInfo generalizing mapIndex with
  | nil => simp [deserializeLoop]
  | cons info mapInfo ih =>
    obtain ⟨pathShort, restShort⟩ := List.forall_mem_cons.mp pathsShort
    rw [length_serializedMapInfoArray_cons] at fits
    simp only [serializedMapInfoArray_cons, List.length_append, length_serializedMapInfo, List.length_cons,
      List.append_assoc]
    cases mapInfo with
    | nil =>
      -- the last entry is read exactly when its path leaves it 28 bytes
      by_cases long : 2 ≤ info.pinPath.length
      case pos =>
        rw [deserializeLoop_serializedMapInfo pinPathAllocated pathShort _ fits
          (by simp only [serializedMapInfoArray_nil, List.length_nil]; omega)]
        simp [deserializeLoop, long]
      case neg =>
        rw [deserializeLoop_of_lt (by rw [toNat_toUInt64_of_lt fits]; simp; omega)]
        simp [long]
    | cons next mapInfo =>
      have room : 26 ≤ (serializedMapInfoArray (next :: mapInfo)).length := by
        rw [length_serializedMapInfoArray_cons]
        omega
      rw [deserializeLoop_serializedMapInfo pinPathAllocated pathShort _ fits (by omega),
        ih restShort (by omega), List.getLast?_cons_cons]
      split <;> rfl

theorem length_serializedMapInfoArray_lt {mapInfo : List EbpfMapInfoInternal} (counted : mapInfo.length < 2 ^ 16)
    (pathsShort : ∀ info ∈ mapInfo, info.pinPath.length < 2 ^ 16) :
    (serializedMapInfoArray mapInfo).length < 2 ^ 64 := by
  have bound := length_serializedMapInfoArray_le pathsShort
  omega

theorem ebpfDeserializeMapInfoArray_serializedMapInfoArray {environment : DeserializeEnvironment}
    (mapInfoAllocated : environment.mapInfoAllocated) (pinPathAllocated : ∀ index, environment.pinPathAllocated index)
    {mapInfo : List EbpfMapInfoInternal} (counted : mapInfo.length < 2 ^ 16)
    (pathsShort : ∀ info ∈ mapInfo, info.pinPath.length < 2 ^ 16) (later : List UInt8) :
    ebpfDeserializeMapInfoArray environment (serializedMapInfoArray mapInfo).length.toUInt64
        (serializedMapInfoArray mapInfo ++ later) mapInfo.length.toUInt16 =
      if ∀ last ∈ mapInfo.getLast?, 2 ≤ last.pinPath.length then .ok (mapInfo.map EbpfMapInfoInternal.deserialized)
      else .error .invalidArgument := by
  by_cases empty : mapInfo = []
  case pos =>
    subst empty
    simp [ebpfDeserializeMapInfoArray]
  have countToNat : mapInfo.length.toUInt16.toNat = mapInfo.length := by
    simp
    omega
  have nonzero : mapInfo.length.toUInt16 ≠ 0 := by
    intro zero
    rw [zero, UInt16.toNat_zero] at countToNat
    exact empty (List.length_eq_zero_iff.mp countToNat.symm)
  have allocationFits : sizeOfMapInfo.toNat * mapInfo.length.toUInt16.toUInt64.toNat < 2 ^ 64 := by
    simp only [UInt16.toNat_toUInt64, countToNat]
    simp [sizeOfMapInfo]
    omega
  rw [ebpfDeserializeMapInfoArray, if_neg nonzero, ebpfSafeSizeTMultiply_eq_ok allocationFits, Except.ok_bind,
    if_pos mapInfoAllocated, countToNat]
  exact deserializeLoop_serializedMapInfoArray pinPathAllocated pathsShort
    (length_serializedMapInfoArray_lt counted pathsShort) later 0

/-! ## Reading back what was written -/

section RoundTrip

variable (environment : DeserializeEnvironment) (mapInfoAllocated : environment.mapInfoAllocated)
  (pinPathAllocated : ∀ index, environment.pinPathAllocated index) {mapInfo : List EbpfMapInfoInternal}
  (outputBuffer : List UInt8) (counted : mapInfo.length < 2 ^ 16)
  (pathsShort : ∀ info ∈ mapInfo, info.pinPath.length < 2 ^ 16)
  (room : (serializedMapInfoArray mapInfo).length ≤ outputBuffer.length)

include counted pathsShort room in
theorem ebpfSerializeInternalMapInfoArray_of_le :
    ebpfSerializeInternalMapInfoArray mapInfo outputBuffer =
      ⟨.success, serializedMapInfoArray mapInfo ++ outputBuffer.drop (serializedMapInfoArray mapInfo).length,
        (serializedMapInfoArray mapInfo).length.toUInt64, some (serializedMapInfoArray mapInfo).length.toUInt64⟩ := by
  have fits := length_serializedMapInfoArray_lt counted pathsShort
  have pathsFit : ∀ info ∈ mapInfo, info.pinPath.length < 2 ^ 64 := fun info member => by
    have short := pathsShort info member
    omega
  rw [ebpfSerializeInternalMapInfoArray_eq outputBuffer pathsFit, if_pos fits, if_neg (Nat.not_lt.mpr room),
    writeBytes]

include mapInfoAllocated pinPathAllocated counted pathsShort room in
/-- Maps written into a reply long enough for them read back as the same definitions and paths,
each path ended by a zero, when the last path has at least two bytes. -/
theorem deserialize_map_info_array_reads_back_the_serialized_maps
    (lastPathLong : ∀ last ∈ mapInfo.getLast?, 2 ≤ last.pinPath.length) :
    (ebpfSerializeInternalMapInfoArray mapInfo outputBuffer).result = .success ∧
      ebpfDeserializeMapInfoArray environment (ebpfSerializeInternalMapInfoArray mapInfo outputBuffer).serializedDataLength
          (ebpfSerializeInternalMapInfoArray mapInfo outputBuffer).outputBuffer mapInfo.length.toUInt16 =
        .ok (mapInfo.map EbpfMapInfoInternal.deserialized) := by
  rw [ebpfSerializeInternalMapInfoArray_of_le outputBuffer counted pathsShort room]
  refine ⟨rfl, ?_⟩
  rw [ebpfDeserializeMapInfoArray_serializedMapInfoArray mapInfoAllocated pinPathAllocated counted pathsShort,
    if_pos lastPathLong]

/-- Two maps pinned at two-byte paths. -/
def twoPinnedMaps : List EbpfMapInfoInternal :=
  [⟨⟨List.replicate 24 1, rfl⟩, [47, 97]⟩, ⟨⟨List.replicate 24 2, rfl⟩, [47, 98]⟩]

theorem deserialize_map_info_array_reads_back_two_pinned_maps :
    (ebpfSerializeInternalMapInfoArray twoPinnedMaps (List.replicate 56 0)).result = .success ∧
      ebpfDeserializeMapInfoArray ⟨true, fun _ => true⟩
          (ebpfSerializeInternalMapInfoArray twoPinnedMaps (List.replicate 56 0)).serializedDataLength
          (ebpfSerializeInternalMapInfoArray twoPinnedMaps (List.replicate 56 0)).outputBuffer 2 =
        .ok (twoPinnedMaps.map EbpfMapInfoInternal.deserialized) :=
  deserialize_map_info_array_reads_back_the_serialized_maps ⟨true, fun _ => true⟩ rfl (fun _ => rfl)
    (List.replicate 56 0) (by decide) (by decide) (by decide) (by decide)

include mapInfoAllocated pinPathAllocated counted pathsShort room in
/-- An array whose last path is shorter than two bytes is written whole, but the reader refuses
it: the last entry has fewer than `sizeof(ebpf_serialized_map_info_t)` bytes. -/
theorem deserialize_map_info_array_refuses_a_short_last_path {last : EbpfMapInfoInternal}
    (isLast : mapInfo.getLast? = some last) (lastPathShort : last.pinPath.length < 2) :
    (ebpfSerializeInternalMapInfoArray mapInfo outputBuffer).result = .success ∧
      ebpfDeserializeMapInfoArray environment (ebpfSerializeInternalMapInfoArray mapInfo outputBuffer).serializedDataLength
          (ebpfSerializeInternalMapInfoArray mapInfo outputBuffer).outputBuffer mapInfo.length.toUInt16 =
        .error .invalidArgument := by
  rw [ebpfSerializeInternalMapInfoArray_of_le outputBuffer counted pathsShort room]
  refine ⟨rfl, ?_⟩
  have notLong : ¬ ∀ last ∈ mapInfo.getLast?, 2 ≤ last.pinPath.length := fun long =>
    absurd (long last (by simp [isLast])) (Nat.not_le.mpr lastPathShort)
  rw [ebpfDeserializeMapInfoArray_serializedMapInfoArray mapInfoAllocated pinPathAllocated counted pathsShort,
    if_neg notLong]

/-- One map pinned at a one-byte path. -/
def oneMapPinnedAtOneByte : List EbpfMapInfoInternal :=
  [⟨⟨List.replicate 24 1, rfl⟩, [47]⟩]

theorem deserialize_map_info_array_refuses_a_map_pinned_at_one_byte :
    (ebpfSerializeInternalMapInfoArray oneMapPinnedAtOneByte (List.replicate 27 0)).result = .success ∧
      ebpfDeserializeMapInfoArray ⟨true, fun _ => true⟩
          (ebpfSerializeInternalMapInfoArray oneMapPinnedAtOneByte (List.replicate 27 0)).serializedDataLength
          (ebpfSerializeInternalMapInfoArray oneMapPinnedAtOneByte (List.replicate 27 0)).outputBuffer 1 =
        .error .invalidArgument :=
  deserialize_map_info_array_refuses_a_short_last_path ⟨true, fun _ => true⟩ rfl (fun _ => rfl)
    (List.replicate 27 0) (by decide) (by decide) (by decide) rfl (by decide)

end RoundTrip

end EbpfWindows
