import Mathlib.Data.Nat.Digits.Lemmas

/-! Byte buffers as lists of bytes read through a pointer.

A buffer the code reads a fixed number of bytes from is a list of bytes; a
read past its end yields zero, so every read is total and a buffer that is
too short behaves as one padded with zeros. `memcmp` and little-endian
integer loads are stated over such reads.
-/

set_option autoImplicit false

namespace Bytes

/-- The `count` bytes starting at `offset`, as a load of that many bytes does. -/
def readBytes (memory : List UInt8) (offset count : Nat) : List UInt8 :=
  (List.range count).map fun index => memory.getD (offset + index) 0

@[simp] theorem length_readBytes (memory : List UInt8) (offset count : Nat) :
    (readBytes memory offset count).length = count := by
  simp [readBytes]

@[simp] theorem readBytes_length_self (memory : List UInt8) : readBytes memory 0 memory.length = memory := by
  apply List.ext_getElem (by simp)
  intro index bound _
  simp only [length_readBytes] at bound
  simp [readBytes, bound]

theorem readBytes_eq_iff {first second : List UInt8} {offset count : Nat} :
    readBytes first offset count = readBytes second offset count ↔
      ∀ index < count, first.getD (offset + index) 0 = second.getD (offset + index) 0 := by
  constructor
  · intro same index bound
    have atIndex := congrArg (fun bytes => bytes.getD index 0) same
    simpa [readBytes, List.getD_eq_getElem?_getD, bound] using atIndex
  · intro agree
    apply List.ext_getElem (by simp)
    intro index firstBound _
    simp only [length_readBytes] at firstBound
    have atIndex := agree index firstBound
    simpa [readBytes, List.getD_eq_getElem?_getD] using atIndex

theorem getD_readBytes (memory : List UInt8) {offset count index : Nat} (within : index < count) :
    (readBytes memory offset count).getD index 0 = memory.getD (offset + index) 0 := by
  simp [readBytes, List.getD_eq_getElem?_getD, within]

theorem getD_eq_of_readBytes_eq {first second : List UInt8} {count index : Nat}
    (same : readBytes first 0 count = readBytes second 0 count) (within : index < count) :
    first.getD index 0 = second.getD index 0 := by
  simpa using readBytes_eq_iff.mp same index within

theorem readBytes_eq_of_readBytes_eq {first second : List UInt8} {count offset length : Nat}
    (same : readBytes first 0 count = readBytes second 0 count) (within : offset + length ≤ count) :
    readBytes first offset length = readBytes second offset length :=
  readBytes_eq_iff.mpr fun index bound => getD_eq_of_readBytes_eq same (by omega)

/-- The C library's comparison of two byte strings of one length: the first byte
that differs decides the sign, and the result is zero exactly when none does. -/
def memcmp : List UInt8 → List UInt8 → Int
  | first :: firstRest, second :: secondRest =>
    if first < second then -1 else if second < first then 1 else memcmp firstRest secondRest
  | _, _ => 0

theorem memcmp_eq_zero_iff :
    ∀ {first second : List UInt8}, first.length = second.length →
      (memcmp first second = 0 ↔ first = second)
  | [], [], _ => by simp [memcmp]
  | first :: firstRest, second :: secondRest, sameLength => by
    have restLength : firstRest.length = secondRest.length := by simpa using sameLength
    have rest := memcmp_eq_zero_iff restLength
    by_cases below : first < second
    · have different : first ≠ second := UInt8.ne_of_lt below
      simp [memcmp, below, different]
    · by_cases above : second < first
      · have different : first ≠ second := (UInt8.ne_of_lt above).symm
        simp [memcmp, below, above, different]
      · have same : first = second := by
          simp only [UInt8.lt_iff_toNat_lt, not_lt] at below above
          exact UInt8.toNat_inj.mp (Nat.le_antisymm above below)
        subst same
        simp [memcmp, rest]

/-- The unsigned integer a little-endian load of these bytes yields. -/
def littleEndian (bytes : List UInt8) : Nat :=
  Nat.ofDigits 256 (bytes.map UInt8.toNat)

theorem littleEndian_digits_lt (bytes : List UInt8) :
    ∀ digit ∈ bytes.map UInt8.toNat, digit < 256 := by
  intro digit member
  obtain ⟨byte, -, rfl⟩ := List.mem_map.mp member
  exact byte.toNat_lt

theorem littleEndian_inj {first second : List UInt8} (sameLength : first.length = second.length) :
    littleEndian first = littleEndian second ↔ first = second := by
  constructor
  · intro same
    have digits := Nat.ofDigits_inj_of_len_eq (by decide : 1 < 256) (by simpa using sameLength)
      (littleEndian_digits_lt first) (littleEndian_digits_lt second) same
    exact List.map_injective_iff.mpr (fun _ _ h => UInt8.toNat_inj.mp h) digits
  · rintro rfl
    rfl

/-! ## Stores and 32-bit fields -/

/-- The buffer after a store of `bytes` at its start. -/
def writeBytes (memory bytes : List UInt8) : List UInt8 :=
  bytes ++ memory.drop bytes.length

/-- The little-endian bytes of a 16-bit value, as a store of it writes them. -/
def uint16Bytes (value : UInt16) : List UInt8 :=
  [value.toUInt8, (value >>> 8).toUInt8]

@[simp] theorem length_uint16Bytes (value : UInt16) : (uint16Bytes value).length = 2 := rfl

/-- The little-endian bytes of a 32-bit value, as a store of it writes them. -/
def uint32Bytes (value : UInt32) : List UInt8 :=
  [value.toUInt8, (value >>> 8).toUInt8, (value >>> 16).toUInt8, (value >>> 24).toUInt8]

@[simp] theorem length_uint32Bytes (value : UInt32) : (uint32Bytes value).length = 4 := rfl

/-- The little-endian bytes of a 64-bit value. -/
def uint64Bytes (value : UInt64) : List UInt8 :=
  [value.toUInt8, (value >>> 8).toUInt8, (value >>> 16).toUInt8, (value >>> 24).toUInt8,
   (value >>> 32).toUInt8, (value >>> 40).toUInt8, (value >>> 48).toUInt8, (value >>> 56).toUInt8]

@[simp] theorem length_uint64Bytes (value : UInt64) : (uint64Bytes value).length = 8 := rfl

theorem readBytes_add (memory : List UInt8) (offset first second : Nat) :
    readBytes memory offset (first + second) = readBytes memory offset first ++ readBytes memory (offset + first) second := by
  simp only [readBytes, List.range_add, List.map_append, List.map_map]
  congr 1
  apply List.map_congr_left
  intro index _
  simp [Function.comp, Nat.add_assoc]

theorem getD_drop (memory : List UInt8) (skip index : Nat) :
    (memory.drop skip).getD index 0 = memory.getD (skip + index) 0 := by
  simp [List.getD_eq_getElem?_getD, List.getElem?_drop]

theorem readBytes_drop (memory : List UInt8) (skip offset count : Nat) :
    readBytes (memory.drop skip) offset count = readBytes memory (skip + offset) count := by
  simp [readBytes, Nat.add_assoc]

theorem readBytes_append_self (first second : List UInt8) : readBytes (first ++ second) 0 first.length = first := by
  apply List.ext_getElem (by simp)
  intro index bound _
  simp only [length_readBytes] at bound
  simp [readBytes, List.getD_eq_getElem?_getD, List.getElem?_append_left bound, bound]

theorem readBytes_append_length (first second : List UInt8) (count : Nat) :
    readBytes (first ++ second) first.length count = readBytes second 0 count := by
  have skipped := readBytes_drop (first ++ second) first.length 0 count
  rw [Nat.add_zero, List.drop_left] at skipped
  exact skipped.symm

theorem take_writeBytes (memory bytes : List UInt8) : (writeBytes memory bytes).take bytes.length = bytes := by
  simp [writeBytes]

theorem writeBytes_append (memory first second : List UInt8) :
    writeBytes memory (first ++ second) = first ++ writeBytes (memory.drop first.length) second := by
  simp [writeBytes, List.drop_drop]

theorem drop_writeBytes (memory bytes : List UInt8) :
    (writeBytes memory bytes).drop bytes.length = memory.drop bytes.length := by
  simp [writeBytes]

theorem getD_writeBytes (memory bytes : List UInt8) (index : Nat) :
    (writeBytes memory bytes).getD index 0 =
      if index < bytes.length then bytes.getD index 0 else memory.getD index 0 := by
  unfold writeBytes
  split
  · rename_i inside
    simp [List.getD_eq_getElem?_getD, List.getElem?_append_left inside]
  · rename_i outside
    simp only [List.getD_eq_getElem?_getD, List.getElem?_append_right (Nat.le_of_not_lt outside),
      List.getElem?_drop]
    congr 2
    omega

theorem readBytes_writeBytes_of_le {memory bytes : List UInt8} {offset : Nat} (past : bytes.length ≤ offset)
    (count : Nat) : readBytes (writeBytes memory bytes) offset count = readBytes memory offset count :=
  readBytes_eq_iff.mpr fun index _ => by rw [getD_writeBytes, if_neg (by omega)]

theorem readBytes_writeBytes_self (memory bytes : List UInt8) :
    readBytes (writeBytes memory bytes) 0 bytes.length = bytes := by
  apply List.ext_getElem (by simp)
  intro index bound _
  simp only [length_readBytes] at bound
  simp only [readBytes, List.getElem_map, List.getElem_range, Nat.zero_add]
  rw [getD_writeBytes, if_pos bound, List.getD_eq_getElem?_getD, List.getElem?_eq_getElem bound, Option.getD_some]

theorem writeBytes_writeBytes (memory : List UInt8) {first second : List UInt8}
    (sameLength : first.length = second.length) :
    writeBytes (writeBytes memory first) second = writeBytes memory second := by
  simp [writeBytes, sameLength]

theorem writeBytes_readBytes {memory : List UInt8} {count : Nat} (long : count ≤ memory.length) :
    writeBytes memory (readBytes memory 0 count) = memory := by
  unfold writeBytes
  rw [length_readBytes]
  conv => rhs; rw [← List.take_append_drop count memory]
  congr 1
  apply List.ext_getElem (by simp; omega)
  intro index bound _
  simp only [length_readBytes] at bound
  simp [readBytes, List.getD_eq_getElem?_getD, List.getElem?_eq_getElem (show index < memory.length by omega)]

theorem littleEndian_uint16Bytes (value : UInt16) : littleEndian (uint16Bytes value) = value.toNat := by
  have small := value.toNat_lt
  simp only [littleEndian, uint16Bytes, List.map_cons, List.map_nil, Nat.ofDigits_cons, Nat.ofDigits_nil,
    UInt16.toNat_toUInt8, UInt16.toNat_shiftRight]
  simp only [UInt16.reduceToNat, Nat.shiftRight_eq_div_pow, Nat.reduceMod, Nat.reducePow]
  omega

theorem littleEndian_uint32Bytes (value : UInt32) : littleEndian (uint32Bytes value) = value.toNat := by
  have small := value.toNat_lt
  simp only [littleEndian, uint32Bytes, List.map_cons, List.map_nil, Nat.ofDigits_cons, Nat.ofDigits_nil,
    UInt32.toNat_toUInt8, UInt32.toNat_shiftRight]
  simp only [UInt32.reduceToNat, Nat.shiftRight_eq_div_pow, Nat.reduceMod, Nat.reducePow]
  omega

theorem littleEndian_uint64Bytes (value : UInt64) : littleEndian (uint64Bytes value) = value.toNat := by
  have small := value.toNat_lt
  simp only [littleEndian, uint64Bytes, List.map_cons, List.map_nil, Nat.ofDigits_cons, Nat.ofDigits_nil,
    UInt64.toNat_toUInt8, UInt64.toNat_shiftRight]
  simp only [UInt64.reduceToNat, Nat.shiftRight_eq_div_pow, Nat.reduceMod, Nat.reducePow]
  omega

theorem littleEndian_lt (bytes : List UInt8) : littleEndian bytes < 256 ^ bytes.length := by
  simpa [littleEndian] using Nat.ofDigits_lt_base_pow_length (by decide : 1 < 256) (littleEndian_digits_lt bytes)

theorem uint16Bytes_littleEndian (memory : List UInt8) (offset : Nat) :
    uint16Bytes (littleEndian (readBytes memory offset 2)).toUInt16 = readBytes memory offset 2 := by
  have small : littleEndian (readBytes memory offset 2) < 2 ^ 16 := by
    simpa using littleEndian_lt (readBytes memory offset 2)
  apply (littleEndian_inj (by simp)).mp
  rw [littleEndian_uint16Bytes, Nat.toUInt16_eq, UInt16.toNat_ofNat_of_lt' small]

theorem uint32Bytes_littleEndian (memory : List UInt8) (offset : Nat) :
    uint32Bytes (littleEndian (readBytes memory offset 4)).toUInt32 = readBytes memory offset 4 := by
  have small : littleEndian (readBytes memory offset 4) < 2 ^ 32 := by
    simpa using littleEndian_lt (readBytes memory offset 4)
  apply (littleEndian_inj (by simp)).mp
  rw [littleEndian_uint32Bytes, Nat.toUInt32_eq, UInt32.toNat_ofNat_of_lt' small]

end Bytes
