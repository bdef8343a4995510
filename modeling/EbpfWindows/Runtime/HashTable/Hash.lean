import EbpfWindows.Lib.Bytes

/-! The two functions the hash table hashes keys with (ebpf_hash_table.c).

`_ebpf_murmur3_32` hashes a bit string: the whole bytes below the length, four
at a time and then one at a time, and the high-order bits of the partial byte.
`_ebpf_compute_crc32` is the SSE4.2 path for keys compared as bytes; the
intrinsics are CRC-32C steps, so a 64-bit or 32-bit step is eight or four byte
steps in little-endian order.

What the table needs from either is that the hash reads nothing but the bits
the key comparison reads; `ebpfMurmur3_32_congr` and `ebpfComputeCrc32_congr`
say so.
-/

set_option autoImplicit false

namespace EbpfWindows.Runtime

open Bytes

/-- `_ebpf_rol`: rotate left. -/
def ebpfRol (value count : UInt32) : UInt32 :=
  (value <<< count) ||| (value >>> (32 - count))

/-- One iteration of the four-byte loop of `_ebpf_murmur3_32`. -/
def murmur3Block (hash k : UInt32) : UInt32 :=
  let k := ebpfRol (k * 0xcc9e2d51) 15 * 0x1b873593
  ebpfRol (hash ^^^ k) 13 * 5 + 0xe6546b64

/-- `_ebpf_murmur3_32`. The length in bytes is taken from the length in bits cast to
`uint32_t`; the final mix shifts by `r2 = 13` where it reuses that constant. -/
def ebpfMurmur3_32 (key : List UInt8) (lengthInBits : Nat) (seed : UInt32) : UInt32 :=
  let lengthInBytes := (lengthInBits % 2 ^ 32) / 8
  let remainingBits := lengthInBits % 8
  -- for (index = 0; (length_in_bytes - index) > 3; index += 4)
  let hash := (List.range (lengthInBytes / 4)).foldl
    (fun hash block => murmur3Block hash (littleEndian (readBytes key (4 * block) 4)).toUInt32) seed
  -- for (index = length_in_bytes & (~3); index < length_in_bytes; index++)
  let remainder := (List.range (lengthInBytes % 4)).foldl
    (fun (remainder : UInt32) index => (remainder <<< 8) ||| (key.getD (lengthInBytes / 4 * 4 + index) 0).toUInt32) (0 : UInt32)
  let remainder :=
    if remainingBits ≠ 0 then
      (remainder <<< 8) ||| (key.getD lengthInBytes 0 >>> (8 - remainingBits).toUInt8).toUInt32
    else remainder
  let remainder := ebpfRol (remainder * 0xcc9e2d51) 15 * 0x1b873593
  let hash := (hash ^^^ remainder ^^^ lengthInBytes.toUInt32) * 0x85ebca6b
  let hash := (hash ^^^ (hash >>> 13)) * 0xc2b2ae35
  hash ^^^ (hash >>> 16)

/-- One byte of `_mm_crc32_u8`: CRC-32C, bit-reflected, polynomial 0x82F63B78. -/
def crc32cByte (crc : UInt32) (byte : UInt8) : UInt32 :=
  (List.range 8).foldl (fun crc _ => if crc &&& 1 = 0 then crc >>> 1 else (crc >>> 1) ^^^ 0x82F63B78)
    (crc ^^^ byte.toUInt32)

/-- `_ebpf_compute_crc32`: eight bytes at a time, then four, then one. -/
def ebpfComputeCrc32 (key : List UInt8) (lengthInBytes : Nat) (seed : UInt32) : UInt32 :=
  let eights := lengthInBytes / 8
  let fours := lengthInBytes % 8 / 4
  let crc := (List.range eights).foldl (fun crc chunk => (readBytes key (8 * chunk) 8).foldl crc32cByte crc) seed
  let crc := (List.range fours).foldl
    (fun crc chunk => (readBytes key (8 * eights + 4 * chunk) 4).foldl crc32cByte crc) crc
  (List.range (lengthInBytes % 4)).foldl
    (fun crc index => crc32cByte crc (key.getD (8 * eights + 4 * fours + index) 0)) crc

theorem ebpfMurmur3_32_congr {first second : List UInt8} {lengthInBits : Nat} (seed : UInt32)
    (bytes : readBytes first 0 ((lengthInBits % 2 ^ 32) / 8) = readBytes second 0 ((lengthInBits % 2 ^ 32) / 8))
    (bits : lengthInBits % 8 ≠ 0 →
      first.getD ((lengthInBits % 2 ^ 32) / 8) 0 >>> (8 - lengthInBits % 8).toUInt8 =
        second.getD ((lengthInBits % 2 ^ 32) / 8) 0 >>> (8 - lengthInBits % 8).toUInt8) :
    ebpfMurmur3_32 first lengthInBits seed = ebpfMurmur3_32 second lengthInBits seed := by
  have blocks : ∀ block ∈ List.range ((lengthInBits % 2 ^ 32) / 8 / 4),
      readBytes first (4 * block) 4 = readBytes second (4 * block) 4 := by
    intro block member
    exact readBytes_eq_of_readBytes_eq bytes (by simp at member; omega)
  have tail : ∀ index ∈ List.range ((lengthInBits % 2 ^ 32) / 8 % 4),
      first.getD ((lengthInBits % 2 ^ 32) / 8 / 4 * 4 + index) 0 =
        second.getD ((lengthInBits % 2 ^ 32) / 8 / 4 * 4 + index) 0 := by
    intro index member
    exact getD_eq_of_readBytes_eq bytes (by simp at member; omega)
  have hashes : (List.range ((lengthInBits % 2 ^ 32) / 8 / 4)).foldl
      (fun hash block => murmur3Block hash (littleEndian (readBytes first (4 * block) 4)).toUInt32) seed =
      (List.range ((lengthInBits % 2 ^ 32) / 8 / 4)).foldl
      (fun hash block => murmur3Block hash (littleEndian (readBytes second (4 * block) 4)).toUInt32) seed :=
    List.foldl_ext _ _ _ fun hash block member => by rw [blocks block member]
  have remainders : (List.range ((lengthInBits % 2 ^ 32) / 8 % 4)).foldl (fun (remainder : UInt32) index =>
      (remainder <<< 8) ||| (first.getD ((lengthInBits % 2 ^ 32) / 8 / 4 * 4 + index) 0).toUInt32) (0 : UInt32) =
      (List.range ((lengthInBits % 2 ^ 32) / 8 % 4)).foldl (fun (remainder : UInt32) index =>
      (remainder <<< 8) ||| (second.getD ((lengthInBits % 2 ^ 32) / 8 / 4 * 4 + index) 0).toUInt32) (0 : UInt32) :=
    List.foldl_ext _ _ _ fun remainder index member => by rw [tail index member]
  simp only [ebpfMurmur3_32, hashes, remainders]
  by_cases wholeBytes : lengthInBits % 8 = 0
  · simp only [wholeBytes, ne_eq, not_true_eq_false, if_false]
  · simp only [ne_eq, wholeBytes, not_false_eq_true, if_true, bits wholeBytes]

theorem ebpfComputeCrc32_congr {first second : List UInt8} {lengthInBytes : Nat} (seed : UInt32)
    (bytes : readBytes first 0 lengthInBytes = readBytes second 0 lengthInBytes) :
    ebpfComputeCrc32 first lengthInBytes seed = ebpfComputeCrc32 second lengthInBytes seed := by
  have eights : ∀ chunk ∈ List.range (lengthInBytes / 8),
      readBytes first (8 * chunk) 8 = readBytes second (8 * chunk) 8 := by
    intro chunk member
    exact readBytes_eq_of_readBytes_eq bytes (by simp at member; omega)
  have fours : ∀ chunk ∈ List.range (lengthInBytes % 8 / 4),
      readBytes first (8 * (lengthInBytes / 8) + 4 * chunk) 4 =
        readBytes second (8 * (lengthInBytes / 8) + 4 * chunk) 4 := by
    intro chunk member
    exact readBytes_eq_of_readBytes_eq bytes (by simp at member; omega)
  have ones : ∀ index ∈ List.range (lengthInBytes % 4),
      first.getD (8 * (lengthInBytes / 8) + 4 * (lengthInBytes % 8 / 4) + index) 0 =
        second.getD (8 * (lengthInBytes / 8) + 4 * (lengthInBytes % 8 / 4) + index) 0 := by
    intro index member
    exact getD_eq_of_readBytes_eq bytes (by simp at member; omega)
  have eightSteps : (List.range (lengthInBytes / 8)).foldl
      (fun crc chunk => (readBytes first (8 * chunk) 8).foldl crc32cByte crc) seed =
      (List.range (lengthInBytes / 8)).foldl
      (fun crc chunk => (readBytes second (8 * chunk) 8).foldl crc32cByte crc) seed :=
    List.foldl_ext _ _ _ fun crc chunk member => by rw [eights chunk member]
  have fourSteps : ∀ start : UInt32, (List.range (lengthInBytes % 8 / 4)).foldl
      (fun crc chunk => (readBytes first (8 * (lengthInBytes / 8) + 4 * chunk) 4).foldl crc32cByte crc) start =
      (List.range (lengthInBytes % 8 / 4)).foldl
      (fun crc chunk => (readBytes second (8 * (lengthInBytes / 8) + 4 * chunk) 4).foldl crc32cByte crc) start :=
    fun start => List.foldl_ext _ _ _ fun crc chunk member => by rw [fours chunk member]
  have oneSteps : ∀ start : UInt32, (List.range (lengthInBytes % 4)).foldl
      (fun crc index => crc32cByte crc (first.getD (8 * (lengthInBytes / 8) + 4 * (lengthInBytes % 8 / 4) + index) 0))
      start =
      (List.range (lengthInBytes % 4)).foldl
      (fun crc index => crc32cByte crc (second.getD (8 * (lengthInBytes / 8) + 4 * (lengthInBytes % 8 / 4) + index) 0))
      start :=
    fun start => List.foldl_ext _ _ _ fun crc index member => by rw [ones index member]
  simp only [ebpfComputeCrc32, eightSteps, fourSteps, oneSteps]

end EbpfWindows.Runtime
