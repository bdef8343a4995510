import EbpfWindows.Lib.Bytes
import Mathlib.Algebra.Order.BigOperators.Group.List

/-! `ebpf_core_csum_diff` (`ebpf_core.c`), the helper behind `bpf_csum_diff`.

The helper adds the 16-bit words of `to` and the ones' complements of the words of
`from` to a seed, in a C `int`. That accumulator is an `Int32` here, so every addition
wraps modulo 2^32 as the compiled code does, and the sign test after both loops is the
only overflow check. What the helper is meant to return is the same sum over the integers
(`csumDiffSum`): the two agree while that sum stays below 2^32, and past it the sign test
can pass on a wrapped value.
-/

set_option autoImplicit false

namespace EbpfWindows.ExecutionContext

/-- `EINVAL` of the C runtime's `errno.h`. -/
def einval : Int32 := 22

/-- `*((uint16_t*)buffer + index)`: the little-endian load of bytes `2 * index` and
`2 * index + 1`. -/
def wordAt (buffer : List UInt8) (index : Nat) : UInt16 :=
  UInt16.ofNat (Bytes.littleEndian (Bytes.readBytes buffer (2 * index) 2))

/-- How often `for (int i = 0; i < size / 2; i++)` runs: `/` truncates toward zero, and a
negative bound runs no iteration. -/
def wordCount (size : Int32) : Nat :=
  (size / 2).toInt.toNat

/-- One loop of the helper: the first `count` words of the buffer, each through `adjust` (the
`~` of the `from` loop, then the cast to `uint16_t`), added to the `int` accumulator. -/
def addWords (adjust : UInt16 → UInt16) (buffer : List UInt8) (count : Nat) (csumDiff : Int32) : Int32 :=
  (List.range count).foldl
    (fun csumDiff index => csumDiff + Int32.ofNat (adjust (wordAt buffer index)).toNat) csumDiff

/-- A loop behind its `if (buffer != NULL)`. -/
def addBuffer (adjust : UInt16 → UInt16) : Option (List UInt8) → Int32 → Int32 → Int32
  | none, _, csumDiff => csumDiff
  | some buffer, size, csumDiff => addWords adjust buffer (wordCount size) csumDiff

/-- `ebpf_core_csum_diff`; a buffer is `none` where the pointer is NULL. -/
def ebpfCoreCsumDiff (fromBuffer : Option (List UInt8)) (fromSize : Int32)
    (toBuffer : Option (List UInt8)) (toSize : Int32) (seed : Int32) : Int32 :=
  if fromSize % 4 ≠ 0 ∨ toSize % 4 ≠ 0 then -einval
  else
    let csumDiff := addBuffer (fun word => ~~~word) fromBuffer fromSize (addBuffer id toBuffer toSize seed)
    if csumDiff < 0 then -einval else csumDiff

/-- The words a loop reads, through `adjust`, summed over the integers; a NULL buffer adds
nothing. -/
def wordSum (adjust : UInt16 → Int) : Option (List UInt8) → Int32 → Int
  | none, _ => 0
  | some buffer, size => ((List.range (wordCount size)).map fun index => adjust (wordAt buffer index)).sum

/-- The checksum difference the helper is meant to return, over the integers: the seed, the
words of `to`, and `0xFFFF - w` for each word `w` of `from`. -/
def csumDiffSum (fromBuffer : Option (List UInt8)) (fromSize : Int32)
    (toBuffer : Option (List UInt8)) (toSize : Int32) (seed : Int32) : Int :=
  seed.toInt + wordSum (fun word => word.toNat) toBuffer toSize +
    wordSum (fun word => 0xFFFF - word.toNat) fromBuffer fromSize

/-- End-around-carry folding to 16 bits: the bits above the low 16 are added back into them
until the value fits. A fold lowers every value above `0xFFFF`, so the value itself is fuel
enough (`fold16`). -/
def fold16Loop : Nat → Nat → Nat
  | 0, value => value
  | fuel + 1, value => if value ≤ 0xFFFF then value else fold16Loop fuel (value % 0x10000 + value / 0x10000)

def fold16 (value : Nat) : Nat :=
  fold16Loop value value

theorem toInt_ofNat_word (word : UInt16) : (Int32.ofNat word.toNat).toInt = word.toNat :=
  Int32.toInt_ofNat_of_lt (Nat.lt_trans word.toNat_lt (by decide))

theorem addWords_toInt (adjust : UInt16 → UInt16) (buffer : List UInt8) (csumDiff : Int32) :
    ∀ count, (addWords adjust buffer count csumDiff).toInt =
      (csumDiff.toInt + ((List.range count).map fun index => ((adjust (wordAt buffer index)).toNat : Int)).sum).bmod (2 ^ 32)
  | 0 => by simp [addWords]
  | count + 1 => by
    have previous := addWords_toInt adjust buffer csumDiff count
    simp only [addWords, List.range_succ, List.foldl_append, List.foldl_cons, List.foldl_nil] at previous ⊢
    rw [Int32.toInt_add, previous, toInt_ofNat_word, Int.bmod_add_bmod, List.map_append, List.sum_append]
    simp [Int.add_assoc]

theorem addBuffer_toInt (adjust : UInt16 → UInt16) (buffer : Option (List UInt8)) (size csumDiff : Int32) :
    (addBuffer adjust buffer size csumDiff).toInt =
      (csumDiff.toInt + wordSum (fun word => (adjust word).toNat) buffer size).bmod (2 ^ 32) := by
  cases buffer with
  | none => simp [addBuffer, wordSum]
  | some buffer => simp only [addBuffer, wordSum, addWords_toInt]

theorem complement_toNat (word : UInt16) : (((~~~word).toNat : Nat) : Int) = 0xFFFF - word.toNat := by
  have bound := word.toNat_lt
  rw [UInt16.toNat_not]
  simp only [UInt16.size] at bound ⊢
  omega

theorem mod_four_eq_zero_iff (size : Int32) : size % 4 = 0 ↔ 4 ∣ size.toInt := by
  rw [← Int32.toInt_inj, Int32.toInt_mod, Int.dvd_iff_tmod_eq_zero]
  rfl

theorem ebpfCoreCsumDiff_toInt {fromBuffer toBuffer : Option (List UInt8)} {fromSize toSize : Int32}
    (fromMultiple : 4 ∣ fromSize.toInt) (toMultiple : 4 ∣ toSize.toInt) (seed : Int32) :
    (ebpfCoreCsumDiff fromBuffer fromSize toBuffer toSize seed).toInt =
      if (csumDiffSum fromBuffer fromSize toBuffer toSize seed).bmod (2 ^ 32) < 0 then -22
      else (csumDiffSum fromBuffer fromSize toBuffer toSize seed).bmod (2 ^ 32) := by
  have complement : (fun word : UInt16 => (((~~~word).toNat : Nat) : Int)) = fun word => (0xFFFF : Int) - word.toNat :=
    funext complement_toNat
  have summed : (addBuffer (fun word => ~~~word) fromBuffer fromSize (addBuffer id toBuffer toSize seed)).toInt =
      (csumDiffSum fromBuffer fromSize toBuffer toSize seed).bmod (2 ^ 32) := by
    rw [addBuffer_toInt, addBuffer_toInt, Int.bmod_add_bmod, complement]
    rfl
  simp only [ebpfCoreCsumDiff, (mod_four_eq_zero_iff _).mpr fromMultiple, (mod_four_eq_zero_iff _).mpr toMultiple,
    ne_eq, not_true_eq_false, or_self, if_false]
  split
  · next negative =>
    rw [Int32.lt_iff_toInt_lt, summed, Int32.toInt_zero] at negative
    rw [if_pos negative]
    rfl
  · next nonnegative =>
    rw [Int32.lt_iff_toInt_lt, summed, Int32.toInt_zero] at nonnegative
    rw [if_neg nonnegative, summed]

theorem ebpfCoreCsumDiff_of_not_multiple {fromBuffer toBuffer : Option (List UInt8)} {fromSize toSize : Int32}
    (notMultiple : ¬ (4 ∣ fromSize.toInt ∧ 4 ∣ toSize.toInt)) (seed : Int32) :
    ebpfCoreCsumDiff fromBuffer fromSize toBuffer toSize seed = -einval := by
  rw [ebpfCoreCsumDiff, if_pos]
  rw [← mod_four_eq_zero_iff, ← mod_four_eq_zero_iff] at notMultiple
  exact not_and_or.mp notMultiple

theorem wordSum_nonneg {adjust : UInt16 → Int} (nonneg : ∀ word, 0 ≤ adjust word)
    (buffer : Option (List UInt8)) (size : Int32) : 0 ≤ wordSum adjust buffer size := by
  cases buffer with
  | none => exact le_refl 0
  | some buffer =>
    apply List.sum_nonneg
    intro term member
    obtain ⟨index, -, rfl⟩ := List.mem_map.mp member
    exact nonneg _

theorem csumDiffSum_ge (fromBuffer : Option (List UInt8)) (fromSize : Int32)
    (toBuffer : Option (List UInt8)) (toSize : Int32) (seed : Int32) :
    -2 ^ 31 ≤ csumDiffSum fromBuffer fromSize toBuffer toSize seed := by
  have toWords := wordSum_nonneg (fun word => Int.natCast_nonneg word.toNat) toBuffer toSize
  have fromWords := @wordSum_nonneg (fun word : UInt16 => (0xFFFF : Int) - word.toNat)
    (fun word => by have := word.toNat_lt; omega) fromBuffer fromSize
  have low := seed.le_toInt
  unfold csumDiffSum
  omega

theorem ebpfCoreCsumDiff_of_sum_lt {fromBuffer toBuffer : Option (List UInt8)} {fromSize toSize : Int32}
    (fromMultiple : 4 ∣ fromSize.toInt) (toMultiple : 4 ∣ toSize.toInt) {seed : Int32}
    (below : csumDiffSum fromBuffer fromSize toBuffer toSize seed < 2 ^ 32) :
    (ebpfCoreCsumDiff fromBuffer fromSize toBuffer toSize seed).toInt =
      if 0 ≤ csumDiffSum fromBuffer fromSize toBuffer toSize seed ∧
          csumDiffSum fromBuffer fromSize toBuffer toSize seed ≤ 2 ^ 31 - 1 then
        csumDiffSum fromBuffer fromSize toBuffer toSize seed
      else -22 := by
  have low := csumDiffSum_ge fromBuffer fromSize toBuffer toSize seed
  rw [ebpfCoreCsumDiff_toInt fromMultiple toMultiple]
  generalize csumDiffSum fromBuffer fromSize toBuffer toSize seed = sum at low below ⊢
  simp only [Int.bmod_def]
  push_cast
  split_ifs <;> omega

theorem two_mul_wordCount_le (size : Int32) : 2 * wordCount size ≤ size.toInt.toNat := by
  have halved : (size / 2).toInt = size.toInt.tdiv 2 := Int32.toInt_div_of_ne_right size 2 (by decide)
  unfold wordCount
  rw [halved]
  -- C's division truncates, so a negative size gives a non-positive quotient and no word.
  rcases le_or_gt 0 size.toInt with nonneg | negative
  · rw [Int.tdiv_eq_ediv_of_nonneg nonneg]
    omega
  · have flipped : size.toInt.tdiv 2 = -((-size.toInt).tdiv 2) := by rw [Int.neg_tdiv, Int.neg_neg]
    rw [flipped, Int.tdiv_eq_ediv_of_nonneg (by omega)]
    omega

theorem wordAt_readBytes (buffer : List UInt8) {count index : Nat} (within : 2 * index + 2 ≤ count) :
    wordAt (Bytes.readBytes buffer 0 count) index = wordAt buffer index := by
  unfold wordAt
  congr 2
  apply Bytes.readBytes_eq_iff.mpr
  intro offset below
  rw [Bytes.getD_readBytes buffer (by omega), Nat.zero_add]

theorem addWords_congr (adjust : UInt16 → UInt16) {first second : List UInt8} {count : Nat}
    (same : ∀ index < count, wordAt first index = wordAt second index) (csumDiff : Int32) :
    addWords adjust first count csumDiff = addWords adjust second count csumDiff := by
  apply List.foldl_ext
  intro csumDiff index member
  rw [same index (List.mem_range.mp member)]

theorem addBuffer_readBytes (adjust : UInt16 → UInt16) (buffer : Option (List UInt8)) (size csumDiff : Int32) :
    addBuffer adjust (buffer.map fun buffer => Bytes.readBytes buffer 0 size.toInt.toNat) size csumDiff =
      addBuffer adjust buffer size csumDiff := by
  cases buffer with
  | none => rfl
  | some buffer =>
    apply addWords_congr
    intro index below
    have inside := two_mul_wordCount_le size
    exact wordAt_readBytes buffer (by omega)

theorem ebpfCoreCsumDiff_reads_within (fromBuffer : Option (List UInt8)) (fromSize : Int32)
    (toBuffer : Option (List UInt8)) (toSize : Int32) (seed : Int32) :
    ebpfCoreCsumDiff (fromBuffer.map fun buffer => Bytes.readBytes buffer 0 fromSize.toInt.toNat) fromSize
        (toBuffer.map fun buffer => Bytes.readBytes buffer 0 toSize.toInt.toNat) toSize seed =
      ebpfCoreCsumDiff fromBuffer fromSize toBuffer toSize seed := by
  simp only [ebpfCoreCsumDiff, addBuffer_readBytes]

theorem wordAt_replicate (byte : UInt8) {count index : Nat} (within : 2 * index + 2 ≤ count) :
    wordAt (List.replicate count byte) index = UInt16.ofNat (Bytes.littleEndian [byte, byte]) := by
  have first : 2 * index < count := by omega
  have second : 2 * index + 1 < count := by omega
  simp [wordAt, Bytes.readBytes, List.range_succ, List.getD_eq_getElem?_getD, List.getElem?_replicate, first,
    second]

theorem wordSum_const (adjust : UInt16 → Int) {buffer : List UInt8} {size : Int32} {word : UInt16}
    (every : ∀ index < wordCount size, wordAt buffer index = word) :
    wordSum adjust (some buffer) size = wordCount size * adjust word := by
  rw [wordSum, List.map_congr_left (fun index member => by rw [every index (List.mem_range.mp member)]),
    List.map_const', List.sum_replicate, List.length_range, nsmul_eq_mul]

/-- A sum past 2^32 wraps back to a non-negative `int`: 32770 words of `0xFFFF` on a seed of
`INT32_MAX` sum to 4295065597, and the helper returns 98301, a different checksum. -/
theorem csum_diff_wraps_a_sum_past_two_to_the_thirty_two :
    csumDiffSum none 0 (some (List.replicate 65540 0xFF)) 65540 0x7FFFFFFF = 4295065597 ∧
      ebpfCoreCsumDiff none 0 (some (List.replicate 65540 0xFF)) 65540 0x7FFFFFFF = 98301 ∧
      fold16 98301 ≠ fold16 4295065597 := by
  have words : wordCount 65540 = 32770 := by decide
  have sum : csumDiffSum none 0 (some (List.replicate 65540 0xFF)) 65540 0x7FFFFFFF = 4295065597 := by
    rw [csumDiffSum, wordSum_const _ fun index below => wordAt_replicate 0xFF (by omega), words]
    decide
  refine ⟨sum, ?_, by decide⟩
  apply Int32.toInt_inj.mp
  rw [ebpfCoreCsumDiff_toInt (by decide) (by decide), sum]
  decide

end EbpfWindows.ExecutionContext
