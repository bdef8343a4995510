import EbpfWindows.Lib.Bytes
import Mathlib.Data.Nat.Bitwise

/-! Byte strings read as bit strings, most significant bit of each byte first.

Network prefixes are laid out this way: bit `i` is bit `7 - i % 8` of byte
`i / 8`. The first `count` bits of two byte strings agree exactly when their
first `count / 8` bytes agree and so do the high `count % 8` bits of the next
byte, so comparing whole bytes and then one byte shifted right decides whether
two prefixes are equal.
-/

set_option autoImplicit false

namespace Bytes

/-- Bit `index` of a byte string, most significant bit of each byte first. -/
def msbBit (bytes : List UInt8) (index : Nat) : Bool :=
  (bytes.getD (index / 8) 0).toNat.testBit (7 - index % 8)

/-- The first `count` bits of a byte string. -/
def msbBits (bytes : List UInt8) (count : Nat) : List Bool :=
  (List.range count).map (msbBit bytes)

@[simp] theorem length_msbBits (bytes : List UInt8) (count : Nat) : (msbBits bytes count).length = count := by
  simp [msbBits]

theorem take_msbBits (bytes : List UInt8) (count length : Nat) :
    (msbBits bytes count).take length = msbBits bytes (min length count) := by
  rw [msbBits, msbBits, ← List.map_take, List.take_range]

theorem msbBits_eq_iff_forall {first second : List UInt8} {count : Nat} :
    msbBits first count = msbBits second count ↔ ∀ index < count, msbBit first index = msbBit second index := by
  simp [msbBits, List.map_inj_left]

theorem byte_eq_iff_testBit {x y : UInt8} : x = y ↔ ∀ bit < 8, x.toNat.testBit bit = y.toNat.testBit bit := by
  constructor
  · rintro rfl _ _
    rfl
  · intro same
    apply UInt8.toNat_inj.mp
    apply Nat.eq_of_testBit_eq
    intro bit
    by_cases low : bit < 8
    · exact same bit low
    · have wide : 2 ^ 8 ≤ 2 ^ bit := Nat.pow_le_pow_right (by decide) (by omega)
      rw [Nat.testBit_lt_two_pow (lt_of_lt_of_le x.toNat_lt wide), Nat.testBit_lt_two_pow (lt_of_lt_of_le y.toNat_lt wide)]

theorem byte_shiftRight_eq_iff {x y : UInt8} {high : Nat} (positive : 0 < high) (below : high < 8) :
    x >>> (8 - high).toUInt8 = y >>> (8 - high).toUInt8 ↔
      ∀ bit < high, x.toNat.testBit (7 - bit) = y.toNat.testBit (7 - bit) := by
  have shift : (8 - high).toUInt8.toNat % 8 = 8 - high := by
    simp [Nat.toUInt8_eq]
    omega
  rw [byte_eq_iff_testBit]
  simp only [UInt8.toNat_shiftRight, shift, Nat.testBit_shiftRight]
  constructor
  · intro same bit bound
    have := same (high - 1 - bit) (by omega)
    rwa [show 8 - high + (high - 1 - bit) = 7 - bit by omega] at this
  · intro same bit bound
    by_cases inHigh : bit < high
    · have := same (high - 1 - bit) (by omega)
      rwa [show 7 - (high - 1 - bit) = 8 - high + bit by omega] at this
    · -- past the high bits both shifted bytes are zero
      have wide : 2 ^ 8 ≤ 2 ^ (8 - high + bit) := Nat.pow_le_pow_right (by decide) (by omega)
      rw [Nat.testBit_lt_two_pow (lt_of_lt_of_le x.toNat_lt wide), Nat.testBit_lt_two_pow (lt_of_lt_of_le y.toNat_lt wide)]

theorem msbBits_eq_iff {first second : List UInt8} {count : Nat} :
    msbBits first count = msbBits second count ↔
      readBytes first 0 (count / 8) = readBytes second 0 (count / 8) ∧
        (count % 8 = 0 ∨ first.getD (count / 8) 0 >>> (8 - count % 8).toUInt8 =
          second.getD (count / 8) 0 >>> (8 - count % 8).toUInt8) := by
  rw [msbBits_eq_iff_forall, readBytes_eq_iff]
  constructor
  · intro agree
    refine ⟨fun byte bound => byte_eq_iff_testBit.mpr fun bit low => ?_, ?_⟩
    · have := agree (8 * byte + (7 - bit)) (by omega)
      simpa [msbBit, show (8 * byte + (7 - bit)) / 8 = byte by omega,
        show (8 * byte + (7 - bit)) % 8 = 7 - bit by omega, show 7 - (7 - bit) = bit by omega] using this
    · by_cases whole : count % 8 = 0
      · exact Or.inl whole
      · refine Or.inr ((byte_shiftRight_eq_iff (by omega) (Nat.mod_lt _ (by decide))).mpr fun bit bound => ?_)
        have := agree (8 * (count / 8) + bit) (by omega)
        simpa [msbBit, show (8 * (count / 8) + bit) / 8 = count / 8 by omega,
          show (8 * (count / 8) + bit) % 8 = bit by omega] using this
  · rintro ⟨bytes, partialByte⟩ index bound
    unfold msbBit
    by_cases inBytes : index / 8 < count / 8
    · have same := bytes (index / 8) inBytes
      rw [Nat.zero_add] at same
      rw [same]
    · have sameByte : index / 8 = count / 8 := by omega
      rcases partialByte with whole | shifted
      · omega
      · rw [sameByte]
        exact (byte_shiftRight_eq_iff (by omega) (Nat.mod_lt _ (by decide))).mp shifted (index % 8) (by omega)

end Bytes
