import Mathlib.Data.Nat.Bitwise

/-! Bits of 64-bit words.

The bit scans and bit updates of a word, read through `Nat.testBit` of its
value: `Nat.log2` of a nonzero word is its highest set bit, clearing bit `n`
removes `n` and nothing else, and masking with `2^k - 1` keeps the bits
below `k`. A word is read as the set of positions whose bit is set, so these
are the set operations a scan over the bits of a word needs. The last section
is about flag bits kept above a small value in the same word: the value comes
back from the low bits, and each flag is read alone.
-/

set_option autoImplicit false

namespace Bits

theorem testBit_toNat_eq_getLsbD (x : UInt64) (i : Nat) : x.toNat.testBit i = x.toBitVec.getLsbD i := by
  rw [← BitVec.testBit_toNat]
  rfl

theorem testBit_toNat_of_le (x : UInt64) {i : Nat} (above : 64 ≤ i) : x.toNat.testBit i = false :=
  Nat.testBit_lt_two_pow (lt_of_lt_of_le x.toNat_lt (Nat.pow_le_pow_right (by decide) above))

theorem toNat_toUInt64_mod {k : Nat} (small : k < 64) : k.toUInt64.toNat % 64 = k := by
  rw [Nat.toUInt64_eq, UInt64.toNat_ofNat_of_lt' (lt_trans small (by decide))]
  exact Nat.mod_eq_of_lt small

theorem toNat_one_shiftLeft {k : Nat} (small : k < 64) : ((1 : UInt64) <<< k.toUInt64).toNat = 2 ^ k := by
  rw [UInt64.toNat_shiftLeft, UInt64.toNat_one, Nat.one_shiftLeft, toNat_toUInt64_mod small]
  exact Nat.mod_eq_of_lt (Nat.pow_lt_pow_right (by decide) small)

theorem testBit_and_not_shiftLeft (x : UInt64) {n : Nat} (small : n < 64) (i : Nat) :
    (x &&& ~~~((1 : UInt64) <<< n.toUInt64)).toNat.testBit i = (x.toNat.testBit i && i ≠ n) := by
  rw [testBit_toNat_eq_getLsbD, testBit_toNat_eq_getLsbD]
  rcases Nat.lt_or_ge i 64 with below | above
  · simp only [UInt64.toBitVec_and, UInt64.toBitVec_not, UInt64.toBitVec_shiftLeft, BitVec.getLsbD_and,
      BitVec.getLsbD_not]
    by_cases same : i = n
    · subst same
      simp [below, Nat.mod_eq_of_lt small]
    · simp [below, Nat.mod_eq_of_lt small, same]
      omega
  · simp [BitVec.getLsbD_of_ge _ _ above]

theorem testBit_or_shiftLeft (x : UInt64) {n : Nat} (small : n < 64) (i : Nat) :
    (x ||| (1 : UInt64) <<< n.toUInt64).toNat.testBit i = (x.toNat.testBit i || i = n) := by
  rw [UInt64.toNat_or, Nat.testBit_or, toNat_one_shiftLeft small, Nat.testBit_two_pow]
  by_cases same : i = n
  · simp [same]
  · simp [same, Ne.symm same]

theorem testBit_and_mask (x : UInt64) {k : Nat} (small : k < 64) (i : Nat) :
    (x &&& (((1 : UInt64) <<< k.toUInt64) - 1)).toNat.testBit i = (x.toNat.testBit i && decide (i < k)) := by
  have positive : (1 : UInt64) ≤ (1 : UInt64) <<< k.toUInt64 := by
    rw [UInt64.le_iff_toNat_le, toNat_one_shiftLeft small, UInt64.toNat_one]
    exact Nat.one_le_two_pow
  have mask : (((1 : UInt64) <<< k.toUInt64) - 1).toNat = 2 ^ k - 1 := by
    rw [UInt64.toNat_sub_of_le _ _ positive, toNat_one_shiftLeft small, UInt64.toNat_one]
  rw [UInt64.toNat_and, Nat.testBit_and, mask, Nat.testBit_two_pow_sub_one]

theorem le_log2_of_testBit {x i : Nat} (set : x.testBit i = true) : i ≤ Nat.log2 x := by
  have positive : x ≠ 0 := by
    intro zero
    simp [zero] at set
  exact (Nat.le_log2 positive).mpr (Nat.ge_two_pow_of_testBit set)

theorem log2_toNat_lt (x : UInt64) (nonzero : x ≠ 0) : Nat.log2 x.toNat < 64 := by
  have positive : x.toNat ≠ 0 := fun zero => nonzero (UInt64.toNat_inj.mp (by simpa using zero))
  exact (Nat.log2_lt positive).mpr x.toNat_lt

/-- The lowest set bit of `x` among the `fuel` bits from `index` up, `index + fuel` when none
of them is set. -/
def lowestSetBitFrom (x : Nat) : Nat → Nat → Nat
  | 0, index => index
  | fuel + 1, index => if x.testBit index then index else lowestSetBitFrom x fuel (index + 1)

/-- The lowest set bit of a word, as a forward bit scan finds it. -/
def lowestSetBit (x : UInt64) : Nat :=
  lowestSetBitFrom x.toNat 64 0

theorem toNat_ne_zero {x : UInt64} (nonzero : x ≠ 0) : x.toNat ≠ 0 :=
  fun zero => nonzero (UInt64.toNat_inj.mp (by simpa using zero))

theorem eq_zero_of_testBit {x : UInt64} (clear : ∀ i, x.toNat.testBit i = false) : x = 0 :=
  UInt64.toNat_inj.mp (Nat.eq_of_testBit_eq fun i => by simpa using clear i)


/-! ## Flag bits above a value -/

theorem or_two_pow_mod_two_pow {x k j : Nat} (small : x < 2 ^ k) (above : k ≤ j) : (x ||| 2 ^ j) % 2 ^ k = x := by
  apply Nat.eq_of_testBit_eq
  intro i
  rw [Nat.testBit_mod_two_pow, Nat.testBit_or, Nat.testBit_two_pow]
  by_cases below : i < k
  · simp [below, show j ≠ i by omega]
  · have high : x.testBit i = false :=
      Nat.testBit_lt_two_pow (Nat.lt_of_lt_of_le small (Nat.pow_le_pow_right (by decide) (by omega)))
    simp [below, high]

theorem and_two_pow_eq_zero_iff {x j : Nat} : x &&& 2 ^ j = 0 ↔ x.testBit j = false := by
  constructor
  · intro zero
    have masked := congrArg (fun n => n.testBit j) zero
    simpa [Nat.testBit_and, Nat.testBit_two_pow_self] using masked
  · intro clear
    apply Nat.eq_of_testBit_eq
    intro i
    by_cases same : j = i
    · subst same
      simp [Nat.testBit_and, clear]
    · simp [Nat.testBit_and, Nat.testBit_two_pow_of_ne same]

theorem toNat_toUInt32_of_lt {n : Nat} (small : n < 2 ^ 32) : n.toUInt32.toNat = n := by
  simp only [Nat.toUInt32, UInt32.toNat_ofNat']
  omega

theorem toNat_toUInt64_of_lt {count : Nat} (small : count < 2 ^ 64) : count.toUInt64.toNat = count := by
  rw [Nat.toUInt64_eq]
  exact UInt64.toNat_ofNat_of_lt' small

theorem toUInt64_sub {count below : Nat} (le : below ≤ count) (small : count < 2 ^ 64) :
    count.toUInt64 - below.toUInt64 = (count - below).toUInt64 := by
  apply UInt64.toNat_inj.mp
  have lowerSmall : below < 2 ^ 64 := lt_of_le_of_lt le small
  have ordered : below.toUInt64 ≤ count.toUInt64 := by
    rw [UInt64.le_iff_toNat_le, toNat_toUInt64_of_lt small, toNat_toUInt64_of_lt lowerSmall]
    exact le
  rw [UInt64.toNat_sub_of_le _ _ ordered, toNat_toUInt64_of_lt small, toNat_toUInt64_of_lt lowerSmall,
    toNat_toUInt64_of_lt (lt_of_le_of_lt (Nat.sub_le _ _) small)]

end Bits
