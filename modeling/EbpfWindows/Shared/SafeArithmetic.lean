import EbpfWindows.Runtime.Result
import Mathlib.Algebra.Group.Nat.Defs

/-! The overflow-checked `size_t` arithmetic of `ebpf_shared_framework.h`.

`ebpf_safe_size_t_add`, `ebpf_safe_size_t_subtract` and `ebpf_safe_size_t_multiply`
forward to the platform's checked operations, which fail with an arithmetic-overflow
status when the exact result does not fit in 64 bits; `ebpf_result_from_cxplat_status` turns that
status into `EBPF_ARITHMETIC_OVERFLOW`.
-/

set_option autoImplicit false

namespace EbpfWindows

def ebpfSafeSizeTAdd (augend addend : UInt64) : Except EbpfResult UInt64 :=
  if augend.toNat + addend.toNat < 2 ^ 64 then .ok (augend + addend) else .error .arithmeticOverflow

def ebpfSafeSizeTMultiply (multiplicand multiplier : UInt64) : Except EbpfResult UInt64 :=
  if multiplicand.toNat * multiplier.toNat < 2 ^ 64 then .ok (multiplicand * multiplier)
  else .error .arithmeticOverflow

def ebpfSafeSizeTSubtract (minuend subtrahend : UInt64) : Except EbpfResult UInt64 :=
  if subtrahend ≤ minuend then .ok (minuend - subtrahend) else .error .arithmeticOverflow

theorem ebpfSafeSizeTAdd_eq_ok {augend addend : UInt64} (fits : augend.toNat + addend.toNat < 2 ^ 64) :
    ebpfSafeSizeTAdd augend addend = .ok (augend + addend) := by
  simp only [ebpfSafeSizeTAdd, if_pos fits]

theorem ebpfSafeSizeTMultiply_eq_ok {multiplicand multiplier : UInt64}
    (fits : multiplicand.toNat * multiplier.toNat < 2 ^ 64) :
    ebpfSafeSizeTMultiply multiplicand multiplier = .ok (multiplicand * multiplier) := by
  simp only [ebpfSafeSizeTMultiply, if_pos fits]

theorem ebpfSafeSizeTSubtract_eq_ok {minuend subtrahend : UInt64} (fits : subtrahend ≤ minuend) :
    ebpfSafeSizeTSubtract minuend subtrahend = .ok (minuend - subtrahend) := by
  simp only [ebpfSafeSizeTSubtract, if_pos fits]

theorem ebpfSafeSizeTAdd_toNat {augend addend : UInt64} (fits : augend.toNat + addend.toNat < 2 ^ 64) :
    (augend + addend).toNat = augend.toNat + addend.toNat := by
  rw [UInt64.toNat_add, Nat.mod_eq_of_lt fits]

theorem ebpfSafeSizeTMultiply_toNat {multiplicand multiplier : UInt64}
    (fits : multiplicand.toNat * multiplier.toNat < 2 ^ 64) :
    (multiplicand * multiplier).toNat = multiplicand.toNat * multiplier.toNat := by
  rw [UInt64.toNat_mul, Nat.mod_eq_of_lt fits]

theorem ebpfSafeSizeTAdd_eq_ok_iff {augend addend sum : UInt64} :
    ebpfSafeSizeTAdd augend addend = .ok sum ↔ augend.toNat + addend.toNat < 2 ^ 64 ∧ sum = augend + addend := by
  unfold ebpfSafeSizeTAdd
  split
  case isTrue fits =>
    exact ⟨fun added => ⟨fits, (Except.ok.inj added).symm⟩, fun ⟨_, same⟩ => same ▸ rfl⟩
  case isFalse fits =>
    exact ⟨fun added => (by cases added), fun ⟨below, _⟩ => absurd below fits⟩

theorem ebpfSafeSizeTAdd_ok_toNat {augend addend sum : UInt64} (added : ebpfSafeSizeTAdd augend addend = .ok sum) :
    sum.toNat = augend.toNat + addend.toNat := by
  obtain ⟨fits, rfl⟩ := ebpfSafeSizeTAdd_eq_ok_iff.mp added
  exact ebpfSafeSizeTAdd_toNat fits

theorem ebpfSafeSizeTAdd_eq_error {augend addend : UInt64} (overflows : ¬ augend.toNat + addend.toNat < 2 ^ 64) :
    ebpfSafeSizeTAdd augend addend = .error .arithmeticOverflow := by
  simp only [ebpfSafeSizeTAdd, if_neg overflows]

theorem ebpfSafeSizeTMultiply_eq_error {multiplicand multiplier : UInt64}
    (overflows : ¬ multiplicand.toNat * multiplier.toNat < 2 ^ 64) :
    ebpfSafeSizeTMultiply multiplicand multiplier = .error .arithmeticOverflow := by
  simp only [ebpfSafeSizeTMultiply, if_neg overflows]

end EbpfWindows
