import Mathlib.Data.Nat.ModEq

/-! Positions of a window that wraps around a buffer of `n` cells.

Position `i` of a window that starts at cell `b` is the cell `(b + i) % n`.
Within one turn distinct positions are distinct cells; advancing the start or
the end of the window by one cell, forwards or backwards, moves every position
with it. These facts are independent of what the cells hold.
-/

set_option autoImplicit false

namespace CircularIndex

variable {n : Nat}

theorem cell_lt (positive : 0 < n) (b i : Nat) : (b + i) % n < n :=
  Nat.mod_lt _ positive

theorem cell_injective {b i j : Nat} (hi : i < n) (hj : j < n) :
    (b + i) % n = (b + j) % n ↔ i = j := by
  constructor
  · intro same
    have congruent : i ≡ j [MOD n] := Nat.ModEq.add_left_cancel' b same
    unfold Nat.ModEq at congruent
    rwa [Nat.mod_eq_of_lt hi, Nat.mod_eq_of_lt hj] at congruent
  · rintro rfl
    rfl

theorem cell_full_turn (b : Nat) : (b + n) % n = b % n := by
  simp

theorem cell_succ (b i : Nat) : ((b + i) % n + 1) % n = (b + (i + 1)) % n := by
  rw [Nat.mod_add_mod, Nat.add_assoc]

theorem cell_pred (positive : 0 < n) (b i : Nat) :
    ((b + (i + 1)) % n + (n - 1)) % n = (b + i) % n := by
  rw [Nat.mod_add_mod]
  have shift : b + (i + 1) + (n - 1) = b + i + n := by omega
  rw [shift, Nat.add_mod_right]

theorem cell_start_succ (b i : Nat) : (b % n + 1 + i) % n = (b + (i + 1)) % n := by
  have shift : b % n + 1 + i = b % n + (i + 1) := by omega
  rw [shift, Nat.mod_add_mod]

theorem cell_of_lt {b : Nat} (hb : b < n) : (b + 0) % n = b := by
  simpa using Nat.mod_eq_of_lt hb

end CircularIndex
