import Mathlib.Data.List.Basic

/-! Blocks laid end to end.

A list of blocks, each with an offset and a size, lies end to end from `start` to `stop`
when every block begins where the one before it ends, the first at `start` and the last
ending at `stop`. A log of reservations cut from a growing buffer has this shape, and so
does each stretch of it between two of its boundaries. The lemmas join and split such
runs, bound and separate the blocks in them, and carry a run across a map that keeps
offsets and sizes.
-/

set_option autoImplicit false

namespace Blocks

variable {E : Type} (offset size : E → Nat)

/-- The blocks lie end to end from `start`, the last one ending at `stop`. -/
inductive Consecutive : Nat → List E → Nat → Prop where
  | nil (start : Nat) : Consecutive start [] start
  | cons {start stop : Nat} {block : E} {rest : List E} :
      offset block = start → Consecutive (start + size block) rest stop → Consecutive start (block :: rest) stop

variable {offset size}

namespace Consecutive

theorem le {start stop : Nat} {blocks : List E} (run : Consecutive offset size start blocks stop) :
    start ≤ stop := by
  induction run with
  | nil => exact Nat.le_refl _
  | cons _ _ ih => omega

theorem append {start middle stop : Nat} {first second : List E}
    (left : Consecutive offset size start first middle) (right : Consecutive offset size middle second stop) :
    Consecutive offset size start (first ++ second) stop := by
  induction left with
  | nil => exact right
  | cons placed _ ih => exact .cons placed (ih right)

theorem snoc {start stop : Nat} {blocks : List E} {block : E} (run : Consecutive offset size start blocks stop)
    (placed : offset block = stop) : Consecutive offset size start (blocks ++ [block]) (stop + size block) :=
  run.append (.cons placed (.nil _))

theorem split {start stop : Nat} {first second : List E} (run : Consecutive offset size start (first ++ second) stop) :
    ∃ middle, Consecutive offset size start first middle ∧ Consecutive offset size middle second stop := by
  induction first generalizing start with
  | nil => exact ⟨start, .nil _, run⟩
  | cons block first ih =>
    cases run with
    | cons placed rest =>
      obtain ⟨middle, left, right⟩ := ih rest
      exact ⟨middle, .cons placed left, right⟩

theorem stop_eq {start stop other : Nat} {blocks : List E} (run : Consecutive offset size start blocks stop)
    (again : Consecutive offset size start blocks other) : stop = other := by
  induction run with
  | nil => cases again; rfl
  | cons _ _ ih =>
    cases again with
    | cons _ rest => exact ih rest

theorem exists_cons {start stop : Nat} {blocks : List E} (run : Consecutive offset size start blocks stop)
    (short : start < stop) : ∃ block rest, blocks = block :: rest ∧ offset block = start ∧
      Consecutive offset size (start + size block) rest stop := by
  cases run with
  | nil => omega
  | cons placed rest => exact ⟨_, _, rfl, placed, rest⟩

theorem map {start stop : Nat} {blocks : List E} (run : Consecutive offset size start blocks stop) (f : E → E)
    (sameOffset : ∀ block, offset (f block) = offset block) (sameSize : ∀ block, size (f block) = size block) :
    Consecutive offset size start (blocks.map f) stop := by
  induction run with
  | nil => exact .nil _
  | cons placed _ ih => exact .cons (by rw [sameOffset, placed]) (by rw [sameSize]; exact ih)

section Positive

variable (positive : ∀ block, 0 < size block)
include positive

theorem mem_bounds {start stop : Nat} {blocks : List E} (run : Consecutive offset size start blocks stop)
    {block : E} (member : block ∈ blocks) : start ≤ offset block ∧ offset block + size block ≤ stop := by
  induction run with
  | nil => cases member
  | @cons start stop head rest placed tail ih =>
    have after := tail.le
    rcases List.mem_cons.mp member with rfl | later
    · omega
    · have := ih later
      have := positive head
      omega

theorem eq_of_offset_eq {start stop : Nat} {blocks : List E} (run : Consecutive offset size start blocks stop)
    {first second : E} (firstMember : first ∈ blocks) (secondMember : second ∈ blocks)
    (same : offset first = offset second) : first = second := by
  induction run with
  | nil => cases firstMember
  | @cons start stop head rest placed tail ih =>
    have later : ∀ block ∈ rest, start < offset block := fun block member => by
      have := (tail.mem_bounds positive member).1
      have := positive head
      omega
    rcases List.mem_cons.mp firstMember with rfl | firstLater <;>
      rcases List.mem_cons.mp secondMember with rfl | secondLater
    · rfl
    · have := later _ secondLater
      omega
    · have := later _ firstLater
      omega
    · exact ih firstLater secondLater

theorem eq_nil_of_stop_le {start stop : Nat} {blocks : List E} (run : Consecutive offset size start blocks stop)
    (short : stop ≤ start) : blocks = [] := by
  cases run with
  | nil => rfl
  | @cons _ _ block _ _ rest =>
    have := rest.le
    have := positive block
    omega

theorem nodup_offsets {start stop : Nat} {blocks : List E} (run : Consecutive offset size start blocks stop) :
    (blocks.map offset).Nodup := by
  induction run with
  | nil => exact List.nodup_nil
  | @cons start stop head rest placed tail ih =>
    refine List.nodup_cons.mpr ⟨fun member => ?_, ih⟩
    obtain ⟨later, laterMember, same⟩ := List.mem_map.mp member
    have := (tail.mem_bounds positive laterMember).1
    have := positive head
    omega

end Positive

end Consecutive

end Blocks
