import EbpfWindows.Lib.Bits
import EbpfWindows.Shared.SafeArithmetic

/-! The bitmap of `ebpf_bitmap.c` and its reverse search.

A bitmap is `bit_count` bits stored in 64-bit blocks. A reverse cursor is at a
block and holds a copy of it from which the bits already returned are cleared;
`ebpf_bitmap_reverse_search_next_bit` returns the highest bit of the copy, or
moves to the block below when the copy is empty.

A cursor stands for the bits still to come: the set bits of the blocks below
its block and the bits of its copy. A search started at `start` has the set
bits up to `start` to come; each call returns the highest of them and removes
it, and once none is left it returns `MAXSIZE_T`.
-/

set_option autoImplicit false

namespace EbpfWindows.Runtime

def maxSizeT : Nat := 2 ^ 64 - 1

/-- `ebpf_bitmap_t`: the number of bits and the 64-bit blocks holding them. -/
structure EbpfBitmap where
  bitCount : Nat
  data : List UInt64
  deriving DecidableEq, Repr

/-- `EBPF_OFFSET_OF(ebpf_bitmap_t, data)`. -/
def offsetOfBitmapData : UInt64 := 8

/-- `ebpf_bitmap_size`: the bytes a bitmap of `bit_count` bits takes, `MAXSIZE_T` when
that does not fit in `size_t`. -/
def ebpfBitmapSize (bitCount : UInt64) : UInt64 :=
  let size : Except EbpfResult UInt64 := do
    let adjustedBitCount ← ebpfSafeSizeTAdd bitCount (64 - 1)
    let blockCount := adjustedBitCount / 64
    let bitmapDataLength ← ebpfSafeSizeTMultiply blockCount 8
    ebpfSafeSizeTAdd offsetOfBitmapData bitmapDataLength
  match size with
  | .ok size => size
  | .error _ => maxSizeT.toUInt64

/-- `ebpf_bitmap_initialize`: `bit_count` bits, all clear. -/
def ebpfBitmapInitialize (bitCount : UInt64) : Except EbpfResult EbpfBitmap :=
  let bitmapSize := ebpfBitmapSize bitCount
  if bitmapSize = maxSizeT.toUInt64 then .error .arithmeticOverflow
  else .ok { bitCount := bitCount.toNat, data := List.replicate ((bitmapSize - offsetOfBitmapData) / 8).toNat 0 }

namespace EbpfBitmap

def ebpfBitmapTestBit (bitmap : EbpfBitmap) (index : Nat) : Bool :=
  (bitmap.data.getD (index / 64) 0).toNat.testBit (index % 64)

/-- `ebpf_bitmap_set_bit`, interlocked or not: the bit before, and the bitmap with it set. -/
def ebpfBitmapSetBit (bitmap : EbpfBitmap) (index : Nat) : Bool × EbpfBitmap :=
  (bitmap.ebpfBitmapTestBit index,
    { bitmap with data := bitmap.data.modify (index / 64) fun block => block ||| (1 : UInt64) <<< (index % 64).toUInt64 })

/-- `ebpf_bitmap_reset_bit`, interlocked or not: the bit before, and the bitmap with it clear. -/
def ebpfBitmapResetBit (bitmap : EbpfBitmap) (index : Nat) : Bool × EbpfBitmap :=
  (bitmap.ebpfBitmapTestBit index,
    { bitmap with data := bitmap.data.modify (index / 64) fun block => block &&& ~~~((1 : UInt64) <<< (index % 64).toUInt64) })

/-- The block at `index` as a search loads it, `bitmap->data[index]`: the bitmap's own block,
or past its blocks the word `beyond` gives for the memory that follows the bitmap. -/
def loadBlock (bitmap : EbpfBitmap) (beyond : Nat → UInt64) (index : Nat) : UInt64 :=
  bitmap.data[index]?.getD (beyond index)

end EbpfBitmap

/-- `ebpf_bitmap_cursor_t`, for a search over a bitmap the caller keeps. -/
structure EbpfBitmapCursor where
  nextBitOffset : Nat
  currentBlockCopy : UInt64
  deriving DecidableEq, Repr

/-- `ebpf_bitmap_start_reverse_search`: the cursor at the last bit with a copy of its block. -/
def ebpfBitmapStartReverseSearch (bitmap : EbpfBitmap) : EbpfBitmapCursor :=
  { nextBitOffset := bitmap.bitCount - 1, currentBlockCopy := bitmap.data.getD ((bitmap.bitCount - 1) / 64) 0 }

/-- `ebpf_bitmap_start_reverse_search_at`: the copy of the start bit's block keeps the
bits up to the start bit, unless the start bit ends its block or the bitmap. -/
def ebpfBitmapStartReverseSearchAt (bitmap : EbpfBitmap) (startBit : Nat) : EbpfBitmapCursor :=
  let startBit := if startBit ≥ bitmap.bitCount then bitmap.bitCount - 1 else startBit
  let copy := bitmap.data.getD (startBit / 64) 0
  { nextBitOffset := startBit,
    currentBlockCopy :=
      if startBit % 64 ≠ 64 - 1 ∧ startBit < bitmap.bitCount - 1 then
        copy &&& (((1 : UInt64) <<< (startBit % 64 + 1).toUInt64) - 1)
      else copy }

/-- The loop of `ebpf_bitmap_reverse_search_next_bit` at a block with its copy. The cursor's
offset is only read divided by 64, so the loop is on the block: it either returns the highest
bit of the copy, cleared from the copy, or reloads the copy from the block below, and ends at
block 0. -/
def reverseSearchLoop (bitmap : EbpfBitmap) : Nat → UInt64 → Nat × EbpfBitmapCursor
  | block, copy =>
    if copy ≠ 0 then
      let nextBit := Nat.log2 copy.toNat
      (nextBit + block * 64,
        { nextBitOffset := nextBit + block * 64, currentBlockCopy := copy &&& ~~~((1 : UInt64) <<< nextBit.toUInt64) })
    else
      match block with
      | 0 => (maxSizeT, { nextBitOffset := 0, currentBlockCopy := copy })
      | block + 1 => reverseSearchLoop bitmap block (bitmap.data.getD block 0)

/-- `ebpf_bitmap_reverse_search_next_bit`: the next set bit below the last one returned,
`MAXSIZE_T` when there is none. -/
def ebpfBitmapReverseSearchNextBit (bitmap : EbpfBitmap) (cursor : EbpfBitmapCursor) : Nat × EbpfBitmapCursor :=
  reverseSearchLoop bitmap (cursor.nextBitOffset / 64) cursor.currentBlockCopy

/-- `ebpf_bitmap_start_forward_search`: the cursor at bit 0 with a copy of block 0. -/
def ebpfBitmapStartForwardSearch (bitmap : EbpfBitmap) (beyond : Nat → UInt64) : EbpfBitmapCursor :=
  { nextBitOffset := 0, currentBlockCopy := bitmap.loadBlock beyond 0 }

/-- The loop of `ebpf_bitmap_forward_search_next_bit` at a block with its copy, with `remaining`
the blocks after it up to the one holding bit `bit_count`: it returns the lowest bit of the copy,
cleared from the copy, or moves to the start of the next block. The source stops when that start
is past `bit_count`, which is when no block is left; otherwise it loads the next block. -/
def forwardSearchLoop (bitmap : EbpfBitmap) (beyond : Nat → UInt64) : Nat → Nat → UInt64 → Nat × EbpfBitmapCursor
  | remaining, block, copy =>
    if copy ≠ 0 then
      let nextBit := Bits.lowestSetBit copy
      (nextBit + block * 64,
        { nextBitOffset := nextBit + block * 64, currentBlockCopy := copy &&& ~~~((1 : UInt64) <<< nextBit.toUInt64) })
    else
      match remaining with
      | 0 => (maxSizeT, { nextBitOffset := (block + 1) * 64, currentBlockCopy := copy })
      | remaining + 1 => forwardSearchLoop bitmap beyond remaining (block + 1) (bitmap.loadBlock beyond (block + 1))

/-- `ebpf_bitmap_forward_search_next_bit`: the next set bit above the last one returned,
`MAXSIZE_T` when there is none. -/
def ebpfBitmapForwardSearchNextBit (bitmap : EbpfBitmap) (beyond : Nat → UInt64) (cursor : EbpfBitmapCursor) :
    Nat × EbpfBitmapCursor :=
  forwardSearchLoop bitmap beyond (bitmap.bitCount / 64 - cursor.nextBitOffset / 64) (cursor.nextBitOffset / 64)
    cursor.currentBlockCopy

/-- With a bit count that fills its last block, the search loads the word after the bitmap:
a clear bitmap of 64 bits, followed by a word with bit 0 set, hands back bit 64. -/
theorem forward_search_reads_past_a_full_last_block :
    ∃ bitmap, ebpfBitmapInitialize 64 = .ok bitmap ∧ bitmap.data.length = 1 ∧
      (ebpfBitmapForwardSearchNextBit bitmap (fun _ => 1) (ebpfBitmapStartForwardSearch bitmap (fun _ => 1))).1 = 64 :=
  ⟨_, rfl, rfl, by decide⟩

/-! ## What a cursor has still to return -/

/-- The bits to come from a cursor at `block` holding `copy`: the set bits of the blocks
below, and the bits of the copy. -/
def Pending (bitmap : EbpfBitmap) (block : Nat) (copy : UInt64) (index : Nat) : Prop :=
  index / 64 < block ∧ bitmap.ebpfBitmapTestBit index = true ∨
    index / 64 = block ∧ copy.toNat.testBit (index % 64) = true

/-- The bits to come from a cursor. -/
def EbpfBitmapCursor.Pending (bitmap : EbpfBitmap) (cursor : EbpfBitmapCursor) (index : Nat) : Prop :=
  Runtime.Pending bitmap (cursor.nextBitOffset / 64) cursor.currentBlockCopy index

/-- No bit at or past `bit_count` is set: the bitmap is initialized clear and only bits
below `bit_count` are set. -/
def EbpfBitmap.HighClear (bitmap : EbpfBitmap) : Prop :=
  ∀ index, bitmap.bitCount ≤ index → bitmap.ebpfBitmapTestBit index = false

section Search

variable (bitmap : EbpfBitmap)

theorem pending_descend (block : Nat) (index : Nat) :
    Pending bitmap (block + 1) 0 index ↔ Pending bitmap block (bitmap.data.getD block 0) index := by
  unfold Pending
  constructor
  · rintro (⟨below, set⟩ | ⟨_, set⟩)
    · rcases Nat.lt_succ_iff_lt_or_eq.mp below with lower | same
      · exact Or.inl ⟨lower, set⟩
      · refine Or.inr ⟨same, ?_⟩
        rw [← same]
        exact set
    · simp at set
  · rintro (⟨below, set⟩ | ⟨same, set⟩)
    · exact Or.inl ⟨Nat.lt_succ_of_lt below, set⟩
    · refine Or.inl ⟨by omega, ?_⟩
      unfold EbpfBitmap.ebpfBitmapTestBit
      rw [same]
      exact set

theorem pending_highest {block : Nat} {copy : UInt64} {index : Nat}
    (pending : Pending bitmap block copy index) : index ≤ Nat.log2 copy.toNat + block * 64 := by
  rcases pending with ⟨below, _⟩ | ⟨same, set⟩
  · omega
  · have := Bits.le_log2_of_testBit set
    omega

theorem reverseSearchLoop_of_ne_zero (block : Nat) {copy : UInt64} (nonzero : copy ≠ 0) :
    reverseSearchLoop bitmap block copy =
      (Nat.log2 copy.toNat + block * 64,
        { nextBitOffset := Nat.log2 copy.toNat + block * 64,
          currentBlockCopy := copy &&& ~~~((1 : UInt64) <<< (Nat.log2 copy.toNat).toUInt64) }) := by
  cases block <;> simp [reverseSearchLoop, nonzero]

theorem reverseSearchLoop_zero :
    reverseSearchLoop bitmap 0 0 = (maxSizeT, { nextBitOffset := 0, currentBlockCopy := 0 }) := by
  simp [reverseSearchLoop]

theorem reverseSearchLoop_succ (block : Nat) :
    reverseSearchLoop bitmap (block + 1) 0 = reverseSearchLoop bitmap block (bitmap.data.getD block 0) := by
  simp [reverseSearchLoop]

theorem eq_zero_of_not_pending {block : Nat} {copy : UInt64} (nothing : ∀ index, ¬ Pending bitmap block copy index) :
    copy = 0 := by
  apply Bits.eq_zero_of_testBit
  intro position
  by_contra set
  have small : position < 64 := by
    by_contra large
    exact set (Bits.testBit_toNat_of_le copy (by omega))
  have inBlock : (position + block * 64) % 64 = position := by omega
  exact nothing (position + block * 64) (Or.inr ⟨by omega, by rw [inBlock]; simpa using set⟩)

theorem reverseSearchLoop_none :
    ∀ (block : Nat) (copy : UInt64), (∀ index, ¬ Pending bitmap block copy index) →
      (reverseSearchLoop bitmap block copy).1 = maxSizeT ∧
        ∀ index, ¬ (reverseSearchLoop bitmap block copy).2.Pending bitmap index
  | block, copy, nothing => by
    have empty := eq_zero_of_not_pending bitmap nothing
    subst empty
    cases block with
    | zero =>
      rw [reverseSearchLoop_zero]
      exact ⟨rfl, fun index pending => nothing index pending⟩
    | succ block =>
      rw [reverseSearchLoop_succ]
      exact reverseSearchLoop_none block _ fun index pending => nothing index ((pending_descend bitmap block index).mpr pending)

theorem reverseSearchLoop_some :
    ∀ (block : Nat) (copy : UInt64) (index : Nat), Pending bitmap block copy index →
      Pending bitmap block copy (reverseSearchLoop bitmap block copy).1 ∧
        (∀ other, Pending bitmap block copy other → other ≤ (reverseSearchLoop bitmap block copy).1) ∧
        ∀ other, (reverseSearchLoop bitmap block copy).2.Pending bitmap other ↔
          Pending bitmap block copy other ∧ other ≠ (reverseSearchLoop bitmap block copy).1
  | block, copy, index, pending => by
    by_cases nonzero : copy = 0
    · -- the copy is empty, so the search goes on in the block below
      subst nonzero
      cases block with
      | zero =>
        rcases pending with ⟨below, _⟩ | ⟨_, set⟩
        · omega
        · simp at set
      | succ block =>
        rw [reverseSearchLoop_succ]
        have later := reverseSearchLoop_some block _ index ((pending_descend bitmap block index).mp pending)
        simp only [← pending_descend bitmap block] at later
        exact later
    · -- the highest bit of the copy is returned and cleared
      have highest := Bits.log2_toNat_lt copy nonzero
      have set := Nat.testBit_log2 (Bits.toNat_ne_zero nonzero)
      have position : (Nat.log2 copy.toNat + block * 64) % 64 = Nat.log2 copy.toNat := by omega
      have sameBlock : (Nat.log2 copy.toNat + block * 64) / 64 = block := by omega
      rw [reverseSearchLoop_of_ne_zero bitmap block nonzero]
      refine ⟨Or.inr ⟨sameBlock, by rw [position]; exact set⟩, fun other => pending_highest bitmap, ?_⟩
      intro other
      simp only [EbpfBitmapCursor.Pending, Pending, Bits.testBit_and_not_shiftLeft copy highest, sameBlock,
        Bool.and_eq_true, decide_eq_true_eq]
      constructor
      · rintro (⟨below, set⟩ | ⟨same, set, different⟩)
        · exact ⟨Or.inl ⟨below, set⟩, by omega⟩
        · exact ⟨Or.inr ⟨same, set⟩, by omega⟩
      · rintro ⟨⟨below, set⟩ | ⟨same, set⟩, different⟩
        · exact Or.inl ⟨below, set⟩
        · exact Or.inr ⟨same, set, by omega⟩

theorem startReverseSearchAt_pending (highClear : bitmap.HighClear) (nonempty : 0 < bitmap.bitCount)
    (start index : Nat) :
    (ebpfBitmapStartReverseSearchAt bitmap start).Pending bitmap index ↔
      index ≤ start ∧ bitmap.ebpfBitmapTestBit index = true := by
  generalize startEq : (if start ≥ bitmap.bitCount then bitmap.bitCount - 1 else start) = first
  have firstBelow : first < bitmap.bitCount := by split at startEq <;> omega
  have sameBelow : ∀ index, bitmap.ebpfBitmapTestBit index = true → (index ≤ start ↔ index ≤ first) := by
    intro index set
    have below : index < bitmap.bitCount := by
      by_contra past
      simp [highClear index (by omega)] at set
    split at startEq <;> omega
  simp only [ebpfBitmapStartReverseSearchAt, startEq, EbpfBitmapCursor.Pending, Pending]
  constructor
  · rintro (⟨below, set⟩ | ⟨same, set⟩)
    · exact ⟨(sameBelow index set).mpr (by omega), set⟩
    · split at set
      · rename_i masked
        rw [Bits.testBit_and_mask _ (by omega)] at set
        simp only [Bool.and_eq_true, decide_eq_true_eq] at set
        have blockSet : bitmap.ebpfBitmapTestBit index = true := by
          unfold EbpfBitmap.ebpfBitmapTestBit
          rw [same]
          exact set.1
        exact ⟨(sameBelow index blockSet).mpr (by omega), blockSet⟩
      · rename_i unmasked
        have blockSet : bitmap.ebpfBitmapTestBit index = true := by
          unfold EbpfBitmap.ebpfBitmapTestBit
          rw [same]
          exact set
        refine ⟨(sameBelow index blockSet).mpr ?_, blockSet⟩
        by_contra past
        have beyond : bitmap.bitCount ≤ index := by omega
        simp [highClear index beyond] at blockSet
  · rintro ⟨before, set⟩
    have atMost := (sameBelow index set).mp before
    rcases Nat.lt_or_ge (index / 64) (first / 64) with lower | higher
    · exact Or.inl ⟨lower, set⟩
    · refine Or.inr ⟨by omega, ?_⟩
      have sameBlock : index / 64 = first / 64 := by omega
      have blockSet : (bitmap.data.getD (first / 64) 0).toNat.testBit (index % 64) = true := by
        rw [← sameBlock]
        exact set
      split
      · rw [Bits.testBit_and_mask _ (by omega)]
        simp only [blockSet, Bool.true_and, decide_eq_true_eq]
        omega
      · exact blockSet

theorem reverseSearchNextBit_none {cursor : EbpfBitmapCursor} (nothing : ∀ index, ¬ cursor.Pending bitmap index) :
    (ebpfBitmapReverseSearchNextBit bitmap cursor).1 = maxSizeT ∧
      ∀ index, ¬ (ebpfBitmapReverseSearchNextBit bitmap cursor).2.Pending bitmap index :=
  reverseSearchLoop_none bitmap _ _ nothing

theorem reverseSearchNextBit_some {cursor : EbpfBitmapCursor} {index : Nat} (pending : cursor.Pending bitmap index) :
    cursor.Pending bitmap (ebpfBitmapReverseSearchNextBit bitmap cursor).1 ∧
      (∀ other, cursor.Pending bitmap other → other ≤ (ebpfBitmapReverseSearchNextBit bitmap cursor).1) ∧
      ∀ other, (ebpfBitmapReverseSearchNextBit bitmap cursor).2.Pending bitmap other ↔
        cursor.Pending bitmap other ∧ other ≠ (ebpfBitmapReverseSearchNextBit bitmap cursor).1 :=
  reverseSearchLoop_some bitmap _ _ index pending

end Search

/-! ## Initializing and setting bits -/

theorem ebpfBitmapSize_toNat {bitCount : UInt64} (small : bitCount.toNat + 63 < 2 ^ 63) :
    (ebpfBitmapSize bitCount).toNat = 8 + (bitCount.toNat + 63) / 64 * 8 := by
  have adjusted : bitCount.toNat + (64 - 1 : UInt64).toNat < 2 ^ 64 := by simp; omega
  have adjustedToNat : (bitCount + (64 - 1)).toNat = bitCount.toNat + 63 := by
    rw [ebpfSafeSizeTAdd_toNat adjusted]
    rfl
  have blocks : ((bitCount + (64 - 1)) / 64).toNat = (bitCount.toNat + 63) / 64 := by
    rw [UInt64.toNat_div, adjustedToNat]
    rfl
  have product : ((bitCount + (64 - 1)) / 64).toNat * (8 : UInt64).toNat < 2 ^ 64 := by
    rw [blocks]
    simp
    omega
  have total : offsetOfBitmapData.toNat + ((bitCount + (64 - 1)) / 64 * 8).toNat < 2 ^ 64 := by
    rw [ebpfSafeSizeTMultiply_toNat product, blocks]
    simp [offsetOfBitmapData]
    omega
  simp only [ebpfBitmapSize, ebpfSafeSizeTAdd_eq_ok adjusted, ebpfSafeSizeTMultiply_eq_ok product,
    ebpfSafeSizeTAdd_eq_ok total, bind, Except.bind]
  rw [ebpfSafeSizeTAdd_toNat total, ebpfSafeSizeTMultiply_toNat product, blocks]
  rfl

theorem ebpfBitmapInitialize_eq_ok {bitCount : UInt64} (small : bitCount.toNat + 63 < 2 ^ 63) :
    ebpfBitmapInitialize bitCount =
      .ok { bitCount := bitCount.toNat, data := List.replicate ((bitCount.toNat + 63) / 64) 0 } := by
  have size := ebpfBitmapSize_toNat small
  have notMax : ebpfBitmapSize bitCount ≠ maxSizeT.toUInt64 := fun same => by
    rw [same] at size
    simp [maxSizeT] at size
    omega
  have blocks : ((ebpfBitmapSize bitCount - offsetOfBitmapData) / 8).toNat = (bitCount.toNat + 63) / 64 := by
    have atLeast : offsetOfBitmapData ≤ ebpfBitmapSize bitCount := by
      rw [UInt64.le_iff_toNat_le, size]
      simp [offsetOfBitmapData]
    rw [UInt64.toNat_div, UInt64.toNat_sub_of_le _ _ atLeast, size]
    simp [offsetOfBitmapData]
  simp only [ebpfBitmapInitialize, notMax, if_false, blocks]

theorem EbpfBitmap.testBit_replicate (bitCount blocks index : Nat) :
    EbpfBitmap.ebpfBitmapTestBit { bitCount, data := List.replicate blocks 0 } index = false := by
  simp [EbpfBitmap.ebpfBitmapTestBit, List.getD_eq_getElem?_getD, List.getElem?_replicate]
  split <;> simp


namespace EbpfBitmap

variable {bitmap : EbpfBitmap}

theorem testBit_setBit {index : Nat} (exists' : index / 64 < bitmap.data.length) (other : Nat) :
    (bitmap.ebpfBitmapSetBit index).2.ebpfBitmapTestBit other =
      (bitmap.ebpfBitmapTestBit other || other = index) := by
  unfold ebpfBitmapSetBit ebpfBitmapTestBit
  simp only [List.getD_eq_getElem?_getD, List.getElem?_modify]
  by_cases sameBlock : index / 64 = other / 64
  · have inData : other / 64 < bitmap.data.length := sameBlock ▸ exists'
    simp only [sameBlock, if_true, List.getElem?_eq_getElem inData, Option.map_eq_map, Option.map_some,
      Option.getD_some]
    rw [Bits.testBit_or_shiftLeft _ (Nat.mod_lt _ (by decide))]
    have sameBit : other % 64 = index % 64 ↔ other = index := by omega
    simp [sameBit]
  · have different : other ≠ index := fun same => sameBlock (by rw [same])
    simp [sameBlock, different]

theorem length_setBit (index : Nat) : (bitmap.ebpfBitmapSetBit index).2.data.length = bitmap.data.length := by
  simp [ebpfBitmapSetBit]

theorem HighClear.setBit (highClear : bitmap.HighClear) {index : Nat} (below : index < bitmap.bitCount)
    (exists' : index / 64 < bitmap.data.length) : (bitmap.ebpfBitmapSetBit index).2.HighClear := by
  intro other past
  rw [testBit_setBit exists']
  simp only [ebpfBitmapSetBit] at past
  simp [highClear other past, show other ≠ index by omega]

theorem testBit_of_testBit_setBit {index other : Nat}
    (set : (bitmap.ebpfBitmapSetBit index).2.ebpfBitmapTestBit other = true) :
    bitmap.ebpfBitmapTestBit other = true ∨ other = index := by
  unfold ebpfBitmapSetBit ebpfBitmapTestBit at *
  simp only [List.getD_eq_getElem?_getD, List.getElem?_modify] at set ⊢
  cases block : bitmap.data[other / 64]? with
  | none => simp [block] at set
  | some word =>
    by_cases sameBlock : index / 64 = other / 64
    · simp only [block, sameBlock, if_true, Option.map_eq_map, Option.map_some, Option.getD_some] at set ⊢
      rw [Bits.testBit_or_shiftLeft _ (Nat.mod_lt _ (by decide))] at set
      rcases Bool.or_eq_true_iff.mp set with old | same
      · exact .inl old
      · exact .inr (by simp at same; omega)
    · simp only [block, sameBlock, if_false, Option.map_eq_map, Option.map_some, Option.getD_some] at set ⊢
      exact .inl set

theorem testBit_of_testBit_resetBit {index other : Nat}
    (set : (bitmap.ebpfBitmapResetBit index).2.ebpfBitmapTestBit other = true) :
    bitmap.ebpfBitmapTestBit other = true := by
  unfold ebpfBitmapResetBit ebpfBitmapTestBit at *
  simp only [List.getD_eq_getElem?_getD, List.getElem?_modify] at set ⊢
  cases block : bitmap.data[other / 64]? with
  | none => simp [block] at set
  | some word =>
    by_cases sameBlock : index / 64 = other / 64
    · simp only [block, sameBlock, if_true, Option.map_eq_map, Option.map_some, Option.getD_some] at set ⊢
      rw [Bits.testBit_and_not_shiftLeft _ (Nat.mod_lt _ (by decide))] at set
      exact (Bool.and_eq_true_iff.mp set).1
    · simpa [block, sameBlock] using set

end EbpfBitmap

/-! ## Bitmaps reached by setting and clearing bits -/

/-- What the owner of a bitmap does to it: `ebpf_bitmap_set_bit` or `ebpf_bitmap_reset_bit`
at an index, interlocked or not. -/
inductive EbpfBitmapOperation where
  | setBit (index : Nat)
  | resetBit (index : Nat)
  deriving DecidableEq, Repr

namespace EbpfBitmapOperation

def index : EbpfBitmapOperation → Nat
  | setBit index => index
  | resetBit index => index

def apply (bitmap : EbpfBitmap) : EbpfBitmapOperation → EbpfBitmap
  | setBit index => (bitmap.ebpfBitmapSetBit index).2
  | resetBit index => (bitmap.ebpfBitmapResetBit index).2

@[simp] theorem bitCount_apply (bitmap : EbpfBitmap) (operation : EbpfBitmapOperation) :
    (operation.apply bitmap).bitCount = bitmap.bitCount := by
  cases operation <;> rfl

theorem highClear_apply {bitmap : EbpfBitmap} (highClear : bitmap.HighClear) {operation : EbpfBitmapOperation}
    (below : operation.index < bitmap.bitCount) : (operation.apply bitmap).HighClear := by
  intro other past
  rw [bitCount_apply] at past
  rw [Bool.eq_false_iff]
  intro set
  cases operation with
  | setBit position =>
    change position < bitmap.bitCount at below
    rcases EbpfBitmap.testBit_of_testBit_setBit set with old | same
    · simp [highClear other past] at old
    · omega
  | resetBit position =>
    have old := EbpfBitmap.testBit_of_testBit_resetBit set
    simp [highClear other past] at old

theorem foldl_bitCount (operations : List EbpfBitmapOperation) :
    ∀ bitmap : EbpfBitmap, (operations.foldl apply bitmap).bitCount = bitmap.bitCount := by
  induction operations with
  | nil => intro bitmap; rfl
  | cons operation rest ih => intro bitmap; rw [List.foldl_cons, ih, bitCount_apply]

theorem foldl_highClear (operations : List EbpfBitmapOperation) :
    ∀ bitmap : EbpfBitmap, bitmap.HighClear → (∀ operation ∈ operations, operation.index < bitmap.bitCount) →
      (operations.foldl apply bitmap).HighClear := by
  induction operations with
  | nil => intro bitmap highClear _; exact highClear
  | cons operation rest ih =>
    intro bitmap highClear below
    rw [List.foldl_cons]
    apply ih _ (highClear_apply highClear (below operation List.mem_cons_self))
    intro later member
    rw [bitCount_apply]
    exact below later (List.mem_cons_of_mem _ member)

end EbpfBitmapOperation

theorem highClear_of_initialize {bitCount : UInt64} {bitmap : EbpfBitmap}
    (initialized : ebpfBitmapInitialize bitCount = .ok bitmap) :
    bitmap.bitCount = bitCount.toNat ∧ bitmap.HighClear := by
  unfold ebpfBitmapInitialize at initialized
  dsimp only at initialized
  split at initialized
  · cases initialized
  · cases initialized
    exact ⟨rfl, fun index _ => EbpfBitmap.testBit_replicate _ _ index⟩

/-! ## Listing the set bits downwards -/

/-- The set bits at or below `top`, from the highest down. -/
def EbpfBitmap.setBitsDown (bitmap : EbpfBitmap) (top : Nat) : List Nat :=
  (List.range (top + 1)).reverse.filter bitmap.ebpfBitmapTestBit

/-- The bits `count` successive calls of `ebpf_bitmap_reverse_search_next_bit` return from `cursor`. -/
def reverseSearchBits (bitmap : EbpfBitmap) : Nat → EbpfBitmapCursor → List Nat
  | 0, _ => []
  | count + 1, cursor =>
    (ebpfBitmapReverseSearchNextBit bitmap cursor).1 ::
      reverseSearchBits bitmap count (ebpfBitmapReverseSearchNextBit bitmap cursor).2

section Listing

variable (bitmap : EbpfBitmap)

theorem mem_setBitsDown {top index : Nat} :
    index ∈ bitmap.setBitsDown top ↔ index ≤ top ∧ bitmap.ebpfBitmapTestBit index = true := by
  simp only [EbpfBitmap.setBitsDown, List.mem_filter, List.mem_reverse, List.mem_range, Nat.lt_succ_iff]

theorem setBitsDown_decreasing (top : Nat) : (bitmap.setBitsDown top).Pairwise (· > ·) :=
  (List.pairwise_reverse.mpr List.pairwise_lt_range).filter _

theorem reverseSearchBits_of_nothing {cursor : EbpfBitmapCursor} (nothing : ∀ index, ¬ cursor.Pending bitmap index) :
    ∀ extra, reverseSearchBits bitmap extra cursor = List.replicate extra maxSizeT := by
  intro extra
  induction extra generalizing cursor with
  | zero => rfl
  | succ extra ih =>
    obtain ⟨none, still⟩ := reverseSearchNextBit_none bitmap nothing
    rw [reverseSearchBits, none, ih still, List.replicate_succ]

theorem reverseSearchBits_of_pending :
    ∀ (bits : List Nat) (cursor : EbpfBitmapCursor), bits.Pairwise (· > ·) →
      (∀ index, cursor.Pending bitmap index ↔ index ∈ bits) → ∀ extra,
        reverseSearchBits bitmap (bits.length + extra) cursor = bits ++ List.replicate extra maxSizeT := by
  intro bits
  induction bits with
  | nil =>
    intro cursor _ pending extra
    simpa using reverseSearchBits_of_nothing bitmap (fun index => by simp [pending index]) extra
  | cons highest rest ih =>
    intro cursor decreasing pending extra
    obtain ⟨above, restDecreasing⟩ := List.pairwise_cons.mp decreasing
    obtain ⟨found, atMost, remaining⟩ :=
      reverseSearchNextBit_some bitmap ((pending highest).mpr List.mem_cons_self)
    have isHighest : (ebpfBitmapReverseSearchNextBit bitmap cursor).1 = highest := by
      have upper := atMost highest ((pending highest).mpr List.mem_cons_self)
      rcases List.mem_cons.mp ((pending _).mp found) with same | inRest
      · exact same
      · have := above _ inRest
        omega
    rw [List.length_cons, Nat.add_right_comm, reverseSearchBits, isHighest, List.cons_append]
    congr 1
    apply ih _ restDecreasing
    intro index
    rw [remaining, pending, isHighest, List.mem_cons]
    constructor
    · rintro ⟨same | inRest, different⟩
      · exact absurd same different
      · exact inRest
    · intro inRest
      exact ⟨.inr inRest, fun same => by have := above _ inRest; omega⟩

theorem ebpfBitmapStartReverseSearch_eq (nonempty : 0 < bitmap.bitCount) :
    ebpfBitmapStartReverseSearch bitmap = ebpfBitmapStartReverseSearchAt bitmap (bitmap.bitCount - 1) := by
  have notPast : ¬ bitmap.bitCount - 1 ≥ bitmap.bitCount := by omega
  simp [ebpfBitmapStartReverseSearch, ebpfBitmapStartReverseSearchAt, notPast]

theorem reverseSearchBits_startAt (highClear : bitmap.HighClear) (nonempty : 0 < bitmap.bitCount) (start extra : Nat) :
    reverseSearchBits bitmap ((bitmap.setBitsDown (min start (bitmap.bitCount - 1))).length + extra)
        (ebpfBitmapStartReverseSearchAt bitmap start) =
      bitmap.setBitsDown (min start (bitmap.bitCount - 1)) ++ List.replicate extra maxSizeT := by
  apply reverseSearchBits_of_pending bitmap _ _ (setBitsDown_decreasing bitmap _)
  intro index
  rw [startReverseSearchAt_pending bitmap highClear nonempty, mem_setBitsDown]
  constructor
  · rintro ⟨before, set⟩
    have below : index < bitmap.bitCount := by
      by_contra past
      simp [highClear index (by omega)] at set
    exact ⟨by omega, set⟩
  · rintro ⟨before, set⟩
    exact ⟨by omega, set⟩

end Listing

/-! ## What the search reads -/

section Reads

variable {bitmap other : EbpfBitmap}

theorem reverseSearchLoop_congr {block : Nat} (same : ∀ index < block, other.data.getD index 0 = bitmap.data.getD index 0)
    (copy : UInt64) : reverseSearchLoop other block copy = reverseSearchLoop bitmap block copy := by
  induction block generalizing copy with
  | zero =>
    by_cases nonzero : copy = 0
    · subst nonzero
      rw [reverseSearchLoop_zero, reverseSearchLoop_zero]
    · rw [reverseSearchLoop_of_ne_zero other _ nonzero, reverseSearchLoop_of_ne_zero bitmap _ nonzero]
  | succ block ih =>
    by_cases nonzero : copy = 0
    · subst nonzero
      rw [reverseSearchLoop_succ, reverseSearchLoop_succ, same block (Nat.lt_succ_self block)]
      exact ih (fun index below => same index (Nat.lt_succ_of_lt below)) _
    · rw [reverseSearchLoop_of_ne_zero other _ nonzero, reverseSearchLoop_of_ne_zero bitmap _ nonzero]

theorem reverseSearchLoop_block_le (block : Nat) (copy : UInt64) :
    (reverseSearchLoop bitmap block copy).2.nextBitOffset / 64 ≤ block := by
  induction block generalizing copy with
  | zero =>
    by_cases nonzero : copy = 0
    · subst nonzero
      simp [reverseSearchLoop_zero]
    · rw [reverseSearchLoop_of_ne_zero bitmap _ nonzero]
      have := Bits.log2_toNat_lt copy nonzero
      dsimp only
      omega
  | succ block ih =>
    by_cases nonzero : copy = 0
    · subst nonzero
      rw [reverseSearchLoop_succ]
      exact Nat.le_succ_of_le (ih _)
    · rw [reverseSearchLoop_of_ne_zero bitmap _ nonzero]
      have := Bits.log2_toNat_lt copy nonzero
      dsimp only
      omega

theorem reverseSearchBits_congr {blocks : Nat} (same : ∀ index < blocks, other.data.getD index 0 = bitmap.data.getD index 0) :
    ∀ (count : Nat) (cursor : EbpfBitmapCursor), cursor.nextBitOffset / 64 < blocks →
      reverseSearchBits other count cursor = reverseSearchBits bitmap count cursor := by
  intro count
  induction count with
  | zero => intro cursor _; rfl
  | succ count ih =>
    intro cursor inside
    have loop : ebpfBitmapReverseSearchNextBit other cursor = ebpfBitmapReverseSearchNextBit bitmap cursor :=
      reverseSearchLoop_congr (fun index below => same index (by omega)) _
    have stays : (reverseSearchLoop bitmap (cursor.nextBitOffset / 64) cursor.currentBlockCopy).2.nextBitOffset / 64 ≤
        cursor.nextBitOffset / 64 :=
      reverseSearchLoop_block_le _ _
    rw [reverseSearchBits, reverseSearchBits, loop, ih _ (by unfold ebpfBitmapReverseSearchNextBit; omega)]

theorem startReverseSearchAt_congr (sameCount : other.bitCount = bitmap.bitCount) (nonempty : 0 < bitmap.bitCount)
    (same : ∀ index < (bitmap.bitCount + 63) / 64, other.data.getD index 0 = bitmap.data.getD index 0) (start : Nat) :
    ebpfBitmapStartReverseSearchAt other start = ebpfBitmapStartReverseSearchAt bitmap start ∧
      (ebpfBitmapStartReverseSearchAt bitmap start).nextBitOffset / 64 < (bitmap.bitCount + 63) / 64 := by
  have first : (if start ≥ bitmap.bitCount then bitmap.bitCount - 1 else start) < bitmap.bitCount := by
    split <;> omega
  have inside : (if start ≥ bitmap.bitCount then bitmap.bitCount - 1 else start) / 64 < (bitmap.bitCount + 63) / 64 := by
    omega
  refine ⟨?_, inside⟩
  simp only [ebpfBitmapStartReverseSearchAt, sameCount, same _ inside]

end Reads

theorem bitmap_reverse_search_lists_set_bits_down (bitCount : UInt64) (nonempty : 0 < bitCount.toNat)
    {bitmap : EbpfBitmap} (initialized : ebpfBitmapInitialize bitCount = .ok bitmap)
    (operations : List EbpfBitmapOperation) (below : ∀ operation ∈ operations, operation.index < bitCount.toNat)
    (start : Nat) :
    reverseSearchBits (operations.foldl EbpfBitmapOperation.apply bitmap)
        (((operations.foldl EbpfBitmapOperation.apply bitmap).setBitsDown (min start (bitCount.toNat - 1))).length + 1)
        (ebpfBitmapStartReverseSearchAt (operations.foldl EbpfBitmapOperation.apply bitmap) start) =
      (operations.foldl EbpfBitmapOperation.apply bitmap).setBitsDown (min start (bitCount.toNat - 1)) ++ [maxSizeT] ∧
    reverseSearchBits (operations.foldl EbpfBitmapOperation.apply bitmap)
        (((operations.foldl EbpfBitmapOperation.apply bitmap).setBitsDown (bitCount.toNat - 1)).length + 1)
        (ebpfBitmapStartReverseSearch (operations.foldl EbpfBitmapOperation.apply bitmap)) =
      (operations.foldl EbpfBitmapOperation.apply bitmap).setBitsDown (bitCount.toNat - 1) ++ [maxSizeT] ∧
    ∀ other : EbpfBitmap, other.bitCount = bitCount.toNat →
      (∀ block < (bitCount.toNat + 63) / 64,
        other.data.getD block 0 = (operations.foldl EbpfBitmapOperation.apply bitmap).data.getD block 0) →
      ∀ count, reverseSearchBits other count (ebpfBitmapStartReverseSearchAt other start) =
          reverseSearchBits (operations.foldl EbpfBitmapOperation.apply bitmap) count
            (ebpfBitmapStartReverseSearchAt (operations.foldl EbpfBitmapOperation.apply bitmap) start) ∧
        reverseSearchBits other count (ebpfBitmapStartReverseSearch other) =
          reverseSearchBits (operations.foldl EbpfBitmapOperation.apply bitmap) count
            (ebpfBitmapStartReverseSearch (operations.foldl EbpfBitmapOperation.apply bitmap)) := by
  obtain ⟨initialCount, initialClear⟩ := highClear_of_initialize initialized
  -- the bitmap the operations reach keeps `bit_count` and its clear high bits
  have finalCount : (operations.foldl EbpfBitmapOperation.apply bitmap).bitCount = bitCount.toNat := by
    rw [EbpfBitmapOperation.foldl_bitCount, initialCount]
  have finalClear : (operations.foldl EbpfBitmapOperation.apply bitmap).HighClear :=
    EbpfBitmapOperation.foldl_highClear operations bitmap initialClear (initialCount ▸ below)
  have finalNonempty : 0 < (operations.foldl EbpfBitmapOperation.apply bitmap).bitCount := finalCount ▸ nonempty
  have fromLast := ebpfBitmapStartReverseSearch_eq _ finalNonempty
  refine ⟨?_, ?_, fun other otherCount same count => ?_⟩
  · have listed := reverseSearchBits_startAt _ finalClear finalNonempty start 1
    rwa [finalCount] at listed
  · have listed := reverseSearchBits_startAt _ finalClear finalNonempty (bitCount.toNat - 1) 1
    rw [finalCount, Nat.min_self] at listed
    rwa [fromLast, finalCount]
  · rw [← finalCount] at same otherCount nonempty
    have otherNonempty : 0 < other.bitCount := otherCount ▸ nonempty
    obtain ⟨startSame, startInside⟩ := startReverseSearchAt_congr otherCount finalNonempty same start
    obtain ⟨lastSame, lastInside⟩ := startReverseSearchAt_congr otherCount finalNonempty same
      ((operations.foldl EbpfBitmapOperation.apply bitmap).bitCount - 1)
    refine ⟨?_, ?_⟩
    · rw [startSame]
      exact reverseSearchBits_congr same count _ startInside
    · rw [ebpfBitmapStartReverseSearch_eq _ otherNonempty, otherCount, lastSame, fromLast]
      exact reverseSearchBits_congr same count _ lastInside

theorem bitmap_reverse_search_lists_set_bits_down_from_bit_eighty :
    0 < (100 : UInt64).toNat ∧
      (∀ operation ∈ [EbpfBitmapOperation.setBit 3, .setBit 70, .setBit 64, .resetBit 70, .setBit 99],
        operation.index < (100 : UInt64).toNat) ∧
      ∃ bitmap, ebpfBitmapInitialize 100 = .ok bitmap ∧
        reverseSearchBits ([EbpfBitmapOperation.setBit 3, .setBit 70, .setBit 64, .resetBit 70, .setBit 99].foldl
            EbpfBitmapOperation.apply bitmap) 3
          (ebpfBitmapStartReverseSearchAt ([EbpfBitmapOperation.setBit 3, .setBit 70, .setBit 64, .resetBit 70,
            .setBit 99].foldl EbpfBitmapOperation.apply bitmap) 80) = [64, 3, maxSizeT] := by
  refine ⟨by decide, by decide, _, rfl, ?_⟩
  have listed := (bitmap_reverse_search_lists_set_bits_down 100 (by decide) rfl
    [EbpfBitmapOperation.setBit 3, .setBit 70, .setBit 64, .resetBit 70, .setBit 99] (by decide) 80).1
  rwa [show EbpfBitmap.setBitsDown _ (min 80 ((100 : UInt64).toNat - 1)) = [64, 3] by decide] at listed

end EbpfWindows.Runtime
