import EbpfWindows.Runtime.Result
import EbpfWindows.Lib.Bits

/-! The ring buffer of `ebpf_ring_buffer.c`: its three offsets, its record headers, and the
consumer's return of buffer space, `ebpf_ring_buffer_return_buffer`.

Offsets are unbounded and reduced modulo the ring's length only to address the data buffer,
as the code does with its `size_t` offsets. A record is an 8-byte header, whose 32-bit
`length` carries the lock and discard bits, followed by its data, padded to 8 bytes. The
model keeps the header word at each position of the data buffer; record data is never read
by the ring's own code and is not kept.
-/

set_option autoImplicit false

namespace EbpfWindows.Runtime

def ebpfRingbufLockBit : UInt32 := (1 : UInt32) <<< 31

def ebpfRingbufDiscardBit : UInt32 := (1 : UInt32) <<< 30

def ebpfRingbufMaxRecordSize : Nat := 2 ^ 30 - 1

/-- `EBPF_RINGBUF_HEADER_SIZE`, the offset of a record's data. -/
def ebpfRingbufHeaderSize : Nat := 8

/-- `_ring_record_size`: the header and the data, rounded up to 8 bytes (`& ~7`). -/
def ringRecordSize (dataLength : Nat) : Nat :=
  (ebpfRingbufHeaderSize + dataLength + 7) / 8 * 8

/-- `_ring_header_length`: the header without its lock and discard bits. -/
def ringHeaderLength (header : UInt32) : UInt32 :=
  header &&& ~~~(ebpfRingbufLockBit ||| ebpfRingbufDiscardBit)

def ringHeaderLocked (header : UInt32) : Bool :=
  header &&& ebpfRingbufLockBit != 0

def ringHeaderDiscarded (header : UInt32) : Bool :=
  header &&& ebpfRingbufDiscardBit != 0

theorem eight_le_ringRecordSize (dataLength : Nat) : 8 ≤ ringRecordSize dataLength := by
  unfold ringRecordSize ebpfRingbufHeaderSize
  omega

theorem sixteen_le_ringRecordSize {dataLength : Nat} (nonempty : 1 ≤ dataLength) : 16 ≤ ringRecordSize dataLength := by
  unfold ringRecordSize ebpfRingbufHeaderSize
  omega

theorem ringRecordSize_mod_eight (dataLength : Nat) : ringRecordSize dataLength % 8 = 0 :=
  Nat.mul_mod_left _ _

/-! The header's fields, read from the bits of its value: the length is the low 30 bits, the
discard bit is bit 30 and the lock bit bit 31. -/

theorem toNat_ringHeaderLength (header : UInt32) : (ringHeaderLength header).toNat = header.toNat % 2 ^ 30 := by
  have mask : (~~~(ebpfRingbufLockBit ||| ebpfRingbufDiscardBit)).toNat = 2 ^ 30 - 1 := by decide
  rw [ringHeaderLength, UInt32.toNat_and, mask, Nat.and_two_pow_sub_one_eq_mod]

theorem and_ne_zero_eq_testBit (header flag : UInt32) (bit : Nat) (single : flag.toNat = 2 ^ bit) :
    (header &&& flag != 0) = header.toNat.testBit bit := by
  have cleared : header &&& flag = 0 ↔ header.toNat.testBit bit = false := by
    rw [← UInt32.toNat_inj, UInt32.toNat_and, single, UInt32.toNat_zero]
    exact Bits.and_two_pow_eq_zero_iff
  cases set : header.toNat.testBit bit
  · simp [cleared.mpr set]
  · have : header &&& flag ≠ 0 := fun zero => by simp [cleared.mp zero] at set
    simp [this]

theorem ringHeaderLocked_eq_testBit (header : UInt32) : ringHeaderLocked header = header.toNat.testBit 31 :=
  and_ne_zero_eq_testBit header ebpfRingbufLockBit 31 (by decide)

theorem ringHeaderDiscarded_eq_testBit (header : UInt32) : ringHeaderDiscarded header = header.toNat.testBit 30 :=
  and_ne_zero_eq_testBit header ebpfRingbufDiscardBit 30 (by decide)

/-- The fields of `ebpf_ring_buffer_t` and its pages that the ring's code reads and writes:
the capacity, the consumer, producer and producer-reserve offsets, and the header word at
each position of the data buffer. -/
structure EbpfRingBuffer where
  length : Nat
  consumerOffset : Nat
  producerOffset : Nat
  producerReserveOffset : Nat
  header : Nat → UInt32

namespace EbpfRingBuffer

variable (ring : EbpfRingBuffer)

/-- The header of the record at `offset` (`_ring_record_at_offset`, then the header read). -/
def recordHeader (offset : Nat) : UInt32 :=
  ring.header (offset % ring.length)

/-- `_ring_record_size(_ring_header_length(header))` of the record at `offset`. -/
def recordSizeAt (offset : Nat) : Nat :=
  ringRecordSize (ringHeaderLength (ring.recordHeader offset)).toNat

theorem recordSizeAt_pos (offset : Nat) : 0 < ring.recordSizeAt offset :=
  Nat.lt_of_lt_of_le (by decide) (eight_le_ringRecordSize _)

/-- The loop of `ebpf_ring_buffer_return_buffer` from `localConsumerOffset` towards
`consumerOffset`, over whole records: where it stops, or the error at a locked record. -/
def returnBufferWalk (consumerOffset localConsumerOffset : Nat) : Except EbpfResult Nat :=
  if localConsumerOffset < consumerOffset then
    if ringHeaderLocked (ring.recordHeader localConsumerOffset) then .error .invalidArgument
    else returnBufferWalk consumerOffset (localConsumerOffset + ring.recordSizeAt localConsumerOffset)
  else .ok localConsumerOffset
termination_by consumerOffset - localConsumerOffset
decreasing_by
  have := ring.recordSizeAt_pos localConsumerOffset
  omega

/-- `ebpf_ring_buffer_return_buffer`: the consumer gives back the space up to
`consumerOffset`. -/
def ebpfRingBufferReturnBuffer (consumerOffset : Nat) : EbpfResult × EbpfRingBuffer :=
  let localConsumerOffset := ring.consumerOffset
  let producerOffset := ring.producerOffset
  if consumerOffset > producerOffset then (.invalidArgument, ring)
  else
    match ring.returnBufferWalk consumerOffset localConsumerOffset with
    | .error result => (result, ring)
    | .ok localConsumerOffset =>
      if localConsumerOffset ≠ consumerOffset then (.invalidArgument, ring)
      else (.success, { ring with consumerOffset })

/-- `offset` is reached from `start` by stepping over whole records, none of them locked:
a record boundary up to which every record may be given back. -/
inductive ReturnableTo (offset : Nat) : Nat → Prop where
  | here : ReturnableTo offset offset
  | step {start : Nat} : start < offset → ringHeaderLocked (ring.recordHeader start) = false →
      ReturnableTo offset (start + ring.recordSizeAt start) → ReturnableTo offset start

variable {ring}

theorem ReturnableTo.le {offset start : Nat} (returnable : ring.ReturnableTo offset start) : start ≤ offset := by
  induction returnable with
  | here => exact Nat.le_refl _
  | step below _ _ _ => exact Nat.le_of_lt below

theorem returnBufferWalk_of_le {consumerOffset localConsumerOffset : Nat} (reached : consumerOffset ≤ localConsumerOffset) :
    ring.returnBufferWalk consumerOffset localConsumerOffset = .ok localConsumerOffset := by
  rw [returnBufferWalk, if_neg (by omega)]

theorem returnBufferWalk_of_unlocked {consumerOffset localConsumerOffset : Nat} (below : localConsumerOffset < consumerOffset)
    (unlocked : ringHeaderLocked (ring.recordHeader localConsumerOffset) = false) :
    ring.returnBufferWalk consumerOffset localConsumerOffset =
      ring.returnBufferWalk consumerOffset (localConsumerOffset + ring.recordSizeAt localConsumerOffset) := by
  rw [returnBufferWalk, if_pos below, unlocked, if_neg Bool.false_ne_true]

theorem returnBufferWalk_error {consumerOffset localConsumerOffset : Nat} {result : EbpfResult}
    (walked : ring.returnBufferWalk consumerOffset localConsumerOffset = .error result) : result = .invalidArgument := by
  fun_induction ring.returnBufferWalk consumerOffset localConsumerOffset with
  | case1 => cases walked; rfl
  | case2 _ _ _ ih => exact ih walked
  | case3 => cases walked

theorem returnBufferWalk_eq_ok_iff {consumerOffset start : Nat} :
    ring.returnBufferWalk consumerOffset start = .ok consumerOffset ↔ ring.ReturnableTo consumerOffset start := by
  constructor
  · intro walked
    fun_induction ring.returnBufferWalk consumerOffset start with
    | case1 => cases walked
    | case2 localConsumerOffset below unlocked ih =>
      exact .step below (by simpa using unlocked) (ih walked)
    | case3 localConsumerOffset reached =>
      cases walked
      exact .here
  · intro returnable
    induction returnable with
    | here => exact returnBufferWalk_of_le (Nat.le_refl _)
    | step below unlocked _ ih => rw [returnBufferWalk_of_unlocked below unlocked]; exact ih

end EbpfRingBuffer

open EbpfRingBuffer in
/-- `ebpf_ring_buffer_return_buffer` gives the space back exactly when the offset lies between
the consumer and producer offsets and is reached from the consumer offset over whole unlocked
records; it then moves the consumer offset there, and otherwise fails with
`EBPF_INVALID_ARGUMENT` and changes nothing. -/
theorem ebpf_ring_buffer_return_buffer_validates (ring : EbpfRingBuffer) (offset : Nat) :
    (ring.ebpfRingBufferReturnBuffer offset = (.success, { ring with consumerOffset := offset }) ∧
        ring.consumerOffset ≤ offset ∧ offset ≤ ring.producerOffset ∧ ring.ReturnableTo offset ring.consumerOffset) ∨
      (ring.ebpfRingBufferReturnBuffer offset = (.invalidArgument, ring) ∧
        ¬ (ring.consumerOffset ≤ offset ∧ offset ≤ ring.producerOffset ∧ ring.ReturnableTo offset ring.consumerOffset)) := by
  unfold ebpfRingBufferReturnBuffer
  by_cases beyond : offset > ring.producerOffset
  · exact .inr ⟨by simp [beyond], fun ⟨_, within, _⟩ => by omega⟩
  · rw [if_neg beyond]
    cases walked : ring.returnBufferWalk offset ring.consumerOffset with
    | error result =>
      rw [returnBufferWalk_error walked]
      refine .inr ⟨rfl, fun ⟨_, _, returnable⟩ => ?_⟩
      rw [returnBufferWalk_eq_ok_iff.mpr returnable] at walked
      cases walked
    | ok stopped =>
      by_cases landed : stopped = offset
      · subst landed
        have returnable := returnBufferWalk_eq_ok_iff.mp walked
        exact .inl ⟨by simp, returnable.le, by omega, returnable⟩
      · -- the walk stepped over the offset, which is inside a record
        refine .inr ⟨by simp [landed], fun ⟨_, _, returnable⟩ => landed ?_⟩
        rw [returnBufferWalk_eq_ok_iff.mpr returnable] at walked
        exact (Except.ok.inj walked).symm

end EbpfWindows.Runtime
