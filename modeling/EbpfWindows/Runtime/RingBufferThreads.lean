import EbpfWindows.Runtime.RingBuffer
import EbpfWindows.Lib.Bits
import EbpfWindows.Lib.Blocks

/-! The ring buffer under concurrent producers and its consumer.

Any number of producers run `ebpf_ring_buffer_reserve`, then `ebpf_ring_buffer_submit` or
`ebpf_ring_buffer_discard` (`ebpf_ring_buffer_output` is a reserve and a submit); one
consumer runs `_ring_next_consumer_record` and `ebpf_ring_buffer_return_buffer`. Each
thread is a program counter over its code, and one step of a thread is one access to the
shared pages: a read of an offset, the compare-exchange of the reserve offset, the write of
a header or of an offset, or one turn of a consumer loop.

The state also keeps two logs that no code reads: every successful reservation, in the
order the compare-exchanges succeeded, with what became of it; and every record handed to
the consumer.
-/

set_option autoImplicit false

namespace EbpfWindows.Runtime

/-- Where a producer stands. -/
inductive RingProducer where
  | idle
  /-- In `ebpf_ring_buffer_reserve`, the consumer offset read; the first space check is next. -/
  | entry (length consumerOffset : Nat)
  /-- At the top of the `for (;;)` loop. -/
  | loopTop (length consumerOffset : Nat)
  /-- The space checked from `reserveOffset`; the compare-exchange is next. -/
  | exchange (length consumerOffset reserveOffset : Nat)
  /-- The record at `reserveOffset` is reserved; its locked header is written next. -/
  | writeHeader (length reserveOffset : Nat)
  /-- The header is written; the producer spins until the producer offset reaches its record. -/
  | publish (length reserveOffset : Nat)
  /-- `ebpf_ring_buffer_reserve` has returned the record, to be submitted or discarded. -/
  | holding (length reserveOffset : Nat)
  deriving DecidableEq, Repr

/-- Where the consumer stands. -/
inductive RingConsumer where
  | idle
  /-- `_ring_next_consumer_record`'s loop, with the producer offset it read. -/
  | nextRecord (producerOffset : Nat)
  /-- A record was returned; the consumer reads it and gives back the space up to `nextOffset`. -/
  | reading (nextOffset : Nat)
  /-- `ebpf_ring_buffer_return_buffer`'s walk from `localConsumerOffset` to `consumerOffset`. -/
  | returnBuffer (consumerOffset localConsumerOffset : Nat)
  deriving DecidableEq, Repr

/-- What became of a reserved record. -/
inductive RecordState where
  | locked
  | submitted
  | discarded
  deriving DecidableEq, Repr

/-- A successful reservation: where, how many bytes were asked for, by which producer, and
what became of the record. -/
structure Reservation where
  offset : Nat
  length : Nat
  producer : Nat
  state : RecordState
  deriving DecidableEq, Repr

/-- The reservation, after the record at `offset` is unlocked into `next`. -/
def Reservation.unlockAt (offset : Nat) (next : RecordState) (reservation : Reservation) : Reservation :=
  if reservation.offset = offset then { reservation with state := next } else reservation

namespace Reservation

variable {offset : Nat} {next : RecordState} {reservation : Reservation}

@[simp] theorem unlockAt_offset : (reservation.unlockAt offset next).offset = reservation.offset := by
  unfold unlockAt; split <;> rfl

@[simp] theorem unlockAt_length : (reservation.unlockAt offset next).length = reservation.length := by
  unfold unlockAt; split <;> rfl

@[simp] theorem unlockAt_producer : (reservation.unlockAt offset next).producer = reservation.producer := by
  unfold unlockAt; split <;> rfl

theorem unlockAt_self (same : reservation.offset = offset) :
    reservation.unlockAt offset next = { reservation with state := next } := by
  rw [unlockAt, if_pos same]

theorem unlockAt_of_ne (other : reservation.offset ≠ offset) : reservation.unlockAt offset next = reservation := by
  rw [unlockAt, if_neg other]

theorem unlockAt_state_ne_locked (unlocking : next ≠ .locked) (unlocked : reservation.state ≠ .locked) :
    (reservation.unlockAt offset next).state ≠ .locked := by
  unfold unlockAt
  split
  · exact unlocking
  · exact unlocked

end Reservation

/-- The shared ring, every thread's program counter, and the two logs. -/
structure RingState where
  ring : EbpfRingBuffer
  producers : Nat → RingProducer
  consumer : RingConsumer
  reservations : List Reservation
  /-- Each record handed to the consumer: its offset and the length in its header. -/
  delivered : List (Nat × Nat)

/-- One thing a thread does next. -/
inductive RingAction where
  /-- The producer calls `ebpf_ring_buffer_reserve`. -/
  | reserve (producer length : Nat)
  /-- The producer's next step inside `ebpf_ring_buffer_reserve`. -/
  | advance (producer : Nat)
  | submit (producer : Nat)
  | discard (producer : Nat)
  /-- The consumer calls `_ring_next_consumer_record`. -/
  | nextRecord
  /-- The consumer calls `ebpf_ring_buffer_return_buffer`. -/
  | returnBuffer (consumerOffset : Nat)
  /-- The consumer's next step inside its call. -/
  | advanceConsumer
  deriving DecidableEq, Repr

namespace EbpfRingBuffer

/-- A write of the header word of the record at `offset`. -/
def writeHeader (ring : EbpfRingBuffer) (offset : Nat) (header : UInt32) : EbpfRingBuffer :=
  { ring with header := Function.update ring.header (offset % ring.length) header }

end EbpfRingBuffer

/-- `ebpf_ring_buffer_allocate_ring`, with `allocated` whether the ring's memory is given; the
new pages are zero. -/
def ebpfRingBufferAllocateRing (capacity : UInt64) (allocated : Bool) : Except EbpfResult EbpfRingBuffer :=
  if capacity &&& ~~~(capacity - 1) ≠ capacity then .error .invalidArgument
  else if !allocated then .error .noMemory
  else .ok ⟨capacity.toNat, 0, 0, 0, fun _ => 0⟩

namespace RingState

variable (state : RingState)

/-- No thread inside a call and nothing reserved. -/
def initial (ring : EbpfRingBuffer) : RingState :=
  ⟨ring, fun _ => .idle, .idle, [], []⟩

/-- The producer's program counter moved. -/
def setProducer (producer : Nat) (step : RingProducer) : RingState :=
  { state with producers := Function.update state.producers producer step }

@[simp] theorem setProducer_producers (producer : Nat) (step : RingProducer) :
    (state.setProducer producer step).producers = Function.update state.producers producer step := rfl

@[simp] theorem setProducer_ring (producer : Nat) (step : RingProducer) :
    (state.setProducer producer step).ring = state.ring := rfl

@[simp] theorem setProducer_consumer (producer : Nat) (step : RingProducer) :
    (state.setProducer producer step).consumer = state.consumer := rfl

@[simp] theorem setProducer_reservations (producer : Nat) (step : RingProducer) :
    (state.setProducer producer step).reservations = state.reservations := rfl

@[simp] theorem setProducer_delivered (producer : Nat) (step : RingProducer) :
    (state.setProducer producer step).delivered = state.delivered := rfl

/-- What the log says after the record at `offset` is unlocked. -/
def unlocked (offset : Nat) (next : RecordState) : List Reservation :=
  state.reservations.map (Reservation.unlockAt offset next)

/-- The producer calls `ebpf_ring_buffer_reserve`: its argument checks, then the read of the
consumer offset. -/
def reserveStart (producer length : Nat) : Option RingState :=
  match state.producers producer with
  | .idle =>
    if ringRecordSize length > state.ring.length ∨ length = 0 ∨ length > ebpfRingbufMaxRecordSize then
      some state
    else some (state.setProducer producer (.entry length state.ring.consumerOffset))
  | _ => none

/-- One step of the producer inside `ebpf_ring_buffer_reserve`. -/
def advanceProducer (producer : Nat) : Option RingState :=
  match state.producers producer with
  | .entry length consumerOffset =>
    if state.ring.producerReserveOffset + ringRecordSize length - consumerOffset > state.ring.length then
      some (state.setProducer producer .idle)
    else some (state.setProducer producer (.loopTop length consumerOffset))
  | .loopTop length consumerOffset =>
    if state.ring.producerReserveOffset + ringRecordSize length - consumerOffset > state.ring.length then
      some (state.setProducer producer .idle)
    else some (state.setProducer producer (.exchange length consumerOffset state.ring.producerReserveOffset))
  | .exchange length _ reserveOffset =>
    if state.ring.producerReserveOffset = reserveOffset then
      some { state.setProducer producer (.writeHeader length reserveOffset) with
        ring := { state.ring with producerReserveOffset := reserveOffset + ringRecordSize length }
        reservations := state.reservations ++ [⟨reserveOffset, length, producer, .locked⟩] }
    else
      -- the exchange failed: the consumer offset is read again and the loop goes round
      some (state.setProducer producer (.loopTop length state.ring.consumerOffset))
  | .writeHeader length reserveOffset =>
    some { state.setProducer producer (.publish length reserveOffset) with
      ring := state.ring.writeHeader reserveOffset (length.toUInt32 ||| ebpfRingbufLockBit) }
  | .publish length reserveOffset =>
    -- the spin's last read of the producer offset and its write-release are one step: no
    -- other producer moves the producer offset while it is at this record
    if state.ring.producerOffset = reserveOffset then
      some { state.setProducer producer (.holding length reserveOffset) with
        ring := { state.ring with producerOffset := reserveOffset + ringRecordSize length } }
    else none
  | .idle | .holding _ _ => none

/-- `ebpf_ring_buffer_submit` of the producer's record: the lock bit and the discard bit are
cleared. -/
def submitRecord (producer : Nat) : Option RingState :=
  match state.producers producer with
  | .holding _ reserveOffset =>
    let header := state.ring.recordHeader reserveOffset
    some { state.setProducer producer .idle with
      ring := state.ring.writeHeader reserveOffset (ringHeaderLength header)
      reservations := state.unlocked reserveOffset .submitted }
  | _ => none

/-- `ebpf_ring_buffer_discard` of the producer's record: the lock bit is cleared and the
discard bit set. -/
def discardRecord (producer : Nat) : Option RingState :=
  match state.producers producer with
  | .holding _ reserveOffset =>
    let header := state.ring.recordHeader reserveOffset
    some { state.setProducer producer .idle with
      ring := state.ring.writeHeader reserveOffset ((header &&& ~~~ebpfRingbufLockBit) ||| ebpfRingbufDiscardBit)
      reservations := state.unlocked reserveOffset .discarded }
  | _ => none

/-- The consumer calls `_ring_next_consumer_record`, which reads the producer offset. -/
def startNextRecord : Option RingState :=
  match state.consumer with
  | .idle | .reading _ => some { state with consumer := .nextRecord state.ring.producerOffset }
  | _ => none

/-- The consumer calls `ebpf_ring_buffer_return_buffer`, which reads both offsets. -/
def startReturnBuffer (consumerOffset : Nat) : Option RingState :=
  match state.consumer with
  | .idle | .reading _ =>
    if consumerOffset > state.ring.producerOffset then some { state with consumer := .idle }
    else some { state with consumer := .returnBuffer consumerOffset state.ring.consumerOffset }
  | _ => none

/-- One turn of the consumer's loop, or the end of its call. -/
def advanceConsumer : Option RingState :=
  match state.consumer with
  | .nextRecord producerOffset =>
    if producerOffset > state.ring.consumerOffset then
      let recordHeader := state.ring.recordHeader state.ring.consumerOffset
      if ringHeaderLocked recordHeader then some { state with consumer := .idle }
      else if !ringHeaderDiscarded recordHeader then
        some { state with
          consumer := .reading (state.ring.consumerOffset + state.ring.recordSizeAt state.ring.consumerOffset)
          delivered := state.delivered ++ [(state.ring.consumerOffset, (ringHeaderLength recordHeader).toNat)] }
      else
        -- a discarded record: its space goes back to the ring at once
        some { state with ring := { state.ring with
          consumerOffset := state.ring.consumerOffset + state.ring.recordSizeAt state.ring.consumerOffset } }
    else some { state with consumer := .idle }
  | .returnBuffer consumerOffset localConsumerOffset =>
    if localConsumerOffset < consumerOffset then
      if ringHeaderLocked (state.ring.recordHeader localConsumerOffset) then some { state with consumer := .idle }
      else
        let next := localConsumerOffset + state.ring.recordSizeAt localConsumerOffset
        some { state with consumer := .returnBuffer consumerOffset next }
    else if localConsumerOffset ≠ consumerOffset then some { state with consumer := .idle }
    else some { state with ring := { state.ring with consumerOffset }, consumer := .idle }
  | .idle | .reading _ => none

/-- What only the consumer changes: where it stands, what it was handed, and the consumer offset. -/
def consumerSide : RingConsumer × List (Nat × Nat) × Nat :=
  (state.consumer, state.delivered, state.ring.consumerOffset)

section ProducerFrame

variable {state} {next : RingState} {producer : Nat}

theorem reserveStart_consumerSide {length : Nat} (stepped : state.reserveStart producer length = some next) :
    next.consumerSide = state.consumerSide := by
  unfold reserveStart at stepped
  split at stepped
  · split at stepped <;> cases stepped <;> rfl
  · cases stepped

theorem advanceProducer_consumerSide (stepped : state.advanceProducer producer = some next) :
    next.consumerSide = state.consumerSide := by
  unfold advanceProducer at stepped
  split at stepped <;> (try split at stepped) <;> cases stepped <;> rfl

theorem submitRecord_consumerSide (stepped : state.submitRecord producer = some next) :
    next.consumerSide = state.consumerSide := by
  unfold submitRecord at stepped
  split at stepped <;> cases stepped
  rfl

theorem discardRecord_consumerSide (stepped : state.discardRecord producer = some next) :
    next.consumerSide = state.consumerSide := by
  unfold discardRecord at stepped
  split at stepped <;> cases stepped
  rfl

end ProducerFrame

/-- One action, or `none` when the thread cannot take it now. -/
def step : RingAction → Option RingState
  | .reserve producer length => state.reserveStart producer length
  | .advance producer => state.advanceProducer producer
  | .submit producer => state.submitRecord producer
  | .discard producer => state.discardRecord producer
  | .nextRecord => state.startNextRecord
  | .returnBuffer consumerOffset => state.startReturnBuffer consumerOffset
  | .advanceConsumer => state.advanceConsumer

end RingState

/-- A run: the actions in the order the threads take them; an action a thread cannot take
now lets its turn pass. -/
def ringRun : List RingAction → RingState → RingState
  | [], state => state
  | action :: actions, state => ringRun actions ((state.step action).getD state)

theorem ringRun_append (actions more : List RingAction) (state : RingState) :
    ringRun (actions ++ more) state = ringRun more (ringRun actions state) := by
  induction actions generalizing state with
  | nil => rfl
  | cons action actions ih => exact ih _

end EbpfWindows.Runtime
