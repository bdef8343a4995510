import EbpfWindows.Runtime.RingBufferThreads

/-! How the log of reservations lies over the ring in every reachable state.

The log splits in three stretches, each laid end to end: the records the consumer has
passed, from offset 0 to the consumer offset; the records published to it, up to the
producer offset; and the records reserved beyond, up to the reserve offset. A published
record carries the header of its state, and while it is locked its producer holds it; a
record beyond the producer offset is locked and its producer is still writing its header
or waiting to publish it. The layout is kept by every step of every thread
(`RingLayout.step`), and the tiling of the ring between the consumer and producer offsets
follows from it.
-/

set_option autoImplicit false

namespace EbpfWindows.Runtime

/-- The header a record of `length` bytes carries in each state: `length | LOCK_BIT` as
`ebpf_ring_buffer_reserve` writes it, `length` once submitted, `length | DISCARD_BIT` once
discarded. -/
def recordHeaderOf (length : Nat) : RecordState → UInt32
  | .locked => length.toUInt32 ||| ebpfRingbufLockBit
  | .submitted => length.toUInt32
  | .discarded => length.toUInt32 ||| ebpfRingbufDiscardBit

/-- The bytes a reservation takes in the ring. -/
def Reservation.size (reservation : Reservation) : Nat :=
  ringRecordSize reservation.length

theorem Reservation.size_pos (reservation : Reservation) : 0 < reservation.size :=
  Nat.lt_of_lt_of_le (by decide) (eight_le_ringRecordSize _)

@[simp] theorem Reservation.unlockAt_size {offset : Nat} {next : RecordState} (reservation : Reservation) :
    (reservation.unlockAt offset next).size = reservation.size := by
  simp [Reservation.size]

/-- Reservations end to end from `start` to `stop`. -/
abbrev ReservedRun (start : Nat) (reservations : List Reservation) (stop : Nat) : Prop :=
  Blocks.Consecutive Reservation.offset Reservation.size start reservations stop

/-- A length `ebpf_ring_buffer_reserve` accepts for a ring of `capacity` bytes. -/
def ValidLength (capacity length : Nat) : Prop :=
  0 < length ∧ length ≤ ebpfRingbufMaxRecordSize ∧ ringRecordSize length ≤ capacity

section Headers

variable {length : Nat} (small : length ≤ ebpfRingbufMaxRecordSize)
include small

theorem toNat_recordHeaderOf (state : RecordState) :
    (recordHeaderOf length state).toNat =
      match state with
      | .locked => length ||| 2 ^ 31
      | .submitted => length
      | .discarded => length ||| 2 ^ 30 := by
  have fits := Bits.toNat_toUInt32_of_lt (show length < 2 ^ 32 by unfold ebpfRingbufMaxRecordSize at small; omega)
  cases state <;> simp only [recordHeaderOf, UInt32.toNat_or, fits] <;> rfl

theorem ringHeaderLength_recordHeaderOf (state : RecordState) :
    (ringHeaderLength (recordHeaderOf length state)).toNat = length := by
  have below : length < 2 ^ 30 := by unfold ebpfRingbufMaxRecordSize at small; omega
  rw [toNat_ringHeaderLength, toNat_recordHeaderOf small]
  cases state
  · exact Bits.or_two_pow_mod_two_pow below (by decide)
  · exact Nat.mod_eq_of_lt below
  · exact Bits.or_two_pow_mod_two_pow below (by decide)

theorem ringHeaderLocked_recordHeaderOf (state : RecordState) :
    ringHeaderLocked (recordHeaderOf length state) = decide (state = .locked) := by
  have below : length < 2 ^ 30 := by unfold ebpfRingbufMaxRecordSize at small; omega
  have clear : length.testBit 31 = false := Nat.testBit_lt_two_pow (by omega)
  rw [ringHeaderLocked_eq_testBit, toNat_recordHeaderOf small]
  cases state <;> simp only [Nat.testBit_or, clear, Bool.false_or] <;> decide

theorem ringHeaderDiscarded_recordHeaderOf (state : RecordState) :
    ringHeaderDiscarded (recordHeaderOf length state) = decide (state = .discarded) := by
  have below : length < 2 ^ 30 := by unfold ebpfRingbufMaxRecordSize at small; omega
  have clear : length.testBit 30 = false := Nat.testBit_lt_two_pow below
  rw [ringHeaderDiscarded_eq_testBit, toNat_recordHeaderOf small]
  cases state <;> simp only [Nat.testBit_or, clear, Bool.false_or] <;> decide

theorem submit_recordHeaderOf : ringHeaderLength (recordHeaderOf length .locked) = recordHeaderOf length .submitted := by
  apply UInt32.toNat_inj.mp
  rw [ringHeaderLength_recordHeaderOf small, toNat_recordHeaderOf small]

theorem discard_recordHeaderOf :
    (recordHeaderOf length .locked &&& ~~~ebpfRingbufLockBit) ||| ebpfRingbufDiscardBit =
      recordHeaderOf length .discarded := by
  have below : length < 2 ^ 31 := by unfold ebpfRingbufMaxRecordSize at small; omega
  have unlock : (~~~ebpfRingbufLockBit).toNat = 2 ^ 31 - 1 := by decide
  have discard : ebpfRingbufDiscardBit.toNat = 2 ^ 30 := by decide
  apply UInt32.toNat_inj.mp
  rw [UInt32.toNat_or, UInt32.toNat_and, toNat_recordHeaderOf small, toNat_recordHeaderOf small, unlock, discard,
    Nat.and_two_pow_sub_one_eq_mod, Bits.or_two_pow_mod_two_pow below (Nat.le_refl _)]

end Headers

namespace EbpfRingBuffer

variable {ring : EbpfRingBuffer}

theorem recordHeader_writeHeader_self (offset : Nat) (header : UInt32) :
    (ring.writeHeader offset header).recordHeader offset = header := by
  simp [writeHeader, recordHeader]

theorem mod_length_ne {base first second : Nat} (low : base ≤ first) (apart : first < second)
    (high : second < base + ring.length) : first % ring.length ≠ second % ring.length := by
  intro same
  have divides : ring.length ∣ second - first := Nat.dvd_of_mod_eq_zero (Nat.sub_mod_eq_zero_of_mod_eq same.symm)
  have := Nat.le_of_dvd (by omega) divides
  omega

theorem recordHeader_writeHeader_of_ne {base written other : Nat} (header : UInt32) (different : other ≠ written)
    (writtenLow : base ≤ written) (writtenHigh : written < base + ring.length)
    (otherLow : base ≤ other) (otherHigh : other < base + ring.length) :
    (ring.writeHeader written header).recordHeader other = ring.recordHeader other := by
  have apart : other % ring.length ≠ written % ring.length := by
    rcases Nat.lt_or_gt_of_ne different with below | above
    · exact mod_length_ne otherLow below writtenHigh
    · exact (mod_length_ne writtenLow above otherHigh).symm
  simp [writeHeader, recordHeader, Function.update_of_ne apart]

theorem recordSizeAt_of_recordHeader {offset length : Nat} {state : RecordState}
    (small : length ≤ ebpfRingbufMaxRecordSize) (header : ring.recordHeader offset = recordHeaderOf length state) :
    ring.recordSizeAt offset = ringRecordSize length := by
  rw [recordSizeAt, header, ringHeaderLength_recordHeaderOf small]

variable (ring) in
/-- From `start` to `stop` the ring holds whole records end to end as the consumer reads them:
each header's length, without its flag bits, is between 1 and `EBPF_RINGBUF_MAX_RECORD_SIZE`, the
record takes `_ring_record_size` of it (at least 16 bytes, a multiple of 8), and the next record
starts where it ends. -/
inductive Tiled (stop : Nat) : Nat → Prop where
  | here : Tiled stop stop
  | record {start : Nat} :
      1 ≤ (ringHeaderLength (ring.recordHeader start)).toNat →
      (ringHeaderLength (ring.recordHeader start)).toNat ≤ ebpfRingbufMaxRecordSize →
      16 ≤ ring.recordSizeAt start → ring.recordSizeAt start % 8 = 0 →
      Tiled stop (start + ring.recordSizeAt start) → Tiled stop start

theorem tiled_of_run {start stop : Nat} {records : List Reservation} (run : ReservedRun start records stop)
    (headers : ∀ record ∈ records, ring.recordHeader record.offset = recordHeaderOf record.length record.state)
    (valid : ∀ record ∈ records, 0 < record.length ∧ record.length ≤ ebpfRingbufMaxRecordSize) :
    ring.Tiled stop start := by
  induction run with
  | nil => exact .here
  | @cons start stop record rest placed _ ih =>
    obtain ⟨nonempty, small⟩ := valid record List.mem_cons_self
    have header := headers record List.mem_cons_self
    rw [placed] at header
    have length : (ringHeaderLength (ring.recordHeader start)).toNat = record.length := by
      rw [header, ringHeaderLength_recordHeaderOf small]
    have size := recordSizeAt_of_recordHeader small header
    refine .record (by omega) (by rw [length]; exact small) ?_ ?_ ?_
    · rw [size]
      exact sixteen_le_ringRecordSize nonempty
    · rw [size]
      exact ringRecordSize_mod_eight _
    · rw [size]
      exact ih (fun record member => headers record (List.mem_cons_of_mem _ member))
        (fun record member => valid record (List.mem_cons_of_mem _ member))

end EbpfRingBuffer

namespace RingProducer

/-- The record a producer has reserved, as its length and offset, once its compare-exchange
succeeded. -/
def reservation : RingProducer → Option (Nat × Nat)
  | .writeHeader length reserveOffset | .publish length reserveOffset | .holding length reserveOffset =>
    some (length, reserveOffset)
  | _ => none

/-- What a producer inside `ebpf_ring_buffer_reserve` has read before its compare-exchange
succeeds: the length, the consumer offset, and (before the exchange) the reserve offset it
checked the space from. -/
def snapshot : RingProducer → Option (Nat × Nat × Option Nat)
  | .entry length consumerOffset | .loopTop length consumerOffset => some (length, consumerOffset, none)
  | .exchange length consumerOffset reserveOffset => some (length, consumerOffset, some reserveOffset)
  | _ => none

end RingProducer

/-- What a producer's snapshot must satisfy: its length passed the checks, its consumer offset
is not ahead of the ring's, and the reserve offset it checked leaves room. -/
def SnapshotFits (ring : EbpfRingBuffer) : Nat × Nat × Option Nat → Prop
  | (length, consumerOffset, checked) =>
    ValidLength ring.length length ∧ consumerOffset ≤ ring.consumerOffset ∧
      ∀ reserveOffset, checked = some reserveOffset → reserveOffset + ringRecordSize length ≤ consumerOffset + ring.length

theorem SnapshotFits.mono {ring next : EbpfRingBuffer} {snapshot : Nat × Nat × Option Nat}
    (fits : SnapshotFits ring snapshot) (sameLength : next.length = ring.length)
    (behind : ring.consumerOffset ≤ next.consumerOffset) : SnapshotFits next snapshot := by
  obtain ⟨length, consumerOffset, checked⟩ := snapshot
  obtain ⟨valid, read, roomy⟩ := fits
  refine ⟨by rw [sameLength]; exact valid, Nat.le_trans read behind, fun reserveOffset checkedAt => ?_⟩
  rw [sameLength]
  exact roomy reserveOffset checkedAt

/-- What the consumer's program counter says of the published records: a return walk has
passed only unlocked whole records from the consumer offset, towards an offset not beyond
the producer's. -/
def ConsumerAt (state : RingState) (published : List Reservation) : Prop :=
  match state.consumer with
  | .idle | .reading _ => True
  | .nextRecord producerOffset => producerOffset ≤ state.ring.producerOffset
  | .returnBuffer consumerOffset localConsumerOffset =>
    consumerOffset ≤ state.ring.producerOffset ∧ ∃ walked rest, published = walked ++ rest ∧
      ReservedRun state.ring.consumerOffset walked localConsumerOffset ∧ ∀ reservation ∈ walked, reservation.state ≠ .locked

theorem ConsumerAt.publish {state next : RingState} {published : List Reservation} (extra : List Reservation)
    (sameConsumer : next.consumer = state.consumer) (sameOffset : next.ring.consumerOffset = state.ring.consumerOffset)
    (grown : state.ring.producerOffset ≤ next.ring.producerOffset) (consumerAt : ConsumerAt state published) :
    ConsumerAt next (published ++ extra) := by
  unfold ConsumerAt at consumerAt ⊢
  rw [sameConsumer, sameOffset]
  split at consumerAt
  · trivial
  · trivial
  · exact Nat.le_trans consumerAt grown
  · obtain ⟨below, walked, rest, split, run, unlocked⟩ := consumerAt
    exact ⟨Nat.le_trans below grown, walked, rest ++ extra, by rw [split, List.append_assoc], run, unlocked⟩

theorem ConsumerAt.unlock {state next : RingState} {published : List Reservation} {offset : Nat}
    {unlockedState : RecordState} (notLocked : unlockedState ≠ .locked) (sameConsumer : next.consumer = state.consumer)
    (sameRing : next.ring.consumerOffset = state.ring.consumerOffset ∧ next.ring.producerOffset = state.ring.producerOffset)
    (consumerAt : ConsumerAt state published) :
    ConsumerAt next (published.map (Reservation.unlockAt offset unlockedState)) := by
  unfold ConsumerAt at consumerAt ⊢
  rw [sameConsumer, sameRing.1, sameRing.2]
  split at consumerAt
  · trivial
  · trivial
  · exact consumerAt
  · obtain ⟨below, walked, rest, split, run, unlocked⟩ := consumerAt
    refine ⟨below, walked.map (Reservation.unlockAt offset unlockedState), rest.map (Reservation.unlockAt offset unlockedState),
      by rw [split, List.map_append], run.map _ (fun _ => Reservation.unlockAt_offset) Reservation.unlockAt_size, ?_⟩
    intro reservation member
    obtain ⟨before, walkedBefore, rfl⟩ := List.mem_map.mp member
    exact Reservation.unlockAt_state_ne_locked notLocked (unlocked before walkedBefore)

/-- How the log lies over the ring, with `passed`, `published` and `inFlight` its three
stretches. -/
structure RingLayout (state : RingState) (passed published inFlight : List Reservation) : Prop where
  log : state.reservations = passed ++ published ++ inFlight
  passedRun : ReservedRun 0 passed state.ring.consumerOffset
  publishedRun : ReservedRun state.ring.consumerOffset published state.ring.producerOffset
  inFlightRun : ReservedRun state.ring.producerOffset inFlight state.ring.producerReserveOffset
  room : state.ring.producerReserveOffset ≤ state.ring.consumerOffset + state.ring.length
  valid : ∀ reservation ∈ state.reservations, ValidLength state.ring.length reservation.length
  passedUnlocked : ∀ reservation ∈ passed, reservation.state ≠ .locked
  headers : ∀ reservation ∈ published,
    state.ring.recordHeader reservation.offset = recordHeaderOf reservation.length reservation.state
  held : ∀ reservation ∈ published, reservation.state = .locked →
    state.producers reservation.producer = .holding reservation.length reservation.offset
  reserving : ∀ reservation ∈ inFlight, reservation.state = .locked ∧
    (state.producers reservation.producer = .writeHeader reservation.length reservation.offset ∨
      (state.producers reservation.producer = .publish reservation.length reservation.offset ∧
        state.ring.recordHeader reservation.offset = recordHeaderOf reservation.length .locked))
  claimed : ∀ producer length offset, (state.producers producer).reservation = some (length, offset) →
    ⟨offset, length, producer, .locked⟩ ∈ state.reservations
  snapshots : ∀ producer snapshot, (state.producers producer).snapshot = some snapshot →
    SnapshotFits state.ring snapshot
  consumerAt : ConsumerAt state published

/-- The invariant of every reachable state: the log lies over the ring in some three stretches. -/
def RingInvariant (state : RingState) : Prop :=
  ∃ passed published inFlight, RingLayout state passed published inFlight


/-- A producer's step keeps what the consumer reads: the passed records, and an unlocked record
at the head of the published ones. -/
def KeepsConsumerView (passed published passed' published' : List Reservation) : Prop :=
  passed' = passed ∧ ∀ first rest, published = first :: rest → first.state ≠ .locked →
    ∃ later, published' = first :: later

theorem KeepsConsumerView.refl (passed published : List Reservation) :
    KeepsConsumerView passed published passed published :=
  ⟨rfl, fun _ rest split _ => ⟨rest, split⟩⟩

theorem KeepsConsumerView.append (passed published extra : List Reservation) :
    KeepsConsumerView passed published passed (published ++ extra) :=
  ⟨rfl, fun _ rest split _ => ⟨rest ++ extra, by rw [split]; rfl⟩⟩

namespace RingLayout

variable {state : RingState} {passed published inFlight : List Reservation}
  (layout : RingLayout state passed published inFlight)
include layout

theorem wholeRun : ReservedRun 0 state.reservations state.ring.producerReserveOffset := by
  rw [layout.log]
  exact (layout.passedRun.append layout.publishedRun).append layout.inFlightRun

theorem consumer_le_producer : state.ring.consumerOffset ≤ state.ring.producerOffset :=
  layout.publishedRun.le

theorem producer_le_reserve : state.ring.producerOffset ≤ state.ring.producerReserveOffset :=
  layout.inFlightRun.le

theorem published_bounds {reservation : Reservation} (member : reservation ∈ published) :
    state.ring.consumerOffset ≤ reservation.offset ∧ reservation.offset + reservation.size ≤ state.ring.producerOffset :=
  layout.publishedRun.mem_bounds Reservation.size_pos member

theorem inFlight_bounds {reservation : Reservation} (member : reservation ∈ inFlight) :
    state.ring.producerOffset ≤ reservation.offset ∧
      reservation.offset + reservation.size ≤ state.ring.producerReserveOffset :=
  layout.inFlightRun.mem_bounds Reservation.size_pos member

theorem eq_of_offset_eq {first second : Reservation} (firstMember : first ∈ state.reservations)
    (secondMember : second ∈ state.reservations) (same : first.offset = second.offset) : first = second :=
  layout.wholeRun.eq_of_offset_eq Reservation.size_pos firstMember secondMember same

theorem mem_log_of_published {reservation : Reservation} (member : reservation ∈ published) :
    reservation ∈ state.reservations := by
  rw [layout.log]
  simp [member]

theorem mem_log_of_inFlight {reservation : Reservation} (member : reservation ∈ inFlight) :
    reservation ∈ state.reservations := by
  rw [layout.log]
  simp [member]

theorem mem_of_locked {reservation : Reservation} (member : reservation ∈ state.reservations)
    (locked : reservation.state = .locked) : reservation ∈ published ∨ reservation ∈ inFlight := by
  rw [layout.log] at member
  simp only [List.mem_append] at member
  rcases member with (early | published) | inFlight
  · exact absurd locked (layout.passedUnlocked _ early)
  · exact .inl published
  · exact .inr inFlight

theorem producer_ne_of_free {producer : Nat} (free : (state.producers producer).reservation = none)
    {reservation : Reservation} (member : reservation ∈ state.reservations) (locked : reservation.state = .locked) :
    reservation.producer ≠ producer := by
  rintro rfl
  rcases layout.mem_of_locked member locked with published | inFlight
  · rw [layout.held _ published locked] at free
    cases free
  · rcases (layout.reserving _ inFlight).2 with writing | ⟨publishing, _⟩
    · rw [writing] at free
      cases free
    · rw [publishing] at free
      cases free

theorem mem_published_of_holding {producer length offset : Nat}
    (holding : state.producers producer = .holding length offset) :
    (⟨offset, length, producer, .locked⟩ : Reservation) ∈ published := by
  have member := layout.claimed producer length offset (by rw [holding]; rfl)
  rcases layout.mem_of_locked member rfl with published | inFlight
  · exact published
  · rcases (layout.reserving _ inFlight).2 with writing | ⟨publishing, _⟩
    · rw [holding] at writing
      cases writing
    · rw [holding] at publishing
      cases publishing

theorem mem_inFlight_of_reserving {producer length offset : Nat}
    (reserving : state.producers producer = .writeHeader length offset ∨ state.producers producer = .publish length offset) :
    (⟨offset, length, producer, .locked⟩ : Reservation) ∈ inFlight := by
  have member := layout.claimed producer length offset (by rcases reserving with writing | publishing <;> simp [*, RingProducer.reservation])
  rcases layout.mem_of_locked member rfl with published | inFlight
  · have held := layout.held _ published rfl
    rcases reserving with writing | publishing
    · rw [writing] at held
      cases held
    · rw [publishing] at held
      cases held
  · exact inFlight

theorem recordHeader_writeHeader {written other : Nat} (header : UInt32) (different : other ≠ written)
    (writtenLow : state.ring.consumerOffset ≤ written) (writtenHigh : written < state.ring.producerReserveOffset)
    (otherLow : state.ring.consumerOffset ≤ other) (otherHigh : other < state.ring.producerReserveOffset) :
    (state.ring.writeHeader written header).recordHeader other = state.ring.recordHeader other := by
  have room := layout.room
  exact EbpfRingBuffer.recordHeader_writeHeader_of_ne header different writtenLow (by omega) otherLow (by omega)

theorem snapshots_update {next : RingState} {producer : Nat} {step : RingProducer}
    (producers : next.producers = Function.update state.producers producer step)
    (sameLength : next.ring.length = state.ring.length) (behind : state.ring.consumerOffset ≤ next.ring.consumerOffset)
    (fits : ∀ snapshot, step.snapshot = some snapshot → SnapshotFits next.ring snapshot) :
    ∀ owner snapshot, (next.producers owner).snapshot = some snapshot → SnapshotFits next.ring snapshot := by
  intro owner snapshot read
  rw [producers] at read
  by_cases same : owner = producer
  · subst same
    rw [Function.update_self] at read
    exact fits snapshot read
  · rw [Function.update_of_ne same] at read
    exact (layout.snapshots owner snapshot read).mono sameLength behind

theorem claimed_update {next : RingState} {producer : Nat} {step : RingProducer}
    (producers : next.producers = Function.update state.producers producer step)
    (own : ∀ length offset, step.reservation = some (length, offset) →
      (⟨offset, length, producer, .locked⟩ : Reservation) ∈ next.reservations)
    (kept : ∀ owner length offset, owner ≠ producer →
      (⟨offset, length, owner, .locked⟩ : Reservation) ∈ state.reservations →
      (⟨offset, length, owner, .locked⟩ : Reservation) ∈ next.reservations) :
    ∀ owner length offset, (next.producers owner).reservation = some (length, offset) →
      (⟨offset, length, owner, .locked⟩ : Reservation) ∈ next.reservations := by
  intro owner length offset claim
  rw [producers] at claim
  by_cases same : owner = producer
  · subst same
    rw [Function.update_self] at claim
    exact own length offset claim
  · rw [Function.update_of_ne same] at claim
    exact kept owner length offset same (layout.claimed owner length offset claim)

theorem setProducer {producer : Nat} {step : RingProducer} (free : (state.producers producer).reservation = none)
    (stillFree : step.reservation = none)
    (fits : ∀ snapshot, step.snapshot = some snapshot → SnapshotFits state.ring snapshot) :
    RingLayout (state.setProducer producer step) passed published inFlight := by
  have other : ∀ reservation ∈ state.reservations, reservation.state = .locked →
      (state.setProducer producer step).producers reservation.producer = state.producers reservation.producer :=
    fun reservation member locked => Function.update_of_ne (layout.producer_ne_of_free free member locked) _ _
  refine { layout with
    held := fun reservation member locked => ?_
    reserving := fun reservation member => ?_
    claimed := layout.claimed_update rfl (fun _ _ claim => by rw [stillFree] at claim; cases claim)
      fun _ _ _ _ logged => logged
    snapshots := layout.snapshots_update rfl rfl (Nat.le_refl _) fits }
  · rw [other _ (layout.mem_log_of_published member) locked]
    exact layout.held _ member locked
  · have reserving := layout.reserving _ member
    rw [other _ (layout.mem_log_of_inFlight member) reserving.1]
    exact reserving

theorem reserveStart {producer length : Nat} {next : RingState} (stepped : state.reserveStart producer length = some next) :
    RingLayout next passed published inFlight := by
  unfold RingState.reserveStart at stepped
  split at stepped
  case h_1 idle =>
    split at stepped
    case isTrue => cases stepped; exact layout
    case isFalse checks =>
      cases stepped
      simp only [not_or, gt_iff_lt, Nat.not_lt] at checks
      obtain ⟨roomy, nonzero, small⟩ := checks
      refine layout.setProducer (by rw [idle]; rfl) rfl fun snapshot read => ?_
      cases read
      exact ⟨⟨Nat.pos_of_ne_zero nonzero, small, roomy⟩, Nat.le_refl _, fun _ none => by cases none⟩
  case h_2 => cases stepped

theorem exchanged {producer length consumerOffset : Nat}
    (exchanging : state.producers producer = .exchange length consumerOffset state.ring.producerReserveOffset) :
    RingLayout { state.setProducer producer (.writeHeader length state.ring.producerReserveOffset) with
        ring := { state.ring with producerReserveOffset := state.ring.producerReserveOffset + ringRecordSize length }
        reservations := state.reservations ++ [⟨state.ring.producerReserveOffset, length, producer, .locked⟩] }
      passed published (inFlight ++ [⟨state.ring.producerReserveOffset, length, producer, .locked⟩]) := by
  obtain ⟨valid, behind, roomy⟩ := layout.snapshots producer _ (by rw [exchanging]; rfl)
  have fits := roomy _ rfl
  have free : (state.producers producer).reservation = none := by rw [exchanging]; rfl
  refine
    { log := ?log, passedRun := layout.passedRun, publishedRun := layout.publishedRun
      inFlightRun := layout.inFlightRun.snoc rfl, room := ?room, valid := ?valid
      passedUnlocked := layout.passedUnlocked, headers := layout.headers, held := ?held, reserving := ?reserving
      claimed := ?claimed, snapshots := ?snapshots, consumerAt := layout.consumerAt }
  case log => simp [layout.log]
  case room =>
    show state.ring.producerReserveOffset + ringRecordSize length ≤ state.ring.consumerOffset + state.ring.length
    omega
  case valid =>
    intro reservation member
    rcases List.mem_append.mp member with old | fresh
    · exact layout.valid reservation old
    · rw [List.mem_singleton.mp fresh]
      exact valid
  case held =>
    intro reservation member locked
    have other := layout.producer_ne_of_free free (layout.mem_log_of_published member) locked
    simp only [RingState.setProducer_producers, Function.update_of_ne other]
    exact layout.held reservation member locked
  case reserving =>
    intro reservation member
    rcases List.mem_append.mp member with old | fresh
    · have reserving := layout.reserving reservation old
      have other := layout.producer_ne_of_free free (layout.mem_log_of_inFlight old) reserving.1
      simp only [RingState.setProducer_producers, Function.update_of_ne other]
      exact reserving
    · rw [List.mem_singleton.mp fresh]
      exact ⟨rfl, .inl (Function.update_self _ _ _)⟩
  case claimed =>
    refine layout.claimed_update rfl (fun _ _ claim => ?_) fun _ _ _ _ logged => List.mem_append_left _ logged
    cases claim
    exact List.mem_append_right _ (List.mem_singleton_self _)
  case snapshots => exact layout.snapshots_update rfl rfl (Nat.le_refl _) fun _ read => nomatch read

theorem headerWritten {producer length offset : Nat} (writing : state.producers producer = .writeHeader length offset) :
    RingLayout { state.setProducer producer (.publish length offset) with
        ring := state.ring.writeHeader offset (length.toUInt32 ||| ebpfRingbufLockBit) } passed published inFlight := by
  have own := layout.mem_inFlight_of_reserving (.inl writing)
  have bounds : state.ring.producerOffset ≤ offset ∧ offset + ringRecordSize length ≤ state.ring.producerReserveOffset :=
    layout.inFlight_bounds own
  have ownSize : 0 < ringRecordSize length := Reservation.size_pos ⟨offset, length, producer, .locked⟩
  have room := layout.room
  have behind := layout.consumer_le_producer
  have kept : ∀ other, other ≠ offset → state.ring.consumerOffset ≤ other →
      other < state.ring.consumerOffset + state.ring.length →
      (state.ring.writeHeader offset (length.toUInt32 ||| ebpfRingbufLockBit)).recordHeader other =
        state.ring.recordHeader other := fun other different low high =>
    EbpfRingBuffer.recordHeader_writeHeader_of_ne _ different (by omega) (by omega) low high
  refine
    { log := layout.log, passedRun := layout.passedRun, publishedRun := layout.publishedRun
      inFlightRun := layout.inFlightRun, room := layout.room, valid := layout.valid
      passedUnlocked := layout.passedUnlocked, headers := ?headers, held := ?held, reserving := ?reserving
      claimed := ?claimed, snapshots := ?snapshots, consumerAt := layout.consumerAt }
  case headers =>
    intro reservation member
    have placed := layout.published_bounds member
    have := Reservation.size_pos reservation
    show (state.ring.writeHeader _ _).recordHeader _ = _
    rw [kept _ (by omega) placed.1 (by omega)]
    exact layout.headers reservation member
  case held =>
    intro reservation member locked
    have holding := layout.held reservation member locked
    have other : reservation.producer ≠ producer := by
      rintro same
      rw [same, writing] at holding
      cases holding
    simp only [RingState.setProducer_producers, Function.update_of_ne other]
    exact holding
  case reserving =>
    intro reservation member
    obtain ⟨locked, pc⟩ := layout.reserving reservation member
    refine ⟨locked, ?_⟩
    by_cases same : reservation.producer = producer
    · -- the writer's own record: its header is the one just written
      have claim : reservation.length = length ∧ reservation.offset = offset := by
        rw [same, writing] at pc
        rcases pc with written | ⟨published, _⟩
        · cases written; exact ⟨rfl, rfl⟩
        · cases published
      obtain ⟨sameLength, sameOffset⟩ := claim
      simp only [RingState.setProducer_producers, same, Function.update_self, sameLength, sameOffset]
      exact .inr ⟨trivial, EbpfRingBuffer.recordHeader_writeHeader_self _ _⟩
    · have placed := layout.inFlight_bounds member
      have := Reservation.size_pos reservation
      have apart : reservation.offset ≠ offset := fun sameOffset =>
        same (congrArg Reservation.producer
          (layout.eq_of_offset_eq (layout.mem_log_of_inFlight member) (layout.mem_log_of_inFlight own) sameOffset))
      simp only [RingState.setProducer_producers, Function.update_of_ne same]
      show _ ∨ _ ∧ (state.ring.writeHeader _ _).recordHeader _ = _
      rw [kept _ apart (by omega) (by omega)]
      exact pc
  case claimed =>
    exact layout.claimed_update rfl (fun _ _ claim => layout.claimed producer _ _ (by rw [writing]; exact claim))
      fun _ _ _ _ logged => logged
  case snapshots => exact layout.snapshots_update rfl rfl (Nat.le_refl _) fun _ read => nomatch read

theorem publishedRecord {producer length : Nat}
    (publishing : state.producers producer = .publish length state.ring.producerOffset) :
    ∃ rest, RingLayout { state.setProducer producer (.holding length state.ring.producerOffset) with
        ring := { state.ring with producerOffset := state.ring.producerOffset + ringRecordSize length } }
      passed (published ++ [⟨state.ring.producerOffset, length, producer, .locked⟩]) rest := by
  have own := layout.mem_inFlight_of_reserving (.inr publishing)
  have ownBounds : state.ring.producerOffset + ringRecordSize length ≤ state.ring.producerReserveOffset :=
    (layout.inFlight_bounds own).2
  have ownSize : 0 < ringRecordSize length := Reservation.size_pos ⟨state.ring.producerOffset, length, producer, .locked⟩
  -- the record at the producer offset heads the records in flight, and it is the publisher's
  obtain ⟨first, rest, split, placed, restRun⟩ := layout.inFlightRun.exists_cons (by omega)
  have firstMember : first ∈ inFlight := by rw [split]; exact List.mem_cons_self
  have first_eq : first = ⟨state.ring.producerOffset, length, producer, .locked⟩ :=
    layout.eq_of_offset_eq (layout.mem_log_of_inFlight firstMember) (layout.mem_log_of_inFlight own) placed
  subst first_eq
  refine ⟨rest,
    { log := ?log, passedRun := layout.passedRun, publishedRun := layout.publishedRun.snoc rfl
      inFlightRun := restRun, room := layout.room, valid := layout.valid, passedUnlocked := layout.passedUnlocked
      headers := ?headers, held := ?held, reserving := ?reserving, claimed := ?claimed, snapshots := ?snapshots
      consumerAt := @ConsumerAt.publish state _ published _ rfl rfl (Nat.le_add_right _ _) layout.consumerAt }⟩
  case log =>
    show state.reservations = _
    rw [layout.log, split]
    simp
  case headers =>
    intro reservation member
    rcases List.mem_append.mp member with old | fresh
    · exact layout.headers reservation old
    · rw [List.mem_singleton.mp fresh]
      rcases (layout.reserving _ own).2 with writing | ⟨_, written⟩
      · rw [publishing] at writing
        cases writing
      · exact written
  case held =>
    intro reservation member locked
    rcases List.mem_append.mp member with old | fresh
    · have holding := layout.held reservation old locked
      have other : reservation.producer ≠ producer := by
        rintro same
        rw [same, publishing] at holding
        cases holding
      simp only [RingState.setProducer_producers, Function.update_of_ne other]
      exact holding
    · rw [List.mem_singleton.mp fresh]
      exact Function.update_self _ _ _
  case reserving =>
    intro reservation member
    have reserving := layout.reserving reservation (by rw [split]; exact List.mem_cons_of_mem _ member)
    have above : state.ring.producerOffset + ringRecordSize length ≤ reservation.offset :=
      (restRun.mem_bounds Reservation.size_pos member).1
    have other : reservation.producer ≠ producer := by
      rintro same
      have pc := reserving.2
      rw [same, publishing] at pc
      rcases pc with writing | ⟨publish, _⟩
      · cases writing
      · injection publish with _ sameOffset
        omega
    simp only [RingState.setProducer_producers, Function.update_of_ne other]
    exact reserving
  case claimed =>
    exact layout.claimed_update rfl (fun _ _ claim => layout.claimed producer _ _ (by rw [publishing]; exact claim))
      fun _ _ _ _ logged => logged
  case snapshots => exact layout.snapshots_update rfl rfl (Nat.le_refl _) fun _ read => nomatch read

theorem advanceProducer {producer : Nat} {next : RingState} (stepped : state.advanceProducer producer = some next) :
    ∃ passed' published' inFlight', RingLayout next passed' published' inFlight' ∧
      KeepsConsumerView passed published passed' published' := by
  unfold RingState.advanceProducer at stepped
  split at stepped
  case h_1 length consumerOffset entered =>
    have fits := layout.snapshots producer _ (by rw [entered]; rfl)
    split at stepped <;> cases stepped
    · exact ⟨_, _, _, layout.setProducer (by rw [entered]; rfl) rfl (fun _ none => by cases none), .refl _ _⟩
    · exact ⟨_, _, _, layout.setProducer (by rw [entered]; rfl) rfl (fun _ read => by cases read; exact fits), .refl _ _⟩
  case h_2 length consumerOffset looping =>
    obtain ⟨valid, behind, _⟩ := layout.snapshots producer _ (by rw [looping]; rfl)
    split at stepped <;> cases stepped
    · exact ⟨_, _, _, layout.setProducer (by rw [looping]; rfl) rfl (fun _ none => by cases none), .refl _ _⟩
    · -- the space check passed: the reserve offset read leaves room for the record
      rename_i roomy
      refine ⟨_, _, _, layout.setProducer (by rw [looping]; rfl) rfl fun _ read => ?_, .refl _ _⟩
      cases read
      exact ⟨valid, behind, fun _ checked => by cases checked; omega⟩
  case h_3 length consumerOffset reserveOffset exchanging =>
    obtain ⟨valid, _⟩ := layout.snapshots producer _ (by rw [exchanging]; rfl)
    split at stepped <;> cases stepped
    · rename_i same
      subst same
      exact ⟨_, _, _, layout.exchanged exchanging, .refl _ _⟩
    · -- the exchange failed: the loop goes round with a fresh read of the consumer offset
      refine ⟨_, _, _, layout.setProducer (by rw [exchanging]; rfl) rfl fun _ read => ?_, .refl _ _⟩
      cases read
      exact ⟨valid, Nat.le_refl _, fun _ none => by cases none⟩
  case h_4 length offset writing =>
    cases stepped
    exact ⟨_, _, _, layout.headerWritten writing, .refl _ _⟩
  case h_5 length offset publishing =>
    split at stepped
    · rename_i reached
      cases stepped
      subst reached
      obtain ⟨rest, published⟩ := layout.publishedRecord publishing
      exact ⟨_, _, _, published, .append _ _ _⟩
    · cases stepped
  all_goals cases stepped

theorem unlock {producer length offset : Nat} (holding : state.producers producer = .holding length offset)
    {header : UInt32} {unlockedState : RecordState} (notLocked : unlockedState ≠ .locked)
    (written : header = recordHeaderOf length unlockedState) :
    RingLayout { state.setProducer producer .idle with
        ring := state.ring.writeHeader offset header
        reservations := state.unlocked offset unlockedState }
      (passed.map (Reservation.unlockAt offset unlockedState)) (published.map (Reservation.unlockAt offset unlockedState))
      (inFlight.map (Reservation.unlockAt offset unlockedState)) := by
  have own := layout.mem_published_of_holding holding
  have ownMember := layout.mem_log_of_published own
  have ownBounds : state.ring.consumerOffset ≤ offset ∧ offset + ringRecordSize length ≤ state.ring.producerOffset :=
    layout.published_bounds own
  have ownSize : 0 < ringRecordSize length := Reservation.size_pos ⟨offset, length, producer, .locked⟩
  have ahead := layout.producer_le_reserve
  have otherOffset : ∀ reservation ∈ state.reservations, reservation.offset = offset → reservation = ⟨offset, length, producer, .locked⟩ :=
    fun reservation member same => layout.eq_of_offset_eq member ownMember same
  refine
    { log := ?log, passedRun := layout.passedRun.map _ (fun _ => Reservation.unlockAt_offset) Reservation.unlockAt_size
      publishedRun := layout.publishedRun.map _ (fun _ => Reservation.unlockAt_offset) Reservation.unlockAt_size
      inFlightRun := layout.inFlightRun.map _ (fun _ => Reservation.unlockAt_offset) Reservation.unlockAt_size
      room := layout.room, valid := ?valid, passedUnlocked := ?passedUnlocked, headers := ?headers, held := ?held
      reserving := ?reserving, claimed := ?claimed, snapshots := ?snapshots
      consumerAt := ConsumerAt.unlock notLocked rfl ⟨rfl, rfl⟩ layout.consumerAt }
  case log =>
    show state.reservations.map _ = _
    rw [layout.log]
    simp only [List.map_append]
  case valid =>
    intro reservation member
    obtain ⟨before, logged, rfl⟩ := List.mem_map.mp member
    rw [Reservation.unlockAt_length]
    exact layout.valid before logged
  case passedUnlocked =>
    intro reservation member
    obtain ⟨before, early, rfl⟩ := List.mem_map.mp member
    exact Reservation.unlockAt_state_ne_locked notLocked (layout.passedUnlocked before early)
  case headers =>
    intro reservation member
    obtain ⟨before, published, rfl⟩ := List.mem_map.mp member
    have placed := layout.published_bounds published
    have := Reservation.size_pos before
    by_cases same : before.offset = offset
    · -- the holder's own record, with the header just written
      rw [Reservation.unlockAt_self same, otherOffset before (layout.mem_log_of_published published) same]
      show (state.ring.writeHeader offset header).recordHeader offset = _
      rw [EbpfRingBuffer.recordHeader_writeHeader_self, written]
    · rw [Reservation.unlockAt_of_ne same]
      show (state.ring.writeHeader offset header).recordHeader _ = _
      rw [layout.recordHeader_writeHeader header same ownBounds.1 (by omega) placed.1 (by omega)]
      exact layout.headers before published
  case held =>
    intro reservation member locked
    obtain ⟨before, published, rfl⟩ := List.mem_map.mp member
    have same : before.offset ≠ offset := fun same => by
      rw [Reservation.unlockAt_self same] at locked
      exact notLocked locked
    rw [Reservation.unlockAt_of_ne same] at locked ⊢
    have held := layout.held before published locked
    have other : before.producer ≠ producer := by
      rintro sameProducer
      rw [sameProducer, holding] at held
      injection held with _ sameOffset
      exact same sameOffset.symm
    simp only [RingState.setProducer_producers, Function.update_of_ne other]
    exact held
  case reserving =>
    intro reservation member
    obtain ⟨before, inFlight, rfl⟩ := List.mem_map.mp member
    have placed := layout.inFlight_bounds inFlight
    have := Reservation.size_pos before
    have same : before.offset ≠ offset := by omega
    rw [Reservation.unlockAt_of_ne same]
    obtain ⟨locked, pc⟩ := layout.reserving before inFlight
    have other : before.producer ≠ producer := by
      rintro sameProducer
      rw [sameProducer, holding] at pc
      rcases pc with writing | ⟨publishing, _⟩
      · cases writing
      · cases publishing
    simp only [RingState.setProducer_producers, Function.update_of_ne other]
    show _ ∧ (_ ∨ _ ∧ (state.ring.writeHeader offset header).recordHeader _ = _)
    rw [layout.recordHeader_writeHeader header same ownBounds.1 (by omega) (by omega) (by omega)]
    exact ⟨locked, pc⟩
  case claimed =>
    refine layout.claimed_update rfl (fun _ _ claim => nomatch claim) fun owner _ claimedOffset other logged => ?_
    have apart : claimedOffset ≠ offset := fun sameOffset =>
      other (congrArg Reservation.producer (otherOffset _ logged sameOffset))
    exact List.mem_map.mpr ⟨_, logged, Reservation.unlockAt_of_ne apart⟩
  case snapshots => exact layout.snapshots_update rfl rfl (Nat.le_refl _) fun _ read => nomatch read

theorem unlock_keepsConsumerView {producer length offset : Nat}
    (holding : state.producers producer = .holding length offset) (unlockedState : RecordState) :
    KeepsConsumerView passed published (passed.map (Reservation.unlockAt offset unlockedState))
      (published.map (Reservation.unlockAt offset unlockedState)) := by
  have own := layout.mem_published_of_holding holding
  have ownAfter : state.ring.consumerOffset ≤ offset := (layout.published_bounds own).1
  refine ⟨?_, fun first rest split unlocked => ⟨rest.map (Reservation.unlockAt offset unlockedState), ?_⟩⟩
  · -- the passed records end at the consumer offset, where the holder's record at the earliest begins
    refine (List.map_congr_left fun reservation early => Reservation.unlockAt_of_ne ?_).trans (List.map_id _)
    have := layout.passedRun.mem_bounds Reservation.size_pos early
    have := Reservation.size_pos reservation
    omega
  · have firstMember : first ∈ published := by rw [split]; exact List.mem_cons_self
    rw [split, List.map_cons, Reservation.unlockAt_of_ne]
    intro same
    have first_eq := layout.eq_of_offset_eq (layout.mem_log_of_published firstMember) (layout.mem_log_of_published own) same
    rw [first_eq] at unlocked
    exact unlocked rfl

theorem submitRecord {producer : Nat} {next : RingState} (stepped : state.submitRecord producer = some next) :
    ∃ passed' published' inFlight', RingLayout next passed' published' inFlight' ∧
      KeepsConsumerView passed published passed' published' := by
  unfold RingState.submitRecord at stepped
  split at stepped
  case h_1 length offset holding =>
    cases stepped
    have own := layout.mem_published_of_holding holding
    have small := (layout.valid _ (layout.mem_log_of_published own)).2.1
    have header : state.ring.recordHeader offset = recordHeaderOf length .locked := layout.headers _ own
    exact ⟨_, _, _, layout.unlock holding (by decide) (by rw [header]; exact submit_recordHeaderOf small),
      layout.unlock_keepsConsumerView holding _⟩
  case h_2 => cases stepped

theorem discardRecord {producer : Nat} {next : RingState} (stepped : state.discardRecord producer = some next) :
    ∃ passed' published' inFlight', RingLayout next passed' published' inFlight' ∧
      KeepsConsumerView passed published passed' published' := by
  unfold RingState.discardRecord at stepped
  split at stepped
  case h_1 length offset holding =>
    cases stepped
    have own := layout.mem_published_of_holding holding
    have small := (layout.valid _ (layout.mem_log_of_published own)).2.1
    have header : state.ring.recordHeader offset = recordHeaderOf length .locked := layout.headers _ own
    exact ⟨_, _, _, layout.unlock holding (by decide) (by rw [header]; exact discard_recordHeaderOf small),
      layout.unlock_keepsConsumerView holding _⟩
  case h_2 => cases stepped

theorem giveBack {walked rest : List Reservation} {offset : Nat} {consumer : RingConsumer}
    (split : published = walked ++ rest) (run : ReservedRun state.ring.consumerOffset walked offset)
    (unlocked : ∀ reservation ∈ walked, reservation.state ≠ .locked)
    (consumerAt : ConsumerAt { state with ring := { state.ring with consumerOffset := offset }, consumer } rest) :
    RingLayout { state with ring := { state.ring with consumerOffset := offset }, consumer }
      (passed ++ walked) rest inFlight := by
  have restMember : ∀ reservation ∈ rest, reservation ∈ published := fun reservation member => by
    rw [split]
    exact List.mem_append_right _ member
  obtain ⟨middle, walkedRun, restRun⟩ := (split ▸ layout.publishedRun).split
  have reached : offset = middle := run.stop_eq walkedRun
  subst reached
  have room := layout.room
  have forward := run.le
  refine
    { log := ?log, passedRun := layout.passedRun.append run, publishedRun := restRun
      inFlightRun := layout.inFlightRun, room := ?room, valid := layout.valid, passedUnlocked := ?passedUnlocked
      headers := fun reservation member => layout.headers reservation (restMember reservation member)
      held := fun reservation member => layout.held reservation (restMember reservation member)
      reserving := layout.reserving, claimed := layout.claimed
      snapshots := fun owner snapshot read => (layout.snapshots owner snapshot read).mono rfl forward
      consumerAt := consumerAt }
  case log =>
    show state.reservations = _
    rw [layout.log, split]
    simp
  case room =>
    show state.ring.producerReserveOffset ≤ offset + state.ring.length
    omega
  case passedUnlocked =>
    intro reservation member
    rcases List.mem_append.mp member with early | returned
    · exact layout.passedUnlocked reservation early
    · exact unlocked reservation returned

theorem startNextRecord {next : RingState} (stepped : state.startNextRecord = some next) :
    RingInvariant next := by
  unfold RingState.startNextRecord at stepped
  split at stepped
  · cases stepped
    exact ⟨_, _, _, { layout with consumerAt := Nat.le_refl _ }⟩
  · cases stepped
    exact ⟨_, _, _, { layout with consumerAt := Nat.le_refl _ }⟩
  · cases stepped

theorem startReturnBuffer {consumerOffset : Nat} {next : RingState}
    (stepped : state.startReturnBuffer consumerOffset = some next) : RingInvariant next := by
  have started : ∀ consumer, (consumer = .idle ∨ consumerOffset ≤ state.ring.producerOffset ∧
      consumer = .returnBuffer consumerOffset state.ring.consumerOffset) →
      RingInvariant { state with consumer } := by
    rintro consumer (rfl | ⟨within, rfl⟩)
    · exact ⟨_, _, _, { layout with consumerAt := trivial }⟩
    · -- the walk has passed nothing yet
      exact ⟨_, _, _, { layout with consumerAt :=
        ⟨within, [], published, rfl, .nil _, fun _ none => by cases none⟩ }⟩
  unfold RingState.startReturnBuffer at stepped
  split at stepped
  case h_3 => cases stepped
  all_goals
    split at stepped
    · cases stepped
      exact started _ (.inl rfl)
    · rename_i within
      cases stepped
      exact started _ (.inr ⟨Nat.le_of_not_lt within, rfl⟩)

theorem head_placed {first : Reservation} {rest : List Reservation} (split : published = first :: rest) :
    first.offset = state.ring.consumerOffset ∧
      ReservedRun (state.ring.consumerOffset + first.size) rest state.ring.producerOffset := by
  have run := layout.publishedRun
  rw [split] at run
  cases run with
  | cons placed rest => exact ⟨placed, rest⟩

theorem head_record {first : Reservation} {rest : List Reservation} {offset : Nat}
    (member : ∀ reservation, reservation ∈ first :: rest → reservation ∈ published) (placed : first.offset = offset) :
    state.ring.recordHeader offset = recordHeaderOf first.length first.state ∧
      state.ring.recordSizeAt offset = first.size := by
  have firstMember := member first List.mem_cons_self
  have header := layout.headers first firstMember
  rw [placed] at header
  exact ⟨header, EbpfRingBuffer.recordSizeAt_of_recordHeader
    (layout.valid first (layout.mem_log_of_published firstMember)).2.1 header⟩

theorem advanceConsumer {next : RingState} (stepped : state.advanceConsumer = some next) : RingInvariant next := by
  have consumerAt := layout.consumerAt
  unfold ConsumerAt at consumerAt
  unfold RingState.advanceConsumer at stepped
  split at stepped
  case h_1 producerOffset reading =>
    rw [reading] at consumerAt
    split at stepped
    case isTrue ahead =>
      obtain ⟨first, rest, split, placed, restRun⟩ := layout.publishedRun.exists_cons (by omega)
      obtain ⟨header, size⟩ := layout.head_record (by rw [split]; exact fun _ => id) placed
      have small := (layout.valid first (layout.mem_log_of_published (by rw [split]; exact List.mem_cons_self))).2.1
      dsimp only at stepped
      rw [header, ringHeaderLocked_recordHeaderOf small, ringHeaderDiscarded_recordHeaderOf small] at stepped
      split at stepped
      · cases stepped
        exact ⟨_, _, _, { layout with consumerAt := trivial }⟩
      · rename_i unlocked
        split at stepped
        · cases stepped
          exact ⟨_, _, _, { layout with consumerAt := trivial }⟩
        · -- a discarded record: the consumer passes it and gives back its space
          rename_i discarded
          cases stepped
          rw [size]
          have notLocked : first.state ≠ .locked := by simpa using unlocked
          refine ⟨_, _, _, layout.giveBack (show published = [first] ++ rest from split) (.cons placed (.nil _)) ?_ ?_⟩
          · intro reservation member
            rw [List.mem_singleton.mp member]
            exact notLocked
          · simp only [ConsumerAt, reading]
            exact consumerAt
    case isFalse => cases stepped; exact ⟨_, _, _, { layout with consumerAt := trivial }⟩
  case h_2 consumerOffset localConsumerOffset returning =>
    rw [returning] at consumerAt
    obtain ⟨within, walked, rest, split, run, unlocked⟩ := consumerAt
    obtain ⟨middle, walkedRun, restRun⟩ := (split ▸ layout.publishedRun).split
    have reached : localConsumerOffset = middle := run.stop_eq walkedRun
    subst reached
    split at stepped
    case isTrue below =>
      obtain ⟨first, later, restSplit, placed, _⟩ := restRun.exists_cons (by omega)
      obtain ⟨header, size⟩ := layout.head_record (by rw [split, restSplit]; exact fun _ => List.mem_append_right _) placed
      have small := (layout.valid first (layout.mem_log_of_published (by rw [split, restSplit]; simp))).2.1
      rw [header, ringHeaderLocked_recordHeaderOf small] at stepped
      split at stepped
      · cases stepped
        exact ⟨_, _, _, { layout with consumerAt := trivial }⟩
      · rename_i unlockedFirst
        cases stepped
        have notLocked : first.state ≠ .locked := by simpa using unlockedFirst
        refine ⟨_, _, _, { layout with consumerAt := ⟨within, walked ++ [first], later, ?_, ?_, ?_⟩ }⟩
        · rw [split, restSplit]
          simp
        · rw [size]
          exact run.snoc placed
        · intro reservation member
          rcases List.mem_append.mp member with early | last
          · exact unlocked reservation early
          · rw [List.mem_singleton.mp last]
            exact notLocked
    case isFalse notBelow =>
      split at stepped
      · cases stepped
        exact ⟨_, _, _, { layout with consumerAt := trivial }⟩
      · -- the walk stopped at the offset asked for: its records are given back
        rename_i landed
        cases stepped
        have landed : localConsumerOffset = consumerOffset := by simpa using landed
        subst landed
        exact ⟨_, _, _, layout.giveBack split run unlocked trivial⟩
  all_goals cases stepped

theorem tiled : state.ring.Tiled state.ring.producerOffset state.ring.consumerOffset :=
  EbpfRingBuffer.tiled_of_run layout.publishedRun layout.headers fun record member =>
    have valid := layout.valid record (layout.mem_log_of_published member)
    ⟨valid.1, valid.2.1⟩

theorem offsets_advance {action : RingAction} {next : RingState} (stepped : state.step action = some next) :
    state.ring.producerOffset ≤ next.ring.producerOffset ∧ state.ring.consumerOffset ≤ next.ring.consumerOffset := by
  cases action with
  | reserve producer length =>
    replace stepped : state.reserveStart producer length = some next := stepped
    unfold RingState.reserveStart at stepped
    split at stepped
    · split at stepped <;> cases stepped <;> simp
    · cases stepped
  | advance producer =>
    replace stepped : state.advanceProducer producer = some next := stepped
    unfold RingState.advanceProducer at stepped
    split at stepped <;> (try split at stepped) <;> cases stepped <;> simp [EbpfRingBuffer.writeHeader]
    omega
  | submit producer =>
    replace stepped : state.submitRecord producer = some next := stepped
    unfold RingState.submitRecord at stepped
    split at stepped <;> cases stepped
    simp [EbpfRingBuffer.writeHeader]
  | discard producer =>
    replace stepped : state.discardRecord producer = some next := stepped
    unfold RingState.discardRecord at stepped
    split at stepped <;> cases stepped
    simp [EbpfRingBuffer.writeHeader]
  | nextRecord =>
    replace stepped : state.startNextRecord = some next := stepped
    unfold RingState.startNextRecord at stepped
    split at stepped <;> cases stepped <;> simp
  | returnBuffer consumerOffset =>
    replace stepped : state.startReturnBuffer consumerOffset = some next := stepped
    unfold RingState.startReturnBuffer at stepped
    split at stepped <;> (try split at stepped) <;> cases stepped <;> simp
  | advanceConsumer =>
    have consumerAt := layout.consumerAt
    unfold ConsumerAt at consumerAt
    replace stepped : state.advanceConsumer = some next := stepped
    unfold RingState.advanceConsumer at stepped
    split at stepped
    case h_1 =>
      split at stepped
      · dsimp only at stepped
        split at stepped
        · cases stepped
          simp
        · split at stepped <;> cases stepped <;> simp
      · cases stepped
        simp
    case h_2 consumerOffset localConsumerOffset returning =>
      rw [returning] at consumerAt
      obtain ⟨_, walked, _, _, run, _⟩ := consumerAt
      have := run.le
      split at stepped
      · split at stepped <;> cases stepped <;> simp
      · split at stepped <;> cases stepped
        · simp
        · rename_i landed
          simp only [ne_eq, Decidable.not_not] at landed
          simp only [Nat.le_refl, true_and]
          omega
    all_goals cases stepped

end RingLayout

theorem RingLayout.initial {capacity : UInt64} {ring : EbpfRingBuffer}
    (allocated : ebpfRingBufferAllocateRing capacity true = .ok ring) : RingLayout (.initial ring) [] [] [] := by
  unfold ebpfRingBufferAllocateRing at allocated
  split at allocated
  · cases allocated
  · cases allocated
    exact
      { log := rfl, passedRun := .nil _, publishedRun := .nil _, inFlightRun := .nil _, room := Nat.zero_le _
        valid := fun _ none => nomatch none
        passedUnlocked := fun _ none => nomatch none
        headers := fun _ none => nomatch none
        held := fun _ none => nomatch none
        reserving := fun _ none => nomatch none
        claimed := fun _ _ _ none => nomatch none
        snapshots := fun _ _ none => nomatch none
        consumerAt := trivial }

namespace RingInvariant

theorem initial {capacity : UInt64} {ring : EbpfRingBuffer}
    (allocated : ebpfRingBufferAllocateRing capacity true = .ok ring) : RingInvariant (.initial ring) :=
  ⟨_, _, _, RingLayout.initial allocated⟩

theorem step {state next : RingState} {action : RingAction} (invariant : RingInvariant state)
    (stepped : state.step action = some next) : RingInvariant next := by
  obtain ⟨passed, published, inFlight, layout⟩ := invariant
  cases action with
  | reserve producer length => exact ⟨_, _, _, layout.reserveStart stepped⟩
  | advance producer =>
    obtain ⟨_, _, _, advanced, _⟩ := layout.advanceProducer stepped
    exact ⟨_, _, _, advanced⟩
  | submit producer =>
    obtain ⟨_, _, _, submitted, _⟩ := layout.submitRecord stepped
    exact ⟨_, _, _, submitted⟩
  | discard producer =>
    obtain ⟨_, _, _, discarded, _⟩ := layout.discardRecord stepped
    exact ⟨_, _, _, discarded⟩
  | nextRecord => exact layout.startNextRecord stepped
  | returnBuffer consumerOffset => exact layout.startReturnBuffer stepped
  | advanceConsumer => exact layout.advanceConsumer stepped

theorem run {state : RingState} (invariant : RingInvariant state) (actions : List RingAction) :
    RingInvariant (ringRun actions state) := by
  induction actions generalizing state with
  | nil => exact invariant
  | cons action actions ih =>
    apply ih
    cases stepped : state.step action with
    | none => exact invariant
    | some next => exact invariant.step stepped

theorem run_offsets_advance {state : RingState} (invariant : RingInvariant state) (actions : List RingAction) :
    state.ring.producerOffset ≤ (ringRun actions state).ring.producerOffset ∧
      state.ring.consumerOffset ≤ (ringRun actions state).ring.consumerOffset := by
  induction actions generalizing state with
  | nil => exact ⟨Nat.le_refl _, Nat.le_refl _⟩
  | cons action actions ih =>
    cases stepped : state.step action with
    | none =>
      have later := ih invariant
      simp only [ringRun, stepped, Option.getD_none] at later ⊢
      exact later
    | some next =>
      obtain ⟨_, _, _, layout⟩ := invariant
      have first := layout.offsets_advance stepped
      have later := ih (RingInvariant.step ⟨_, _, _, layout⟩ stepped)
      simp only [ringRun, stepped, Option.getD_some] at later ⊢
      omega

end RingInvariant

/-- The offsets of a ring of `capacity` bytes as every reachable state has them: in order, the
reserved bytes within the capacity, and the records between the consumer and producer offsets
tiling the ring. -/
structure OffsetsInOrder (ring : EbpfRingBuffer) (capacity : Nat) : Prop where
  length : ring.length = capacity
  consumer_le_producer : ring.consumerOffset ≤ ring.producerOffset
  producer_le_reserve : ring.producerOffset ≤ ring.producerReserveOffset
  reserved_le_capacity : ring.producerReserveOffset - ring.consumerOffset ≤ capacity
  tiled : ring.Tiled ring.producerOffset ring.consumerOffset

theorem RingLayout.offsetsInOrder {state : RingState} {passed published inFlight : List Reservation}
    (layout : RingLayout state passed published inFlight) : OffsetsInOrder state.ring state.ring.length :=
  have room := layout.room
  ⟨rfl, layout.consumer_le_producer, layout.producer_le_reserve, by omega, layout.tiled⟩

theorem RingState.step_length {state next : RingState} {action : RingAction} (stepped : state.step action = some next) :
    next.ring.length = state.ring.length := by
  cases action with
  | reserve producer length =>
    replace stepped : state.reserveStart producer length = some next := stepped
    unfold RingState.reserveStart at stepped
    split at stepped
    · split at stepped <;> cases stepped <;> rfl
    · cases stepped
  | advance producer =>
    replace stepped : state.advanceProducer producer = some next := stepped
    unfold RingState.advanceProducer at stepped
    split at stepped <;> (try split at stepped) <;> cases stepped <;> rfl
  | submit producer =>
    replace stepped : state.submitRecord producer = some next := stepped
    unfold RingState.submitRecord at stepped
    split at stepped <;> cases stepped
    rfl
  | discard producer =>
    replace stepped : state.discardRecord producer = some next := stepped
    unfold RingState.discardRecord at stepped
    split at stepped <;> cases stepped
    rfl
  | nextRecord =>
    replace stepped : state.startNextRecord = some next := stepped
    unfold RingState.startNextRecord at stepped
    split at stepped <;> cases stepped <;> rfl
  | returnBuffer consumerOffset =>
    replace stepped : state.startReturnBuffer consumerOffset = some next := stepped
    unfold RingState.startReturnBuffer at stepped
    split at stepped <;> (try split at stepped) <;> cases stepped <;> rfl
  | advanceConsumer =>
    replace stepped : state.advanceConsumer = some next := stepped
    unfold RingState.advanceConsumer at stepped
    split at stepped
    · split at stepped
      · dsimp only at stepped
        split at stepped
        · cases stepped
          rfl
        · split at stepped <;> cases stepped <;> rfl
      · cases stepped
        rfl
    · split at stepped <;> (try split at stepped) <;> cases stepped <;> rfl
    all_goals cases stepped

theorem ringRun_length (actions : List RingAction) (state : RingState) :
    (ringRun actions state).ring.length = state.ring.length := by
  induction actions generalizing state with
  | nil => rfl
  | cons action actions ih =>
    rw [ringRun, ih]
    cases stepped : state.step action with
    | none => rfl
    | some next => exact RingState.step_length stepped

/-- Any interleaving of any number of producers' reserves, submits and discards with the
consumer's reads and returns of buffer space, from a ring just allocated: every state reached
has its offsets in order, at most the capacity reserved, and the published records tiling the
ring; and from there on the producer and consumer offsets never move back. -/
theorem ring_buffer_offsets_in_order (capacity : UInt64) (ring : EbpfRingBuffer)
    (allocated : ebpfRingBufferAllocateRing capacity true = .ok ring) (actions more : List RingAction) :
    OffsetsInOrder (ringRun actions (.initial ring)).ring capacity.toNat ∧
      (ringRun actions (.initial ring)).ring.producerOffset ≤ (ringRun (actions ++ more) (.initial ring)).ring.producerOffset ∧
      (ringRun actions (.initial ring)).ring.consumerOffset ≤
        (ringRun (actions ++ more) (.initial ring)).ring.consumerOffset := by
  have capacityOf : ring.length = capacity.toNat := by
    unfold ebpfRingBufferAllocateRing at allocated
    split at allocated
    · cases allocated
    · cases allocated
      rfl
  obtain ⟨passed, published, inFlight, layout⟩ := (RingInvariant.initial allocated).run actions
  have inOrder := layout.offsetsInOrder
  rw [ringRun_length, RingState.initial, capacityOf] at inOrder
  rw [ringRun_append]
  exact ⟨inOrder, (RingInvariant.run_offsets_advance ⟨_, _, _, layout⟩ more)⟩

theorem ring_buffer_offsets_in_order_page :
    OffsetsInOrder (ringRun [.reserve 0 8, .advance 0, .advance 0, .advance 0, .advance 0, .advance 0, .submit 0]
        (.initial ⟨4096, 0, 0, 0, fun _ => 0⟩)).ring (4096 : UInt64).toNat ∧
      (ringRun [.reserve 0 8, .advance 0, .advance 0, .advance 0, .advance 0, .advance 0, .submit 0]
          (.initial ⟨4096, 0, 0, 0, fun _ => 0⟩)).ring.producerOffset ≤
        (ringRun ([.reserve 0 8, .advance 0, .advance 0, .advance 0, .advance 0, .advance 0, .submit 0] ++
          [.nextRecord, .advanceConsumer, .returnBuffer 16, .advanceConsumer, .advanceConsumer])
          (.initial ⟨4096, 0, 0, 0, fun _ => 0⟩)).ring.producerOffset ∧
      (ringRun [.reserve 0 8, .advance 0, .advance 0, .advance 0, .advance 0, .advance 0, .submit 0]
          (.initial ⟨4096, 0, 0, 0, fun _ => 0⟩)).ring.consumerOffset ≤
        (ringRun ([.reserve 0 8, .advance 0, .advance 0, .advance 0, .advance 0, .advance 0, .submit 0] ++
          [.nextRecord, .advanceConsumer, .returnBuffer 16, .advanceConsumer, .advanceConsumer])
          (.initial ⟨4096, 0, 0, 0, fun _ => 0⟩)).ring.consumerOffset :=
  ring_buffer_offsets_in_order 4096 _ rfl _ _

end EbpfWindows.Runtime
