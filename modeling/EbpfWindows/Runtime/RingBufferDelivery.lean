import EbpfWindows.Runtime.RingBufferLayout

/-! What the consumer of the ring buffer is handed.

The consumer of `ebpf_ring_buffer_next_consumer_record`'s contract reads the record it is
handed and gives its space back, up to the offset it was told, before it asks for the next one.
Along every run in which the consumer keeps to that, whatever the producers do, what it has been
handed is the submitted records among the first records of the log of reservations, in the
order their compare-exchanges succeeded and with the lengths they were reserved with; none of
those first records is locked, so a locked record holds back every record reserved after it.
-/

set_option autoImplicit false

namespace EbpfWindows.Runtime

/-- The records handed to the consumer out of `reservations`: the submitted ones, in order, each
as its offset and the length it was reserved with. -/
def deliveredOf (reservations : List Reservation) : List (Nat × Nat) :=
  (reservations.filter fun reservation => reservation.state = .submitted).map
    fun reservation => (reservation.offset, reservation.length)

theorem deliveredOf_append (first second : List Reservation) :
    deliveredOf (first ++ second) = deliveredOf first ++ deliveredOf second := by
  simp [deliveredOf]

theorem deliveredOf_submitted {reservation : Reservation} (submitted : reservation.state = .submitted) :
    deliveredOf [reservation] = [(reservation.offset, reservation.length)] := by
  simp [deliveredOf, submitted]

theorem deliveredOf_discarded {reservation : Reservation} (discarded : reservation.state = .discarded) :
    deliveredOf [reservation] = [] := by
  simp [deliveredOf, discarded]

namespace RingState

/-- The consumer of the contract: it does not ask for the next record while it holds one, and it
gives the buffer back only up to the offset it was handed with its record. -/
def consumerFollows (state : RingState) : RingAction → Bool
  | .nextRecord =>
    match state.consumer with
    | .reading _ => false
    | _ => true
  | .returnBuffer consumerOffset => state.consumer == .reading consumerOffset
  | _ => true

end RingState

/-- Every step of the run that the consumer takes is one the consumer of the contract takes. -/
def consumerFollowsRun : List RingAction → RingState → Bool
  | [], _ => true
  | action :: actions, state =>
    state.consumerFollows action && consumerFollowsRun actions ((state.step action).getD state)

/-- The consumer holds the record at the head of the published ones: a submitted record, whose end
it was told, and the last one it was handed. -/
def HoldsHead (state : RingState) (passed published : List Reservation) (nextOffset : Nat) : Prop :=
  ∃ first rest, published = first :: rest ∧ first.state = .submitted ∧
    nextOffset = state.ring.consumerOffset + first.size ∧ state.delivered = deliveredOf (passed ++ [first])

/-- What the consumer has been handed, by where it stands: the submitted records it passed, and
the record it holds while it reads it and gives its space back. -/
def DeliveredAt (state : RingState) (passed published : List Reservation) : Prop :=
  match state.consumer with
  | .idle | .nextRecord _ => state.delivered = deliveredOf passed
  | .reading nextOffset => HoldsHead state passed published nextOffset
  | .returnBuffer consumerOffset localConsumerOffset =>
    HoldsHead state passed published consumerOffset ∧
      (localConsumerOffset = state.ring.consumerOffset ∨ localConsumerOffset = consumerOffset)

/-- The invariant of the runs of the contract's consumer: the layout, and what was handed. -/
def DeliveryInvariant (state : RingState) : Prop :=
  ∃ passed published inFlight, RingLayout state passed published inFlight ∧ DeliveredAt state passed published

theorem DeliveredAt.producerStep {state next : RingState} {passed published passed' published' : List Reservation}
    (delivered : DeliveredAt state passed published) (side : next.consumerSide = state.consumerSide)
    (keeps : KeepsConsumerView passed published passed' published') : DeliveredAt next passed' published' := by
  obtain ⟨samePassed, head⟩ := keeps
  subst samePassed
  simp only [RingState.consumerSide, Prod.mk.injEq] at side
  obtain ⟨sameConsumer, sameDelivered, sameOffset⟩ := side
  have holds : ∀ nextOffset, HoldsHead state passed' published nextOffset → HoldsHead next passed' published' nextOffset := by
    rintro nextOffset ⟨first, rest, split, submitted, ends, handed⟩
    obtain ⟨later, split'⟩ := head first rest split (by rw [submitted]; decide)
    exact ⟨first, later, split', submitted, by rw [sameOffset]; exact ends, by rw [sameDelivered]; exact handed⟩
  unfold DeliveredAt at delivered ⊢
  rw [sameConsumer]
  cases consumer : state.consumer with
  | idle =>
    rw [consumer] at delivered
    rw [sameDelivered]
    exact delivered
  | nextRecord producerOffset =>
    rw [consumer] at delivered
    rw [sameDelivered]
    exact delivered
  | reading nextOffset =>
    rw [consumer] at delivered
    exact holds nextOffset delivered
  | returnBuffer consumerOffset localConsumerOffset =>
    rw [consumer] at delivered
    exact ⟨holds consumerOffset delivered.1, by rw [sameOffset]; exact delivered.2⟩

theorem walked_eq_head {start : Nat} {published walked later rest : List Reservation} {first : Reservation}
    (split : published = first :: rest) (walkedSplit : published = walked ++ later)
    (run : ReservedRun start walked (start + first.size)) : walked = [first] := by
  have short : start < start + first.size := Nat.lt_add_of_pos_right (Reservation.size_pos first)
  obtain ⟨head, tail, walkedCons, _, tailRun⟩ := run.exists_cons short
  subst walkedCons
  rw [split, List.cons_append] at walkedSplit
  obtain ⟨sameHead, _⟩ := List.cons.inj walkedSplit
  subst sameHead
  rw [tailRun.eq_nil_of_stop_le Reservation.size_pos (Nat.le_refl _)]

namespace RingLayout

variable {state : RingState} {passed published inFlight : List Reservation}
  (layout : RingLayout state passed published inFlight)
include layout

theorem startNextRecord_delivered {next : RingState} (delivered : DeliveredAt state passed published)
    (follows : state.consumerFollows .nextRecord = true) (stepped : state.startNextRecord = some next) :
    DeliveryInvariant next := by
  unfold DeliveredAt at delivered
  unfold RingState.consumerFollows at follows
  unfold RingState.startNextRecord at stepped
  split at stepped
  case h_1 idle =>
    cases stepped
    rw [idle] at delivered
    exact ⟨_, _, _, { layout with consumerAt := Nat.le_refl _ }, delivered⟩
  case h_2 nextOffset reading =>
    rw [reading] at follows
    cases follows
  case h_3 => cases stepped

theorem startReturnBuffer_delivered {consumerOffset : Nat} {next : RingState}
    (delivered : DeliveredAt state passed published)
    (follows : state.consumerFollows (.returnBuffer consumerOffset) = true)
    (stepped : state.startReturnBuffer consumerOffset = some next) : DeliveryInvariant next := by
  simp only [RingState.consumerFollows, beq_iff_eq] at follows
  unfold DeliveredAt at delivered
  rw [follows] at delivered
  obtain ⟨first, rest, split, submitted, ends, handed⟩ := delivered
  have firstMember : first ∈ published := by rw [split]; exact List.mem_cons_self
  have bounds := layout.published_bounds firstMember
  have placed := (layout.head_placed split).1
  unfold RingState.startReturnBuffer at stepped
  rw [follows] at stepped
  dsimp only at stepped
  rw [if_neg (by omega)] at stepped
  cases stepped
  have within : consumerOffset ≤ state.ring.producerOffset := by omega
  exact ⟨_, _, _, { layout with consumerAt := ⟨within, [], published, rfl, .nil _, fun _ none => nomatch none⟩ },
    ⟨first, rest, split, submitted, ends, handed⟩, .inl rfl⟩

theorem advanceConsumer_delivered {next : RingState} (delivered : DeliveredAt state passed published)
    (stepped : state.advanceConsumer = some next) : DeliveryInvariant next := by
  have consumerAt := layout.consumerAt
  unfold ConsumerAt at consumerAt
  unfold DeliveredAt at delivered
  unfold RingState.advanceConsumer at stepped
  split at stepped
  case h_1 producerOffset reading =>
    rw [reading] at consumerAt delivered
    split at stepped
    case isTrue ahead =>
      obtain ⟨first, rest, split, placed, _⟩ := layout.publishedRun.exists_cons (by omega)
      obtain ⟨header, size⟩ := layout.head_record (by rw [split]; exact fun _ => id) placed
      have small := (layout.valid first (layout.mem_log_of_published (by rw [split]; exact List.mem_cons_self))).2.1
      dsimp only at stepped
      rw [header, ringHeaderLocked_recordHeaderOf small, ringHeaderDiscarded_recordHeaderOf small] at stepped
      split at stepped
      · cases stepped
        exact ⟨_, _, _, { layout with consumerAt := trivial }, delivered⟩
      · rename_i unlocked
        split at stepped
        · -- neither locked nor discarded: a submitted record, handed to the consumer
          rename_i kept
          cases stepped
          have submitted : first.state = .submitted := by
            cases state : first.state <;> simp_all
          refine ⟨_, _, _, { layout with consumerAt := trivial }, first, rest, split, submitted, by rw [size], ?_⟩
          show state.delivered ++ [(state.ring.consumerOffset, _)] = _
          rw [delivered, deliveredOf_append, deliveredOf_submitted submitted, ringHeaderLength_recordHeaderOf small,
            placed]
        · -- a discarded record: passed, and nothing handed
          rename_i discarded
          cases stepped
          have isDiscarded : first.state = .discarded := by simpa using discarded
          have notLocked : first.state ≠ .locked := by rw [isDiscarded]; decide
          rw [size]
          refine ⟨_, _, _, layout.giveBack (show published = [first] ++ rest from split) (.cons placed (.nil _))
            (fun reservation member => by rw [List.mem_singleton.mp member]; exact notLocked)
            (by simp only [ConsumerAt, reading]; exact consumerAt), ?_⟩
          simp only [DeliveredAt, reading]
          rw [deliveredOf_append, deliveredOf_discarded isDiscarded, List.append_nil]
          exact delivered
    case isFalse =>
      cases stepped
      exact ⟨_, _, _, { layout with consumerAt := trivial }, delivered⟩
  case h_2 consumerOffset localConsumerOffset returning =>
    rw [returning] at consumerAt delivered
    obtain ⟨⟨first, rest, split, submitted, ends, handed⟩, position⟩ := delivered
    have placed := (layout.head_placed split).1
    obtain ⟨header, size⟩ := layout.head_record (by rw [split]; exact fun _ => id) placed
    have small := (layout.valid first (layout.mem_log_of_published (by rw [split]; exact List.mem_cons_self))).2.1
    have firstSize := Reservation.size_pos first
    split at stepped
    case isTrue below =>
      have atStart : localConsumerOffset = state.ring.consumerOffset := by omega
      subst atStart
      rw [header, ringHeaderLocked_recordHeaderOf small, submitted, if_neg (by decide)] at stepped
      cases stepped
      refine ⟨_, _, _, { layout with consumerAt := ⟨consumerAt.1, [first], rest, split, ?_, ?_⟩ },
        ⟨first, rest, split, submitted, ends, handed⟩, .inr (by rw [size, ends])⟩
      · rw [size]
        exact .cons placed (.nil _)
      · intro reservation member
        rw [List.mem_singleton.mp member, submitted]
        decide
    case isFalse notBelow =>
      have atEnd : localConsumerOffset = consumerOffset := by omega
      subst atEnd
      rw [if_neg (by simp)] at stepped
      cases stepped
      obtain ⟨_, walked, later, walkedSplit, run, unlocked⟩ := consumerAt
      rw [ends] at run
      have walked_eq := walked_eq_head split walkedSplit run
      subst walked_eq
      exact ⟨_, _, _, layout.giveBack walkedSplit (by rw [ends]; exact run) unlocked trivial, handed⟩
  all_goals cases stepped

end RingLayout

namespace DeliveryInvariant

theorem step {state next : RingState} {action : RingAction} (invariant : DeliveryInvariant state)
    (follows : state.consumerFollows action = true) (stepped : state.step action = some next) :
    DeliveryInvariant next := by
  obtain ⟨passed, published, inFlight, layout, delivered⟩ := invariant
  cases action with
  | reserve producer length =>
    exact ⟨_, _, _, layout.reserveStart stepped,
      delivered.producerStep (RingState.reserveStart_consumerSide stepped) (.refl _ _)⟩
  | advance producer =>
    obtain ⟨_, _, _, advanced, keeps⟩ := layout.advanceProducer stepped
    exact ⟨_, _, _, advanced, delivered.producerStep (RingState.advanceProducer_consumerSide stepped) keeps⟩
  | submit producer =>
    obtain ⟨_, _, _, submitted, keeps⟩ := layout.submitRecord stepped
    exact ⟨_, _, _, submitted, delivered.producerStep (RingState.submitRecord_consumerSide stepped) keeps⟩
  | discard producer =>
    obtain ⟨_, _, _, discarded, keeps⟩ := layout.discardRecord stepped
    exact ⟨_, _, _, discarded, delivered.producerStep (RingState.discardRecord_consumerSide stepped) keeps⟩
  | nextRecord => exact layout.startNextRecord_delivered delivered follows stepped
  | returnBuffer consumerOffset => exact layout.startReturnBuffer_delivered delivered follows stepped
  | advanceConsumer => exact layout.advanceConsumer_delivered delivered stepped

theorem run {state : RingState} (invariant : DeliveryInvariant state) (actions : List RingAction)
    (follows : consumerFollowsRun actions state = true) : DeliveryInvariant (ringRun actions state) := by
  induction actions generalizing state with
  | nil => exact invariant
  | cons action actions ih =>
    simp only [consumerFollowsRun, Bool.and_eq_true] at follows
    apply ih _ follows.2
    cases stepped : state.step action with
    | none => exact invariant
    | some next => exact invariant.step follows.1 stepped

theorem delivered_prefix {state : RingState} (invariant : DeliveryInvariant state) :
    ∃ reserved, state.delivered = deliveredOf (state.reservations.take reserved) ∧
      ∀ reservation ∈ state.reservations.take reserved, reservation.state ≠ .locked := by
  obtain ⟨passed, published, inFlight, layout, delivered⟩ := invariant
  have log := layout.log
  unfold DeliveredAt at delivered
  have holding : ∀ nextOffset, HoldsHead state passed published nextOffset →
      ∃ reserved, state.delivered = deliveredOf (state.reservations.take reserved) ∧
        ∀ reservation ∈ state.reservations.take reserved, reservation.state ≠ .locked := by
    rintro nextOffset ⟨first, rest, split, submitted, _, handed⟩
    have taken : state.reservations.take (passed.length + 1) = passed ++ [first] := by
      rw [log, split, List.append_assoc, List.take_length_add_append]
      simp
    refine ⟨passed.length + 1, by rw [taken]; exact handed, ?_⟩
    rw [taken]
    intro reservation member
    rcases List.mem_append.mp member with early | held
    · exact layout.passedUnlocked reservation early
    · rw [List.mem_singleton.mp held, submitted]
      decide
  have passedOnly : state.delivered = deliveredOf passed →
      ∃ reserved, state.delivered = deliveredOf (state.reservations.take reserved) ∧
        ∀ reservation ∈ state.reservations.take reserved, reservation.state ≠ .locked := by
    intro handed
    have taken : state.reservations.take passed.length = passed := by
      rw [log, List.append_assoc, List.take_left]
    exact ⟨passed.length, by rw [taken]; exact handed, by rw [taken]; exact layout.passedUnlocked⟩
  split at delivered
  · exact passedOnly delivered
  · exact passedOnly delivered
  · exact holding _ delivered
  · exact holding _ delivered.1

theorem delivered_nodup {state : RingState} (invariant : DeliveryInvariant state) :
    (state.delivered.map Prod.fst).Nodup := by
  obtain ⟨reserved, handed, _⟩ := invariant.delivered_prefix
  obtain ⟨_, _, _, layout, _⟩ := invariant
  have offsets := layout.wholeRun.nodup_offsets Reservation.size_pos
  rw [handed, deliveredOf, List.map_map]
  exact offsets.sublist ((List.filter_sublist.trans (List.take_sublist _ _)).map _)

end DeliveryInvariant

theorem DeliveryInvariant.initial {capacity : UInt64} {ring : EbpfRingBuffer}
    (allocated : ebpfRingBufferAllocateRing capacity true = .ok ring) : DeliveryInvariant (.initial ring) :=
  ⟨_, _, _, RingLayout.initial allocated, rfl⟩

/-- Any interleaving of any number of producers with the contract's consumer, from a ring just
allocated: what the consumer has been handed is, in the order the reservations succeeded and with
their reserved lengths, the submitted records among the first reservations, none of which is
still locked; and no record is handed twice. -/
theorem ring_buffer_delivers_submitted_in_order (capacity : UInt64) (ring : EbpfRingBuffer)
    (allocated : ebpfRingBufferAllocateRing capacity true = .ok ring) (actions : List RingAction)
    (follows : consumerFollowsRun actions (.initial ring) = true) :
    (∃ reserved, (ringRun actions (.initial ring)).delivered =
        deliveredOf ((ringRun actions (.initial ring)).reservations.take reserved) ∧
      ∀ reservation ∈ (ringRun actions (.initial ring)).reservations.take reserved, reservation.state ≠ .locked) ∧
      ((ringRun actions (.initial ring)).delivered.map Prod.fst).Nodup := by
  have invariant := (DeliveryInvariant.initial allocated).run actions follows
  exact ⟨invariant.delivered_prefix, invariant.delivered_nodup⟩

theorem ring_buffer_delivers_submitted_in_order_page :
    (∃ reserved, (ringRun [.reserve 0 8, .advance 0, .advance 0, .advance 0, .advance 0, .advance 0, .submit 0,
          .nextRecord, .advanceConsumer, .returnBuffer 16, .advanceConsumer, .advanceConsumer]
          (.initial ⟨4096, 0, 0, 0, fun _ => 0⟩)).delivered =
        deliveredOf ((ringRun [.reserve 0 8, .advance 0, .advance 0, .advance 0, .advance 0, .advance 0, .submit 0,
          .nextRecord, .advanceConsumer, .returnBuffer 16, .advanceConsumer, .advanceConsumer]
          (.initial ⟨4096, 0, 0, 0, fun _ => 0⟩)).reservations.take reserved) ∧
      ∀ reservation ∈ (ringRun [.reserve 0 8, .advance 0, .advance 0, .advance 0, .advance 0, .advance 0, .submit 0,
          .nextRecord, .advanceConsumer, .returnBuffer 16, .advanceConsumer, .advanceConsumer]
          (.initial ⟨4096, 0, 0, 0, fun _ => 0⟩)).reservations.take reserved, reservation.state ≠ .locked) ∧
      ((ringRun [.reserve 0 8, .advance 0, .advance 0, .advance 0, .advance 0, .advance 0, .submit 0,
          .nextRecord, .advanceConsumer, .returnBuffer 16, .advanceConsumer, .advanceConsumer]
          (.initial ⟨4096, 0, 0, 0, fun _ => 0⟩)).delivered.map Prod.fst).Nodup :=
  ring_buffer_delivers_submitted_in_order 4096 _ rfl _ (by decide)

end EbpfWindows.Runtime
