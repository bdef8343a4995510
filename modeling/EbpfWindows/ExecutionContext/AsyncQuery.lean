import EbpfWindows.Runtime.Result
import EbpfWindows.Lib.KeyedList

/-! Async operations and their cancellation (`ebpf_async.c`), with the async query of a ring
buffer map (`_map_async_query`, `_map_async_query_complete`, `_map_async_query_cancel` and
`_ebpf_ring_buffer_map_cancel_async_query` in `ebpf_maps.c`).

Two threads run against each other once a query is pending. The IRP's cancel routine enters
an epoch and calls `ebpf_async_cancel` (`ebpf_core_cancel_protocol_handler`); a producer
writes a record and signals the pending queries under the map's async lock
(`ebpf_ring_buffer_map_output`). Each thread is a program counter over the steps of its C
code between which the other thread may run, and the async lock is a holder that a step
waits for.

The tracker table is epoch-managed and the cancel routine runs in an epoch, so a tracker it
found stays readable. A query context is pool memory: after `ebpf_free` it still holds what
it held, and every read of it after the free is recorded as a fault.
-/

set_option autoImplicit false

namespace EbpfWindows.ExecutionContext

/-- `ebpf_async_tracker_t`, with each callback as whether it is set. -/
structure EbpfAsyncTracker where
  onComplete : Bool
  cancellationContext : Nat
  onCancel : Bool
  deriving DecidableEq, Repr

/-- `_ebpf_async_tracker_table`: the trackers keyed by their async context, each key at most once. -/
structure AsyncTrackerTable where
  entries : List (Nat × EbpfAsyncTracker)
  unique : (entries.map Prod.fst).Nodup
  deriving DecidableEq

namespace AsyncTrackerTable

variable (table : AsyncTrackerTable) (asyncContext : Nat)

/-- `_tracker_from_context`. -/
def find : Option EbpfAsyncTracker :=
  (KeyedList.find Prod.fst table.entries asyncContext).map Prod.snd

/-- `ebpf_hash_table_update` with `EBPF_HASH_TABLE_OPERATION_INSERT`. -/
def insert (tracker : EbpfAsyncTracker) : EbpfResult × AsyncTrackerTable :=
  if absent : asyncContext ∉ table.entries.map Prod.fst then
    (.success, ⟨table.entries ++ [(asyncContext, tracker)], KeyedList.nodup_append_of_not_mem table.unique absent⟩)
  else (.objectAlreadyExists, table)

/-- A write through the tracker `_tracker_from_context` found. -/
def modify (update : EbpfAsyncTracker → EbpfAsyncTracker) : AsyncTrackerTable :=
  ⟨table.entries.modify (KeyedList.findIndex Prod.fst table.entries asyncContext) (fun entry => (entry.1, update entry.2)),
    by
      rw [@KeyedList.map_modify _ _ Prod.fst _ (fun entry => (entry.1, update entry.2)) (fun _ => rfl)]
      exact table.unique⟩

/-- `_remove_tracker`, an `ebpf_hash_table_delete`. -/
def delete : EbpfResult × AsyncTrackerTable :=
  if (table.find asyncContext).isSome then
    (.success, ⟨table.entries.eraseIdx (KeyedList.findIndex Prod.fst table.entries asyncContext),
      KeyedList.nodup_eraseIdx table.unique _⟩)
  else (.keyNotFound, table)

variable {table asyncContext}

theorem find_delete (other : Nat) :
    (table.delete asyncContext).2.find other = if asyncContext = other then none else table.find other := by
  unfold delete
  split
  case isTrue => simp only [find, KeyedList.find_eraseIdx_findIndex table.unique]; split <;> rfl
  case isFalse absent =>
    by_cases same : asyncContext = other
    · subst same
      simpa using absent
    · simp [same]

theorem find_modify (update : EbpfAsyncTracker → EbpfAsyncTracker) (other : Nat) :
    (table.modify asyncContext update).find other =
      if asyncContext = other then (table.find asyncContext).map update else table.find other := by
  simp only [modify, find]
  rw [@KeyedList.find_modify_findIndex _ _ _ Prod.fst table.entries asyncContext
    (fun entry => (entry.1, update entry.2)) (fun _ => rfl) other]
  split <;> simp [Option.map_map, Function.comp_def]

theorem delete_of_find_isSome (found : (table.find asyncContext).isSome) : (table.delete asyncContext).1 = .success := by
  simp [delete, found]

end AsyncTrackerTable

/-- The fields of `ebpf_core_map_async_query_context_t` that are read after it is queued. -/
structure EbpfCoreMapAsyncQueryContext where
  index : UInt64
  asyncContext : Nat
  deriving DecidableEq, Repr

/-- The two threads of the race. -/
inductive AsyncThread where
  | cancel
  | producer
  deriving DecidableEq, Repr

/-- Where the cancel routine stands, each step named by what it does next. -/
inductive CancelStep where
  /-- `ebpf_async_cancel` is about to look up the tracker of the async context. -/
  | asyncCancel (asyncContext : Nat)
  /-- `on_cancel(c)`: `_ebpf_ring_buffer_map_cancel_async_query` reads `context->map`. -/
  | readMap (context : Nat)
  /-- `_map_async_query_cancel` waits for the async lock. -/
  | lock (context : Nat)
  /-- It searches the list for the context, holding the lock. -/
  | search (context : Nat)
  /-- After the unlock: `ebpf_async_complete_with_epoch(found_context->async_context, 0, EBPF_CANCELED)`. -/
  | complete (context : Nat)
  /-- `ebpf_free(found_context)`. -/
  | free (context : Nat)
  /-- `ebpf_async_cancel` has returned. -/
  | returned (found : Bool)
  deriving DecidableEq, Repr

/-- Where the producer stands in `ebpf_ring_buffer_map_output` after its record is written. -/
inductive ProducerStep where
  /-- It waits for the async lock. -/
  | lock
  /-- `_map_async_query_complete`: the trip wire, then the loop's test of the list. -/
  | loop
  /-- `ebpf_async_complete_with_epoch(context->async_context, sizeof(*reply), EBPF_SUCCESS)`. -/
  | complete (context : Nat)
  /-- `ebpf_free(context)`. -/
  | free (context : Nat)
  /-- The lock is released and the output call has returned. -/
  | returned
  deriving DecidableEq, Repr

/-- The shared state of the race and the two program counters. `memory` holds every query
context allocated, newest first, and `freed` the ones given back since; `completions` logs
each `on_complete` call and `faults` each read of a freed query context. -/
structure AsyncState where
  trackers : AsyncTrackerTable
  contexts : List Nat
  tripWire : Bool
  memory : List (Nat × EbpfCoreMapAsyncQueryContext)
  freed : List Nat
  lockHolder : Option AsyncThread
  completions : List (Nat × EbpfResult)
  faults : List Nat
  cancel : CancelStep
  producer : ProducerStep
  deriving DecidableEq

namespace AsyncState

variable (state : AsyncState)

/-- Nothing registered, nothing queued, and both threads idle. -/
def empty : AsyncState :=
  ⟨⟨[], List.nodup_nil⟩, [], false, [], [], none, [], [], .returned false, .returned⟩

/-- A read of the query context at `context`; a read of freed memory is recorded. -/
def read (context : Nat) : AsyncState :=
  { state with faults := if context ∈ state.freed then state.faults ++ [context] else state.faults }

/-- What the query context at `context` holds as its `async_context`. -/
def asyncContextAt (context : Nat) : Nat :=
  ((KeyedList.find Prod.fst state.memory context).map (·.2.asyncContext)).getD 0

/-- `ebpf_free` of a query context. -/
def ebpfFree (context : Nat) : AsyncState :=
  { state with freed := context :: state.freed }

/-- `ebpf_async_set_completion_callback`: a new tracker with only `on_complete` set. -/
def ebpfAsyncSetCompletionCallback (asyncContext : Nat) : EbpfResult × AsyncState :=
  let (result, trackers) := state.trackers.insert asyncContext ⟨true, 0, false⟩
  (result, { state with trackers })

/-- `ebpf_async_set_cancel_callback`, with the ring buffer map's cancel callback. -/
def ebpfAsyncSetCancelCallback (asyncContext cancellationContext : Nat) : EbpfResult × AsyncState :=
  match state.trackers.find asyncContext with
  | none => (.invalidArgument, state)
  | some _ =>
    let trackers := state.trackers.modify asyncContext fun tracker =>
      { tracker with cancellationContext, onCancel := true }
    (.success, { state with trackers })

/-- `ebpf_async_complete`: the tracker is looked up and removed and its `on_complete` called;
without a tracker the call is a double completion and does nothing. -/
def ebpfAsyncComplete (asyncContext : Nat) (result : EbpfResult) : AsyncState :=
  match state.trackers.find asyncContext with
  | none => state
  | some tracker =>
    if (state.trackers.delete asyncContext).1 = .success then
      { state with
        trackers := (state.trackers.delete asyncContext).2
        completions := if tracker.onComplete then state.completions ++ [(asyncContext, result)] else state.completions }
    else state

/-- `ebpf_async_complete_with_epoch(context->async_context, ..., result)`, the query context read first. -/
def completeQuery (context : Nat) (result : EbpfResult) : AsyncState :=
  (state.read context).ebpfAsyncComplete (state.asyncContextAt context) result

/-- The body of `_map_async_query_complete`'s loop, one queued context after another, with
the lock held throughout: the head is queried and taken off the list, completed with
`EBPF_SUCCESS`, and freed. -/
def completeQueued : List Nat → AsyncState → AsyncState
  | [], state => state
  | context :: rest, state =>
    completeQueued rest (({ state.read context with contexts := rest }.completeQuery context .success).ebpfFree context)

/-- `_map_async_query_complete` with no other thread in between. -/
def mapAsyncQueryComplete : AsyncState :=
  if state.tripWire then completeQueued state.contexts state else state

/-- `_map_async_query` on a ring buffer map, from a state in which the async lock is free:
`allocated` is whether the pool gives the query context, at address `context`, and
`dataAvailable` whether the ring already holds records past the consumer. -/
def mapAsyncQuery (index : UInt64) (asyncContext context : Nat) (allocated dataAvailable : Bool) :
    EbpfResult × AsyncState :=
  if !state.contexts.isEmpty then (.invalidArgument, state)
  else if !allocated then (.noMemory, state)
  else
    let allocatedState := { state with
      memory := (context, ⟨index, asyncContext⟩) :: state.memory
      freed := state.freed.filter (· ≠ context) }
    -- `ebpf_assert_success` of the cancel callback: its result is not looked at
    let queued := { (allocatedState.ebpfAsyncSetCancelCallback asyncContext context).2 with
      contexts := state.contexts ++ [context], tripWire := true }
    (.pending, if dataAvailable then queued.mapAsyncQueryComplete else queued)

/-- One step of the cancel routine, or `none` while it waits for the lock or once it has returned. -/
def cancelStep : Option AsyncState :=
  match state.cancel with
  | .asyncCancel asyncContext =>
    match state.trackers.find asyncContext with
    | none => some { state with cancel := .returned false }
    | some tracker =>
      if tracker.onCancel then some { state with cancel := .readMap tracker.cancellationContext }
      else some { state with cancel := .returned true }
  | .readMap context => some { state.read context with cancel := .lock context }
  | .lock context =>
    if state.lockHolder = none then some { state with lockHolder := some .cancel, cancel := .search context }
    else none
  | .search context =>
    -- the search compares pointers and breaks at the first match
    if context ∈ state.contexts then
      some { state with contexts := state.contexts.erase context, lockHolder := none, cancel := .complete context }
    else some { state with lockHolder := none, cancel := .returned true }
  | .complete context => some { state.completeQuery context .canceled with cancel := .free context }
  | .free context => some { state.ebpfFree context with cancel := .returned true }
  | .returned _ => none

/-- One step of the producer, or `none` while it waits for the lock or once it has returned. -/
def producerStep : Option AsyncState :=
  match state.producer with
  | .lock =>
    if state.lockHolder = none then some { state with lockHolder := some .producer, producer := .loop }
    else none
  | .loop =>
    if !state.tripWire then some { state with lockHolder := none, producer := .returned }
    else
      match state.contexts with
      | [] => some { state with lockHolder := none, producer := .returned }
      | context :: rest => some { state.read context with contexts := rest, producer := .complete context }
  -- the completion runs with the lock still held
  | .complete context => some { state.completeQuery context .success with producer := .free context }
  | .free context => some { state.ebpfFree context with producer := .loop }
  | .returned => none

/-- One step of the given thread. -/
def step : AsyncThread → Option AsyncState
  | .cancel => state.cancelStep
  | .producer => state.producerStep

end AsyncState

/-- A run: the threads in the order the scheduler picks them; a thread that cannot move lets
its turn pass. -/
def runAsync : List AsyncThread → AsyncState → AsyncState
  | [], state => state
  | thread :: schedule, state => runAsync schedule ((state.step thread).getD state)

/-- The state in which the race starts: the completion callback of the async context set,
then `_map_async_query` with its query context at pool address `context` and no data
available yet, the IRP's cancel routine about to call `ebpf_async_cancel`, and a producer
about to signal the map's queries. -/
def pendingQuery (asyncContext context : Nat) : AsyncState :=
  let registered := (AsyncState.empty.ebpfAsyncSetCompletionCallback asyncContext).2
  let queued := (registered.mapAsyncQuery 0 asyncContext context true false).2
  { queued with cancel := .asyncCancel asyncContext, producer := .lock }

/-- How many `on_complete` calls the log holds for the async context. -/
def completionCount (completions : List (Nat × EbpfResult)) (asyncContext : Nat) : Nat :=
  (completions.filter fun completion => completion.1 = asyncContext).length

@[simp] theorem completionCount_append_self (completions : List (Nat × EbpfResult)) (asyncContext : Nat)
    (result : EbpfResult) :
    completionCount (completions ++ [(asyncContext, result)]) asyncContext = completionCount completions asyncContext + 1 := by
  simp [completionCount]

namespace AsyncState

variable (state : AsyncState)

/-- Who owes the query's completion: the queued context, a thread about to complete it, and
each completion already made. In a race this is always one. -/
def completionTokens (asyncContext context : Nat) : Nat :=
  state.contexts.count context + (if state.producer = .complete context then 1 else 0) +
    (if state.cancel = .complete context then 1 else 0) + completionCount state.completions asyncContext

variable {state}

theorem ebpfAsyncComplete_of_find_some {asyncContext : Nat} {tracker : EbpfAsyncTracker} (result : EbpfResult)
    (found : state.trackers.find asyncContext = some tracker) :
    state.ebpfAsyncComplete asyncContext result =
      { state with
        trackers := (state.trackers.delete asyncContext).2
        completions := if tracker.onComplete then state.completions ++ [(asyncContext, result)] else state.completions } := by
  have removed := AsyncTrackerTable.delete_of_find_isSome (by simp [found] : (state.trackers.find asyncContext).isSome)
  simp [ebpfAsyncComplete, found, removed]

end AsyncState

open AsyncState

/-- What holds of every state of the race from `pendingQuery asyncContext context`. Exactly
one party owes the completion; the tracker, with both callbacks, is registered until the
completion is made and gone after; each thread stands at a step for this query; and the
producer only returns once the list is empty. -/
structure RaceInvariant (asyncContext context : Nat) (state : AsyncState) : Prop where
  tripWire : state.tripWire = true
  memory : state.asyncContextAt context = asyncContext
  queue : state.contexts = [] ∨ state.contexts = [context]
  owed : state.completionTokens asyncContext context = 1
  registered : state.trackers.find asyncContext =
    if completionCount state.completions asyncContext = 0 then some ⟨true, context, true⟩ else none
  cancelAt : state.cancel = .asyncCancel asyncContext ∨ state.cancel = .readMap context ∨
    state.cancel = .lock context ∨ state.cancel = .search context ∨ state.cancel = .complete context ∨
    state.cancel = .free context ∨ ∃ found, state.cancel = .returned found
  producerAt : state.producer = .lock ∨ state.producer = .loop ∨ state.producer = .complete context ∨
    state.producer = .free context ∨ state.producer = .returned
  drained : state.producer = .returned → state.contexts = []

namespace RaceInvariant

variable {asyncContext context : Nat} {state : AsyncState}

theorem completeQuery_eq (inv : RaceInvariant asyncContext context state)
    (unmade : completionCount state.completions asyncContext = 0) (result : EbpfResult) :
    state.completeQuery context result =
      { state.read context with
        trackers := (state.trackers.delete asyncContext).2
        completions := state.completions ++ [(asyncContext, result)] } := by
  have found : (state.read context).trackers.find asyncContext = some ⟨true, context, true⟩ := by
    simpa [AsyncState.read, unmade] using inv.registered
  rw [completeQuery, inv.memory, ebpfAsyncComplete_of_find_some result found]
  rfl

theorem completed (inv : RaceInvariant asyncContext context state) (result : EbpfResult) (cancel : CancelStep)
    (producer : ProducerStep) (tokens : ({ state with cancel, producer } : AsyncState).completionTokens asyncContext context = 0)
    (cancelAt : cancel = .asyncCancel asyncContext ∨ cancel = .readMap context ∨ cancel = .lock context ∨
      cancel = .search context ∨ cancel = .complete context ∨ cancel = .free context ∨ ∃ found, cancel = .returned found)
    (producerAt : producer = .lock ∨ producer = .loop ∨ producer = .complete context ∨
      producer = .free context ∨ producer = .returned)
    (drained : producer = .returned → state.contexts = []) :
    RaceInvariant asyncContext context { state.read context with
      trackers := (state.trackers.delete asyncContext).2
      completions := state.completions ++ [(asyncContext, result)]
      cancel, producer } := by
  have unmade : completionCount state.completions asyncContext = 0 := by
    simp only [completionTokens] at tokens
    omega
  refine ⟨inv.tripWire, inv.memory, inv.queue, ?_, ?_, cancelAt, producerAt, drained⟩
  · simp only [completionTokens, AsyncState.read, completionCount_append_self] at tokens ⊢
    omega
  · simp [AsyncTrackerTable.find_delete]

theorem cancelStep (inv : RaceInvariant asyncContext context state) {next : AsyncState}
    (stepped : state.cancelStep = some next) : RaceInvariant asyncContext context next := by
  have tokens := inv.owed
  rcases inv.cancelAt with pc | pc | pc | pc | pc | pc | ⟨found, pc⟩
  · -- `ebpf_async_cancel` finds the tracker exactly while the completion is not made
    by_cases unmade : completionCount state.completions asyncContext = 0
    · have found : state.trackers.find asyncContext = some ⟨true, context, true⟩ := by
        simpa [unmade] using inv.registered
      simp only [AsyncState.cancelStep, pc, found, if_true] at stepped
      cases stepped
      exact { inv with owed := by simpa [completionTokens, pc] using tokens, cancelAt := by simp }
    · have found : state.trackers.find asyncContext = none := by simpa [unmade] using inv.registered
      simp only [AsyncState.cancelStep, pc, found] at stepped
      cases stepped
      exact { inv with owed := by simpa [completionTokens, pc] using tokens, cancelAt := by simp }
  · simp only [AsyncState.cancelStep, pc] at stepped
    cases stepped
    exact { inv with owed := by simpa [completionTokens, AsyncState.read, pc] using tokens, cancelAt := by simp }
  · simp only [AsyncState.cancelStep, pc] at stepped
    split at stepped
    case isTrue =>
      cases stepped
      exact { inv with owed := by simpa [completionTokens, pc] using tokens, cancelAt := by simp }
    case isFalse => cases stepped
  · simp only [AsyncState.cancelStep, pc] at stepped
    split at stepped
    case isTrue queued =>
      have single : state.contexts = [context] := inv.queue.resolve_left (by intro empty; simp [empty] at queued)
      cases stepped
      refine { inv with queue := by simp [single], owed := ?_, cancelAt := by simp, drained := fun _ => by simp [single] }
      simp [completionTokens, pc, single] at tokens ⊢
      omega
    case isFalse =>
      cases stepped
      exact { inv with owed := by simpa [completionTokens, pc] using tokens, cancelAt := by simp }
  · -- the cancel holds the token, so the completion is not made and no other party owes it
    simp only [completionTokens, pc, if_true] at tokens
    have unmade : completionCount state.completions asyncContext = 0 := by omega
    simp only [AsyncState.cancelStep, pc, inv.completeQuery_eq unmade] at stepped
    cases stepped
    have handed : ({ state with cancel := .free context } : AsyncState).completionTokens asyncContext context = 0 := by
      simp only [completionTokens, reduceCtorEq, if_false]
      omega
    exact inv.completed .canceled (.free context) state.producer handed (by simp) inv.producerAt inv.drained
  · simp only [AsyncState.cancelStep, pc] at stepped
    cases stepped
    exact { inv with owed := by simpa [completionTokens, AsyncState.ebpfFree, pc] using tokens, cancelAt := by simp }
  · simp [AsyncState.cancelStep, pc] at stepped

theorem producerStep (inv : RaceInvariant asyncContext context state) {next : AsyncState}
    (stepped : state.producerStep = some next) : RaceInvariant asyncContext context next := by
  have tokens := inv.owed
  rcases inv.producerAt with pc | pc | pc | pc | pc
  · simp only [AsyncState.producerStep, pc] at stepped
    split at stepped
    case isTrue =>
      cases stepped
      exact { inv with owed := by simpa [completionTokens, pc] using tokens, producerAt := by simp, drained := by simp }
    case isFalse => cases stepped
  · -- `_map_async_query_complete`: the trip wire is set, so the loop looks at the list
    simp only [AsyncState.producerStep, pc] at stepped
    rw [if_neg (by simp [inv.tripWire])] at stepped
    split at stepped
    case h_1 empty =>
      cases stepped
      refine { inv with owed := ?_, producerAt := by simp, drained := fun _ => empty }
      simpa [completionTokens, pc] using tokens
    case h_2 head rest queued =>
      have single : state.contexts = [context] := inv.queue.resolve_left (by simp [queued])
      rw [single, List.cons.injEq] at queued
      obtain ⟨rfl, rfl⟩ := queued
      cases stepped
      refine { inv with queue := by simp, owed := ?_, producerAt := by simp, drained := by simp }
      simp [completionTokens, AsyncState.read, pc, single] at tokens ⊢
      omega
  · -- the producer holds the token, so the completion is not made and no other party owes it
    simp only [completionTokens, pc, if_true] at tokens
    have unmade : completionCount state.completions asyncContext = 0 := by omega
    simp only [AsyncState.producerStep, pc, inv.completeQuery_eq unmade] at stepped
    cases stepped
    have handed : ({ state with producer := .free context } : AsyncState).completionTokens asyncContext context = 0 := by
      simp only [completionTokens, reduceCtorEq, if_false]
      omega
    exact inv.completed .success state.cancel (.free context) handed inv.cancelAt (by simp) (by simp)
  · simp only [AsyncState.producerStep, pc] at stepped
    cases stepped
    refine { inv with owed := ?_, producerAt := by simp, drained := by simp }
    simpa [completionTokens, AsyncState.ebpfFree, pc] using tokens
  · simp [AsyncState.producerStep, pc] at stepped

theorem step (inv : RaceInvariant asyncContext context state) (thread : AsyncThread) {next : AsyncState}
    (stepped : state.step thread = some next) : RaceInvariant asyncContext context next := by
  cases thread
  case cancel => exact inv.cancelStep stepped
  case producer => exact inv.producerStep stepped

theorem run (inv : RaceInvariant asyncContext context state) (schedule : List AsyncThread) :
    RaceInvariant asyncContext context (runAsync schedule state) := by
  induction schedule generalizing state with
  | nil => exact inv
  | cons thread schedule ih =>
    cases stepped : state.step thread with
    | none => simpa [runAsync, stepped] using ih inv
    | some next => simpa [runAsync, stepped] using ih (inv.step thread stepped)

end RaceInvariant

theorem pendingQuery_eq (asyncContext context : Nat) :
    pendingQuery asyncContext context =
      ⟨⟨[(asyncContext, ⟨true, context, true⟩)], by simp⟩, [context], true, [(context, ⟨0, asyncContext⟩)], [], none,
        [], [], .asyncCancel asyncContext, .lock⟩ := by
  simp [pendingQuery, AsyncState.empty, AsyncState.ebpfAsyncSetCompletionCallback, AsyncTrackerTable.insert,
    AsyncState.mapAsyncQuery, AsyncState.ebpfAsyncSetCancelCallback, AsyncTrackerTable.find, AsyncTrackerTable.modify,
    KeyedList.find, KeyedList.findIndex]

theorem pendingQuery_raceInvariant (asyncContext context : Nat) :
    RaceInvariant asyncContext context (pendingQuery asyncContext context) := by
  rw [pendingQuery_eq]
  refine ⟨rfl, ?_, by simp, ?_, ?_, by simp, by simp, by simp⟩
  · simp [AsyncState.asyncContextAt, KeyedList.find]
  · simp [completionTokens, completionCount]
  · simp [completionCount, AsyncTrackerTable.find, KeyedList.find]

theorem race_completes_once (asyncContext context : Nat) (schedule : List AsyncThread) (found : Bool)
    (cancelReturned : (runAsync schedule (pendingQuery asyncContext context)).cancel = .returned found)
    (producerReturned : (runAsync schedule (pendingQuery asyncContext context)).producer = .returned) :
    completionCount (runAsync schedule (pendingQuery asyncContext context)).completions asyncContext = 1 := by
  have inv := (pendingQuery_raceInvariant asyncContext context).run schedule
  have tokens := inv.owed
  simp only [completionTokens, cancelReturned, producerReturned, inv.drained producerReturned] at tokens
  simpa using tokens

theorem race_cancel_after_completion_returns_false (asyncContext context : Nat) (schedule : List AsyncThread)
    (completedFirst : 0 < completionCount (runAsync schedule (pendingQuery asyncContext context)).completions asyncContext)
    (starting : (runAsync schedule (pendingQuery asyncContext context)).cancel = .asyncCancel asyncContext) :
    (runAsync schedule (pendingQuery asyncContext context)).cancelStep =
      some { runAsync schedule (pendingQuery asyncContext context) with cancel := .returned false } := by
  have inv := (pendingQuery_raceInvariant asyncContext context).run schedule
  have unregistered : (runAsync schedule (pendingQuery asyncContext context)).trackers.find asyncContext = none := by
    simpa [Nat.pos_iff_ne_zero.mp completedFirst] using inv.registered
  simp [AsyncState.cancelStep, starting, unregistered]


/-- The cancel routine finds the tracker and is about to call `on_cancel(c)` when the producer
takes the context off the list, completes the query and frees the context. The cancel callback
then reads `context->map` from freed memory (the fault logged), takes the lock, finds the list
empty and returns. -/
theorem cancel_reads_the_freed_query_context (asyncContext context : Nat) :
    runAsync [.cancel, .producer, .producer, .producer, .producer, .cancel, .producer, .cancel, .cancel]
        (pendingQuery asyncContext context) =
      ⟨⟨[], List.nodup_nil⟩, [], true, [(context, ⟨0, asyncContext⟩)], [context], none, [(asyncContext, .success)],
        [context], .returned true, .returned⟩ := by
  rw [pendingQuery_eq]
  simp [runAsync, AsyncState.step, AsyncState.cancelStep, AsyncState.producerStep, AsyncState.read,
    AsyncState.completeQuery, AsyncState.asyncContextAt, AsyncState.ebpfAsyncComplete, AsyncState.ebpfFree,
    AsyncTrackerTable.find, AsyncTrackerTable.delete, KeyedList.find, KeyedList.findIndex]

end EbpfWindows.ExecutionContext
