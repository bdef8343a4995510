import EbpfWindows.Runtime.Result
import Mathlib.Data.List.Chain

/-! Tail calls: `ebpf_program_invoke` and `ebpf_program_set_tail_call` (`ebpf_program.c`),
reached from a program through `_ebpf_core_tail_call` (`ebpf_core.c`).

An invocation runs the program, and then, while the run left a target in the execution
state, that target, at most `MAX_TAIL_CALL_CNT + 1` runs in all. The count lives in the same
state: `ebpf_program_set_tail_call` refuses once it equals `MAX_TAIL_CALL_CNT`, the loop stops
before it passes it. A program run is what it does with tail calls: the targets it sets and
the value it returns, for each count and program (`ProgramRun`); the map lookup of
`_ebpf_core_tail_call` only decides which targets those are.
-/

set_option autoImplicit false

namespace EbpfWindows.ExecutionContext

/-- `MAX_TAIL_CALL_CNT` (`ebpf_structs.h`). -/
def maxTailCallCnt : Nat := 33

/-- `tail_call_state` of `ebpf_execution_context_state_t`, over a type `P` of programs. -/
structure EbpfTailCallState (P : Type) where
  nextProgram : Option P
  count : Nat
  deriving DecidableEq, Repr

/-- What a program does in one run, as far as tail calls go: the targets it passes to
`ebpf_program_set_tail_call`, in order, and the value it returns. -/
structure ProgramRun (P : Type) where
  tailCalls : List P
  returnValue : UInt32
  deriving DecidableEq, Repr

/-- One run of an invocation, as a log no code reads: the count it ran at, the program, its
tail calls with the answers they got, and its return value. -/
structure TailCallRun (P : Type) where
  count : Nat
  program : P
  tailCalls : List P
  answers : List EbpfResult
  returnValue : UInt32
  deriving DecidableEq, Repr

/-- What `ebpf_program_invoke` returns, the value it leaves in `*result`, the state it leaves,
and the log of its runs. -/
structure InvokeOutcome (P : Type) where
  result : EbpfResult
  returnValue : UInt32
  state : EbpfTailCallState P
  runs : List (TailCallRun P)
  deriving DecidableEq, Repr

variable {P : Type}

/-- `ebpf_program_set_tail_call` on the state the context header points to. -/
def ebpfProgramSetTailCall (state : EbpfTailCallState P) (nextProgram : P) :
    EbpfResult × EbpfTailCallState P :=
  if state.count = maxTailCallCnt then (.noMoreTailCalls, state)
  else (.success, { state with nextProgram := some nextProgram })

/-- A run's tail calls, each answered on the state the one before left. -/
def setTailCalls (state : EbpfTailCallState P) : List P → List EbpfResult × EbpfTailCallState P
  | [] => ([], state)
  | target :: rest =>
    let answered := ebpfProgramSetTailCall state target
    let rest := setTailCalls answered.2 rest
    (answered.1 :: rest.1, rest.2)

theorem setTailCalls_count (state : EbpfTailCallState P) (targets : List P) :
    (setTailCalls state targets).2.count = state.count := by
  induction targets generalizing state with
  | nil => rfl
  | cons target rest ih =>
    simp only [setTailCalls, ih, ebpfProgramSetTailCall]
    split_ifs <;> rfl

/-- The target of the last tail call of a run that succeeded. -/
def TailCallRun.successfulTarget (run : TailCallRun P) : Option P :=
  (((run.tailCalls.zip run.answers).filter fun call => call.2 == .success).getLast?).map Prod.fst

/-- The `for` loop of `ebpf_program_invoke` from the top of an iteration; `ready` is
`_ebpf_program_are_btf_providers_ready` for a native program and true for the others, and
`behaviour count program` is what `program` does when it runs at `count`. -/
def invokeLoop (ready : P → Bool) (behaviour : Nat → P → ProgramRun P) (current : P)
    (state : EbpfTailCallState P) (returnValue : UInt32) (runs : List (TailCallRun P)) : InvokeOutcome P :=
  if state.count < maxTailCallCnt + 1 then
    if ready current then
      let run := behaviour state.count current
      let called := setTailCalls state run.tailCalls
      let runs := runs ++ [⟨state.count, current, run.tailCalls, called.1, run.returnValue⟩]
      match called.2.nextProgram with
      | none => ⟨.success, run.returnValue, called.2, runs⟩
      | some next =>
        invokeLoop ready behaviour next { called.2 with nextProgram := none, count := called.2.count + 1 }
          run.returnValue runs
    else ⟨.extensionFailedToLoad, 0, state, runs⟩
  else ⟨.success, returnValue, state, runs⟩
termination_by maxTailCallCnt + 1 - state.count
decreasing_by
  have same := setTailCalls_count state (behaviour state.count current).tailCalls
  simp only [same]
  omega

/-- `ebpf_program_invoke`; `disableInvoke` is `ebpf_program_disable_invoke` and
`extensionLoaded` whether the program's `extension_program_data` is set. -/
def ebpfProgramInvoke (disableInvoke extensionLoaded : Bool) (ready : P → Bool)
    (behaviour : Nat → P → ProgramRun P) (program : P) (result : UInt32) (state : EbpfTailCallState P) :
    InvokeOutcome P :=
  if disableInvoke then ⟨.extensionFailedToLoad, 0, state, []⟩
  else if !extensionLoaded then ⟨.extensionFailedToLoad, 0, state, []⟩
  else invokeLoop ready behaviour program { state with count := 0 } result []

theorem setTailCalls_eq (state : EbpfTailCallState P) (targets : List P) :
    setTailCalls state targets =
      if state.count = maxTailCallCnt then (targets.map fun _ => .noMoreTailCalls, state)
      else (targets.map fun _ => .success, { state with nextProgram := targets.getLast?.or state.nextProgram }) := by
  induction targets generalizing state with
  | nil => split_ifs <;> rfl
  | cons target rest ih =>
    simp only [setTailCalls, ebpfProgramSetTailCall]
    split_ifs with last
    · rw [ih, if_pos last]
      rfl
    · rw [ih, if_neg last]
      cases lastOfRest : rest.getLast? with
      | none => simp [List.getLast?_cons, lastOfRest]
      | some final => simp [List.getLast?_cons, lastOfRest]

theorem zip_map_const {α β : Type} (l : List α) (b : β) : l.zip (l.map fun _ => b) = l.map fun a => (a, b) := by
  induction l with
  | nil => rfl
  | cons a rest ih => rw [List.map_cons, List.zip_cons_cons, ih, List.map_cons]

theorem successfulTarget_of_answers {run : TailCallRun P} {answer : EbpfResult}
    (answered : run.answers = run.tailCalls.map fun _ => answer) :
    run.successfulTarget = if answer = .success then run.tailCalls.getLast? else none := by
  unfold TailCallRun.successfulTarget
  rw [answered, zip_map_const]
  split_ifs with succeeded
  · subst succeeded
    rw [List.filter_eq_self.mpr (by simp), List.getLast?_map, Option.map_map]
    exact Option.map_id'
  · rw [List.filter_eq_nil_iff.mpr (by simpa using fun _ _ => succeeded)]
    rfl

section Chain

variable (behaviour : Nat → P → ProgramRun P) (program : P)

/-- The runs an invocation has made, read against what the programs do: run `k` ran at count
`k` and did what its program does at `k`, its tail calls got the answers `count` allows,
the first run is the invoked program, and every later run is the last target its
predecessor set. -/
structure RunsChained (runs : List (TailCallRun P)) : Prop where
  indexed : runs.map TailCallRun.count = List.range runs.length
  recorded : ∀ run ∈ runs, run.tailCalls = (behaviour run.count run.program).tailCalls ∧
    run.returnValue = (behaviour run.count run.program).returnValue ∧
    run.answers = run.tailCalls.map fun _ =>
      if run.count = maxTailCallCnt then .noMoreTailCalls else .success
  first : ∀ first ∈ runs.head?, first.program = program
  linked : runs.IsChain fun run next => run.successfulTarget = some next.program

/-- Where the loop stands at the top of an iteration: the state is fresh, the count is the
number of runs so far, and `current` is the target the last run set. -/
structure LoopEntry (runs : List (TailCallRun P)) (current : P) (state : EbpfTailCallState P) : Prop where
  chained : RunsChained behaviour program runs
  fresh : state.nextProgram = none
  counted : state.count = runs.length
  within : state.count < maxTailCallCnt + 1
  into : ∀ last ∈ runs.getLast?, last.successfulTarget = some current
  start : runs = [] → current = program

/-- What an invocation loop ends with. -/
structure InvokeEnded (outcome : InvokeOutcome P) : Prop where
  chained : RunsChained behaviour program outcome.runs
  bounded : outcome.runs.length ≤ maxTailCallCnt + 1
  ended : outcome.result = .success → ∃ last ∈ outcome.runs.getLast?,
    last.successfulTarget = none ∧ outcome.returnValue = last.returnValue
  failed : outcome.result ≠ .success → outcome.result = .extensionFailedToLoad ∧ outcome.returnValue = 0
  cleared : outcome.state.nextProgram = none

variable {behaviour program}

theorem RunsChained.snoc {runs : List (TailCallRun P)} {current : P} {state : EbpfTailCallState P}
    (entry : LoopEntry behaviour program runs current state) :
    RunsChained behaviour program (runs ++ [⟨state.count, current, (behaviour state.count current).tailCalls,
      (setTailCalls state (behaviour state.count current).tailCalls).1,
      (behaviour state.count current).returnValue⟩]) := by
  obtain ⟨chained, -, counted, -, into, start⟩ := entry
  refine ⟨?_, ?_, ?_, ?_⟩
  · rw [List.map_append, chained.indexed, List.length_append, List.length_singleton, List.range_succ,
      counted]
    rfl
  · intro run member
    rcases List.mem_append.mp member with old | new
    · exact chained.recorded run old
    · obtain rfl := List.mem_singleton.mp new
      refine ⟨rfl, rfl, ?_⟩
      rw [setTailCalls_eq]
      split_ifs <;> rfl
  · intro first member
    cases runs with
    | nil =>
      obtain rfl := Option.mem_some_iff.mp member
      exact start rfl
    | cons head rest => exact chained.first first member
  · exact chained.linked.append (List.isChain_singleton _) fun last member next new => by
      obtain rfl := Option.mem_some_iff.mp new
      exact into last member

theorem nextProgram_setTailCalls {state : EbpfTailCallState P} (fresh : state.nextProgram = none)
    (current : P) (run : ProgramRun P) :
    (setTailCalls state run.tailCalls).2.nextProgram =
      (⟨state.count, current, run.tailCalls, (setTailCalls state run.tailCalls).1, run.returnValue⟩ :
        TailCallRun P).successfulTarget := by
  rw [@successfulTarget_of_answers P _ (if state.count = maxTailCallCnt then .noMoreTailCalls else .success)
    (by rw [setTailCalls_eq]; split_ifs <;> rfl)]
  rw [setTailCalls_eq]
  split_ifs with last <;> simp_all

theorem count_lt_of_nextProgram {state : EbpfTailCallState P} (fresh : state.nextProgram = none)
    {targets : List P} {next : P} (left : (setTailCalls state targets).2.nextProgram = some next) :
    state.count ≠ maxTailCallCnt := by
  intro last
  rw [setTailCalls_eq, if_pos last, fresh] at left
  cases left

theorem invokeLoop_ended (ready : P → Bool) {current : P} {state : EbpfTailCallState P} {returnValue : UInt32}
    {runs : List (TailCallRun P)} (entry : LoopEntry behaviour program runs current state) :
    InvokeEnded behaviour program (invokeLoop ready behaviour current state returnValue runs) := by
  fun_induction invokeLoop ready behaviour current state returnValue runs with
  | case1 current state returnValue runs inside isReady run called runs' stopped =>
    have target := nextProgram_setTailCalls entry.fresh current run
    refine ⟨RunsChained.snoc entry, ?_, fun _ => ⟨⟨state.count, current, run.tailCalls, called.1, run.returnValue⟩, by simp [runs'],
      by rw [← target]; exact stopped, rfl⟩,
      fun wrong => absurd rfl wrong, stopped⟩
    simp only [runs', List.length_append, List.length_singleton, ← entry.counted]
    omega
  | case2 current state returnValue runs inside isReady run called runs' next moved ih =>
    have target := nextProgram_setTailCalls entry.fresh current run
    have notLast := count_lt_of_nextProgram entry.fresh moved
    apply ih
    refine ⟨RunsChained.snoc entry, rfl, ?_, ?_, ?_, fun empty => absurd empty (by simp [runs'])⟩
    · simp only [runs', List.length_append, List.length_singleton, ← entry.counted]
      rw [setTailCalls_count]
    · simp only [called, setTailCalls_count]
      unfold maxTailCallCnt at inside notLast ⊢
      omega
    · intro last member
      simp only [runs', List.getLast?_concat, Option.mem_some_iff] at member
      subst member
      rw [← target]
      exact moved
  | case3 current state returnValue runs inside notReady =>
    exact ⟨entry.chained, entry.counted ▸ Nat.le_of_lt inside, (fun wrong => by cases wrong),
      (fun _ => ⟨rfl, rfl⟩), entry.fresh⟩
  | case4 current state returnValue runs outside =>
    exact absurd entry.within outside

theorem RunsChained.nil : RunsChained behaviour program [] :=
  ⟨rfl, (fun _ member => by cases member), (fun _ member => by cases member), List.isChain_nil⟩

theorem ebpfProgramInvoke_ended (disableInvoke extensionLoaded : Bool) (ready : P → Bool)
    (result : UInt32) {state : EbpfTailCallState P} (fresh : state.nextProgram = none) :
    InvokeEnded behaviour program
      (ebpfProgramInvoke disableInvoke extensionLoaded ready behaviour program result state) := by
  have refused : InvokeEnded behaviour program ⟨.extensionFailedToLoad, 0, state, []⟩ :=
    ⟨RunsChained.nil, Nat.zero_le _, (fun wrong => by cases wrong), (fun _ => ⟨rfl, rfl⟩), fresh⟩
  unfold ebpfProgramInvoke
  split_ifs
  · exact refused
  · exact refused
  · exact invokeLoop_ended ready
      ⟨RunsChained.nil, fresh, rfl, Nat.zero_lt_succ _, (fun _ member => by cases member), fun _ => rfl⟩

end Chain

/-- Tail-call chaining over any behaviour of the programs: an invocation runs at most
`MAX_TAIL_CALL_CNT + 1` programs, run `k` is the last target run `k - 1` set, a tail call fails
exactly in the last run the count allows, the result is the last run's on success and zero
otherwise, and the state is left without a target. -/
theorem program_invoke_chains_tail_calls (disableInvoke extensionLoaded : Bool) (ready : P → Bool)
    (behaviour : Nat → P → ProgramRun P) (program : P) (result : UInt32) {state : EbpfTailCallState P}
    {outcome : InvokeOutcome P}
    (invoked : ebpfProgramInvoke disableInvoke extensionLoaded ready behaviour program result state = outcome)
    (fresh : state.nextProgram = none) :
    outcome.runs.length ≤ maxTailCallCnt + 1 ∧
      outcome.runs.map TailCallRun.count = List.range outcome.runs.length ∧
      (∀ run ∈ outcome.runs, run.tailCalls = (behaviour run.count run.program).tailCalls ∧
        run.returnValue = (behaviour run.count run.program).returnValue ∧
        run.answers = run.tailCalls.map fun _ =>
          if run.count = maxTailCallCnt then .noMoreTailCalls else .success) ∧
      (∀ first ∈ outcome.runs.head?, first.program = program) ∧
      outcome.runs.IsChain (fun run next => run.successfulTarget = some next.program) ∧
      (outcome.result = .success → ∃ last ∈ outcome.runs.getLast?,
        last.successfulTarget = none ∧ outcome.returnValue = last.returnValue) ∧
      (outcome.result ≠ .success → outcome.result = .extensionFailedToLoad ∧ outcome.returnValue = 0) ∧
      outcome.state.nextProgram = none := by
  subst invoked
  obtain ⟨⟨indexed, recorded, first, linked⟩, bounded, ended, failed, cleared⟩ : InvokeEnded behaviour program
      (ebpfProgramInvoke disableInvoke extensionLoaded ready behaviour program result state) :=
    ebpfProgramInvoke_ended disableInvoke extensionLoaded ready result fresh
  exact ⟨bounded, indexed, recorded, first, linked, ended, failed, cleared⟩

/-- A target that cannot run ends the invocation with `EBPF_EXTENSION_FAILED_TO_LOAD` and a zero
result, though the program that set it ran and returned 7. -/
theorem program_invoke_returns_zero_when_a_target_cannot_run :
    ebpfProgramInvoke false true (fun program : Nat => decide (program = 0))
        (fun _ program => if program = 0 then ⟨[1], 7⟩ else ⟨[], 9⟩) 0 5 ⟨none, 0⟩ =
      ⟨.extensionFailedToLoad, 0, ⟨none, 1⟩, [⟨0, 0, [1], [.success], 7⟩]⟩ := by
  simp only [ebpfProgramInvoke]
  rw [invokeLoop]
  simp [setTailCalls, ebpfProgramSetTailCall, maxTailCallCnt]
  rw [invokeLoop]
  simp [maxTailCallCnt]

theorem program_invoke_chains_tail_calls_through_thirty_four_programs :
    ∃ outcome, ebpfProgramInvoke false true (fun _ => true)
        (fun _ (program : Nat) => ⟨[program + 2, program + 1], program.toUInt32⟩) 0 0 ⟨none, 0⟩ = outcome ∧
      (none : Option Nat) = none ∧
      outcome.runs.length ≤ maxTailCallCnt + 1 ∧
      outcome.runs.map TailCallRun.count = List.range outcome.runs.length ∧
      (∀ run ∈ outcome.runs, run.tailCalls = [run.program + 2, run.program + 1] ∧
        run.returnValue = run.program.toUInt32 ∧
        run.answers = run.tailCalls.map fun _ =>
          if run.count = maxTailCallCnt then .noMoreTailCalls else .success) ∧
      (∀ first ∈ outcome.runs.head?, first.program = 0) ∧
      outcome.runs.IsChain (fun run next => run.successfulTarget = some next.program) ∧
      (outcome.result = .success → ∃ last ∈ outcome.runs.getLast?,
        last.successfulTarget = none ∧ outcome.returnValue = last.returnValue) ∧
      (outcome.result ≠ .success → outcome.result = .extensionFailedToLoad ∧ outcome.returnValue = 0) ∧
      outcome.state.nextProgram = none := by
  obtain ⟨outcome, invoked⟩ : ∃ outcome, ebpfProgramInvoke false true (fun _ => true)
      (fun _ (program : Nat) => (⟨[program + 2, program + 1], program.toUInt32⟩ : ProgramRun Nat)) 0 0
      ⟨none, 0⟩ = outcome := ⟨_, rfl⟩
  exact ⟨outcome, invoked, rfl, program_invoke_chains_tail_calls false true _ _ 0 0 invoked rfl⟩

/-- The repeat loop of `ebpf_program_execute_test_run`: every invocation gets the execution
state and the return value the one before left, and one that fails ends the loop. The list
holds the state each invocation started from. -/
def testRunInvocations (invoke : Nat → EbpfTailCallState P → UInt32 → InvokeOutcome P) :
    Nat → Nat → EbpfTailCallState P → UInt32 → List (EbpfTailCallState P)
  | 0, _, _, _ => []
  | remaining + 1, iteration, state, returnValue =>
    state :: if (invoke iteration state returnValue).result = .success then
      testRunInvocations invoke remaining (iteration + 1) (invoke iteration state returnValue).state
        (invoke iteration state returnValue).returnValue
    else []

theorem testRunInvocations_fresh (disableInvoke extensionLoaded : Bool) (ready : P → Bool)
    (behaviour : Nat → Nat → P → ProgramRun P) (program : P) :
    ∀ (repeatCount iteration : Nat) (state : EbpfTailCallState P) (returnValue : UInt32),
      state.nextProgram = none →
      ∀ entry ∈ testRunInvocations (fun iteration state returnValue =>
          ebpfProgramInvoke disableInvoke extensionLoaded ready (behaviour iteration) program returnValue state)
          repeatCount iteration state returnValue,
        entry.nextProgram = none
  | 0, _, _, _, _ => fun _ member => by cases member
  | repeatCount + 1, iteration, state, returnValue, fresh => by
    intro entry member
    simp only [testRunInvocations, List.mem_cons] at member
    rcases member with rfl | later
    · exact fresh
    · split_ifs at later
      · exact testRunInvocations_fresh disableInvoke extensionLoaded ready behaviour program repeatCount
          (iteration + 1) _ _ (ebpfProgramInvoke_ended disableInvoke extensionLoaded ready returnValue fresh).cleared
          entry later
      · cases later

end EbpfWindows.ExecutionContext
