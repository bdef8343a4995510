import Mathlib.Tactic.Basic

/-! Runs of a partial machine that emits events, on the inputs its callers may give.

A step takes a state and an input to the next state and the events it emitted, or to
nothing when the machine stops there. `Reaches step admissible start events state` says
that from `start` the machine took admissible inputs one after another, each step
defined, emitting `events` in order, and ended in `state`.

An invariant that holds at the start and that every admissible defined step keeps holds
of every state reached (`Reaches.invariant`).
-/

set_option autoImplicit false

namespace Trace

variable {State Input Event : Type}

/-- The states reached from `start` by admissible defined steps, with the events emitted
on the way. -/
inductive Reaches (step : State → Input → Option (State × List Event)) (admissible : State → Input → Prop)
    (start : State) : List Event → State → Prop
  | start : Reaches step admissible start [] start
  | step {events : List Event} {state next : State} {input : Input} {emitted : List Event} :
      Reaches step admissible start events state → admissible state input → step state input = some (next, emitted) →
        Reaches step admissible start (events ++ emitted) next

namespace Reaches

variable {step : State → Input → Option (State × List Event)} {admissible : State → Input → Prop} {start : State}

theorem invariant {holds : State → Prop} (initial : holds start)
    (preserves : ∀ state input next emitted, holds state → admissible state input →
      step state input = some (next, emitted) → holds next)
    {events : List Event} {state : State} (reached : Reaches step admissible start events state) : holds state := by
  induction reached with
  | start => exact initial
  | step _ allowed stepped ih => exact preserves _ _ _ _ ih allowed stepped

end Reaches

end Trace
