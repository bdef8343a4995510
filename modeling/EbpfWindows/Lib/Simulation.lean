import Mathlib.Tactic.Basic

/-! Runs of a deterministic machine against a nondeterministic specification.

The machine is a step function from a state and an input to an output and a
new state; `run` folds it over a list of inputs. The specification is a
relation between an abstract state, an input, an output and the next abstract
state, and `Run` strings such steps together. `run_simulates` is the forward
simulation rule: a relation between the two kinds of state that one step of the
machine re-establishes, with a specification step producing the same output,
makes every run of the machine a run of the specification. The inputs may be
restricted to those a caller is allowed to give.

The relation is indexed by the number of steps still to come, so that it may
carry a bound that each step uses up.
-/

set_option autoImplicit false

namespace Simulation

variable {State Abstract Input Output : Type}

/-- The outputs of the machine on a list of inputs, and its final state. -/
def run (step : State → Input → Output × State) : State → List Input → List Output × State
  | state, [] => ([], state)
  | state, input :: inputs =>
    let rest := run step (step state input).2 inputs
    ((step state input).1 :: rest.1, rest.2)

@[simp] theorem run_nil (step : State → Input → Output × State) (state : State) :
    run step state [] = ([], state) := rfl

@[simp] theorem run_cons (step : State → Input → Output × State) (state : State) (input : Input)
    (inputs : List Input) :
    run step state (input :: inputs) =
      ((step state input).1 :: (run step (step state input).2 inputs).1,
        (run step (step state input).2 inputs).2) := rfl

/-- A run of the specification: the outputs it may produce on the inputs, from one
abstract state to another. -/
inductive Run (spec : Abstract → Input → Output → Abstract → Prop) :
    Abstract → List Input → List Output → Abstract → Prop
  | nil (abstract : Abstract) : Run spec abstract [] [] abstract
  | cons {abstract middle final : Abstract} {input : Input} {output : Output} {inputs : List Input}
      {outputs : List Output} :
      spec abstract input output middle → Run spec middle inputs outputs final →
        Run spec abstract (input :: inputs) (output :: outputs) final

theorem run_simulates {step : State → Input → Output × State} {spec : Abstract → Input → Output → Abstract → Prop}
    (allowed : Input → Prop) (related : Nat → State → Abstract → Prop)
    (simulates : ∀ remaining state abstract input, allowed input → related (remaining + 1) state abstract →
      ∃ next, spec abstract input (step state input).1 next ∧ related remaining (step state input).2 next) :
    ∀ (inputs : List Input) (state : State) (abstract : Abstract), (∀ input ∈ inputs, allowed input) →
      related inputs.length state abstract →
        ∃ final, Run spec abstract inputs (run step state inputs).1 final ∧
          related 0 (run step state inputs).2 final := by
  intro inputs
  induction inputs with
  | nil => exact fun state abstract _ start => ⟨abstract, .nil abstract, start⟩
  | cons input inputs ih =>
    intro state abstract inputsAllowed start
    obtain ⟨next, first, nextRelated⟩ :=
      simulates inputs.length state abstract input (inputsAllowed input List.mem_cons_self) start
    obtain ⟨final, rest, finalRelated⟩ :=
      ih _ next (fun later member => inputsAllowed later (List.mem_cons_of_mem input member)) nextRelated
    exact ⟨final, .cons first rest, finalRelated⟩

end Simulation
