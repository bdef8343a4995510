import Mathlib.Tactic.Basic

/-! Reading a chain of fallible steps back.

A `do` block in `Except` succeeds exactly when each step succeeds with the value the next
one is given, and fails with the error of the first step that fails. These two rules take
a hypothesis about the whole block apart one step at a time.
-/

set_option autoImplicit false

namespace Except

variable {ε α β : Type}

theorem bind_eq_ok_iff {step : Except ε α} {rest : α → Except ε β} {value : β} :
    step >>= rest = .ok value ↔ ∃ first, step = .ok first ∧ rest first = .ok value := by
  cases step <;> simp [bind, Except.bind]

theorem bind_eq_error_iff {step : Except ε α} {rest : α → Except ε β} {error : ε} :
    step >>= rest = .error error ↔ step = .error error ∨ ∃ first, step = .ok first ∧ rest first = .error error := by
  cases step <;> simp [bind, Except.bind]

@[simp] theorem ok_bind (first : α) (rest : α → Except ε β) : (Except.ok first : Except ε α) >>= rest = rest first :=
  rfl

@[simp] theorem error_bind (error : ε) (rest : α → Except ε β) :
    (Except.error error : Except ε α) >>= rest = .error error :=
  rfl

theorem foldlM_eq_ok {f : β → α → Except ε β} {g : β → α → β} {l : List α}
    (steps : ∀ acc, ∀ x ∈ l, f acc x = .ok (g acc x)) (init : β) : l.foldlM f init = .ok (l.foldl g init) := by
  induction l generalizing init with
  | nil => rfl
  | cons x rest ih =>
    rw [List.foldlM_cons, steps init x List.mem_cons_self, ok_bind, List.foldl_cons]
    exact ih (fun acc y member => steps acc y (List.mem_cons_of_mem x member)) (g init x)

end Except
