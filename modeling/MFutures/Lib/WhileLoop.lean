import Mathlib.Data.Sum.Basic

/-- A loop: its body either goes on in another state, which measures less, or
leaves the loop with a result. -/
structure WhileLoop (σ β : Type) where
  body : σ → σ ⊕ β
  measure : σ → Nat
  decreases : ∀ {s s'}, body s = .inl s' → measure s' < measure s

namespace WhileLoop
variable {σ β : Type}

/-- At most `n` activations of the body. -/
def iterate (body : σ → σ ⊕ β) : Nat → σ → Option β
  | 0, _ => none
  | n + 1, s =>
    match body s with
    | .inl s' => iterate body n s'
    | .inr b => some b

theorem iterate_add {body : σ → σ ⊕ β} {n : Nat} {s : σ} {b : β} (k : Nat)
    (done : iterate body n s = some b) : iterate body (n + k) s = some b := by
  induction n generalizing s with
  | zero => cases done
  | succ n ih =>
    rw [Nat.add_right_comm]
    unfold iterate at done ⊢
    split at done
    · exact ih done
    · exact done

variable (L : WhileLoop σ β)

theorem iterate_isSome {n : Nat} {s : σ} (enough : L.measure s < n) : (iterate L.body n s).isSome := by
  induction n generalizing s with
  | zero => exact absurd enough (Nat.not_lt_zero _)
  | succ n ih =>
    unfold iterate
    split
    · rename_i s' next
      exact ih (Nat.lt_of_lt_of_le (L.decreases next) (Nat.le_of_lt_succ enough))
    · rfl

/-- What the loop leaves with. The measure of a state bounds the activations. -/
def run (s : σ) : β := (iterate L.body (L.measure s + 1) s).get (L.iterate_isSome (Nat.lt_succ_self _))

theorem run_of_iterate {n : Nat} {s : σ} {b : β} (done : iterate L.body n s = some b) : L.run s = b := by
  have own : iterate L.body (L.measure s + 1) s = some (L.run s) := (Option.some_get _).symm
  have left := iterate_add (L.measure s + 1) done
  rw [Nat.add_comm, iterate_add n own] at left
  exact Option.some.inj left

/-- The loop rule: one activation, then the loop again. -/
theorem run_eq (s : σ) : L.run s = match L.body s with
    | .inl s' => L.run s'
    | .inr b => b := by
  refine L.run_of_iterate (n := L.measure s + 1 + 1) ?_
  rw [iterate]
  split
  · rename_i s' next
    have short := Nat.le_of_lt (L.decreases next)
    have own : iterate L.body (L.measure s' + 1) s' = some (L.run s') := (Option.some_get _).symm
    have more := iterate_add (L.measure s - L.measure s') own
    rwa [show L.measure s' + 1 + (L.measure s - L.measure s') = L.measure s + 1 by omega] at more
  · rfl

variable {L}

theorem run_next {s s' : σ} (next : L.body s = .inl s') : L.run s = L.run s' := by
  rw [run_eq, next]

theorem run_done {s : σ} {b : β} (done : L.body s = .inr b) : L.run s = b := by
  rw [run_eq, done]

/-- What the last activation establishes, and each earlier one carries back to
its own state, holds of the whole loop. -/
theorem run_induct {P : σ → β → Prop} (done : ∀ s b, L.body s = .inr b → P s b)
    (next : ∀ s s' b, L.body s = .inl s' → P s' b → P s b) (s : σ) : P s (L.run s) := by
  induction size : L.measure s using Nat.strongRecOn generalizing s with
  | ind n ih =>
    rcases step : L.body s with s' | b
    · rw [run_next step]
      exact next s s' _ step (ih _ (size ▸ L.decreases step) s' rfl)
    · rw [run_done step]
      exact done s b step

/-- Loops whose bodies commute with a translation of the states and the results
do so themselves. -/
theorem run_map {σ' β' : Type} {L : WhileLoop σ β} {M : WhileLoop σ' β'} {f : σ → σ'} {g : β → β'}
    (commutes : ∀ s, M.body (f s) = Sum.map f g (L.body s)) (s : σ) : M.run (f s) = g (L.run s) := by
  refine L.run_induct (P := fun s b => M.run (f s) = g b) ?_ ?_ s
  · intro s b done
    exact run_done (by rw [commutes, done, Sum.map_inr])
  · intro s s' b next ih
    rw [← ih]
    exact run_next (by rw [commutes, next, Sum.map_inl])

end WhileLoop
