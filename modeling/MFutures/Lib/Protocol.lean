import MFutures.Lib.Guarantee

/-- An automaton over the calls that may be made on an object. -/
structure Protocol (κ φ : Type) where
  next : φ → κ → Option φ

namespace Protocol
variable {ω σ κ φ ο : Type} (P : Protocol κ φ)

/-- The phase after the calls, if each is allowed where it is made. -/
def follow (phase : φ) (calls : List κ) : Option φ := calls.foldlM P.next phase

@[simp] theorem follow_nil (phase : φ) : P.follow phase [] = some phase := rfl

@[simp] theorem follow_cons (phase : φ) (call : κ) (calls : List κ) :
    P.follow phase (call :: calls) = (P.next phase call).bind fun phase => P.follow phase calls := rfl

theorem follow_append (phase : φ) (calls calls' : List κ) :
    P.follow phase (calls ++ calls') = (P.follow phase calls).bind fun phase => P.follow phase calls' :=
  List.foldlM_append

/-- Every object goes through the protocol: the calls made on it among the effects
lead from its phase in the first state to its phase in the last. -/
def guarantee (phase : σ → ο → φ) (callOn : ο → ω → Option κ) : Guarantee ω σ where
  allows s log t := ∀ o, P.follow (phase s o) (log.filterMap (callOn o)) = some (phase t o)
  refl _ _ := rfl
  trans first second o := by
    rw [List.filterMap_append, follow_append, first o]
    exact second o

/-- Calls that change the phase begin with one that is allowed there. -/
theorem follow_ne {phase phase' : φ} {calls : List κ} (path : P.follow phase calls = some phase') (moves : phase ≠ phase') :
    ∃ call rest next, calls = call :: rest ∧ P.next phase call = some next ∧ P.follow next rest = some phase' := by
  cases calls with
  | nil => exact absurd (Option.some.inj path) moves
  | cons call rest =>
    obtain ⟨next, allowed, later⟩ := Option.bind_eq_some_iff.mp path
    exact ⟨call, rest, next, rfl, allowed, later⟩

theorem follow_stay {phase : φ} {calls : List κ} (stay : ∀ call ∈ calls, P.next phase call = some phase) :
    P.follow phase calls = some phase := by
  induction calls with
  | nil => rfl
  | cons call calls ih =>
    rw [follow_cons, stay call List.mem_cons_self]
    exact ih fun call member => stay call (List.mem_cons_of_mem _ member)

section objects
variable {P : Protocol κ φ} {phase : σ → ο → φ} {callOn : ο → ω → Option κ}

/-- Calls that keep the phase of the object they are made on. -/
theorem guarantee_stay {s t : σ} {log : List ω} (same : phase t = phase s)
    (stay : ∀ e ∈ log, ∀ o call, callOn o e = some call → P.next (phase s o) call = some (phase s o)) :
    (P.guarantee phase callOn).allows s log t := by
  intro o
  rw [same]
  refine P.follow_stay fun call member => ?_
  obtain ⟨e, inside, made⟩ := List.mem_filterMap.mp member
  exact stay e inside o call made

/-- A handler that makes no calls and keeps every object in its phase. -/
theorem silent {ε α : Type} {x : Handler ω ε σ α} {pre : σ → Prop} (keeps : Handler.Keeps phase x)
    (holds : Handler.Keeps pre x) (quiet : Handler.Emits (fun e => ∀ o, callOn o e = none) x) :
    Handler.Triple (P.guarantee phase callOn) pre x fun _ => pre := by
  refine fun s before => ⟨guarantee_stay (keeps s) fun e inside o call made => ?_, fun _ _ => (holds s).mpr before⟩
  rw [quiet s e inside o] at made
  cases made

/-- A single call, which leaves the other objects in their phase. -/
theorem guarantee_one [DecidableEq ο] {s t : σ} {e : ω} {o : ο} {call : κ}
    (made : ∀ k, callOn k e = if o = k then some call else none) (next : P.next (phase s o) call = some (phase t o))
    (others : ∀ k, o ≠ k → phase t k = phase s k) : (P.guarantee phase callOn).allows s [e] t := by
  intro k
  rw [List.filterMap_cons, List.filterMap_nil, made k]
  by_cases here : o = k
  · subst here
    rw [if_pos rfl, follow_cons, next]
    rfl
  · rw [if_neg here, others k here]
    rfl

end objects

end Protocol
