import Mathlib.Data.List.Forall2
import MFutures.Lib.EventSystem

/-- A way to compare two logs, piece by piece. -/
structure Comparison (ω : Type) where
  rel : List ω → List ω → Prop
  nil : rel [] []
  append : ∀ {a a' b b'}, rel a a' → rel b b' → rel (a ++ b) (a' ++ b')

namespace Comparison
variable {ω κ : Type}

/-- The logs show the same through `see`. -/
def through (see : ω → Option κ) : Comparison ω where
  rel a b := a.filterMap see = b.filterMap see
  nil := rfl
  append := by
    intro a a' b b' first second
    rw [List.filterMap_append, List.filterMap_append, first, second]

/-- The logs are related effect by effect. -/
def pointwise (Q : ω → ω → Prop) : Comparison ω where
  rel := List.Forall₂ Q
  nil := .nil
  append := fun first second => List.rel_append first second

end Comparison

namespace Handler
variable {ω ω' ε σ σ' τ τ' κ α β : Type}

/-- Two outcomes that look alike: the states are related, the logs compare, and
the value or the fault is the same. -/
structure Alike (R : σ → τ → Prop) (L : Comparison ω) (r : Outcome ω ε σ α) (r' : Outcome ω ε τ α) :
    Prop where
  state : R r.state r'.state
  log : L.rel r.log r'.log
  val : r.val = r'.val

/-- Two handlers that related states cannot tell apart. -/
def Agrees (R : σ → τ → Prop) (L : Comparison ω) (x : Handler ω ε σ α) (y : Handler ω ε τ α) : Prop :=
  ∀ s t, R s t → Alike R L (x s) (y t)

section rules
variable {R : σ → τ → Prop} {L : Comparison ω}

theorem Agrees.pure (a : α) :
    Agrees R L (Pure.pure a : Handler ω ε σ α) (Pure.pure a : Handler ω ε τ α) :=
  fun _ _ related => ⟨related, L.nil, rfl⟩

theorem Agrees.abort (e : ε) : Agrees R L (abort e : Handler ω ε σ α) (abort e : Handler ω ε τ α) :=
  fun _ _ related => ⟨related, L.nil, rfl⟩

theorem Agrees.ofExcept {x y : Except ε α} (same : x = y) :
    Agrees R L (ofExcept x : Handler ω ε σ α) (ofExcept y : Handler ω ε τ α) :=
  fun _ _ related => ⟨related, L.nil, same⟩

theorem Agrees.emit {o o' : ω} (same : L.rel [o] [o']) :
    Agrees R L (emit o : Handler ω ε σ Unit) (emit o' : Handler ω ε τ Unit) :=
  fun _ _ related => ⟨related, same, rfl⟩

theorem Agrees.modify {f : σ → σ} {g : τ → τ} (related : ∀ s t, R s t → R (f s) (g t)) :
    Agrees R L (modify f : Handler ω ε σ Unit) (modify g : Handler ω ε τ Unit) :=
  fun s t before => ⟨related s t before, L.nil, rfl⟩

theorem Agrees.bind {x : Handler ω ε σ α} {y : Handler ω ε τ α} {f : α → Handler ω ε σ β}
    {g : α → Handler ω ε τ β} (first : Agrees R L x y) (next : ∀ a, Agrees R L (f a) (g a)) :
    Agrees R L (x >>= f) (y >>= g) := by
  intro s t related
  obtain ⟨state, log, val⟩ := first s t related
  rw [bind_run, bind_run]
  rcases left : x s with ⟨log₁, s', e | a⟩ <;> rcases right : y t with ⟨log₂, t', e' | a'⟩ <;>
    rw [left, right] at state log val
  · cases val
    exact ⟨state, log, rfl⟩
  · cases val
  · cases val
  · cases val
    obtain ⟨state', log', val'⟩ := next a s' t' state
    exact ⟨state', L.append log log', val'⟩

theorem Agrees.ite {c c' : Prop} [Decidable c] [Decidable c'] (same : c ↔ c') {x x' : Handler ω ε σ α}
    {y y' : Handler ω ε τ α} (yes : Agrees R L x y) (no : Agrees R L x' y') :
    Agrees R L (if c then x else x') (if c' then y else y') := by
  by_cases here : c
  · rw [if_pos here, if_pos (same.mp here)]
    exact yes
  · rw [if_neg here, if_neg fun there => here (same.mpr there)]
    exact no

/-- What follows a look at the state may depend on it as far as related states agree. -/
theorem Agrees.get_bind {f : σ → Handler ω ε σ β} {g : τ → Handler ω ε τ β}
    (next : ∀ s t, R s t → Agrees R L (f s) (g t)) :
    Agrees R L (Handler.get >>= f) (Handler.get >>= g) := by
  intro s t related
  obtain ⟨state, log, val⟩ := next s t related s t related
  exact ⟨state, L.append L.nil log, val⟩

theorem Agrees.ofExcept_bind {x : Except ε α} {f : α → Handler ω ε σ β} {g : α → Handler ω ε τ β}
    (next : ∀ a, x = .ok a → Agrees R L (f a) (g a)) :
    Agrees R L (Handler.ofExcept x >>= f) (Handler.ofExcept x >>= g) := by
  intro s t related
  cases value : x with
  | error e => exact ⟨related, L.nil, rfl⟩
  | ok a =>
    obtain ⟨state, log, val⟩ := next a value s t related
    exact ⟨state, L.append L.nil log, val⟩

/-- Conversions with different values may go on with each its own. -/
theorem Agrees.ofExcept_ok {x y : Except ε α} {a a' : α} (left : x = .ok a) (right : y = .ok a')
    {f : α → Handler ω ε σ β} {g : α → Handler ω ε τ β} (next : Agrees R L (f a) (g a')) :
    Agrees R L (Handler.ofExcept x >>= f) (Handler.ofExcept y >>= g) := by
  intro s t related
  subst left right
  obtain ⟨state, log, val⟩ := next s t related
  exact ⟨state, L.append L.nil log, val⟩

/-- Handlers on a component of the state agree where the component does. -/
theorem Agrees.zoom {R' : σ' → τ' → Prop} {L' : Comparison ω'} {view : σ → σ'} {put : σ' → σ → σ}
    {view' : τ → τ'} {put' : τ' → τ → τ} {relabel : ω' → ω} {x : Handler ω' ε σ' α} {y : Handler ω' ε τ' α}
    (agrees : Agrees R' L' x y) (views : ∀ s t, R s t → R' (view s) (view' t))
    (puts : ∀ s t a b, R s t → R' a b → R (put a s) (put' b t))
    (logs : ∀ a b, L'.rel a b → L.rel (a.map relabel) (b.map relabel)) :
    Agrees R L (zoom view put relabel x) (zoom view' put' relabel y) := by
  intro s t related
  obtain ⟨state, log, val⟩ := agrees _ _ (views s t related)
  exact ⟨puts s t _ _ related state, logs _ _ log, val⟩

/-- The same for a component that may be missing. -/
theorem Agrees.focus {R' : σ' → τ' → Prop} {view : σ → Option σ'} {put : σ' → σ → σ}
    {view' : τ → Option τ'} {put' : τ' → τ → τ} {missing : ε} {x : Handler ω ε σ' α} {y : Handler ω ε τ' α}
    (agrees : Agrees R' L x y) (views : ∀ s t, R s t → Option.Rel R' (view s) (view' t))
    (puts : ∀ s t a b, R s t → R' a b → R (put a s) (put' b t)) :
    Agrees R L (Handler.focus view put missing x) (Handler.focus view' put' missing y) := by
  intro s t related
  have found := views s t related
  cases left : view s <;> cases right : view' t <;> rw [left, right] at found
  · simp only [Handler.focus, left, right]
    exact ⟨related, L.nil, rfl⟩
  · cases found
  · cases found
  · rename_i a b
    cases found with
    | some both =>
      obtain ⟨state, log, val⟩ := agrees a b both
      rw [focus_run left, focus_run right]
      exact ⟨puts s t _ _ related state, log, val⟩

end rules

/-- The second handler does through `f` what the first does. -/
def Follows (f : σ → τ) (x : Handler ω ε σ α) (y : Handler ω ε τ α) : Prop :=
  ∀ s, y (f s) = ⟨(x s).log, f (x s).state, (x s).val⟩

section follows
variable {f : σ → τ}

theorem Follows.pure (a : α) : Follows f (Pure.pure a : Handler ω ε σ α) (Pure.pure a) := fun _ => rfl

theorem Follows.emit (o : ω) : Follows f (emit o : Handler ω ε σ Unit) (emit o) := fun _ => rfl

theorem Follows.modify {g : σ → σ} {g' : τ → τ} (same : ∀ s, g' (f s) = f (g s)) :
    Follows f (modify g : Handler ω ε σ Unit) (modify g') := by
  intro s
  rw [modify_run, modify_run, same]

theorem Follows.bind {x : Handler ω ε σ α} {y : Handler ω ε τ α} {k : α → Handler ω ε σ β}
    {k' : α → Handler ω ε τ β} (first : Follows f x y) (next : ∀ a, Follows f (k a) (k' a)) :
    Follows f (x >>= k) (y >>= k') := by
  intro s
  rw [bind_run, bind_run, first s]
  rcases x s with ⟨log, u, e | a⟩
  · rfl
  · rw [andThen_ok, andThen_ok, next a u]

theorem Follows.get_bind {k : σ → Handler ω ε σ β} {k' : τ → Handler ω ε τ β}
    (next : ∀ s, Follows f (k s) (k' (f s))) : Follows f (Handler.get >>= k) (Handler.get >>= k') := by
  intro s
  have rest := next s s
  simp only [bind_run, get_run, andThen_ok, List.nil_append, rest]

/-- What can be followed through `f` cannot tell apart states that are the same through `f`. -/
theorem Follows.agrees {L : Comparison ω} {x y : Handler ω ε σ α} {z : Handler ω ε τ α}
    (left : Follows f x z) (right : Follows f y z) (refl : ∀ log, L.rel log log) :
    Agrees (fun s t => f s = f t) L x y := by
  intro s t same
  have both := (left s).symm.trans ((congrArg z same).trans (right t))
  obtain ⟨log, state, val⟩ := Outcome.mk.inj both
  exact ⟨state, log ▸ refl _, val⟩

end follows

/-- A handler on a component of the state cannot tell apart states that share it. -/
theorem Agrees.zoom_same {κ' : Type} (part : σ → κ') {see : ω → Option κ} {view : σ → τ} {put : τ → σ → σ}
    {relabel : ω' → ω} (shares : ∀ s t, part s = part t → view s = view t)
    (puts : ∀ a s t, part s = part t → part (put a s) = part (put a t)) (x : Handler ω' ε τ α) :
    Agrees (fun s t => part s = part t) (.through see) (Handler.zoom view put relabel x)
      (Handler.zoom view put relabel x) := by
  intro s t same
  have here := shares s t same
  rw [zoom_run, zoom_run, here]
  exact ⟨puts _ s t same, rfl, rfl⟩

/-- A handler that never faults, keeps what `view` reads and shows nothing, looks
the same from wherever it starts. -/
theorem Agrees.unseen {view : σ → τ} {see : ω → Option κ} {x : Handler ω ε σ α} {a : α}
    (keeps : Keeps view x) (emits : Emits (fun o => see o = none) x) (ends : ∀ s, (x s).val = .ok a) :
    Agrees (fun s t => view s = view t) (.through see) x x := by
  intro s t same
  have silent : ∀ s, (x s).log.filterMap see = [] := fun s => List.filterMap_eq_nil_iff.mpr (emits s)
  refine ⟨?_, ?_, ?_⟩
  · exact (keeps s).trans (same.trans (keeps t).symm)
  · exact (silent s).trans (silent t).symm
  · rw [ends s, ends t]

end Handler

namespace EventSystem
open Handler
variable {ω ε σ τ ι : Type}

/-- Event sequences whose handlers cannot be told apart are run alike. -/
theorem run_agrees {M : EventSystem ω ε σ ι} {N : EventSystem ω ε τ ι} {R : σ → τ → Prop}
    {L : Comparison ω} {es es' : List ι}
    (each : List.Forall₂ (fun e e' => Agrees R L (M.handle e) (N.handle e')) es es') :
    Agrees R L (M.run es) (N.run es') := by
  induction each with
  | nil => exact .pure ()
  | cons first _ rest => exact .bind first fun _ => rest

end EventSystem
