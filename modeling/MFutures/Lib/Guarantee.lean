import MFutures.Lib.EventSystem

/-- What a program may do: from which states to which, with which effects. Doing
nothing is allowed, and so is one thing after the other. -/
structure Guarantee (ω σ : Type) where
  allows : σ → List ω → σ → Prop
  refl : ∀ s, allows s [] s
  trans : ∀ {s t u log log'}, allows s log t → allows t log' u → allows s (log ++ log') u

section triples
variable {ω ε σ α β ι : Type}

namespace Handler

/-- From a state with `pre` the handler does what is allowed, whether it ends or
faults, and where it ends `post` holds of its value and of the state. -/
def Triple (G : Guarantee ω σ) (pre : σ → Prop) (x : Handler ω ε σ α) (post : α → σ → Prop) : Prop :=
  ∀ s, pre s → G.allows s (x s).log (x s).state ∧ ∀ a, (x s).val = .ok a → post a (x s).state

namespace Triple
variable {G : Guarantee ω σ} {pre : σ → Prop}

theorem bind {mid : α → σ → Prop} {post : β → σ → Prop} {x : Handler ω ε σ α} {f : α → Handler ω ε σ β}
    (first : Triple G pre x mid) (next : ∀ a, Triple G (mid a) (f a) post) : Triple G pre (x >>= f) post := by
  intro s holds
  obtain ⟨allowed, after⟩ := first s holds
  rw [bind_run]
  rcases run : x s with ⟨log, t, e | a⟩
  · rw [run] at allowed
    exact ⟨allowed, fun b done => by cases done⟩
  · rw [run] at allowed after
    obtain ⟨allowed', after'⟩ := next a t (after a rfl)
    exact ⟨G.trans allowed allowed', after'⟩

theorem consequence {pre' : σ → Prop} {post post' : α → σ → Prop} {x : Handler ω ε σ α} (triple : Triple G pre x post)
    (before : ∀ s, pre' s → pre s) (after : ∀ a s, post a s → post' a s) : Triple G pre' x post' :=
  fun s holds => ⟨(triple s (before s holds)).1, fun a done => after a _ ((triple s (before s holds)).2 a done)⟩

theorem pure {post : α → σ → Prop} {a : α} (holds : ∀ s, pre s → post a s) :
    Triple G pre (Pure.pure a : Handler ω ε σ α) post := by
  refine fun s before => ⟨G.refl s, fun b done => ?_⟩
  cases done
  exact holds s before

theorem get : Triple G pre (get : Handler ω ε σ σ) fun a s => a = s ∧ pre s := by
  refine fun s before => ⟨G.refl s, fun b done => ?_⟩
  cases done
  exact ⟨rfl, before⟩

theorem abort {post : α → σ → Prop} (e : ε) : Triple G pre (abort e : Handler ω ε σ α) post :=
  fun s _ => ⟨G.refl s, fun _ done => by cases done⟩

theorem ofExcept (x : Except ε α) : Triple G pre (ofExcept x : Handler ω ε σ α) fun _ s => pre s :=
  fun s before => ⟨G.refl s, fun _ _ => before⟩

end Triple

end Handler

/-- What every handler is allowed to do, a run does, also one that a fault ends. -/
theorem EventSystem.run_allows {M : EventSystem ω ε σ ι} {G : Guarantee ω σ} (inv : σ → Prop)
    (step : ∀ s e, inv s → M.enabled s e → G.allows s (M.handle e s).log (M.handle e s).state)
    (kept : ∀ s e, inv s → M.enabled s e → (M.handle e s).val = .ok () → inv (M.handle e s).state)
    {s : σ} {es : List ι} (holds : inv s) (runs : M.IsRun s es) : G.allows s (M.run es s).log (M.run es s).state := by
  induction es generalizing s with
  | nil => exact G.refl s
  | cons e es ih =>
    obtain ⟨able, rest⟩ := runs
    have first := step s e holds able
    cases done : (M.handle e s).val with
    | error f => rwa [run_fault done]
    | ok u =>
      rw [run_cons done]
      exact G.trans first (ih (kept s e holds able done) (rest done))

end triples
