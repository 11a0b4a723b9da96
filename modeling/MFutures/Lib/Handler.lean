import Mathlib.Data.List.Basic

/-- What one handler activation leaves behind: the effects it had up to its
end, the state at that point, and its value or the fault that cut it short.
A fault keeps the state and the effects of the part that did run. -/
structure Outcome (ω ε σ α : Type) where
  log : List ω
  state : σ
  val : Except ε α

/-- A handler over a state `σ` that emits effects `ω` and may fault with `ε`. -/
def Handler (ω ε σ α : Type) : Type := σ → Outcome ω ε σ α

namespace Handler
variable {ω ω' ε σ τ α β γ : Type}

protected def pure (a : α) : Handler ω ε σ α := fun s => ⟨[], s, .ok a⟩

/-- The outcome of a first part, continued on its value unless it faulted. -/
def andThen (r : Outcome ω ε σ α) (f : α → Handler ω ε σ β) : Outcome ω ε σ β :=
  match r.val with
  | .ok a => ⟨r.log ++ (f a r.state).log, (f a r.state).state, (f a r.state).val⟩
  | .error e => ⟨r.log, r.state, .error e⟩

protected def bind (x : Handler ω ε σ α) (f : α → Handler ω ε σ β) : Handler ω ε σ β :=
  fun s => andThen (x s) f

instance : Monad (Handler ω ε σ) where
  pure := Handler.pure
  bind := Handler.bind

def get : Handler ω ε σ σ := fun s => ⟨[], s, .ok s⟩

def modify (f : σ → σ) : Handler ω ε σ Unit := fun s => ⟨[], f s, .ok ()⟩

def emit (o : ω) : Handler ω ε σ Unit := fun s => ⟨[o], s, .ok ()⟩

def abort (e : ε) : Handler ω ε σ α := fun s => ⟨[], s, .error e⟩

def ofExcept (x : Except ε α) : Handler ω ε σ α := fun s => ⟨[], s, x⟩

/-- Run a handler on a component of the state and relabel its effects. -/
def zoom (view : σ → τ) (put : τ → σ → σ) (relabel : ω' → ω) (x : Handler ω' ε τ α) :
    Handler ω ε σ α :=
  fun s => ⟨(x (view s)).log.map relabel, put (x (view s)).state s, (x (view s)).val⟩

/-- Run a handler on a component that may be missing, faulting where it is. -/
def focus (view : σ → Option τ) (put : τ → σ → σ) (missing : ε) (x : Handler ω ε τ α) :
    Handler ω ε σ α :=
  fun s =>
    match view s with
    | some t => ⟨(x t).log, put (x t).state s, (x t).val⟩
    | none => ⟨[], s, .error missing⟩

@[simp] theorem pure_run (a : α) (s : σ) : (pure a : Handler ω ε σ α) s = ⟨[], s, .ok a⟩ := rfl

theorem bind_run (x : Handler ω ε σ α) (f : α → Handler ω ε σ β) (s : σ) :
    (x >>= f) s = andThen (x s) f := rfl

@[simp] theorem andThen_ok (log : List ω) (s : σ) (a : α) (f : α → Handler ω ε σ β) :
    andThen ⟨log, s, .ok a⟩ f = ⟨log ++ (f a s).log, (f a s).state, (f a s).val⟩ := rfl

@[simp] theorem andThen_error (log : List ω) (s : σ) (e : ε) (f : α → Handler ω ε σ β) :
    andThen ⟨log, s, .error e⟩ f = ⟨log, s, .error e⟩ := rfl

@[simp] theorem get_run (s : σ) : (get : Handler ω ε σ σ) s = ⟨[], s, .ok s⟩ := rfl

@[simp] theorem modify_run (f : σ → σ) (s : σ) :
    (modify f : Handler ω ε σ Unit) s = ⟨[], f s, .ok ()⟩ := rfl

@[simp] theorem emit_run (o : ω) (s : σ) : (emit o : Handler ω ε σ Unit) s = ⟨[o], s, .ok ()⟩ := rfl

@[simp] theorem abort_run (e : ε) (s : σ) : (abort e : Handler ω ε σ α) s = ⟨[], s, .error e⟩ := rfl

@[simp] theorem ofExcept_run (x : Except ε α) (s : σ) :
    (ofExcept x : Handler ω ε σ α) s = ⟨[], s, x⟩ := rfl

@[simp] theorem zoom_run (view : σ → τ) (put : τ → σ → σ) (relabel : ω' → ω) (x : Handler ω' ε τ α)
    (s : σ) : zoom view put relabel x s =
      ⟨(x (view s)).log.map relabel, put (x (view s)).state s, (x (view s)).val⟩ := rfl

theorem focus_run {view : σ → Option τ} {put : τ → σ → σ} {missing : ε} {x : Handler ω ε τ α}
    {s : σ} {t : τ} (found : view s = some t) :
    focus view put missing x s = ⟨(x t).log, put (x t).state s, (x t).val⟩ := by
  simp only [focus, found]

theorem bind_run_ok {x : Handler ω ε σ α} {s : σ} {a : α} (done : (x s).val = .ok a)
    (f : α → Handler ω ε σ β) : (x >>= f) s =
      ⟨(x s).log ++ (f a (x s).state).log, (f a (x s).state).state, (f a (x s).state).val⟩ := by
  simp only [bind_run, andThen, done]

theorem bind_ok {x : Handler ω ε σ α} {f : α → Handler ω ε σ β} {s : σ} {b : β}
    (done : ((x >>= f) s).val = .ok b) :
    ∃ a, (x s).val = .ok a ∧ (f a (x s).state).val = .ok b := by
  rw [bind_run] at done
  unfold andThen at done
  split at done
  · rename_i a first
    exact ⟨a, first, done⟩
  · simp at done

theorem except_bind_ok {x : Except ε α} {f : α → Except ε β} {b : β} (done : (x >>= f) = .ok b) :
    ∃ a, x = .ok a ∧ f a = .ok b := by
  cases x with
  | error e => cases done
  | ok a => exact ⟨a, rfl, done⟩

/-- From the state `s` the handler ends exactly if `p` holds. -/
def Ends (p : Prop) (x : Handler ω ε σ α) (s : σ) : Prop := (∃ a, (x s).val = .ok a) ↔ p

theorem Ends.bind {p q : Prop} {x : Handler ω ε σ α} {f : α → Handler ω ε σ β} {s : σ} (first : Ends p x s)
    (next : ∀ a, (x s).val = .ok a → Ends q (f a) (x s).state) : Ends (p ∧ q) (x >>= f) s := by
  constructor
  · rintro ⟨b, done⟩
    obtain ⟨a, now, later⟩ := bind_ok done
    exact ⟨first.mp ⟨a, now⟩, (next a now).mp ⟨b, later⟩⟩
  · rintro ⟨holds, rest⟩
    obtain ⟨a, now⟩ := first.mpr holds
    obtain ⟨b, later⟩ := (next a now).mpr rest
    exact ⟨b, by rw [bind_run_ok now, later]⟩

theorem Ends.total {x : Handler ω ε σ α} {s : σ} {a : α} (done : (x s).val = .ok a) : Ends True x s :=
  iff_true_intro ⟨a, done⟩

/-- The handler leaves the part of the state that `part` reads as it found it,
whether it ends or faults. -/
def Keeps {κ : Type} (part : σ → κ) (x : Handler ω ε σ α) : Prop := ∀ s, part (x s).state = part s

/-- Every effect of the handler satisfies `P`. -/
def Emits (P : ω → Prop) (x : Handler ω ε σ α) : Prop := ∀ s, ∀ o ∈ (x s).log, P o

/-- Every fault of the handler satisfies `Q`. -/
def Faults (Q : ε → Prop) (x : Handler ω ε σ α) : Prop := ∀ s e, (x s).val = .error e → Q e

section rules
variable {κ : Type} {part : σ → κ} {P : ω → Prop} {Q : ε → Prop}

theorem Keeps.bind {x : Handler ω ε σ α} {f : α → Handler ω ε σ β}
    (first : Keeps part x) (next : ∀ a, Keeps part (f a)) : Keeps part (x >>= f) := by
  intro s
  have before := first s
  rw [bind_run]
  rcases run : x s with ⟨log, t, a | a⟩
  · rw [run] at before
    exact before
  · rw [run] at before
    exact (next a t).trans before

theorem Keeps.weaken {x : Handler ω ε σ α} (all : Keeps id x) : Keeps part x :=
  fun s => congrArg part (all s)

theorem Keeps.map {μ : Type} {x : Handler ω ε σ α} (keeps : Keeps part x) (f : κ → μ) :
    Keeps (fun s => f (part s)) x :=
  fun s => congrArg f (keeps s)

theorem Keeps.pure (a : α) : Keeps part (Pure.pure a : Handler ω ε σ α) := fun _ => rfl

theorem Keeps.get : Keeps part (get : Handler ω ε σ σ) := fun _ => rfl

theorem Keeps.emit (o : ω) : Keeps part (emit o : Handler ω ε σ Unit) := fun _ => rfl

theorem Keeps.abort (e : ε) : Keeps part (abort e : Handler ω ε σ α) := fun _ => rfl

theorem Keeps.ofExcept (x : Except ε α) : Keeps part (ofExcept x : Handler ω ε σ α) := fun _ => rfl

/-- What follows a conversion is run on the value it has. -/
theorem Keeps.ofExcept_bind {x : Except ε α} {f : α → Handler ω ε σ β}
    (next : ∀ a, x = .ok a → Keeps part (f a)) : Keeps part (Handler.ofExcept x >>= f) := by
  intro s
  cases value : x with
  | error e => rfl
  | ok a => exact next a value s

theorem Emits.bind {x : Handler ω ε σ α} {f : α → Handler ω ε σ β}
    (first : Emits P x) (next : ∀ a, Emits P (f a)) : Emits P (x >>= f) := by
  intro s o member
  have before := first s
  rw [bind_run] at member
  rcases run : x s with ⟨log, t, a | a⟩
  · rw [run] at before member
    exact before o member
  · rw [run] at before member
    rcases List.mem_append.mp member with old | new
    · exact before o old
    · exact next a t o new

theorem Emits.pure (a : α) : Emits P (Pure.pure a : Handler ω ε σ α) := fun _ _ member => by simp at member

theorem Emits.get : Emits P (get : Handler ω ε σ σ) := fun _ _ member => by simp at member

theorem Emits.modify (f : σ → σ) : Emits P (modify f : Handler ω ε σ Unit) :=
  fun _ _ member => by simp at member

theorem Emits.emit {o : ω} (holds : P o) : Emits P (emit o : Handler ω ε σ Unit) := by
  intro s o' member
  have same : o' = o := by simpa using member
  rwa [same]

theorem Emits.abort (e : ε) : Emits P (abort e : Handler ω ε σ α) := fun _ _ member => by simp at member

theorem Emits.ofExcept (x : Except ε α) : Emits P (ofExcept x : Handler ω ε σ α) :=
  fun _ _ member => by simp at member

theorem Emits.ofExcept_bind {x : Except ε α} {f : α → Handler ω ε σ β}
    (next : ∀ a, x = .ok a → Emits P (f a)) : Emits P (Handler.ofExcept x >>= f) := by
  intro s o member
  cases value : x with
  | error e => simp [bind_run, value] at member
  | ok a =>
    rw [bind_run, ofExcept_run, value, andThen_ok] at member
    exact next a value s o member

/-- What follows a part that keeps the state starts where that part did. -/
theorem Emits.kept_bind {x : Handler ω ε σ α} {f : α → Handler ω ε σ β} {s : σ} (first : Emits P x)
    (keeps : Keeps id x) (next : ∀ a, ∀ o ∈ (f a s).log, P o) : ∀ o ∈ ((x >>= f) s).log, P o := by
  intro o member
  have still := keeps s
  rw [bind_run] at member
  rcases run : x s with ⟨log, t, e | a⟩
  · rw [run] at member
    exact first s o (by rw [run]; exact member)
  · rw [run] at member still
    have same : t = s := still
    subst same
    rcases List.mem_append.mp member with old | new
    · exact first t o (by rw [run]; exact old)
    · exact next a o new

theorem Emits.zoom {R : ω' → Prop} {view : σ → τ} {put : τ → σ → σ} {relabel : ω' → ω}
    {x : Handler ω' ε τ α} (emits : Emits R x) (relabels : ∀ o, R o → P (relabel o)) :
    Emits P (zoom view put relabel x) := by
  intro s o member
  obtain ⟨o', before, rfl⟩ := List.mem_map.mp member
  exact relabels o' (emits (view s) o' before)

theorem Emits.focus {view : σ → Option τ} {put : τ → σ → σ} {missing : ε} {x : Handler ω ε τ α}
    (emits : Emits P x) : Emits P (focus view put missing x) := by
  intro s o member
  cases found : view s with
  | none => simp [Handler.focus, found] at member
  | some t =>
    rw [focus_run found] at member
    exact emits t o member

theorem Keeps.focus {view : σ → Option τ} {put : τ → σ → σ} {missing : ε} {x : Handler ω ε τ α}
    (kept : ∀ t s, part (put t s) = part s) : Keeps part (focus view put missing x) := by
  intro s
  cases found : view s with
  | none => simp only [Handler.focus, found]
  | some t => simp only [focus_run found, kept]

theorem Faults.bind {x : Handler ω ε σ α} {f : α → Handler ω ε σ β}
    (first : Faults Q x) (next : ∀ a, Faults Q (f a)) : Faults Q (x >>= f) := by
  intro s e fault
  rw [bind_run] at fault
  rcases run : x s with ⟨log, t, a | a⟩
  · rw [run] at fault
    have same : a = e := by simpa using fault
    exact first s e (by rw [run, same])
  · rw [run] at fault
    exact next a t e fault

theorem Faults.pure (a : α) : Faults Q (Pure.pure a : Handler ω ε σ α) := fun _ _ fault => by simp at fault

theorem Faults.get : Faults Q (get : Handler ω ε σ σ) := fun _ _ fault => by simp at fault

theorem Faults.modify (f : σ → σ) : Faults Q (modify f : Handler ω ε σ Unit) :=
  fun _ _ fault => by simp at fault

theorem Faults.emit (o : ω) : Faults Q (emit o : Handler ω ε σ Unit) := fun _ _ fault => by simp at fault

theorem Faults.abort {e : ε} (holds : Q e) : Faults Q (abort e : Handler ω ε σ α) := by
  intro s e' fault
  have same : e = e' := by simpa using fault
  rwa [← same]

theorem Faults.ofExcept {x : Except ε α} (holds : ∀ e, x = .error e → Q e) :
    Faults Q (ofExcept x : Handler ω ε σ α) :=
  fun _ e fault => holds e fault

theorem Faults.zoom {view : σ → τ} {put : τ → σ → σ} {relabel : ω' → ω} {x : Handler ω' ε τ α} (faults : Faults Q x) :
    Faults Q (zoom view put relabel x) :=
  fun s e fault => faults (view s) e fault

theorem Faults.focus {view : σ → Option τ} {put : τ → σ → σ} {missing : ε} {x : Handler ω ε τ α}
    (faults : Faults Q x) (absent : Q missing) : Faults Q (focus view put missing x) := by
  intro s e fault
  cases found : view s with
  | none =>
    have same : missing = e := by simpa [Handler.focus, found] using fault
    rwa [← same]
  | some t =>
    rw [focus_run found] at fault
    exact faults t e fault

end rules

end Handler
