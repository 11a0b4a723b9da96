import MFutures.Lib.Handler

/-- A program that waits for events and runs one handler for each. `enabled`
says which events the surroundings can deliver in a state. -/
structure EventSystem (ω ε σ ι : Type) where
  enabled : σ → ι → Prop
  handle : ι → Handler ω ε σ Unit

namespace EventSystem
variable {ω ε σ ι : Type} (M : EventSystem ω ε σ ι)

/-- The states between two handler activations, from a set of initial ones. -/
inductive Reach (initial : σ → Prop) : σ → Prop
  | start {s} : initial s → Reach initial s
  | next {s e} : Reach initial s → M.enabled s e → (M.handle e s).val = .ok () →
      Reach initial (M.handle e s).state

/-- An event sequence the surroundings can deliver. Nothing is asked of the
events that come after a handler has faulted: the process is gone by then. -/
def IsRun : σ → List ι → Prop
  | _, [] => True
  | s, e :: es => M.enabled s e ∧ ((M.handle e s).val = .ok () → IsRun (M.handle e s).state es)

/-- The outcome of the handlers of a whole event sequence, up to a fault. -/
def run : List ι → Handler ω ε σ Unit
  | [] => pure ()
  | e :: es => M.handle e >>= fun _ => run es

/-- The events of a sequence that are handled before the process is gone, each
with the state it meets. The last of them may be the one whose handler faults. -/
def served : List ι → σ → List (σ × ι)
  | [], _ => []
  | e :: es, s =>
    (s, e) :: match (M.handle e s).val with
      | .ok _ => served es (M.handle e s).state
      | .error _ => []

variable {M} {initial : σ → Prop}

theorem Reach.invariant {P : σ → Prop} (start : ∀ s, initial s → P s)
    (step : ∀ s e, P s → M.enabled s e → (M.handle e s).val = .ok () → P (M.handle e s).state)
    {s : σ} (reach : M.Reach initial s) : P s := by
  induction reach with
  | start init => exact start _ init
  | next _ able done ih => exact step _ _ ih able done

theorem Reach.run {s : σ} {es : List ι} (reach : M.Reach initial s) (runs : M.IsRun s es)
    (done : (M.run es s).val = .ok ()) : M.Reach initial (M.run es s).state := by
  induction es generalizing s with
  | nil => exact reach
  | cons e es ih =>
    obtain ⟨able, rest⟩ := runs
    obtain ⟨u, first, later⟩ := Handler.bind_ok (x := M.handle e) done
    rw [EventSystem.run, Handler.bind_run_ok first]
    exact ih (.next reach able first) (rest first) later

/-- What every completed step from a reachable state does to the state, a run
does, when it can be composed. -/
theorem Reach.run_relates {R : σ → σ → Prop} (refl : ∀ s, R s s)
    (trans : ∀ s t u, R s t → R t u → R s u)
    (step : ∀ s e, M.Reach initial s → M.enabled s e → (M.handle e s).val = .ok () →
      R s (M.handle e s).state)
    {s : σ} {es : List ι} (reach : M.Reach initial s) (runs : M.IsRun s es)
    (done : (M.run es s).val = .ok ()) : R s (M.run es s).state := by
  induction es generalizing s with
  | nil => exact refl s
  | cons e es ih =>
    obtain ⟨able, rest⟩ := runs
    obtain ⟨u, first, later⟩ := Handler.bind_ok (x := M.handle e) done
    rw [EventSystem.run, Handler.bind_run_ok first]
    exact trans _ _ _ (step s e reach able first) (ih (.next reach able first) (rest first) later)

/-- A property of the events so far, their effects and the state, that every
enabled event keeps without a fault, holds at the end of every run. -/
theorem run_induct {P : List ι → List ω → σ → Prop}
    (step : ∀ es log s e, P es log s → M.enabled s e →
      (M.handle e s).val = .ok () ∧ P (es ++ [e]) (log ++ (M.handle e s).log) (M.handle e s).state)
    {before es : List ι} {log : List ω} {s : σ} (start : P before log s) (runs : M.IsRun s es) :
    (M.run es s).val = .ok () ∧ P (before ++ es) (log ++ (M.run es s).log) (M.run es s).state := by
  induction es generalizing before log s with
  | nil =>
    refine ⟨rfl, ?_⟩
    rw [run, Handler.pure_run, List.append_nil, List.append_nil]
    exact start
  | cons e es ih =>
    obtain ⟨able, rest⟩ := runs
    obtain ⟨done, next⟩ := step before log s e start able
    obtain ⟨ended, holds⟩ := ih next (rest done)
    rw [run, Handler.bind_run_ok done]
    refine ⟨ended, ?_⟩
    rw [List.append_assoc, List.append_assoc] at holds
    exact holds

theorem run_cons {e : ι} {s : σ} (first : (M.handle e s).val = .ok ()) (es : List ι) : M.run (e :: es) s =
    ⟨(M.handle e s).log ++ (M.run es (M.handle e s).state).log, (M.run es (M.handle e s).state).state,
      (M.run es (M.handle e s).state).val⟩ :=
  Handler.bind_run_ok first _

theorem run_append {es : List ι} {s : σ} (first : (M.run es s).val = .ok ()) (es' : List ι) : M.run (es ++ es') s =
    ⟨(M.run es s).log ++ (M.run es' (M.run es s).state).log, (M.run es' (M.run es s).state).state,
      (M.run es' (M.run es s).state).val⟩ := by
  induction es generalizing s with
  | nil => rfl
  | cons e es ih =>
    obtain ⟨u, now, later⟩ := Handler.bind_ok (x := M.handle e) first
    rw [List.cons_append, run_cons now, run_cons now, ih later, List.append_assoc]

/-- Put a handler that ends in front of a run that ends. -/
theorem IsRun.cons_ok {e : ι} {es : List ι} {log : List ω} {s t : σ} (able : M.enabled s e)
    (first : M.handle e s = ⟨log, t, .ok ()⟩) (runs : M.IsRun t es) (done : (M.run es t).val = .ok ()) :
    M.IsRun s (e :: es) ∧ (M.run (e :: es) s).val = .ok () := by
  have now : (M.handle e s).val = .ok () := congrArg Outcome.val first
  have next : (M.handle e s).state = t := congrArg Outcome.state first
  rw [run_cons now]
  exact ⟨⟨able, fun _ => next ▸ runs⟩, next ▸ done⟩

theorem IsRun.left {s : σ} {es es' : List ι} (runs : M.IsRun s (es ++ es')) : M.IsRun s es := by
  induction es generalizing s with
  | nil => trivial
  | cons e es ih => exact ⟨runs.1, fun done => ih (runs.2 done)⟩

theorem IsRun.right {s : σ} {es es' : List ι} (runs : M.IsRun s (es ++ es')) (first : (M.run es s).val = .ok ()) :
    M.IsRun (M.run es s).state es' := by
  induction es generalizing s with
  | nil => exact runs
  | cons e es ih =>
    obtain ⟨u, now, later⟩ := Handler.bind_ok (x := M.handle e) first
    rw [run_cons now]
    exact ih (runs.2 now) later

theorem run_left {s : σ} {es es' : List ι} (done : (M.run (es ++ es') s).val = .ok ()) :
    (M.run es s).val = .ok () := by
  induction es generalizing s with
  | nil => rfl
  | cons e es ih =>
    obtain ⟨u, now, later⟩ := Handler.bind_ok (x := M.handle e) done
    rw [run_cons now]
    exact ih later

theorem run_fault {e : ι} {s : σ} {f : ε} (fault : (M.handle e s).val = .error f) (es : List ι) :
    M.run (e :: es) s = ⟨(M.handle e s).log, (M.handle e s).state, .error f⟩ := by
  rw [run, Handler.bind_run]
  rcases step : M.handle e s with ⟨log, u, f' | a⟩
  · rw [step] at fault
    have same : f' = f := by simpa using fault
    rw [same, Handler.andThen_error]
  · rw [step] at fault
    cases fault

/-- A run begins as its first handler does. -/
theorem run_log_cons (e : ι) (es : List ι) (s : σ) :
    ∃ rest, (M.run (e :: es) s).log = (M.handle e s).log ++ rest := by
  cases first : (M.handle e s).val with
  | error f => exact ⟨[], by rw [run_fault first, List.append_nil]⟩
  | ok u => exact ⟨_, by rw [run_cons first]⟩

variable (M) in
/-- The sequences have the same events for as long as those of the first are handled. -/
def HandledAlike : σ → List ι → List ι → Prop
  | s, e :: es, e' :: es' =>
    e = e' ∧ ((M.handle e s).val = .ok () → HandledAlike (M.handle e s).state es es')
  | _, _, _ => True

theorem HandledAlike.run_eq {s : σ} {es es' : List ι} (alike : M.HandledAlike s es es')
    (length : es.length = es'.length) : M.run es s = M.run es' s := by
  induction es generalizing s es' with
  | nil =>
    have none : es' = [] := List.length_eq_zero_iff.mp length.symm
    rw [none]
  | cons e es ih =>
    cases es' with
    | nil => cases length
    | cons e' es' =>
      obtain ⟨rfl, rest⟩ := alike
      cases first : (M.handle e s).val with
      | error f => rw [run_fault first, run_fault first]
      | ok u => rw [run_cons first, run_cons first, ih (rest first) (Nat.succ.inj length)]

/-- Every handler activation of a run starts in a reachable state, on an event
that is enabled there. -/
theorem served_reach {s : σ} {es : List ι} (reach : M.Reach initial s) (runs : M.IsRun s es) :
    ∀ at_ ∈ M.served es s, M.Reach initial at_.1 ∧ M.enabled at_.1 at_.2 := by
  induction es generalizing s with
  | nil => simp [served]
  | cons e es ih =>
    obtain ⟨able, rest⟩ := runs
    intro entry member
    rcases List.mem_cons.mp member with same | later
    · subst same
      exact ⟨reach, able⟩
    · split at later
      · rename_i u done
        exact ih (.next reach able done) (rest done) entry later
      · simp at later

theorem served_last {es : List ι} {s : σ} (done : (M.run es s).val = .ok ()) (e : ι) :
    ((M.run es s).state, e) ∈ M.served (es ++ [e]) s := by
  induction es generalizing s with
  | nil => exact List.mem_cons_self
  | cons e' es ih =>
    obtain ⟨u, first, later⟩ := Handler.bind_ok (x := M.handle e') done
    rw [EventSystem.run, Handler.bind_run_ok first]
    simp only [List.cons_append, served, first]
    exact List.mem_cons_of_mem _ (ih later)

/-- In a run that ends every activation does. -/
theorem served_ok {es : List ι} {s : σ} (done : (M.run es s).val = .ok ()) :
    ∀ at_ ∈ M.served es s, (M.handle at_.2 at_.1).val = .ok () := by
  induction es generalizing s with
  | nil => simp [served]
  | cons e es ih =>
    obtain ⟨u, first, later⟩ := Handler.bind_ok (x := M.handle e) done
    intro entry member
    simp only [served, first, List.mem_cons] at member
    rcases member with rfl | member
    · exact first
    · exact ih later entry member

/-- The effects of a run are those of its activations, one after the other. -/
theorem run_log (es : List ι) (s : σ) :
    (M.run es s).log = (M.served es s).flatMap fun at_ => (M.handle at_.2 at_.1).log := by
  induction es generalizing s with
  | nil => rfl
  | cons e es ih =>
    simp only [run, served, Handler.bind_run, List.flatMap_cons]
    rcases step : M.handle e s with ⟨log, t, f | u⟩
    · simp
    · simpa using ih t

variable (M) (initial) in
/-- A run from an initial state in which every handler ends. -/
structure Execution where
  start : σ
  events : List ι
  started : initial start
  runs : M.IsRun start events
  done : (M.run events start).val = .ok ()

/-- The states of an execution between two handler activations. -/
def Execution.Visits (x : M.Execution initial) (s : σ) : Prop :=
  ∃ before, before <+: x.events ∧ s = (M.run before x.start).state

/-- An execution that stops earlier is one. -/
def Execution.upTo (x : M.Execution initial) {before : List ι} (early : before <+: x.events) : M.Execution initial where
  start := x.start
  events := before
  started := x.started
  runs := by
    obtain ⟨after, same⟩ := early
    exact (same ▸ x.runs).left
  done := by
    obtain ⟨after, same⟩ := early
    exact run_left (same ▸ x.done)

/-- Something kept beside a run without influence on it. An event carries a tag
for it; `admits` says which tagged events the surroundings are assumed to
deliver, and `note` brings it up to date from the event and its effects. -/
structure History (ω σ ι γ τ : Type) where
  admits : γ → σ → ι → τ → Prop
  note : σ → ι → τ → List ω → γ → γ

section history
variable {γ τ : Type} (M) (H : History ω σ ι γ τ)

/-- The system together with its history. -/
def watched : EventSystem ω ε (σ × γ) (ι × τ) where
  enabled w e := M.enabled w.1 e.1 ∧ H.admits w.2 w.1 e.1 e.2
  handle e w :=
    let r := M.handle e.1 w.1
    ⟨r.log, (r.state, H.note w.1 e.1 e.2 r.log w.2), r.val⟩

variable {M H}

/-- A watched run is a run. -/
theorem Reach.watched {w : σ × γ} {start : σ × γ → Prop} (same : ∀ w, start w → initial w.1)
    (reach : (M.watched H).Reach start w) : M.Reach initial w.1 := by
  induction reach with
  | start init => exact .start (same _ init)
  | next _ able done ih => exact .next ih able.1 done

end history

end EventSystem
