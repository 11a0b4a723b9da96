import MFutures.Lib.EventSystem

namespace Handler
variable {ω ε σ α β : Type} {Q : ε → Prop} {p q : Prop} {s t : σ}

/-- From the state `s` the handler ends exactly if `p` holds, and otherwise with a
fault that `Q` holds of. -/
structure Decided (Q : ε → Prop) (p : Prop) (x : Handler ω ε σ α) (s : σ) : Prop where
  ends : Ends p x s
  faults : ∀ e, (x s).val = .error e → Q e

namespace Decided
variable {x : Handler ω ε σ α} {f : α → Handler ω ε σ β}

theorem iff (decided : Decided Q p x s) (same : p ↔ q) : Decided Q q x s := ⟨decided.ends.trans same, decided.faults⟩

/-- What else ends the same way is decided the same way. -/
theorem through {ω' τ : Type} {y : Handler ω' ε τ α} {t : τ} (decided : Decided Q p x s)
    (same : (y t).val = (x s).val) : Decided Q p y t := by
  refine ⟨?_, fun e fault => decided.faults e (same.symm.trans fault)⟩
  unfold Ends
  rw [same]
  exact decided.ends

theorem done {a : α} (run : (x s).val = .ok a) : Decided Q True x s :=
  ⟨.total run, fun e fault => by cases run.symm.trans fault⟩

theorem stop {e : ε} (run : (x s).val = .error e) (holds : Q e) : Decided Q False x s := by
  refine ⟨⟨fun ⟨a, done⟩ => ?_, False.elim⟩, fun e' fault => ?_⟩
  · cases run.symm.trans done
  · cases run.symm.trans fault
    exact holds

/-- A part that is decided comes before the rest. -/
theorem bind (first : Decided Q p x s) (next : ∀ a, (x s).val = .ok a → Decided Q q (f a) (x s).state) :
    Decided Q (p ∧ q) (x >>= f) s := by
  refine ⟨first.ends.bind fun a done => (next a done).ends, fun e fault => ?_⟩
  cases run : (x s).val with
  | error e' =>
    simp only [bind_run, andThen, run] at fault
    cases fault
    exact first.faults e run
  | ok a =>
    rw [bind_run_ok run] at fault
    exact (next a run).faults e fault

/-- A part whose outcome is known leaves the decision to the rest. -/
theorem step {log : List ω} {a : α} (run : x s = ⟨log, t, .ok a⟩) (next : Decided Q p (f a) t) :
    Decided Q p (x >>= f) s := by
  have first : Decided Q True x s := .done (congrArg Outcome.val run)
  refine (first.bind (q := p) fun b done => ?_).iff (iff_of_eq (true_and p))
  rw [run] at done ⊢
  cases done
  exact next

theorem ofExcept {r : Except ε α} (value : (∃ a, r = .ok a) ↔ p) (errors : ∀ e, r = .error e → Q e) :
    Decided Q p (Handler.ofExcept r : Handler ω ε σ α) s := ⟨value, errors⟩

/-- A test decides which of two parts is run. -/
theorem cond {c : Bool} {y : Handler ω ε σ α} (yes : c = true → Decided Q p x s) (no : c = false → Decided Q q y s) :
    Decided Q ((c = true → p) ∧ (c = false → q)) (if c then x else y) s := by
  cases c with
  | true => exact (yes rfl).iff (by simp)
  | false => exact (no rfl).iff (by simp)

end Decided

end Handler

namespace EventSystem
variable {ω ε σ ι : Type} {M : EventSystem ω ε σ ι} {initial : σ → Prop} {Q : ε → Prop} {p : σ → ι → Prop}

/-- If every activation is decided, a run is: it ends exactly if each of its
activations does, and otherwise with a fault that one of them has. -/
theorem run_decided (step : ∀ s e, M.Reach initial s → M.enabled s e → Handler.Decided Q (p s e) (M.handle e) s)
    {s : σ} {es : List ι} (reach : M.Reach initial s) (runs : M.IsRun s es) :
    Handler.Decided Q (∀ at_ ∈ M.served es s, p at_.1 at_.2) (M.run es) s := by
  induction es generalizing s with
  | nil => exact (Handler.Decided.done (a := ()) rfl).iff (by simp [served])
  | cons e es ih =>
    obtain ⟨able, rest⟩ := runs
    have first := step s e reach able
    cases val : (M.handle e s).val with
    | error f =>
      have fails : ¬p s e := fun holds => by
        obtain ⟨u, done⟩ := first.ends.mpr holds
        cases val.symm.trans done
      refine (Handler.Decided.stop (congrArg Outcome.val (run_fault val es)) (first.faults f val)).iff ?_
      simp [served, val, fails]
    | ok u =>
      have holds : p s e := first.ends.mp ⟨u, val⟩
      have later := ih (.next reach able val) (rest val)
      have both := first.bind fun u' done => later
      refine both.iff ?_
      simp [served, val]

end EventSystem
