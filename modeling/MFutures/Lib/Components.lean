import MFutures.Lib.Relational

namespace EventSystem
open Handler
variable {ω ε σ τ ι κ : Type}

/-- A component of an event system: the events it takes part in, its part of the
state and its effects. What it does and what may happen to it depends on its
part alone, and the other events leave it as it is. -/
structure Component (M : EventSystem ω ε σ ι) (τ κ : Type) where
  sees : ι → Bool
  view : σ → τ
  see : ω → Option κ
  enabled : ∀ {e s t}, sees e = true → view s = view t → M.enabled s e → M.enabled t e
  agrees : ∀ {e}, sees e = true → Agrees (fun s t => view s = view t) (.through see) (M.handle e) (M.handle e)
  keeps : ∀ {e}, sees e = false → Keeps view (M.handle e)
  silent : ∀ {e}, sees e = false → Emits (fun o => see o = none) (M.handle e)

namespace Component
variable {M : EventSystem ω ε σ ι} (C : Component M τ κ)

/-- The effects of the component. -/
def effects (log : List ω) : List κ := log.filterMap C.see

/-- The events of the component, in their order. -/
def mine (es : List ι) : List ι := es.filter C.sees

variable {C} {e : ι} {es : List ι} {s t : σ}

theorem mine_cons (seen : C.sees e = true) (es : List ι) : C.mine (e :: es) = e :: C.mine es :=
  List.filter_cons_of_pos seen

theorem mine_skip (unseen : C.sees e = false) (es : List ι) : C.mine (e :: es) = C.mine es :=
  List.filter_cons_of_neg (by simp [unseen])

theorem skip (unseen : C.sees e = false) (same : C.view s = C.view t) :
    C.view (M.handle e s).state = C.view t ∧ C.effects (M.handle e s).log = [] :=
  ⟨(C.keeps unseen s).trans same, List.filterMap_eq_nil_iff.mpr (C.silent unseen s)⟩

/-- To a component, a run that completes is the run of its own events. -/
theorem project (same : C.view s = C.view t) (done : (M.run es s).val = .ok ()) :
    Alike (fun s t => C.view s = C.view t) (.through C.see) (M.run es s) (M.run (C.mine es) t) := by
  induction es generalizing s t with
  | nil => exact ⟨same, rfl, rfl⟩
  | cons e es ih =>
    obtain ⟨u, first, later⟩ := bind_ok (x := M.handle e) done
    rw [run_cons first]
    cases seen : C.sees e with
    | true =>
      obtain ⟨state, log, val⟩ := C.agrees seen s t same
      obtain ⟨state', log', val'⟩ := ih state later
      rw [mine_cons seen, run_cons (val.symm.trans first)]
      exact ⟨state', (Comparison.through C.see).append log log', val'⟩
    | false =>
      obtain ⟨still, nothing⟩ := skip seen same
      obtain ⟨state', log', val'⟩ := ih still later
      rw [mine_skip seen]
      have none : (Comparison.through C.see).rel (M.handle e s).log [] := nothing
      exact ⟨state', (Comparison.through C.see).append none log', val'⟩

theorem project_isRun (same : C.view s = C.view t) (runs : M.IsRun s es) (done : (M.run es s).val = .ok ()) :
    M.IsRun t (C.mine es) := by
  induction es generalizing s t with
  | nil => trivial
  | cons e es ih =>
    obtain ⟨able, rest⟩ := runs
    obtain ⟨u, first, later⟩ := bind_ok (x := M.handle e) done
    cases seen : C.sees e with
    | true =>
      obtain ⟨state, _, _⟩ := C.agrees seen s t same
      rw [mine_cons seen]
      exact ⟨C.enabled seen same able, fun _ => ih state (rest first) later⟩
    | false =>
      rw [mine_skip seen]
      exact ih (skip seen same).1 (rest first) later

/-- A run that is cut short has had a first part of the effects of the component. -/
theorem effects_prefix (C : Component M τ κ) (es : List ι) (same : C.view s = C.view t) :
    C.effects (M.run es s).log <+: C.effects (M.run (C.mine es) t).log := by
  induction es generalizing s t with
  | nil => exact List.prefix_refl _
  | cons e es ih =>
    cases seen : C.sees e with
    | true =>
      obtain ⟨state, log, val⟩ := C.agrees seen s t same
      have log' : C.effects (M.handle e s).log = C.effects (M.handle e t).log := log
      rw [mine_cons seen]
      cases first : (M.handle e s).val with
      | error f =>
        rw [run_fault first, run_fault (val.symm.trans first)]
        exact log' ▸ List.prefix_refl _
      | ok u =>
        rw [run_cons first, run_cons (val.symm.trans first)]
        simp only [effects, List.filterMap_append] at log' ⊢
        rw [log']
        exact (List.prefix_append_right_inj _).mpr (ih state)
    | false =>
      obtain ⟨still, nothing⟩ := skip seen same
      rw [mine_skip seen]
      cases first : (M.handle e s).val with
      | error f =>
        rw [run_fault first, nothing]
        exact List.nil_prefix
      | ok u =>
        rw [run_cons first]
        simp only [effects, List.filterMap_append] at nothing ⊢
        rw [nothing, List.nil_append]
        exact ih still

/-- Where the component can complete its events, the next one is handled without
a fault if it is one of them, -/
theorem handles (seen : C.sees e = true) (same : C.view s = C.view t)
    (done : (M.run (C.mine (e :: es)) t).val = .ok ()) : (M.handle e s).val = .ok () := by
  rw [mine_cons seen] at done
  obtain ⟨u, first, _⟩ := bind_ok (x := M.handle e) done
  exact (C.agrees seen s t same).val.trans first

/-- and then it can complete the rest. -/
theorem advance (same : C.view s = C.view t) (done : (M.run (C.mine (e :: es)) t).val = .ok ()) :
    ∃ t', C.view (M.handle e s).state = C.view t' ∧ (M.run (C.mine es) t').val = .ok () ∧
      (M.IsRun t (C.mine (e :: es)) → M.IsRun t' (C.mine es)) := by
  cases seen : C.sees e with
  | true =>
    rw [mine_cons seen] at done ⊢
    obtain ⟨u, first, later⟩ := bind_ok (x := M.handle e) done
    exact ⟨(M.handle e t).state, (C.agrees seen s t same).state, later, fun runs => runs.2 first⟩
  | false =>
    rw [mine_skip seen] at done ⊢
    exact ⟨t, (skip seen same).1, done, id⟩

theorem able (seen : C.sees e = true) (same : C.view s = C.view t) (runs : M.IsRun t (C.mine (e :: es))) :
    M.enabled s e := by
  rw [mine_cons seen] at runs
  exact C.enabled seen same.symm runs.1

end Component

section pairs
variable {M : EventSystem ω ε σ ι} {τ' κ' : Type} {C : Component M τ κ} {D : Component M τ' κ'}
  {es es' : List ι} {s t u : σ}

/-- Two components that between them take part in every event. -/
def Cover (C : Component M τ κ) (D : Component M τ' κ') : Prop := ∀ e, C.sees e = true ∨ D.sees e = true

/-- Runs of two components that complete are a run that completes. -/
theorem Cover.glue (cover : Cover C D) (sameC : C.view s = C.view t) (sameD : D.view s = D.view u)
    (doneC : (M.run (C.mine es) t).val = .ok ()) (doneD : (M.run (D.mine es) u).val = .ok ()) :
    (M.run es s).val = .ok () ∧ (M.IsRun t (C.mine es) → M.IsRun u (D.mine es) → M.IsRun s es) := by
  induction es generalizing s t u with
  | nil => exact ⟨rfl, fun _ _ => trivial⟩
  | cons e es ih =>
    have first : (M.handle e s).val = .ok () := by
      rcases cover e with seen | seen
      · exact Component.handles seen sameC doneC
      · exact Component.handles seen sameD doneD
    obtain ⟨t', stateC, laterC, restC⟩ := Component.advance sameC doneC
    obtain ⟨u', stateD, laterD, restD⟩ := Component.advance sameD doneD
    obtain ⟨done, runs⟩ := ih stateC stateD laterC laterD
    refine ⟨?_, fun runsC runsD => ⟨?_, fun _ => runs (restC runsC) (restD runsD)⟩⟩
    · rw [run_cons first]
      exact done
    · rcases cover e with seen | seen
      · exact Component.able seen sameC runsC
      · exact Component.able seen sameD runsD

/-- The same events, in an order that both components find the same. -/
structure Reordered (C : Component M τ κ) (D : Component M τ' κ') (es es' : List ι) : Prop where
  left : C.mine es = C.mine es'
  right : D.mine es = D.mine es'

theorem Reordered.symm (same : Reordered C D es es') : Reordered C D es' es :=
  ⟨same.left.symm, same.right.symm⟩

/-- Whether a run completes does not depend on the order. -/
theorem Reordered.completes (same : Reordered C D es es') (cover : Cover C D)
    (done : (M.run es s).val = .ok ()) : (M.run es' s).val = .ok () := by
  have doneC := (Component.project (C := C) rfl done).val
  have doneD := (Component.project (C := D) rfl done).val
  rw [same.left] at doneC
  rw [same.right] at doneD
  exact (cover.glue rfl rfl (doneC.symm.trans done) (doneD.symm.trans done)).1

theorem Reordered.isRun (same : Reordered C D es es') (cover : Cover C D) (runs : M.IsRun s es)
    (done : (M.run es s).val = .ok ()) : M.IsRun s es' := by
  have doneC := (Component.project (C := C) rfl done).val
  have doneD := (Component.project (C := D) rfl done).val
  have runsC := Component.project_isRun (C := C) rfl runs done
  have runsD := Component.project_isRun (C := D) rfl runs done
  rw [same.left] at doneC runsC
  rw [same.right] at doneD runsD
  exact (cover.glue rfl rfl (doneC.symm.trans done) (doneD.symm.trans done)).2 runsC runsD

/-- A run that completes does the same to a component in either order. -/
theorem Reordered.alike (same : Reordered C D es es') (cover : Cover C D) (done : (M.run es s).val = .ok ()) :
    C.view (M.run es' s).state = C.view (M.run es s).state ∧
      C.effects (M.run es' s).log = C.effects (M.run es s).log := by
  have here := Component.project (C := C) rfl done
  have there := Component.project (C := C) rfl (same.completes cover done)
  rw [same.left] at here
  exact ⟨there.state.trans here.state.symm, there.log.trans here.log.symm⟩

/-- Where a fault cuts the runs short, one of them has had more of the same effects. -/
theorem Reordered.comparable (same : Reordered C D es es') (s : σ) :
    C.effects (M.run es s).log <+: C.effects (M.run es' s).log ∨
      C.effects (M.run es' s).log <+: C.effects (M.run es s).log := by
  have here := C.effects_prefix es (s := s) rfl
  have there := C.effects_prefix es' (s := s) rfl
  rw [same.left] at here
  exact List.prefix_or_prefix_of_prefix here there

end pairs

end EventSystem
