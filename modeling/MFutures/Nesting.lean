import MFutures.Reconnect

namespace MFutures
open Handler Bridge

/-- The clients that `on_close` has created and whose `run()` is still active:
all but the client of `main`. -/
def Net.retryClients (net : Net) : List Nat := net.loops.dropLast.map Loop.client

/-- At most `K` activations of `on_close` are suspended, and as many retry
clients are alive. -/
def Net.NestedAtMost (K : Nat) (net : Net) : Prop :=
  net.activations.length ≤ K ∧ net.retryClients.length ≤ K

theorem Net.nestedAtMost_iff {K : Nat} {net : Net} : net.NestedAtMost K ↔ net.activations.length ≤ K := by
  simp [NestedAtMost, retryClients, activations]

/-- Whether the attempt of `main` is still under way. -/
def Net.firstAttempt (net : Net) : Bool :=
  match net.loops with
  | [l] => l.conn = .connecting
  | _ => false

/-- Whether an event ends a connection in the sense of `main` and `on_close`:
an open connection closes, or the first attempt of all fails. -/
def Event.endings (first : Bool) : Event → Nat
  | .closed => 1
  | .failed => if first then 1 else 0
  | _ => 0

/-- Whether the first attempt is under way after an event. -/
def Event.stillFirst (first : Bool) : Event → Bool
  | .opened => false
  | .closed => false
  | .failed => false
  | _ => first

/-- The connections that end in a sequence of events. -/
def endings : Bool → List (Env × Event) → Nat
  | _, [] => 0
  | first, (_, event) :: es => event.endings first + endings (event.stillFirst first) es

/-- A longer sequence ends no fewer connections. -/
theorem endings_append (first : Bool) (es es' : List (Env × Event)) :
    endings first es ≤ endings first (es ++ es') := by
  induction es generalizing first with
  | nil => exact Nat.zero_le _
  | cons e es ih => exact Nat.add_le_add_left (ih _) _

section nesting
variable {lib : Lib}

/-- An event that keeps the event loops ends nothing. -/
theorem handle_kept {b : Bridge} {ev : Env × Event} (same : (handle lib ev b).state.net = b.net) :
    (handle lib ev b).state.net.activations.length = b.net.activations.length + 0 ∧
    (handle lib ev b).state.net.firstAttempt = b.net.firstAttempt := by
  rw [same]
  exact ⟨rfl, rfl⟩

/-- A handler leaves one more activation of `on_close` behind exactly if its
event ends a connection. -/
theorem handle_nesting {env : Env} {event : Event} {b : Bridge} (inv : b.net.Inv lib)
    (able : Enabled b (env, event)) :
    (handle lib (env, event) b).state.net.activations.length =
      b.net.activations.length + event.endings b.net.firstAttempt ∧
    (handle lib (env, event) b).state.net.firstAttempt = event.stillFirst b.net.firstAttempt := by
  obtain ⟨accepted, _, _, l, ls, loops, _, _, up⟩ := inv
  cases event with
  | opened =>
    obtain ⟨log, run⟩ := handle_opened env lib b
    rw [run]
    cases ls <;> simp [Net.activations, Net.setConn, Net.firstAttempt, Event.endings, Event.stillFirst, loops]
  | closed =>
    obtain ⟨log, run⟩ := handle_closed env accepted
    rw [run]
    simp [Net.activations, Net.afterClose, Net.setConn, Net.push, Net.firstAttempt, Event.endings,
      Event.stillFirst, loops]
  | failed =>
    have connecting : l.conn = .connecting := by simpa [Enabled, Net.conn, loops] using able
    obtain ⟨log, run⟩ := handle_failed env accepted (by simpa [connecting] using up) (by simp [loops])
    rw [run]
    -- only the attempt of `main` has `on_close` for its fail handler
    cases ls <;> simp [Net.activations, Net.afterFail, Net.afterClose, Net.setConn, Net.push,
      Net.firstAttempt, Event.endings, Event.stillFirst, loops, connecting]
  | message payload =>
    refine handle_kept ?_
    simp only [handle, bind_run, get_run, andThen_ok, loops]
    exact onMessage_net lib env _ _ payload b
  | trader api cb => exact handle_kept rfl
  | md api cb => exact handle_kept rfl

/-- The depth of the recursion counts the connections that have ended. -/
theorem run_nesting {es : List (Env × Event)} {b : Bridge} (inv : b.net.Inv lib)
    (runs : (bridge lib).IsRun b es) (done : ((bridge lib).run es b).val = .ok ()) :
    ((bridge lib).run es b).state.net.activations.length =
      b.net.activations.length + endings b.net.firstAttempt es := by
  induction es generalizing b with
  | nil => rfl
  | cons e es ih =>
    obtain ⟨env, event⟩ := e
    obtain ⟨able, rest⟩ := runs
    obtain ⟨_, now, later⟩ := bind_ok (x := handle lib (env, event)) done
    obtain ⟨deeper, first⟩ := handle_nesting inv able
    have counted := ih (handle_inv inv able) (rest now) later
    rw [EventSystem.run_cons now]
    rw [deeper, first, Nat.add_assoc] at counted
    exact counted

/-- The connection events are handled without a fault. -/
theorem connection_handled {env : Env} {event : Event} {b : Bridge} (inv : b.net.Inv lib)
    (able : Enabled b (env, event)) (connection : event = .opened ∨ event = .closed ∨ event = .failed) :
    (handle lib (env, event) b).val = .ok () := by
  rcases connection with rfl | ended
  · obtain ⟨log, run⟩ := handle_opened env lib b
    rw [run]
  · obtain ⟨log, net, _, run⟩ := handle_ended inv able ended
    rw [run]

/-- Reconnection: `status` says whether a connection is open, no two are, and the
innermost event loop has a connection open or an attempt under way. The connection
events are handled without a fault. Whatever happens from here on, each connection
that ends leaves one more activation of `on_close` behind, and no activation returns. -/
theorem reconnection_invariant (lib : Lib) (b : Bridge) (reach : Reachable lib b) :
    (b.net.status = true ↔ ∃ l ∈ b.net.loops, l.conn = .opened) ∧
    (b.net.loops.filter fun l => l.conn = .opened).length ≤ 1 ∧
    (∃ l ls, b.net.loops = l :: ls ∧ l.conn ≠ .closed) ∧
    (∀ env event, Enabled b (env, event) → event = .opened ∨ event = .closed ∨ event = .failed →
      (handle lib (env, event) b).val = .ok ()) ∧
    ∀ es, (bridge lib).IsRun b es → ((bridge lib).run es b).val = .ok () →
      (∃ l ls, ((bridge lib).run es b).state.net.loops = l :: ls ∧ l.conn ≠ .closed) ∧
      b.net.activations <:+ ((bridge lib).run es b).state.net.activations ∧
      ((bridge lib).run es b).state.net.activations.length =
        b.net.activations.length + endings b.net.firstAttempt es := by
  have inv := reach.net_inv
  obtain ⟨_, _, _, l, ls, loops, live, closed, up⟩ := reach.net_inv
  have notOpen : ∀ k ∈ ls, k.conn ≠ .opened := fun k member => by simp [closed k member]
  have none : ls.filter (fun k => k.conn = .opened) = [] := by simpa using notOpen
  refine ⟨?_, ?_, ⟨l, ls, loops, live⟩, fun env event => connection_handled inv, fun es runs done => ⟨?_, ?_, ?_⟩⟩
  · rw [up, loops]
    constructor
    · exact fun opened => ⟨l, List.mem_cons_self, opened⟩
    · rintro ⟨k, member, opened⟩
      rcases List.mem_cons.mp member with rfl | later
      · exact opened
      · exact absurd opened (notOpen k later)
  · rw [loops, List.filter_cons, none]
    split <;> simp
  · have later : Reachable lib ((bridge lib).run es b).state := EventSystem.Reach.run reach runs done
    obtain ⟨_, _, _, k, ks, loops', live', _⟩ := later.net_inv
    exact ⟨k, ks, loops', live'⟩
  · exact EventSystem.Reach.run_relates
      (R := fun s t : Bridge => s.net.activations <:+ t.net.activations)
      (fun s => List.suffix_refl _) (fun s t u first next => first.trans next)
      (fun s e at_ able _ => handle_activations (Reachable.net_inv at_) able) reach runs done
  · exact run_nesting inv runs done

/-- The second connection of a bridge: the first one was opened and closed. -/
theorem reconnection_invariant_reconnected :
    let b := ((bridge (.plain [])).run [(default, .opened), (default, .closed), (default, .opened)]
      (Bridge.listening (.plain []))).state
    (b.net.status = true ↔ ∃ l ∈ b.net.loops, l.conn = .opened) ∧
    (b.net.loops.filter fun l => l.conn = .opened).length ≤ 1 ∧
    (∃ l ls, b.net.loops = l :: ls ∧ l.conn ≠ .closed) ∧
    (∀ env event, Enabled b (env, event) → event = .opened ∨ event = .closed ∨ event = .failed →
      (handle (.plain []) (env, event) b).val = .ok ()) ∧
    ∀ es, (bridge (.plain [])).IsRun b es → ((bridge (.plain [])).run es b).val = .ok () →
      (∃ l ls, ((bridge (.plain [])).run es b).state.net.loops = l :: ls ∧ l.conn ≠ .closed) ∧
      b.net.activations <:+ ((bridge (.plain [])).run es b).state.net.activations ∧
      ((bridge (.plain [])).run es b).state.net.activations.length =
        b.net.activations.length + endings b.net.firstAttempt es :=
  reconnection_invariant (.plain []) _ (EventSystem.Reach.run (.start (started_listening rfl))
    ⟨rfl, fun _ => ⟨rfl, fun _ => ⟨rfl, fun _ => trivial⟩⟩⟩ rfl)

theorem started_nesting {b : Bridge} (start : Started lib b) :
    b.net.activations = [] ∧ b.net.firstAttempt = true := by
  obtain ⟨_, state⟩ := started_state start
  rw [state]
  exact ⟨rfl, rfl⟩

/-- The depth at the end of an execution is the number of its endings. -/
theorem execution_nesting (x : (bridge lib).Execution (Started lib)) :
    ((bridge lib).run x.events x.start).state.net.activations.length = endings true x.events := by
  obtain ⟨none, first⟩ := started_nesting x.started
  have counted := run_nesting (started_inv x.started) x.runs x.done
  rwa [none, first, List.length_nil, Nat.zero_add] at counted

/-- Along the executions of a family the nesting is bounded exactly if the
number of connections that end in one of them is. -/
theorem nesting_bounded_iff (lib : Lib) (R : (bridge lib).Execution (Started lib) → Prop) :
    (∃ K, ∀ x, R x → ∀ b, x.Visits b → b.net.NestedAtMost K) ↔ ∃ K, ∀ x, R x → endings true x.events ≤ K := by
  constructor
  · rintro ⟨K, bounded⟩
    refine ⟨K, fun x member => ?_⟩
    rw [← execution_nesting x]
    exact Net.nestedAtMost_iff.mp (bounded x member _ ⟨x.events, List.prefix_rfl, rfl⟩)
  · rintro ⟨K, bounded⟩
    refine ⟨K, fun x member b visits => Net.nestedAtMost_iff.mpr ?_⟩
    obtain ⟨before, early, rfl⟩ := visits
    have depth := execution_nesting (x.upTo early)
    obtain ⟨after, same⟩ := early
    calc
      ((bridge lib).run before x.start).state.net.activations.length = endings true before := depth
      _ ≤ endings true x.events := same ▸ endings_append true before after
      _ ≤ K := bounded x member

/-- A server that accepts a connection and then closes it, `n` times. -/
def cycles : Nat → List (Env × Event)
  | 0 => []
  | n + 1 => (default, .opened) :: (default, .closed) :: cycles n

theorem endings_cycles (n : Nat) (first : Bool) : endings first (cycles n) = n := by
  induction n generalizing first with
  | zero => rfl
  | succ n ih =>
    simp only [cycles, endings, Event.endings, ih]
    omega

/-- Every accepted connection can be closed again, and the bridge then waits
for the next. -/
theorem cycles_run (n : Nat) {b : Bridge} (inv : b.net.Inv lib) (waiting : b.net.conn = some .connecting) :
    (bridge lib).IsRun b (cycles n) ∧ ((bridge lib).run (cycles n) b).val = .ok () := by
  induction n generalizing b with
  | zero => exact ⟨trivial, rfl⟩
  | succ n ih =>
    obtain ⟨l, ls, loops, _⟩ := inv.innermost
    have connected : (handle lib (default, .opened) b).state.net.Inv lib := handle_inv inv waiting
    obtain ⟨log, opened⟩ := handle_opened default lib b
    rw [opened] at connected
    have able : Enabled { b with net := { b.net.setConn .opened with status := true } } (default, .closed) := by
      simp [Enabled, Net.conn, Net.setConn, loops]
    have again := handle_inv connected able
    obtain ⟨log', closed⟩ := handle_closed default connected.accepted
    rw [closed] at again
    obtain ⟨runs, done⟩ := ih again rfl
    obtain ⟨runs, done⟩ := EventSystem.IsRun.cons_ok (M := bridge lib) (e := (default, .closed)) able closed runs done
    exact EventSystem.IsRun.cons_ok (M := bridge lib) (e := (default, .opened)) waiting opened runs done

end nesting

/-- No bound serves a server that keeps closing the connections it accepts. -/
theorem nesting_unbounded :
    ¬ ∃ K, ∀ x : (bridge (.plain [])).Execution (Started (.plain [])), ∀ b, x.Visits b → b.net.NestedAtMost K := by
  rintro ⟨K, bounded⟩
  have start : Started (.plain []) (.listening (.plain [])) := started_listening rfl
  obtain ⟨runs, done⟩ := cycles_run (K + 1) (started_inv start) rfl
  let x : (bridge (.plain [])).Execution (Started (.plain [])) := ⟨_, _, start, runs, done⟩
  have depth := execution_nesting x
  have shallow := Net.nestedAtMost_iff.mp (bounded x _ ⟨x.events, List.prefix_rfl, rfl⟩)
  rw [depth, endings_cycles] at shallow
  exact absurd shallow (Nat.not_succ_le_self K)

end MFutures
