import MFutures.Bridge

namespace MFutures
open Handler Bridge

/-- The API objects once something has happened to the current one. -/
def Half.retire {S : Type} (x : Half S) (f : Api S → Api S) : List (Api S) :=
  match x.api with
  | some h => x.apis.modify h f
  | none => x.apis

/-- What `ReleaseTrader` makes of one half: the current API is unregistered and
released once more, the current SPI is deleted, and both globals are NULL. -/
def Half.torn {S : Type} (x : Half S) : Half S where
  api := none
  spi := none
  apis := x.retire fun a => { a with registered := none, released := a.released + 1 }
  spis := match x.spi with
    | some p => x.spis.set p none
    | none => x.spis

theorem Half.teardown_run {S : Type} (x : Half S) :
    ∃ log, teardown x = ⟨log, x.torn, .ok ()⟩ := by
  rcases x with ⟨api, spi, apis, spis⟩
  cases api <;> cases spi <;>
    simp [teardown, dropApi, dropSpi, registerSpi, release, torn, retire, updateApi, bind_run,
      List.modify_modify_eq, Function.comp_def]

/-- Both halves after `ReleaseTrader`. -/
def Bridge.torn (b : Bridge) : Bridge :=
  { b with trader := { b.trader with toHalf := b.trader.toHalf.torn }, md := b.md.torn }

theorem releaseTrader_run (b : Bridge) : ∃ log, releaseTrader b = ⟨log, b.torn, .ok ()⟩ := by
  obtain ⟨mdLog, md⟩ := Half.teardown_run b.md
  obtain ⟨traderLog, trader⟩ := Half.teardown_run b.trader.toHalf
  simp [releaseTrader, bind_run, onMd, onTrader, TraderHalf.onHalf, Bridge.torn, md, trader]

/-- A fresh client with a connection attempt, on a new event loop. -/
def Net.push (net : Net) : Net :=
  { net with loops := ⟨net.clients, .connecting⟩ :: net.loops, clients := net.clients + 1 }

section steps
variable {lib : Lib} (env : Env)

theorem retry_run {net : Net} (accepted : lib.accepts net.uri = true) :
    ∃ log, retry lib env net = ⟨log, net.push, .ok ()⟩ := by
  simp [retry, printMain, bind_run, accepted, Net.push]

theorem afterRun_run {net : Net} (accepted : lib.accepts net.uri = true) (down : net.status = false)
    (l : Loop) (ls : List Loop) :
    ∃ log, afterRun lib env (l :: ls) net = ⟨log, { net with loops := l :: ls }.push, .ok ()⟩ := by
  obtain ⟨status, uri, loops, clients⟩ := net
  subst down
  have again : lib.accepts (Net.mk false uri (l :: ls) clients).uri = true := accepted
  obtain ⟨log, next⟩ := retry_run env again
  simp [afterRun, printMain, bind_run, next]

theorem onClose_run {b : Bridge} (accepted : lib.accepts b.net.uri = true) :
    ∃ log, onClose lib env b =
      ⟨log, { b.torn with net := { b.net with status := false }.push }, .ok ()⟩ := by
  obtain ⟨log, torn⟩ := releaseTrader_run b
  have again : lib.accepts { b.net with status := false }.uri = true := accepted
  obtain ⟨log', next⟩ := retry_run env again
  have net : b.torn.net = b.net := rfl
  simp [onClose, printMain, bind_run, onNet, torn, net, next]

theorem onFail_run (b : Bridge) : ∃ log, onFail env b = ⟨log, b.torn, .ok ()⟩ := by
  obtain ⟨log, torn⟩ := releaseTrader_run b
  simp [onFail, printMain, bind_run, onNet, torn]

theorem handle_opened (lib : Lib) (b : Bridge) : ∃ log, handle lib (env, .opened) b =
    ⟨log, { b with net := { b.net.setConn .opened with status := true } }, .ok ()⟩ := by
  simp [handle, onOpen, printMain, bind_run, onNet]

/-- The net after the innermost connection has closed. -/
def Net.afterClose (net : Net) : Net := { net.setConn .closed with status := false }.push

theorem handle_closed {b : Bridge} (accepted : lib.accepts b.net.uri = true) :
    ∃ log, handle lib (env, .closed) b = ⟨log, { b.torn with net := b.net.afterClose }, .ok ()⟩ := by
  have again : lib.accepts (Bridge.mk b.trader b.md (b.net.setConn .closed)).net.uri = true := accepted
  obtain ⟨log, close⟩ := onClose_run env again
  simp [handle, bind_run, onNet, close, Bridge.torn, Net.afterClose]

/-- The net after a failed attempt: the first attempt of `main` ends like a
connection, a retry gives its place to the next retry. -/
def Net.afterFail (net : Net) : Net :=
  match net.loops with
  | _ :: l :: ls => { net with loops := l :: ls }.push
  | _ => net.afterClose

theorem handle_failed {b : Bridge} (accepted : lib.accepts b.net.uri = true)
    (down : b.net.status = false) (alive : b.net.loops ≠ []) :
    ∃ log, handle lib (env, .failed) b = ⟨log, { b.torn with net := b.net.afterFail }, .ok ()⟩ := by
  obtain ⟨trader, md, status, uri, loops, clients⟩ := b
  match loops with
  | [] => exact absurd rfl alive
  | [l] =>
    obtain ⟨log, close⟩ := onClose_run env
      (b := ⟨trader, md, status, uri, [{ l with conn := .closed }], clients⟩) accepted
    simp [handle, attemptFailed, bind_run, onNet, Net.setConn, close, Bridge.torn, Net.afterFail,
      Net.afterClose]
  | l :: k :: ks =>
    obtain ⟨log, fail⟩ := onFail_run env
      ⟨trader, md, status, uri, { l with conn := .closed } :: k :: ks, clients⟩
    have again : lib.accepts (Net.mk status uri ({ l with conn := .closed } :: k :: ks) clients).uri = true :=
      accepted
    obtain ⟨log', after⟩ := afterRun_run env again down k ks
    simp [handle, attemptFailed, bind_run, onNet, Net.setConn, fail, after, Bridge.torn, Net.afterFail]

end steps

/-- The event loops of a bridge that has not given up: only the innermost
connection can be anything but closed, and `status` says whether it is open. No
two of them belong to the same client. -/
structure Net.Inv (lib : Lib) (net : Net) : Prop where
  accepted : lib.accepts net.uri = true
  distinct : (net.loops.map Loop.client).Nodup
  created : ∀ k ∈ net.loops, k.client < net.clients
  innermost : ∃ l ls, net.loops = l :: ls ∧ l.conn ≠ .closed ∧ (∀ k ∈ ls, k.conn = .closed) ∧
    (net.status = true ↔ l.conn = .opened)

/-- The end of a connection and a failed attempt tear both halves down, and
the bridge waits for the next connection. -/
theorem handle_ended {lib : Lib} {env : Env} {b : Bridge} {event : Event} (inv : b.net.Inv lib)
    (able : Enabled b (env, event)) (ended : event = .closed ∨ event = .failed) :
    ∃ log net, net.conn = some .connecting ∧
      handle lib (env, event) b = ⟨log, { b.torn with net }, .ok ()⟩ := by
  obtain ⟨accepted, _, _, l, ls, loops, _, _, up⟩ := inv
  rcases ended with rfl | rfl
  · obtain ⟨log, run⟩ := handle_closed env accepted
    exact ⟨log, _, rfl, run⟩
  · have connecting : l.conn = .connecting := by simpa [Enabled, Net.conn, loops] using able
    obtain ⟨log, run⟩ := handle_failed env accepted (by simpa [connecting] using up) (by simp [loops])
    refine ⟨log, _, ?_, run⟩
    unfold Net.afterFail
    split <;> rfl

theorem dispatch_net (lib : Lib) (env : Env) (c hdl : Nat) (root : Value) (type : ReqType) :
    Keeps Bridge.net (dispatch lib env c hdl root type) := by
  cases type <;> exact fun _ => rfl

theorem onMessage_net (lib : Lib) (env : Env) (c hdl : Nat) (payload : String) :
    Keeps Bridge.net (onMessage lib env c hdl payload) := by
  refine .bind (.ofExcept _) fun root => .bind (.ofExcept _) fun type => .bind ?_ fun _ =>
    dispatch_net lib env c hdl root type
  unfold echo
  split
  · exact .emit _
  · exact .pure _

/-- What one handler does to the event loops. A message or a callback leaves
them alone; an attempt that succeeds sets `status`; the end of a connection and
a failed attempt each leave a fresh attempt innermost. -/
theorem handle_net {lib : Lib} {b : Bridge} {ev : Env × Event} (inv : b.net.Inv lib)
    (able : Enabled b ev) :
    (handle lib ev b).state.net = b.net ∨
    (handle lib ev b).state.net = { b.net.setConn .opened with status := true } ∨
    (handle lib ev b).state.net = b.net.afterClose ∨
    ((handle lib ev b).state.net = b.net.afterFail ∧ b.net.conn = some .connecting) := by
  obtain ⟨accepted, _, _, l, ls, loops, _, _, up⟩ := inv
  obtain ⟨env, event⟩ := ev
  cases event with
  | opened =>
    obtain ⟨log, run⟩ := handle_opened env lib b
    exact .inr (.inl (by rw [run]))
  | closed =>
    obtain ⟨log, run⟩ := handle_closed env accepted
    exact .inr (.inr (.inl (by rw [run])))
  | failed =>
    have connecting : l.conn = .connecting := by simpa [Enabled, Net.conn, loops] using able
    have down : b.net.status = false := by simpa [connecting] using up
    obtain ⟨log, run⟩ := handle_failed env accepted down (by simp [loops])
    exact .inr (.inr (.inr ⟨by rw [run], able⟩))
  | message payload =>
    left
    simp only [handle, bind_run, get_run, andThen_ok, loops]
    exact onMessage_net lib env _ _ payload b
  | trader api cb => exact .inl rfl
  | md api cb => exact .inl rfl

theorem Net.setConn_clients (conn : Conn) (net : Net) :
    (net.setConn conn).loops.map Loop.client = net.loops.map Loop.client := by
  unfold Net.setConn
  cases net.loops <;> rfl

/-- A pushed loop belongs to a new client. -/
theorem Net.push_distinct (net : Net) (distinct : (net.loops.map Loop.client).Nodup)
    (created : ∀ c ∈ net.loops.map Loop.client, c < net.clients) :
    (net.push.loops.map Loop.client).Nodup ∧ ∀ k ∈ net.push.loops, k.client < net.push.clients := by
  constructor
  · refine List.nodup_cons.mpr ⟨fun member => ?_, distinct⟩
    exact Nat.lt_irrefl _ (created _ member)
  · intro k member
    rcases List.mem_cons.mp member with rfl | old
    · exact Nat.lt_succ_self _
    · exact Nat.lt_succ_of_lt (created _ (List.mem_map_of_mem old))

theorem handle_inv {lib : Lib} {b : Bridge} {ev : Env × Event} (inv : b.net.Inv lib)
    (able : Enabled b ev) : (handle lib ev b).state.net.Inv lib := by
  have step := handle_net inv able
  obtain ⟨accepted, distinct, created, l, ls, loops, live, closed, up⟩ := inv
  have below : ∀ c ∈ b.net.loops.map Loop.client, c < b.net.clients := by simpa using created
  have closing : b.net.afterClose.Inv lib := by
    have clients := Net.setConn_clients .closed b.net
    obtain ⟨distinct', created'⟩ :=
      { b.net.setConn .closed with status := false }.push_distinct (clients ▸ distinct) (clients ▸ below)
    refine ⟨accepted, distinct', created', ⟨b.net.clients, .connecting⟩, { l with conn := .closed } :: ls,
      by simp [Net.afterClose, Net.setConn, Net.push, loops], by simp, ?_, by simp [Net.afterClose, Net.push]⟩
    simpa using closed
  rcases step with same | opened | ended | ⟨failed, connecting⟩
  · rw [same]
    exact ⟨accepted, distinct, created, l, ls, loops, live, closed, up⟩
  · have clients := Net.setConn_clients .opened b.net
    rw [opened]
    refine ⟨accepted, clients ▸ distinct, ?_, { l with conn := .opened }, ls, by simp [Net.setConn, loops],
      by simp, closed, by simp⟩
    exact fun k member => below _ (clients ▸ List.mem_map_of_mem member)
  · rw [ended]
    exact closing
  · have connecting : l.conn = .connecting := by simpa [Net.conn, loops] using connecting
    have down : b.net.status = false := by simpa [connecting] using up
    rw [failed]
    cases ls with
    | nil => simpa only [Net.afterFail, loops] using closing
    | cons k ks =>
      rw [loops] at distinct below
      obtain ⟨distinct', created'⟩ := { b.net with loops := k :: ks }.push_distinct
        (List.nodup_cons.mp distinct).2 (fun c member => below c (List.mem_cons_of_mem _ member))
      simp only [Net.afterFail, loops]
      exact ⟨accepted, distinct', created', ⟨b.net.clients, .connecting⟩, k :: ks, by simp [Net.push],
        by simp, closed, by simp [Net.push, down]⟩

/-- `main` gets to its event loop with one attempt under way and nothing else. -/
theorem started_state {lib : Lib} {b : Bridge} (start : Started lib b) :
    lib.accepts b.net.uri = true ∧ b = { Bridge.boot with net := { Bridge.boot.net with uri := b.net.uri }.push } := by
  obtain ⟨env, argv, run, accepted⟩ := start
  refine ⟨accepted, ?_⟩
  by_cases taken : lib.accepts (argv.getD Bridge.boot.net.uri) = true
  · subst run
    simp [main, onNet, bind_run, taken, printMain, Net.push]
  · subst run
    simp [main, onNet, bind_run, taken, printMain] at accepted

theorem started_listening {lib : Lib} (accepted : lib.accepts Bridge.boot.net.uri = true) :
    Started lib (Bridge.listening lib) := by
  refine ⟨default, none, rfl, ?_⟩
  simp [Bridge.listening, main, onNet, bind_run, printMain, accepted]

theorem started_inv {lib : Lib} {b : Bridge} (start : Started lib b) : b.net.Inv lib := by
  obtain ⟨accepted, state⟩ := started_state start
  refine ⟨accepted, ?_, ?_, ⟨0, .connecting⟩, [], ?_, by simp, by simp, ?_⟩ <;>
    rw [state] <;> simp [Bridge.boot, Net.push]

theorem Reachable.net_inv {lib : Lib} {b : Bridge} (reach : Reachable lib b) : b.net.Inv lib :=
  EventSystem.Reach.invariant (P := fun b => b.net.Inv lib) (fun _ start => started_inv start)
    (fun _ _ inv able _ => handle_inv inv able) reach

/-- The loops in which an activation of `on_close` is still executing, the
innermost activation first. -/
def Net.activations (net : Net) : List Loop := net.loops.tail

theorem handle_activations {lib : Lib} {b : Bridge} {ev : Env × Event} (inv : b.net.Inv lib)
    (able : Enabled b ev) : b.net.activations <:+ (handle lib ev b).state.net.activations := by
  have step := handle_net inv able
  obtain ⟨_, _, _, l, ls, loops, live, closed, up⟩ := inv
  simp only [Net.activations, loops, List.tail_cons]
  rcases step with same | opened | ended | ⟨failed, _⟩
  · rw [same, loops]
    exact List.suffix_refl ls
  · rw [opened]
    simp [Net.setConn, loops]
  · rw [ended]
    simp [Net.afterClose, Net.setConn, Net.push, loops]
  · rw [failed]
    cases ls <;> simp [Net.afterFail, Net.push, loops]

end MFutures
