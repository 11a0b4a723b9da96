import MFutures.Callbacks
import MFutures.SessionInvariant

namespace MFutures
open Handler Bridge

/-- The websocket messages among the effects of the bridge, in the order they were sent. -/
def sent (log : List Output) : List RspMessage := log.filterMap Output.message

@[simp] theorem sent_nil : sent [] = [] := rfl

@[simp] theorem sent_append (a b : List Output) : sent (a ++ b) = sent a ++ sent b := List.filterMap_append

@[simp] theorem sent_main (line : String) (log : List Output) : sent (.main line :: log) = sent log := rfl

@[simp] theorem sent_trader (log : List Effect) : sent (log.map .trader) = messages log := by
  unfold sent messages
  rw [List.filterMap_map]
  rfl

@[simp] theorem sent_md (log : List Effect) : sent (log.map .md) = messages log := by
  unfold sent messages
  rw [List.filterMap_map]
  rfl

theorem sent_echoed (env : Env) (type : ReqType) (payload : String) :
    sent (echoed env type payload) = [] := by
  unfold echoed
  split <;> rfl

/-- The current session of the trading half: its API, and the address and the value of its SPI. -/
structure TraderSession (b : Bridge) (api p : Nat) (s : CTraderSpi) : Prop where
  atApi : b.trader.api = some api
  atSpi : b.trader.spi = some p
  object : b.trader.object p = some s
  registered : b.trader.apis[api]?.bind Api.registered = some p
  own : s.tpUserApi = api
  ready : s.identity.Ready
  linked : s.Linked

/-- The current session of the market-data half. -/
structure MdSession (b : Bridge) (api p : Nat) (s : CMdSpi) : Prop where
  atApi : b.md.api = some api
  atSpi : b.md.spi = some p
  object : b.md.object p = some s
  registered : b.md.apis[api]?.bind Api.registered = some p
  own : s.mpUserApi = api
  ready : s.identity.Ready
  linked : s.Linked

/-- An API that may call back is the current one. -/
theorem Half.Inv.live {S : Type} {ident : S → Identity} {opened : Option Nat} {x : Half S} {api : Nat}
    (inv : x.Inv ident opened) (live : x.Live api) : x.api = some api := by
  obtain ⟨a, atA, _, fresh, _⟩ := live
  by_contra other
  have released := inv.ended api a atA other
  omega

theorem Half.Inv.session_of_api {S : Type} {ident : S → Identity} {opened : Option Nat} {x : Half S}
    {api : Nat} (inv : x.Inv ident opened) (atApi : x.api = some api) :
    ∃ p s, x.spi = some p ∧ x.object p = some s ∧ x.apis[api]?.bind Api.registered = some p ∧
      (ident s).api = api ∧ (ident s).Ready := by
  have paired : x.spi ≠ none := fun none => by simp [inv.paired.mpr none] at atApi
  obtain ⟨p, atSpi⟩ := Option.ne_none_iff_exists'.mp paired
  obtain ⟨s, a, atS, atA, own, registered, _, _, ready, _⟩ := inv.current api p atApi atSpi
  exact ⟨p, s, atSpi, atS, by simp [atA, registered], own, ready⟩

theorem Identity.Ready.linked {i : Identity} (ready : i.Ready) :
    ∃ c hdl, i.client = some c ∧ i.hdl = some hdl := by
  obtain ⟨c, client⟩ := Option.isSome_iff_exists.mp ready.client
  obtain ⟨hdl, handle⟩ := Option.isSome_iff_exists.mp ready.hdl
  exact ⟨c, hdl, client, handle⟩

section sessions
variable {lib : Lib} {b : Bridge} {api : Nat}

theorem Bridge.Inv.trader_session (inv : b.Inv lib) (atApi : b.trader.api = some api) :
    ∃ p s, TraderSession b api p s := by
  obtain ⟨p, s, atSpi, atS, registered, own, ready⟩ := inv.trader.session_of_api atApi
  exact ⟨p, s, atApi, atSpi, atS, registered, own, ready, ready.linked⟩

theorem Bridge.Inv.md_session (inv : b.Inv lib) (atApi : b.md.api = some api) :
    ∃ p s, MdSession b api p s := by
  obtain ⟨p, s, atSpi, atS, registered, own, ready⟩ := inv.md.session_of_api atApi
  exact ⟨p, s, atApi, atSpi, atS, registered, own, ready, ready.linked⟩

end sessions

section payloads
variable (lib : Lib)

/-- The UniqueID of a message of the server. -/
def messageID (payload : String) : Int :=
  match readStrJson lib payload with
  | .ok root =>
    match uniqueID root with
    | .ok id => id
    | .error _ => 0
  | .error _ => 0

def messageType (payload : String) : Option ReqType :=
  match readStrJson lib payload with
  | .ok root => (reqType lib root).toOption
  | .error _ => none

variable {lib}

theorem messageType_read {payload : String} {root : Value} {type : ReqType}
    (read : readStrJson lib payload = .ok root) (ofType : reqType lib root = .ok type) :
    messageType lib payload = some type := by
  simp [messageType, read, ofType, Except.toOption]

theorem messageType_some {payload : String} {type : ReqType} (typed : messageType lib payload = some type) :
    ∃ root, readStrJson lib payload = .ok root ∧ reqType lib root = .ok type := by
  unfold messageType at typed
  split at typed
  · rename_i root read
    cases ofType : reqType lib root with
    | error e => simp [ofType, Except.toOption] at typed
    | ok type' =>
      have same : type' = type := by simpa [ofType, Except.toOption] using typed
      exact ⟨root, read, same ▸ ofType⟩
  · cases typed

end payloads

section outcomes
variable {b : Bridge} {api p : Nat}

theorem TraderSession.ctx {s : CTraderSpi} (session : TraderSession b api p s) :
    TraderHalf.ctx? p b.trader = some ⟨s, b.trader.iRequestID⟩ := by
  simp [TraderHalf.ctx?, session.object]

/-- The bridge after a method of the current trader SPI has run. -/
def Bridge.traderRan (b : Bridge) (p : Nat) (r : Outcome Effect Fault TraderCtx Unit) :
    Outcome Output Fault Bridge Unit :=
  ⟨r.log.map .trader, { b with trader := b.trader.putCtx p r.state }, r.val⟩

def Bridge.mdRan (b : Bridge) (p : Nat) (r : Outcome Effect Fault CMdSpi Unit) :
    Outcome Output Fault Bridge Unit :=
  ⟨r.log.map .md, { b with md := b.md.store p r.state }, r.val⟩

/-- A callback of the current API runs on the current SPI. -/
theorem TraderSession.handle {s : CTraderSpi} (session : TraderSession b api p s) (lib : Lib) (env : Env)
    (cb : TraderCallback) : handle lib (env, .trader api cb) b =
      b.traderRan p (CTraderSpi.callback lib env cb ⟨s, b.trader.iRequestID⟩) := by
  have view := session.ctx
  simp [MFutures.handle, onTrader, TraderHalf.deliver, bind_run, session.registered, TraderHalf.invoke,
    focus_run view, Bridge.traderRan]

theorem MdSession.handle {s : CMdSpi} (session : MdSession b api p s) (lib : Lib) (env : Env)
    (cb : MdCallback) : handle lib (env, .md api cb) b = b.mdRan p (CMdSpi.callback lib env cb s) := by
  simp [MFutures.handle, onMd, MdHalf.deliver, bind_run, session.registered, MdHalf.invoke, focus,
    session.object, Bridge.mdRan]

/-- A call of the dispatcher runs on the current SPI. -/
theorem TraderSession.call {s : CTraderSpi} (session : TraderSession b api p s) (x : TraderM Unit) :
    onTrader (TraderHalf.call x) b = b.traderRan p (x ⟨s, b.trader.iRequestID⟩) := by
  have view := session.ctx
  simp [onTrader, TraderHalf.call, bind_run, session.atSpi, TraderHalf.invoke, focus_run view,
    Bridge.traderRan]

theorem MdSession.call {s : CMdSpi} (session : MdSession b api p s) (x : MdM Unit) :
    onMd (MdHalf.call x) b = b.mdRan p (x s) := by
  simp [onMd, MdHalf.call, bind_run, session.atSpi, MdHalf.invoke, focus, session.object, Bridge.mdRan]

/-- The outcome of a message on the open connection. -/
theorem handle_message {lib : Lib} {env : Env} {payload : String} {root : Value} {type : ReqType} {c : Nat}
    (opened : b.net.opened = some c) (read : readStrJson lib payload = .ok root)
    (ofType : reqType lib root = .ok type) : handle lib (env, .message payload) b =
      ⟨echoed env type payload ++ (dispatch lib env c c root type b).log,
        (dispatch lib env c c root type b).state, (dispatch lib env c c root type b).val⟩ := by
  unfold Net.opened at opened
  cases loops : b.net.loops with
  | nil => simp [loops] at opened
  | cons l ls =>
    have same : l.client = c := by
      simp only [loops] at opened
      split at opened
      · exact Option.some.inj opened
      · cases opened
    subst same
    simp only [MFutures.handle, bind_run, get_run, andThen_ok, loops, List.nil_append]
    exact onMessage_run read ofType b

/-- A message stops `on_message` before it does anything, or has a type and is
dispatched. -/
theorem message_cases (lib : Lib) {env : Env} {payload : String} (able : Enabled b (env, .message payload)) :
    (∃ e, handle lib (env, .message payload) b = ⟨[], b, .error e⟩ ∧
      (readStrJson lib payload = .error e ∨
        ∃ root, readStrJson lib payload = .ok root ∧ reqType lib root = .error e)) ∨
    ∃ c root type, b.net.opened = some c ∧ readStrJson lib payload = .ok root ∧ reqType lib root = .ok type ∧
      handle lib (env, .message payload) b =
        ⟨echoed env type payload ++ (dispatch lib env c c root type b).log,
          (dispatch lib env c c root type b).state, (dispatch lib env c c root type b).val⟩ := by
  obtain ⟨l, ls, loops, opened⟩ := Net.opened_of_conn able
  cases read : readStrJson lib payload with
  | error e => exact .inl ⟨e, by simp [MFutures.handle, bind_run, loops, onMessage, read], .inl rfl⟩
  | ok root =>
    cases ofType : reqType lib root with
    | error e =>
      exact .inl ⟨e, by simp [MFutures.handle, bind_run, loops, onMessage, read, ofType], .inr ⟨root, rfl, ofType⟩⟩
    | ok type => exact .inr ⟨l.client, root, type, opened, rfl, ofType, handle_message opened read ofType⟩

end outcomes

end MFutures
