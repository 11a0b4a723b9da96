import MFutures.Survival

namespace MFutures
open Handler Bridge

/-- The surroundings of an activation, with the websocket usable or not. -/
def Env.sending (env : Env) (ok : Bool) : Env := { env with sendOk := ok }

/-- A failing send does no harm to the handler of an event: it gets to its end
whatever becomes of the send, the bridge ends up the same, and a lost front is
recorded as such. -/
structure SendSafe (lib : Lib) (b : Bridge) (env : Env) (event : Event) : Prop where
  ends : ∀ ok, (handle lib (env.sending ok, event) b).val = .ok ()
  same : (handle lib (env.sending true, event) b).state = (handle lib (env.sending false, event) b).state
  lost : ∀ api nReason, event = .trader api (.onFrontDisconnected nReason) → ∀ ok p s,
    (handle lib (env.sending ok, event) b).state.trader.spi = some p →
    (handle lib (env.sending ok, event) b).state.trader.object p = some s → s.loginStatus.text = "N"

/-- What a trader callback takes to get to its end without a usable websocket. It
must not get to a send without an error code, nor to a record that is not there. -/
def CTraderSpi.Guarded (lib : Lib) (s : CTraderSpi) : TraderCallback → Prop
  | .onFrontConnected => s.identity.LoginFits lib
  | .onFrontDisconnected _ => False
  | .onHeartBeatWarning _ => True
  | .onRspUserLogin _ info _ last => last = false ∨ isError info = true
  | .onRspSettlementInfoConfirm _ info _ last => last = false ∨ isError info = true
  | .onRspQryInstrument _ _ _ _ => False
  | .onRspQryTradingAccount _ info _ _ => isError info = true
  | .onRspQryInvestorPosition p _ _ _ => p = none
  | .onRspOrderInsert info _ _ => isError info = false
  | .onRspOrderAction _ _ _ => True
  | .onRspError info _ _ => isError info = false
  | .onRtnOrder _ => False
  | .onRtnTrade _ => False

/-- What a market-data callback takes. A quote goes through a send with an error code. -/
def CMdSpi.Guarded (lib : Lib) (s : CMdSpi) : MdCallback → Prop
  | .onFrontConnected => s.identity.LoginFits lib
  | .onFrontDisconnected _ => True
  | .onHeartBeatWarning _ => True
  | .onRspUserLogin _ _ _ _ => False
  | .onRspError info _ _ => info.isSome = true
  | .onRspSubMarketData => True
  | .onRspUnSubMarketData => True
  | .onRtnDepthMarketData p => p.isSome = true

section guards
variable {lib : Lib}

/-- A guarded callback is one that is borne whatever becomes of the send. -/
theorem CTraderSpi.guarded_iff {s : CTraderSpi} {cb : TraderCallback} (env : Env) :
    (∀ ok, s.Bears lib (env.sending ok) cb) ↔ s.Guarded lib cb := by
  simp only [bears_iff, Bool.forall_bool, Env.sending]
  cases cb with
  | onRspUserLogin p info n last =>
    simp only [TraderCallback.Recorded, TraderCallback.overwrites, reachesSend, Guarded]
    cases last <;> cases isError info <;> cases s.loginStatus.writable <;> cases p <;> simp
  | onRspSettlementInfoConfirm p info n last =>
    simp only [TraderCallback.Recorded, TraderCallback.overwrites, reachesSend, Guarded]
    cases last <;> cases isError info <;> cases p <;> simp
  | onRspQryInstrument p info n last => cases p <;> simp [reachesSend, Guarded]
  | onRspQryTradingAccount p info n last =>
    simp only [TraderCallback.Recorded, TraderCallback.overwrites, reachesSend, Guarded]
    cases isError info <;> cases p <;> simp
  | onRspQryInvestorPosition p info n last => cases p <;> simp [reachesSend, Guarded]
  | onRtnOrder p => cases p <;> simp [reachesSend, Guarded]
  | onRtnTrade p => cases p <;> simp [reachesSend, Guarded]
  | _ => simp [reachesSend, Guarded]

theorem CMdSpi.guarded_iff {s : CMdSpi} {cb : MdCallback} (env : Env) :
    (∀ ok, s.Bears lib (env.sending ok) cb) ↔ s.Guarded lib cb := by
  simp only [bears_iff, Bool.forall_bool, Env.sending]
  cases cb with
  | onRspUserLogin p info n last => cases p <;> simp [reachesSend, Guarded]
  | _ => simp [reachesSend, Guarded]

end guards

theorem trader_sendSafe {lib : Lib} {b : Bridge} {api p : Nat} {s : CTraderSpi} (env : Env)
    (session : TraderSession b api p s) (full : s.Full) (cb : TraderCallback) :
    SendSafe lib b env (.trader api cb) ↔ s.Guarded lib cb := by
  rw [← CTraderSpi.guarded_iff env]
  constructor
  · exact fun safe ok => (session.delivered full _ cb).ends.mp ⟨(), safe.ends ok⟩
  · intro bears
    have front : ∀ nReason, cb ≠ .onFrontDisconnected nReason := by
      rintro nReason rfl
      exact (CTraderSpi.guarded_iff env).mp bears
    have linked : (TraderCtx.mk s b.trader.iRequestID).self.Linked := session.linked
    have state := fun ok => CTraderSpi.callback_state lib (env.sending ok) linked session.ready.investorID cb (.inr front)
    refine ⟨fun ok => ?_, ?_, ?_⟩
    · obtain ⟨_, done⟩ := (session.delivered full _ cb).ends.mpr (bears ok)
      exact done
    · rw [session.handle, session.handle]
      simp only [Bridge.traderRan, state]
    · rintro api' nReason same
      cases same
      exact absurd rfl (front nReason)

theorem md_sendSafe {lib : Lib} {b : Bridge} {api p : Nat} {s : CMdSpi} (env : Env)
    (session : MdSession b api p s) (cb : MdCallback) :
    SendSafe lib b env (.md api cb) ↔ s.Guarded lib cb := by
  rw [← CMdSpi.guarded_iff env]
  have state := fun ok => CMdSpi.callback_state lib (env.sending ok) s cb
  constructor
  · exact fun safe ok => (session.delivered _ cb).ends.mp ⟨(), safe.ends ok⟩
  · intro bears
    refine ⟨fun ok => ?_, ?_, fun _ _ other => by cases other⟩
    · obtain ⟨_, done⟩ := (session.delivered _ cb).ends.mpr (bears ok)
      exact done
    · rw [session.handle, session.handle]
      simp only [Bridge.mdRan, state]

theorem connect_sendSafe {lib : Lib} {b : Bridge} {api p c : Nat} {s : CTraderSpi} {payload : String}
    {root : Value} (env : Env) (session : TraderSession b api p s) (opened : b.net.opened = some c)
    (read : readStrJson lib payload = .ok root) (ofType : reqType lib root = .ok .onConnect) :
    SendSafe lib b env (.message payload) := by
  have run : ∀ ok, ∃ log, handle lib (env.sending ok, .message payload) b =
      ⟨log, { b with trader := b.trader.putCtx p ⟨s.filled, b.trader.iRequestID⟩ }, .ok ()⟩ := by
    intro ok
    obtain ⟨k, hdl, reply⟩ := CTraderSpi.onRspConnect_run lib (env.sending ok)
      (x := ⟨s, b.trader.iRequestID⟩) session.linked
    rw [handle_message opened read ofType]
    simp only [dispatch, session.call, reply, Bridge.traderRan]
    exact ⟨_, rfl⟩
  refine ⟨fun ok => ?_, ?_, fun _ _ other => by cases other⟩
  · obtain ⟨log, done⟩ := run ok
    rw [done]
  · obtain ⟨log, up⟩ := run true
    obtain ⟨log', down⟩ := run false
    rw [up, down]

/-- In every reachable state a callback survives a failing send exactly if it is
guarded against it, and `onRspConnect` always does. -/
theorem send_failures (lib : Lib) (b : Bridge) (reach : Reachable lib b) (env : Env) :
    (∀ api cb, b.trader.Live api → ∃ p s, TraderSession b api p s ∧
      (SendSafe lib b env (.trader api cb) ↔ s.Guarded lib cb)) ∧
    (∀ api cb, b.md.Live api → ∃ p s, MdSession b api p s ∧
      (SendSafe lib b env (.md api cb) ↔ s.Guarded lib cb)) ∧
    ∀ payload root, Enabled b (env, .message payload) → b.pTraderApi ≠ none →
      readStrJson lib payload = .ok root → reqType lib root = .ok .onConnect →
      SendSafe lib b env (.message payload) := by
  refine ⟨?_, ?_, ?_⟩
  · intro api cb live
    obtain ⟨p, s, session⟩ := reach.inv.trader_session (reach.inv.trader.live live)
    exact ⟨p, s, session, trader_sendSafe env session (reach.full session) cb⟩
  · intro api cb live
    obtain ⟨p, s, session⟩ := reach.inv.md_session (reach.inv.md.live live)
    exact ⟨p, s, session, md_sendSafe env session cb⟩
  · intro payload root able loggedIn read ofType
    obtain ⟨api, atApi⟩ := Option.ne_none_iff_exists'.mp loggedIn
    obtain ⟨p, s, session⟩ := reach.inv.trader_session atApi
    obtain ⟨l, ls, loops, opened⟩ := Net.opened_of_conn able
    exact connect_sendSafe env session opened read ofType

set_option maxRecDepth 4000 in
/-- If the front is lost while the websocket is down, the callback throws into
the CTP API and the status stays "Y". -/
theorem front_loss_unrecorded :
    Reachable (loginLib []) (Bridge.frontUp []) ∧ (Bridge.frontUp []).trader.Live 0 ∧
    Throws (handle (loginLib []) (Env.up.sending false, .trader 0 (.onFrontDisconnected 4097)) (.frontUp [])) ∧
    ((handle (loginLib []) (Env.up.sending false, .trader 0 (.onFrontDisconnected 4097))
      (.frontUp [])).state.trader.object 0).map (fun s => s.loginStatus.text) = some "Y" ∧
    ¬ SendSafe (loginLib []) (.frontUp []) .up (.trader 0 (.onFrontDisconnected 4097)) := by
  have stops : (handle (loginLib []) (Env.up.sending false, .trader 0 (.onFrontDisconnected 4097))
      (.frontUp [])).val = .error .sendError := rfl
  refine ⟨frontUp_reachable [], ⟨_, rfl, rfl, rfl, rfl⟩, ⟨.sendError, stops, rfl⟩, rfl, fun safe => ?_⟩
  cases stops.symm.trans (safe.ends false)

set_option maxRecDepth 4000 in
theorem send_failures_frontUp :
    (∀ api cb, (Bridge.frontUp []).trader.Live api → ∃ p s, TraderSession (.frontUp []) api p s ∧
      (SendSafe (loginLib []) (.frontUp []) .up (.trader api cb) ↔ s.Guarded (loginLib []) cb)) ∧
    (∀ api cb, (Bridge.frontUp []).md.Live api → ∃ p s, MdSession (.frontUp []) api p s ∧
      (SendSafe (loginLib []) (.frontUp []) .up (.md api cb) ↔ s.Guarded (loginLib []) cb)) ∧
    ∀ payload root, Enabled (.frontUp []) (.up, .message payload) → (Bridge.frontUp []).pTraderApi ≠ none →
      readStrJson (loginLib []) payload = .ok root → reqType (loginLib []) root = .ok .onConnect →
      SendSafe (loginLib []) (.frontUp []) .up (.message payload) :=
  send_failures (loginLib []) (.frontUp []) (frontUp_reachable []) .up

end MFutures
