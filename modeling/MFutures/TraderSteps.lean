import MFutures.Delivery

namespace MFutures
open Handler Bridge

theorem Half.store_same {S : Type} {x : Half S} {p : Nat} {s : S} (found : x.object p = some s) :
    x.store p s = x := by
  have bound := object_lt found
  have value : x.spis[p] = some s := by
    have at_ : x.spis[p]?.join = some s := found
    rwa [List.getElem?_eq_getElem bound, Option.join_some] at at_
  simp only [store, ← value, List.set_getElem_self]

/-- What one event makes of the trading half: nothing, a teardown, the session
of a login message, a filled-in status, or what the callback makes of its SPI. -/
inductive TraderStep (lib : Lib) (b : Bridge) : Event → Half CTraderSpi → Prop
  | idle {event} : (∀ api cb, event ≠ .trader api cb) → TraderStep lib b event b.trader.toHalf
  | torn {event} : event = .closed ∨ event = .failed → TraderStep lib b event b.trader.toHalf.torn
  | login {payload root c loginID brokerID investorID password addr} :
      readStrJson lib payload = .ok root → reqType lib root = .ok .reqUserLogin →
      uniqueID root = .ok loginID → TraderStep lib b (.message payload) (b.trader.toHalf.installed
        (TraderHalf.sessionSpi b.trader.apis.length c c loginID brokerID investorID password) addr)
  | connect {payload api p s} : TraderSession b api p s →
      TraderStep lib b (.message payload) (b.trader.toHalf.store p s.filled)
  | callback {api p s cb} : TraderSession b api p s →
      TraderStep lib b (.trader api cb) (b.trader.toHalf.store p (s.after cb))

section steps
variable {lib : Lib} {b : Bridge} {env : Env}

theorem call_step (inv : b.Inv lib) {x : TraderM Unit} (keeps : Keeps TraderCtx.self x) {payload : String} :
    TraderStep lib b (.message payload) (onTrader (TraderHalf.call x) b).state.trader.toHalf := by
  cases atApi : b.trader.api with
  | none =>
    have atSpi : b.trader.spi = none := inv.trader.paired.mp atApi
    have same : (onTrader (TraderHalf.call x) b).state = b := by
      simp [onTrader, TraderHalf.call, bind_run, TraderHalf.invoke, atSpi]
    rw [same]
    exact .idle fun _ _ other => by cases other
  | some api =>
    obtain ⟨p, s, session⟩ := inv.trader_session atApi
    have self : (x ⟨s, b.trader.iRequestID⟩).state.self = s := keeps _
    have same : (onTrader (TraderHalf.call x) b).state.trader.toHalf = b.trader.toHalf := by
      rw [session.call]
      simp only [Bridge.traderRan, TraderHalf.putCtx, self]
      exact Half.store_same session.object
    rw [same]
    exact .idle fun _ _ other => by cases other

theorem dispatch_step (inv : b.Inv lib) {c : Nat} {root : Value} {type : ReqType} {payload : String}
    (read : readStrJson lib payload = .ok root) (ofType : reqType lib root = .ok type)
    (done : (dispatch lib env c c root type b).val = .ok ()) :
    TraderStep lib b (.message payload) (dispatch lib env c c root type b).state.trader.toHalf := by
  have idle : TraderStep lib b (.message payload) b.trader.toHalf := .idle fun _ _ other => by cases other
  cases type with
  | onConnect =>
    cases atApi : b.trader.api with
    | none =>
      have atSpi : b.trader.spi = none := inv.trader.paired.mp atApi
      simp [dispatch, onTrader, TraderHalf.call, bind_run, TraderHalf.invoke, atSpi] at done
    | some api =>
      obtain ⟨p, s, session⟩ := inv.trader_session atApi
      obtain ⟨k, hdl, reply⟩ := CTraderSpi.onRspConnect_run lib env (x := ⟨s, b.trader.iRequestID⟩)
        session.linked
      simp only [dispatch, session.call, reply, Bridge.traderRan]
      exact .connect session
  | reqUserLogin =>
    obtain ⟨loginID, addr, brokerID, investorID, password, args⟩ := TraderHalf.login_args done
    obtain ⟨log, run⟩ := TraderHalf.login_run c c b.trader args
    change TraderStep lib b _ (TraderHalf.login lib c c root b.trader).state.toHalf
    rw [run]
    exact .login read ofType args.id
  | mdReqUserLogin => exact idle
  | reqSettlementInfoConfirm =>
    exact call_step inv (CTraderSpi.reqSettlementInfoConfirm_keeps lib env root).weaken
  | reqOrderInsert => exact call_step inv (CTraderSpi.reqOrderInsert_keeps lib env root).weaken
  | reqOrderAction => exact call_step inv (CTraderSpi.reqOrderAction_keeps lib env root)
  | mdSubscribeMarketData => exact idle
  | reqQryTradingAccount => exact call_step inv (CTraderSpi.reqQryTradingAccount_keeps lib env root).weaken
  | reqQryInvestorPosition =>
    exact call_step inv (CTraderSpi.reqQryInvestorPosition_keeps lib env root).weaken
  | reqQryInstrument => exact call_step inv (CTraderSpi.reqQryInstrument_keeps env)
  | unknown => exact idle

theorem trader_step (inv : b.Inv lib) {event : Event} (able : Enabled b (env, event))
    (done : (handle lib (env, event) b).val = .ok ()) :
    TraderStep lib b event (handle lib (env, event) b).state.trader.toHalf := by
  cases event with
  | opened =>
    obtain ⟨log, run⟩ := handle_opened env lib b
    rw [run]
    exact .idle fun _ _ other => by cases other
  | closed | failed =>
    obtain ⟨log, net, _, run⟩ := handle_ended inv.net able (by simp)
    rw [run]
    exact .torn (by simp)
  | message payload =>
    rcases message_cases lib able with ⟨e, stops, _⟩ | ⟨c, root, type, _, read, ofType, run⟩
    · rw [stops] at done
      cases done
    · rw [run] at done ⊢
      exact dispatch_step inv read ofType done
  | trader api cb =>
    obtain ⟨p, s, session⟩ := inv.trader_session (inv.trader.live able)
    have linked : (TraderCtx.mk s b.trader.iRequestID).self.Linked := session.linked
    have investor : s.investorID.isSome = true := session.ready.investorID
    have sends : env.sendOk = true ∨ ∀ nReason, cb ≠ .onFrontDisconnected nReason := by
      by_contra lost
      obtain ⟨down, front⟩ := not_or.mp lost
      obtain ⟨nReason, rfl⟩ : ∃ nReason, cb = .onFrontDisconnected nReason := by simpa using front
      have thrown := (CTraderSpi.callback_relays lib env linked (.onFrontDisconnected nReason)).throws.mpr
        ⟨CTraderSpi.relayed_isSome investor _, by simpa using down⟩
      obtain ⟨e, fault, _⟩ := thrown
      rw [session.handle] at done
      cases fault.symm.trans done
    have state := CTraderSpi.callback_state lib env linked investor cb sends
    rw [session.handle]
    simp only [Bridge.traderRan, TraderHalf.putCtx, state]
    exact .callback session
  | md api cb => exact .idle fun _ _ other => by cases other

end steps

end MFutures
