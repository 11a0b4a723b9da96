import MFutures.Outgoing
import MFutures.TraderSteps

namespace MFutures
open Handler Bridge

/-- The front connection of one trader API, as CTP sees it: whether it is up,
whether it ever was, and the latest final response without an error to a login
since it last came up. -/
structure Front where
  connected : Bool := false
  reached : Bool := false
  login : Option CThostFtdcRspUserLoginField := none

/-- What a callback tells about the front. -/
def Front.note (f : Front) : TraderCallback → Front
  | .onFrontConnected => ⟨true, true, none⟩
  | .onFrontDisconnected _ => { f with connected := false }
  | .onRspUserLogin p info _ last => if last && !isError info then { f with login := p } else f
  | _ => f

/-- The true login status. -/
def Front.status (f : Front) : String := if f.connected && f.login.isSome then "Y" else "N"

/-- What is assumed of CTP: a front is lost, and a login answered, only after it
came up; a login is not answered once its front is lost; and an answer without
an error has a record. -/
def Front.Admits (f : Front) : TraderCallback → Prop
  | .onFrontDisconnected _ => f.reached = true
  | .onRspUserLogin p info _ _ => f.connected = true ∧ (isError info = false → p.isSome = true)
  | _ => True

abbrev Fronts := Nat → Front

/-- The fronts of all trader APIs beside a run of the bridge whose sends succeed. -/
def frontHistory : EventSystem.History Output Bridge (Env × Event) Fronts Unit where
  admits fronts _ e _ := e.1.sendOk = true ∧
    match e.2 with
    | .trader api cb => (fronts api).Admits cb
    | _ => True
  note _ e _ _ fronts :=
    match e.2 with
    | .trader api cb => Function.update fronts api ((fronts api).note cb)
    | _ => fronts

/-- The bridge with its fronts, none of which is up at the start. -/
def FrontReach (lib : Lib) : Bridge × Fronts → Prop :=
  ((bridge lib).watched frontHistory).Reach fun w => Started lib w.1 ∧ w.2 = fun _ => {}

/-- The SPI says of its front what is true. -/
structure Front.Told (f : Front) (s : CTraderSpi) : Prop where
  text : s.loginStatus.text = f.status
  writable : f.reached = true → s.loginStatus.writable = true
  reached : f.connected = true → f.reached = true
  params : f.connected = true → ∀ r, f.login = some r →
    s.frontID = some r.frontID ∧ s.sessionID = some r.sessionID ∧ s.orderRef = some r.maxOrderRef

theorem Front.Told.fresh {s : CTraderSpi} (text : s.loginStatus.text = "N") : ({} : Front).Told s where
  text := text
  writable := fun reached => by cases reached
  reached := fun connected => by cases connected
  params := fun connected => by cases connected

/-- The status on the SPI follows the front through every callback CTP may make. -/
theorem Front.Told.step {f : Front} {s : CTraderSpi} (told : f.Told s) {cb : TraderCallback}
    (admits : f.Admits cb) : (f.note cb).Told (s.after cb) := by
  obtain ⟨text, writable, reached, params⟩ := told
  cases cb with
  | onFrontConnected => exact ⟨rfl, fun _ => rfl, fun _ => rfl, fun _ r login => by cases login⟩
  | onFrontDisconnected nReason =>
    have canWrite : s.loginStatus.writable = true := writable admits
    have after : s.after (.onFrontDisconnected nReason) = { s with loginStatus := ⟨"N", true⟩ } := by
      simp [CTraderSpi.after, canWrite]
    rw [after]
    refine ⟨rfl, fun _ => rfl, fun connected => ?_, fun connected => ?_⟩
    · cases connected
    · cases connected
  | onRspUserLogin p info n last =>
    obtain ⟨connected, record⟩ := admits
    have canWrite : s.loginStatus.writable = true := writable (reached connected)
    by_cases final : (last && !isError info) = true
    · have good : isError info = false := by simpa using (Bool.and_eq_true_iff.mp final).2
      obtain ⟨r, rfl⟩ := Option.isSome_iff_exists.mp (record good)
      simp only [Front.note, CTraderSpi.after, final, canWrite, Bool.and_self, if_true]
      refine ⟨by simp [Front.status, connected], fun _ => rfl, reached, fun _ r' same => ?_⟩
      cases Option.some.inj same
      exact ⟨rfl, rfl, rfl⟩
    · have notFinal : (last && !isError info) = false := by simpa using final
      simp only [Front.note, CTraderSpi.after, notFinal, Bool.false_and, Bool.false_eq_true, if_false]
      exact ⟨text, writable, reached, params⟩
  | onHeartBeatWarning nTimeLapse => exact ⟨text, writable, reached, params⟩
  | onRspSettlementInfoConfirm p info n last => exact ⟨text, writable, reached, params⟩
  | onRspQryInstrument p info n last => exact ⟨text, writable, reached, params⟩
  | onRspQryTradingAccount p info n last => exact ⟨text, writable, reached, params⟩
  | onRspQryInvestorPosition p info n last => exact ⟨text, writable, reached, params⟩
  | onRspOrderInsert info n last => exact ⟨text, writable, reached, params⟩
  | onRspOrderAction info n last => exact ⟨text, writable, reached, params⟩
  | onRspError info n last => exact ⟨text, writable, reached, params⟩
  | onRtnOrder p => exact ⟨text, writable, reached, params⟩
  | onRtnTrade p => exact ⟨text, writable, reached, params⟩

/-- A status that is told is never empty. -/
theorem Front.Told.filled {f : Front} {s : CTraderSpi} (told : f.Told s) : s.filled = s := by
  have nonempty : s.loginStatus.text.length ≠ 0 := by
    rw [told.text]
    unfold Front.status
    split <;> decide
  exact if_neg nonempty

/-- Every current session tells the truth, and no API that is still to come has a front. -/
structure Truthful (x : Half CTraderSpi) (fronts : Fronts) : Prop where
  told : ∀ api p s, x.api = some api → x.spi = some p → x.object p = some s → (fronts api).Told s
  unborn : ∀ api, x.apis.length ≤ api → fronts api = {}

theorem Truthful.store {x : Half CTraderSpi} {fronts : Fronts} (truthful : Truthful x fronts) {api p : Nat}
    {s s' : CTraderSpi} (atApi : x.api = some api) (atSpi : x.spi = some p) (found : x.object p = some s)
    (told : (fronts api).Told s') : Truthful (x.store p s') fronts where
  told := by
    intro api' p' t atApi' atSpi' atT
    cases Option.some.inj (atApi.symm.trans atApi')
    cases Option.some.inj (atSpi.symm.trans atSpi')
    cases Option.some.inj ((Half.object_store_self found s').symm.trans atT)
    exact told
  unborn := truthful.unborn

theorem Truthful.update {x : Half CTraderSpi} {fronts : Fronts} (truthful : Truthful x fronts) {api p : Nat}
    {s : CTraderSpi} (atApi : x.api = some api) (atSpi : x.spi = some p) (found : x.object p = some s)
    (born : api < x.apis.length) {cb : TraderCallback} (admits : (fronts api).Admits cb) :
    Truthful (x.store p (s.after cb)) (Function.update fronts api ((fronts api).note cb)) where
  told := by
    intro api' p' t atApi' atSpi' atT
    cases Option.some.inj (atApi.symm.trans atApi')
    cases Option.some.inj (atSpi.symm.trans atSpi')
    cases Option.some.inj ((Half.object_store_self found (s.after cb)).symm.trans atT)
    rw [Function.update_self]
    exact (truthful.told api p s atApi atSpi found).step admits
  unborn := by
    intro api' unborn
    have other : api' ≠ api := by
      have bound : x.apis.length ≤ api' := unborn
      omega
    rw [Function.update_of_ne other]
    exact truthful.unborn api' unborn

/-- One event of a run keeps the sessions truthful. -/
theorem TraderStep.truthful {lib : Lib} {b : Bridge} {event : Event} {x : Half CTraderSpi} {fronts : Fronts} {env : Env}
    (step : TraderStep lib b event x) (admits : frontHistory.admits fronts b (env, event) ())
    (truthful : Truthful b.trader.toHalf fronts) :
    Truthful x (frontHistory.note b (env, event) () [] fronts) := by
  cases step with
  | idle other =>
    have same : frontHistory.note b (env, event) () [] fronts = fronts := by
      cases event with
      | trader api cb => exact absurd rfl (other api cb)
      | _ => rfl
    rw [same]
    exact truthful
  | torn ended =>
    have same : frontHistory.note b (env, event) () [] fronts = fronts := by
      rcases ended with rfl | rfl <;> rfl
    rw [same]
    refine ⟨fun _ _ _ atApi => by simp [Half.torn] at atApi, fun api unborn => truthful.unborn api ?_⟩
    simpa [Half.torn, Half.retire_length] using unborn
  | login =>
    refine ⟨fun api p s atApi atSpi atS => ?_, fun api unborn => truthful.unborn api ?_⟩
    · cases Option.some.inj atApi
      cases Option.some.inj atSpi
      have fresh : fronts b.trader.apis.length = {} := truthful.unborn _ (Nat.le_refl _)
      simp [Half.object, Half.installed] at atS
      subst atS
      change (fronts b.trader.apis.length).Told _
      rw [fresh]
      exact .fresh rfl
    · have length : b.trader.apis.length + 1 ≤ api := by
        simpa [Half.installed, Half.retire_length] using unborn
      omega
  | connect session =>
    have told := truthful.told _ _ _ session.atApi session.atSpi session.object
    exact truthful.store session.atApi session.atSpi session.object (told.filled.symm ▸ told)
  | @callback api p s cb session =>
    have born : api < b.trader.apis.length := by
      by_contra beyond
      have registered := session.registered
      simp [List.getElem?_eq_none (Nat.not_lt.mp beyond)] at registered
    exact truthful.update session.atApi session.atSpi session.object born admits.2

theorem FrontReach.reachable {lib : Lib} {w : Bridge × Fronts} (reach : FrontReach lib w) :
    Reachable lib w.1 :=
  EventSystem.Reach.watched (fun _ start => start.1) reach

theorem FrontReach.truthful {lib : Lib} {w : Bridge × Fronts} (reach : FrontReach lib w) :
    Truthful w.1.trader.toHalf w.2 := by
  induction reach with
  | start init =>
    obtain ⟨started, fresh⟩ := init
    obtain ⟨_, state⟩ := started_state started
    rw [fresh, state]
    exact ⟨fun _ _ _ atApi => (by cases atApi), fun _ _ => rfl⟩
  | @next w e before able done ih =>
    obtain ⟨enabled, admits⟩ := able
    have inv := (FrontReach.reachable before).inv
    have step := trader_step inv enabled done
    exact step.truthful admits ih

/-- Only `OnConnect` is answered by a report of the login status. -/
theorem outgoing_reply {lib : Lib} {b : Bridge} {event : Event} {m : RspMessage} (inv : b.Inv lib)
    (has : outgoing lib b event = some m) (reply : m.rspType = "onRspConnect") :
    ∃ payload root api, event = .message payload ∧ readStrJson lib payload = .ok root ∧
      reqType lib root = .ok .onConnect ∧ b.pTraderApi = some api := by
  cases event with
  | trader api cb =>
    obtain ⟨s, _, has⟩ := Option.bind_eq_some_iff.mp has
    rw [CTraderSpi.relayed_rspType has] at reply
    cases cb <;> simp [TraderCallback.rspType] at reply
  | md api cb =>
    obtain ⟨s, _, has⟩ := Option.bind_eq_some_iff.mp has
    rw [CMdSpi.outgoing_rspType has] at reply
    cases cb <;> simp [MdCallback.rspType] at reply
  | message payload =>
    simp only [outgoing] at has
    split at has
    · rename_i root read
      split at has
      · rename_i ofType
        have paired : b.trader.api ≠ none := fun none => by simp [inv.trader.paired.mp none] at has
        obtain ⟨api, atApi⟩ := Option.ne_none_iff_exists'.mp paired
        exact ⟨payload, root, api, rfl, read, ofType, atApi⟩
      · cases has
    · cases has
  | opened => cases has
  | closed => cases has
  | failed => cases has

/-- The login status the bridge reports is the true one: each session knows the
state of its front and the parameters of its login, `OnConnect` is answered by
one reply that says so, and no other event causes such a reply. -/
theorem login_status_truthful (lib : Lib) (w : Bridge × Fronts) (reach : FrontReach lib w) :
    (∀ api p s, TraderSession w.1 api p s → s.loginStatus.text = (w.2 api).status ∧
      (s.loginStatus.text = "Y" → ∃ r, (w.2 api).login = some r ∧ s.frontID = some r.frontID ∧
        s.sessionID = some r.sessionID ∧ s.orderRef = some r.maxOrderRef)) ∧
    ∀ env event, ((bridge lib).watched frontHistory).enabled w ((env, event), ()) →
      (∀ payload root api, event = .message payload → readStrJson lib payload = .ok root →
        reqType lib root = .ok .onConnect → w.1.pTraderApi = some api →
        sent (handle lib (env, event) w.1).log =
          [⟨.objectValue [("loginStatus", .stringValue (w.2 api).status)], 0, "onRspConnect", "false"⟩]) ∧
      ∀ m ∈ sent (handle lib (env, event) w.1).log, m.rspType = "onRspConnect" →
        ∃ payload root api, event = .message payload ∧ readStrJson lib payload = .ok root ∧
          reqType lib root = .ok .onConnect ∧ w.1.pTraderApi = some api := by
  have truthful := reach.truthful
  have inv := reach.reachable.inv
  have told : ∀ api p s, TraderSession w.1 api p s → (w.2 api).Told s :=
    fun api p s session => truthful.told api p s session.atApi session.atSpi session.object
  refine ⟨fun api p s session => ⟨(told api p s session).text, fun yes => ?_⟩, ?_⟩
  · have status : (w.2 api).status = "Y" := (told api p s session).text.symm.trans yes
    have up : (w.2 api).connected = true ∧ (w.2 api).login.isSome = true := by
      unfold Front.status at status
      split at status
      · rename_i both
        exact Bool.and_eq_true_iff.mp both
      · exact absurd status (by decide)
    obtain ⟨r, login⟩ := Option.isSome_iff_exists.mp up.2
    exact ⟨r, login, (told api p s session).params up.1 r login⟩
  · rintro env event ⟨able, ok, _⟩
    have sends := handle_sent inv able
    simp only at able ok
    simp only [ok, if_true] at sends
    refine ⟨?_, ?_⟩
    · rintro payload root api rfl read ofType atApi
      obtain ⟨p, s, session⟩ := inv.trader_session atApi
      have report := (told api p s session).text
      rw [sends]
      simp only [outgoing, read, ofType, session.atSpi, Option.bind_some, session.object, Option.map_some,
        Option.toList_some, CTraderSpi.connectReply, (told api p s session).filled, report]
    · intro m member reply
      rw [sends] at member
      exact outgoing_reply inv (Option.mem_toList.mp member) reply

/-- The bridge and its fronts once the trading front has accepted a login. -/
def frontUpWatched : Bridge × Fronts :=
  (((bridge (loginLib [])).watched frontHistory).run (frontUp.map fun e => (e, ()))
    (Bridge.listening (loginLib []), fun _ => {})).state

set_option maxRecDepth 4000 in
theorem login_status_truthful_frontUp :
    (∀ api p s, TraderSession frontUpWatched.1 api p s → s.loginStatus.text = (frontUpWatched.2 api).status ∧
      (s.loginStatus.text = "Y" → ∃ r, (frontUpWatched.2 api).login = some r ∧ s.frontID = some r.frontID ∧
        s.sessionID = some r.sessionID ∧ s.orderRef = some r.maxOrderRef)) ∧
    ∀ env event, ((bridge (loginLib [])).watched frontHistory).enabled frontUpWatched ((env, event), ()) →
      (∀ payload root api, event = .message payload → readStrJson (loginLib []) payload = .ok root →
        reqType (loginLib []) root = .ok .onConnect → frontUpWatched.1.pTraderApi = some api →
        sent (handle (loginLib []) (env, event) frontUpWatched.1).log =
          [⟨.objectValue [("loginStatus", .stringValue (frontUpWatched.2 api).status)], 0, "onRspConnect", "false"⟩]) ∧
      ∀ m ∈ sent (handle (loginLib []) (env, event) frontUpWatched.1).log, m.rspType = "onRspConnect" →
        ∃ payload root api, event = .message payload ∧ readStrJson (loginLib []) payload = .ok root ∧
          reqType (loginLib []) root = .ok .onConnect ∧ frontUpWatched.1.pTraderApi = some api :=
  login_status_truthful (loginLib []) frontUpWatched (EventSystem.Reach.run
    (.start ⟨started_listening rfl, rfl⟩)
    ⟨⟨rfl, rfl, trivial⟩, fun _ => ⟨⟨rfl, rfl, trivial⟩, fun _ => ⟨⟨rfl, rfl, trivial⟩, fun _ =>
      ⟨⟨⟨_, rfl, rfl, rfl, rfl⟩, rfl, trivial⟩, fun _ => ⟨⟨⟨_, rfl, rfl, rfl, rfl⟩, rfl, rfl, fun _ => rfl⟩,
        fun _ => trivial⟩⟩⟩⟩⟩ rfl)

end MFutures
