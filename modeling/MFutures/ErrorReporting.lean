import MFutures.Outgoing

namespace MFutures
open Handler Bridge

/-- The messages report the outcome of a response exactly: an error by one
message under the request number, anything else by no error message. -/
structure Reported (info : Option CThostFtdcRspInfoField) (n : Int) (log : List RspMessage) : Prop where
  error : isError info = true → ∃ m, log = [m] ∧ m.uniqueID = n ∧ m.isError = "true"
  fine : isError info = false → ∀ m ∈ log, m.isError = "false"

/-- When a callback reports its outcome exactly; `ok` says whether the websocket is usable. -/
def TraderCallback.exact (ok : Bool) : TraderCallback → Bool
  | .onRspUserLogin _ info _ _ => !isError info
  | .onRspSettlementInfoConfirm _ info _ _ => !isError info
  | .onRspQryInstrument _ info _ _ => !isError info
  | .onRspQryTradingAccount p info _ _ => !isError info && (p.isNone || !ok)
  | .onRspQryInvestorPosition p info _ _ => if isError info then p.isSome && ok else p.isNone || !ok
  | .onRspOrderInsert info _ _ => !isError info || ok
  | .onRspOrderAction info _ _ => !isError info
  | .onRspError info _ _ => !isError info || ok
  | _ => true

def MdCallback.exact : MdCallback → Bool
  | .onRspUserLogin _ info _ _ => !isError info
  | .onRspError info _ _ => !isError info
  | _ => true

def Event.exact (ok : Bool) : Event → Bool
  | .trader _ cb => cb.exact ok
  | .md _ cb => cb.exact
  | _ => true

section reports
variable {info : Option CThostFtdcRspInfoField} {n : Int}

theorem Reported.silent : Reported info n [] ↔ isError info = false := by
  constructor
  · intro reported
    by_contra bad
    obtain ⟨m, none, _⟩ := reported.error (by simpa using bad)
    cases none
  · intro good
    exact ⟨fun bad => by simp [good] at bad, fun _ m member => by simp at member⟩

theorem Reported.flagged {rspArgs : Value} {rspType : String} :
    Reported info n [⟨rspArgs, n, rspType, "true"⟩] ↔ isError info = true := by
  constructor
  · intro reported
    by_contra good
    have fine := reported.fine (by simpa using good) _ (List.mem_singleton_self _)
    simp at fine
  · intro bad
    exact ⟨fun _ => ⟨_, rfl, rfl, rfl⟩, fun good => by simp [good] at bad⟩

theorem Reported.unflagged {rspArgs : Value} {rspType : String} :
    Reported info n [⟨rspArgs, n, rspType, "false"⟩] ↔ isError info = false := by
  constructor
  · intro reported
    by_contra bad
    obtain ⟨m, same, _, error⟩ := reported.error (by simpa using bad)
    cases same
    simp at error
  · intro good
    refine ⟨fun bad => by simp [good] at bad, fun _ m member => ?_⟩
    rw [List.mem_singleton.mp member]

end reports

theorem CTraderSpi.relayed_reported (lib : Lib) (s : CTraderSpi) {cb : TraderCallback}
    {info : Option CThostFtdcRspInfoField} {n : Int} (response : cb.response = some (info, n)) (ok : Bool) :
    Reported info n (if ok then (relayed lib s cb).toList else []) ↔ cb.exact ok = true := by
  have present : isError info = true → ∃ i, info = some i := by
    intro bad
    cases info with
    | none => cases bad
    | some i => exact ⟨i, rfl⟩
  cases cb with
  | onRspUserLogin p info' n' last =>
    cases response
    cases bad : isError info <;> cases last <;> cases writable : s.loginStatus.writable <;> cases p <;>
      cases ok <;> simp [relayed, TraderCallback.exact, bad, writable, Reported.silent, Reported.unflagged]
  | onRspSettlementInfoConfirm p info' n' last =>
    cases response
    cases bad : isError info <;> cases last <;> cases p <;> cases ok <;>
      simp [relayed, TraderCallback.exact, bad, Reported.silent, Reported.unflagged]
  | onRspQryInstrument p info' n' last =>
    cases response
    cases bad : isError info <;> cases p <;> cases ok <;>
      simp [relayed, TraderCallback.exact, bad, Reported.silent, Reported.unflagged]
  | onRspQryTradingAccount p info' n' last =>
    cases response
    cases bad : isError info <;> cases p <;> cases ok <;>
      simp [relayed, TraderCallback.exact, bad, Reported.silent, Reported.flagged]
  | onRspQryInvestorPosition p info' n' last =>
    cases response
    cases bad : isError info <;> cases p <;> cases ok <;>
      simp [relayed, TraderCallback.exact, bad, Reported.silent, Reported.flagged]
  | onRspOrderInsert info' n' last =>
    cases response
    cases bad : isError info with
    | false => cases ok <;> simp [relayed, TraderCallback.exact, bad, Reported.silent]
    | true =>
      obtain ⟨i, rfl⟩ := present bad
      cases ok <;> simp [relayed, TraderCallback.exact, bad, Reported.silent, Reported.flagged]
  | onRspOrderAction info' n' last =>
    cases response
    cases bad : isError info <;> cases ok <;> simp [relayed, TraderCallback.exact, bad, Reported.silent]
  | onRspError info' n' last =>
    cases response
    cases bad : isError info with
    | false => cases ok <;> simp [relayed, TraderCallback.exact, bad, Reported.silent]
    | true =>
      obtain ⟨i, rfl⟩ := present bad
      cases ok <;> simp [relayed, TraderCallback.exact, bad, Reported.silent, Reported.flagged]
  | onFrontConnected => cases response
  | onFrontDisconnected nReason => cases response
  | onHeartBeatWarning nTimeLapse => cases response
  | onRtnOrder p => cases response
  | onRtnTrade p => cases response

theorem CMdSpi.outgoing_reported (s : CMdSpi) {cb : MdCallback} {info : Option CThostFtdcRspInfoField}
    {n : Int} (response : cb.response = some (info, n)) (ok : Bool) :
    Reported info n (if ok then (s.outgoing cb).toList else []) ↔ cb.exact = true := by
  cases cb with
  | onRspUserLogin p info' n' last =>
    cases response
    cases bad : isError info <;> cases p <;> cases ok <;>
      simp [outgoing, relayed, MdCallback.exact, bad, Reported.silent, Reported.unflagged]
  | onRspError info' n' last =>
    cases response
    cases bad : isError info <;> cases ok <;>
      simp [outgoing, relayed, MdCallback.exact, bad, Reported.silent]
  | onFrontConnected => cases response
  | onFrontDisconnected nReason => cases response
  | onHeartBeatWarning nTimeLapse => cases response
  | onRspSubMarketData => cases response
  | onRspUnSubMarketData => cases response
  | onRtnDepthMarketData p => cases response

section steps
variable {lib : Lib} {b : Bridge} {env : Env} {event : Event}

theorem handle_reported (inv : b.Inv lib) (able : Enabled b (env, event))
    {info : Option CThostFtdcRspInfoField} {n : Int} (response : event.response = some (info, n)) :
    Reported info n (sent (handle lib (env, event) b).log) ↔ event.exact env.sendOk = true := by
  cases event with
  | trader api cb =>
    obtain ⟨p, s, session⟩ := inv.trader_session (inv.trader.live able)
    rw [session.sent]
    exact CTraderSpi.relayed_reported lib s response env.sendOk
  | md api cb =>
    obtain ⟨p, s, session⟩ := inv.md_session (inv.md.live able)
    rw [session.sent]
    exact CMdSpi.outgoing_reported s response env.sendOk
  | opened => cases response
  | closed => cases response
  | failed => cases response
  | message payload => cases response

/-- What is not a response causes no error message. -/
theorem outgoing_unflagged (other : event.response = none) : ∀ m ∈ outgoing lib b event, m.isError = "false" := by
  intro m member
  cases event with
  | trader api cb =>
    obtain ⟨s, _, has⟩ := Option.bind_eq_some_iff.mp member
    cases cb with
    | onFrontDisconnected nReason =>
      obtain ⟨_, _, rfl⟩ := Option.map_eq_some_iff.mp has
      rfl
    | onRtnOrder p =>
      obtain ⟨_, _, rfl⟩ := Option.map_eq_some_iff.mp has
      rfl
    | onRtnTrade p =>
      obtain ⟨_, _, rfl⟩ := Option.map_eq_some_iff.mp has
      rfl
    | onFrontConnected => cases has
    | onHeartBeatWarning nTimeLapse => cases has
    | _ => cases other
  | md api cb =>
    obtain ⟨s, _, has⟩ := Option.bind_eq_some_iff.mp member
    cases cb with
    | onRtnDepthMarketData p =>
      obtain ⟨_, _, inner⟩ := Option.bind_eq_some_iff.mp has
      obtain ⟨_, _, rfl⟩ := Option.map_eq_some_iff.mp inner
      rfl
    | onRspUserLogin p info n last => cases other
    | onRspError info n last => cases other
    | _ => cases has
  | message payload =>
    simp only [outgoing] at member
    split at member
    · split at member
      · obtain ⟨_, _, rfl⟩ := Option.map_eq_some_iff.mp member
        rfl
      · cases member
    · cases member
  | opened => cases member
  | closed => cases member
  | failed => cases member

def Event.isErrorResponse (event : Event) : Bool :=
  match event.response with
  | some (info, _) => isError info
  | none => false

/-- The error messages the server receives. -/
def errorMessages (log : List RspMessage) : Nat := log.countP fun m => m.isError = "true"

theorem handle_errors (inv : b.Inv lib) (able : Enabled b (env, event))
    (exact_ : event.exact env.sendOk = true) :
    errorMessages (sent (handle lib (env, event) b).log) = if event.isErrorResponse then 1 else 0 := by
  unfold Event.isErrorResponse
  cases response : event.response with
  | none =>
    have unflagged : ∀ m ∈ sent (handle lib (env, event) b).log, m.isError = "false" := by
      rw [handle_sent inv able]
      intro m member
      split at member
      · exact outgoing_unflagged response m (Option.mem_toList.mp member)
      · cases member
    refine List.countP_eq_zero.mpr fun m member => ?_
    simp [unflagged m member]
  | some pair =>
    obtain ⟨info, n⟩ := pair
    have reported := (handle_reported inv able response).mpr exact_
    cases bad : isError info with
    | false =>
      simp only [bad, Bool.false_eq_true, if_false]
      refine List.countP_eq_zero.mpr fun m member => ?_
      simp [reported.fine bad m member]
    | true =>
      obtain ⟨m, only, _, flag⟩ := reported.error bad
      simp [errorMessages, only, flag, bad]

end steps

theorem sent_flatMap {α : Type} (f : α → List Output) (l : List α) :
    sent (l.flatMap f) = l.flatMap fun a => sent (f a) := by
  induction l with
  | nil => rfl
  | cons a l ih => simp only [List.flatMap_cons, sent_append, ih]

theorem countP_flatMap_indicator {α β : Type} (p : β → Bool) (q : α → Bool) (f : α → List β) (l : List α)
    (each : ∀ a ∈ l, (f a).countP p = if q a then 1 else 0) : (l.flatMap f).countP p = l.countP q := by
  induction l with
  | nil => rfl
  | cons a l ih =>
    have here := each a List.mem_cons_self
    have rest := ih fun b member => each b (List.mem_cons_of_mem a member)
    rw [List.flatMap_cons, List.countP_append, here, rest, List.countP_cons, Nat.add_comm]

/-- A response is reported exactly if and only if its callback is one of those
that do so; and in a run of which that is true throughout, the server receives
one error message for each error response. -/
theorem error_reporting (lib : Lib) (b : Bridge) (reach : Reachable lib b) :
    (∀ env event info n, Enabled b (env, event) → event.response = some (info, n) →
      (Reported info n (sent (handle lib (env, event) b).log) ↔ event.exact env.sendOk = true)) ∧
    ∀ es, (bridge lib).IsRun b es →
      (∀ step ∈ (bridge lib).served es b, step.2.2.exact step.2.1.sendOk = true) →
      errorMessages (sent ((bridge lib).run es b).log) =
        ((bridge lib).served es b).countP fun step => step.2.2.isErrorResponse := by
  refine ⟨fun env event info n able response => handle_reported reach.inv able response, ?_⟩
  intro es runs exact_
  rw [EventSystem.run_log, sent_flatMap]
  refine countP_flatMap_indicator _ _ _ _ fun step member => ?_
  obtain ⟨at_, able⟩ := EventSystem.served_reach reach runs step member
  exact handle_errors (Reachable.inv at_) able (exact_ step member)

set_option maxRecDepth 4000 in
/-- A rejected login is only printed, and a good account record goes out as an error. -/
theorem responses_misreported :
    Reachable (loginLib []) (Bridge.frontUp []) ∧ (Bridge.frontUp []).trader.Live 0 ∧
    ¬ Reported (some ⟨3, "CTP:LOGIN"⟩) 7 (sent (handle (loginLib [])
      (.up, .trader 0 (.onRspUserLogin none (some ⟨3, "CTP:LOGIN"⟩) 7 true)) (Bridge.frontUp [])).log) ∧
    ¬ Reported none 8 (sent (handle (loginLib [])
      (.up, .trader 0 (.onRspQryTradingAccount (some default) none 8 true)) (Bridge.frontUp [])).log) := by
  have live : (Bridge.frontUp []).trader.Live 0 := ⟨_, rfl, rfl, rfl, rfl⟩
  have able : ∀ cb, Enabled (Bridge.frontUp []) (.up, .trader 0 cb) := fun _ => live
  refine ⟨frontUp_reachable [], live, fun reported => ?_, fun reported => ?_⟩
  · have exact_ := (handle_reported (frontUp_reachable []).inv (able _) rfl).mp reported
    exact absurd exact_ (by decide)
  · have exact_ := (handle_reported (frontUp_reachable []).inv (able _) rfl).mp reported
    exact absurd exact_ (by decide)

set_option maxRecDepth 4000 in
theorem error_reporting_frontUp :
    (∀ env event info n, Enabled (Bridge.frontUp []) (env, event) → event.response = some (info, n) →
      (Reported info n (sent (handle (loginLib []) (env, event) (Bridge.frontUp [])).log) ↔
        event.exact env.sendOk = true)) ∧
    ∀ es, (bridge (loginLib [])).IsRun (Bridge.frontUp []) es →
      (∀ step ∈ (bridge (loginLib [])).served es (Bridge.frontUp []), step.2.2.exact step.2.1.sendOk = true) →
      errorMessages (sent ((bridge (loginLib [])).run es (Bridge.frontUp [])).log) =
        ((bridge (loginLib [])).served es (Bridge.frontUp [])).countP fun step => step.2.2.isErrorResponse :=
  error_reporting (loginLib []) (Bridge.frontUp []) (frontUp_reachable [])

end MFutures
