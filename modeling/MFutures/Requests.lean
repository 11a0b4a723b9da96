import MFutures.Outgoing

namespace MFutures
open Handler Bridge

inductive Side
  | trader
  | md
  deriving DecidableEq

/-- The number a request goes out under. -/
def Request.number : Request → Option Int
  | .reqUserLogin _ n => some n
  | .reqSettlementInfoConfirm _ _ n => some n
  | .reqQryInstrument n => some n
  | .reqQryTradingAccount _ _ n => some n
  | .reqQryInvestorPosition _ _ _ n => some n
  | .reqOrderInsert _ n => some n
  | .reqOrderAction _ n => some n
  | .subscribeMarketData _ => none

/-- The requests that the bridge numbers by a counter of its own. -/
def Request.counted : Side → Request → Bool
  | .trader, .reqQryInstrument _ => true
  | .trader, .reqOrderAction _ _ => true
  | .md, .reqUserLogin _ _ => true
  | _, _ => false

def Effect.request : Effect → Option (Nat × Request)
  | .call h (.request r) => some (h, r)
  | _ => none

def Output.request : Output → Option (Side × Nat × Request)
  | .main _ => none
  | .trader e => e.request.map fun r => (.trader, r)
  | .md e => e.request.map fun r => (.md, r)

/-- The counter a half numbers requests by: the file global of TraderSpi.cpp, or
the member of the current `CMdSpi`. -/
def Bridge.counter (b : Bridge) : Side → Int
  | .trader => b.trader.iRequestID
  | .md => ((b.md.spi.bind b.md.object).map CMdSpi.iRequestID).getD 0

/-- How the bridge numbers a request. -/
def Numbered (side : Side) (counter cause : Int) (r : Request) : Prop :=
  ∀ n, r.number = some n → n = if r.counted side then increment counter else cause

/-- A request among the effects is numbered this way. -/
def Asks (side : Side) (counter cause : Int) (e : Effect) : Prop :=
  ∀ h r, e.request = some (h, r) → Numbered side counter cause r

section asks
variable {side : Side} {counter cause : Int}

theorem asks_manages : Manages (Asks side counter cause) where
  out := fun _ _ _ none => by cases none
  err := fun _ _ _ none => by cases none
  call := by
    intro h c other _ r request
    cases c with
    | request r' => cases other
    | _ => cases request

theorem asks_send (c hdl : Nat) (m : RspMessage) : Asks side counter cause (.send c hdl m) :=
  fun _ _ none => by cases none

theorem asks_request {req : Request} (numbered : Numbered side counter cause req) (h : Nat) :
    Asks side counter cause (.call h (.request req)) := by
  intro k r same
  cases same
  exact numbered

end asks

/-- `P` holds of what callbacks other than `OnFrontConnected` do. -/
structure Reports (P : Effect → Prop) : Prop where
  out : ∀ line, P (.out line)
  err : ∀ line, P (.err line)
  send : ∀ c hdl m, P (.send c hdl m)

theorem asks_reports {side : Side} {counter cause : Int} : Reports (Asks side counter cause) :=
  ⟨asks_manages.out, asks_manages.err, asks_send⟩

section reports
variable {σ α : Type} {P : Effect → Prop} {env : Env} (reports : Reports P)

include reports

theorem send_emits (c hdl : Option Nat) (m : RspMessage) :
    Emits P (send env c hdl m : Handler Effect Fault σ Unit) := by
  refine .bind (known_emits _) fun k => ?_
  cases hdl with
  | none => exact .abort _
  | some l =>
    dsimp only
    split
    · exact .emit (reports.send _ _ _)
    · exact .abort _

theorem sendEc_emits (complaint : String) (c hdl : Option Nat) (m : RspMessage) :
    Emits P (sendEc env complaint c hdl m : Handler Effect Fault σ Unit) := by
  refine .bind (known_emits _) fun k => ?_
  cases hdl with
  | none => exact .emit (reports.out _)
  | some l =>
    dsimp only
    split
    · exact .emit (reports.send _ _ _)
    · exact .emit (reports.out _)

end reports

namespace CTraderSpi
variable {lib : Lib} {env : Env} {P : Effect → Prop}

theorem strcpyStatus_emits (status : String) : Emits P (strcpyStatus status) := by
  refine .bind .get fun _ => ?_
  split
  · exact .modify _
  · exact .abort _

section reports
variable (reports : Reports P)
include reports

theorem getJsonStr_emits (m : RspMessage) : Emits P (getJsonStr lib env m) := by
  unfold getJsonStr
  split
  · exact .pure _
  · exact .emit (reports.out _)

theorem relay_emits (m : RspMessage) : Emits P (relay lib env m) :=
  .bind (getJsonStr_emits reports m) fun _ => .bind .get fun _ => send_emits reports _ _ _

theorem onRspConnect_emits : Emits P (onRspConnect lib env) := by
  refine .bind (.bind .get fun _ => ?_) fun _ => .bind .get fun _ => .bind (getJsonStr_emits reports _) fun _ =>
    sendEc_emits reports _ _ _ _
  split
  · exact .modify _
  · exact .pure _

theorem isErrorRspInfo_emits (info : Option CThostFtdcRspInfoField) : Emits P (isErrorRspInfo lib env info) := by
  cases info with
  | none => exact .pure _
  | some i =>
    unfold isErrorRspInfo
    dsimp only
    split
    · exact .pure _
    · exact .bind (.emit (reports.out _)) fun _ => .pure _

theorem onRspUserLogin_emits (p : Option CThostFtdcRspUserLoginField) (info : Option CThostFtdcRspInfoField)
    (n : Int) (last : Bool) : Emits P (onRspUserLogin lib env p info n last) := by
  refine .bind (.emit (reports.out _)) fun _ => ?_
  split
  · refine .bind (isErrorRspInfo_emits reports info) fun bad => ?_
    split
    · exact .pure _
    · exact .bind (strcpyStatus_emits _) fun _ => .bind (deref_emits _) fun _ =>
        .bind (.modify _) fun _ => relay_emits reports _
  · exact .pure _

theorem onRspSettlementInfoConfirm_emits (p : Option CThostFtdcSettlementInfoConfirmField)
    (info : Option CThostFtdcRspInfoField) (n : Int) (last : Bool) :
    Emits P (onRspSettlementInfoConfirm lib env p info n last) := by
  refine .bind (.emit (reports.out _)) fun _ => ?_
  split
  · refine .bind (isErrorRspInfo_emits reports info) fun bad => ?_
    split
    · exact .pure _
    · exact .bind (deref_emits _) fun _ => relay_emits reports _
  · exact .pure _

theorem onRspQryTradingAccount_emits (p : Option CThostFtdcTradingAccountField)
    (info : Option CThostFtdcRspInfoField) (n : Int) : Emits P (onRspQryTradingAccount lib env p info n) := by
  refine .bind (.emit (reports.out _)) fun _ => .bind (isErrorRspInfo_emits reports info) fun bad => ?_
  split
  · exact .pure _
  · exact .bind (deref_emits _) fun _ => relay_emits reports _

theorem onRspQryInvestorPosition_emits (p : Option CThostFtdcInvestorPositionField) (n : Int) :
    Emits P (onRspQryInvestorPosition lib env p n) := by
  refine .bind (.emit (reports.out _)) fun _ => ?_
  cases p with
  | none => exact .pure _
  | some p => exact relay_emits reports _

theorem onRspOrderInsert_emits (info : Option CThostFtdcRspInfoField) (n : Int) :
    Emits P (onRspOrderInsert lib env info n) := by
  refine .bind (.emit (reports.out _)) fun _ => .bind (isErrorRspInfo_emits reports info) fun bad => ?_
  split
  · exact .bind (deref_emits _) fun _ => relay_emits reports _
  · exact .pure _

theorem onRspError_emits (info : Option CThostFtdcRspInfoField) (n : Int) :
    Emits P (onRspError lib env info n) := by
  refine .bind (.emit (reports.err _)) fun _ => .bind (isErrorRspInfo_emits reports info) fun bad => ?_
  split
  · exact .bind (deref_emits _) fun _ => relay_emits reports _
  · exact .pure _

/-- `OnFrontConnected` is the one callback that does more than report. -/
theorem callback_emits {cb : TraderCallback} (other : cb ≠ .onFrontConnected) :
    Emits P (callback lib env cb) := by
  cases cb with
  | onFrontConnected => exact absurd rfl other
  | onFrontDisconnected nReason =>
    exact .bind (.emit (reports.out _)) fun _ => .bind .get fun _ => .bind (known_emits _) fun _ =>
      .bind (relay_emits reports _) fun _ => strcpyStatus_emits _
  | onHeartBeatWarning nTimeLapse => exact .emit (reports.out _)
  | onRspUserLogin p info n last => exact onRspUserLogin_emits reports p info n last
  | onRspSettlementInfoConfirm p info n last => exact onRspSettlementInfoConfirm_emits reports p info n last
  | onRspQryInstrument p info n last => exact .bind (deref_emits _) fun _ => relay_emits reports _
  | onRspQryTradingAccount p info n last => exact onRspQryTradingAccount_emits reports p info n
  | onRspQryInvestorPosition p info n last => exact onRspQryInvestorPosition_emits reports p n
  | onRspOrderInsert info n last => exact onRspOrderInsert_emits reports info n
  | onRspOrderAction info n last =>
    exact .bind (.emit (reports.out _)) fun _ => .bind (isErrorRspInfo_emits reports info) fun _ => .pure _
  | onRspError info n last => exact onRspError_emits reports info n
  | onRtnOrder p =>
    exact .bind (deref_emits _) fun _ => .bind (.emit (reports.out _)) fun _ => relay_emits reports _
  | onRtnTrade p =>
    exact .bind (.emit (reports.out _)) fun _ => .bind (deref_emits _) fun _ => relay_emits reports _

end reports

section requests
variable {counter cause : Int}

theorem request_asks {req : Request} (numbered : Numbered .trader counter cause req) (line : String) :
    Emits (Asks .trader counter cause) (request env req line) :=
  .bind .get fun _ => .bind (.emit (asks_request numbered _)) fun _ => .emit (asks_manages.out _)

theorem reqUserLogin_asks : Emits (Asks .trader counter cause) (reqUserLogin lib env cause) := by
  refine .bind .get fun _ => .bind (known_emits _) fun _ => .bind (.ofExcept _) fun _ =>
    .bind (known_emits _) fun _ => .bind (.ofExcept _) fun _ => .bind (known_emits _) fun _ =>
    .bind (.ofExcept _) fun _ => request_asks ?_ _
  intro n number
  exact (Option.some.inj number).symm

theorem onFrontConnected_asks (x : TraderCtx) (loginID : x.self.loginID = some cause) :
    ∀ o ∈ (onFrontConnected lib env x).log, Asks .trader counter cause o := by
  intro o member
  have run : (onFrontConnected lib env x).log = .out (env.now ++ "OnFrontConnected") ::
      (reqUserLogin lib env cause { x with self := { x.self with loginStatus := ⟨"N", true⟩ } }).log := by
    simp [onFrontConnected, cout, bind_run, newStatus, known, loginID]
  rw [run] at member
  rcases List.mem_cons.mp member with rfl | later
  · exact asks_manages.out _
  · exact reqUserLogin_asks _ o later

/-- The number of a request that goes by the UniqueID of the message. -/
theorem uniqueID_asks {root : Value} (id : ∀ n, uniqueID root = .ok n → n = cause) {req : Int → Request}
    (number : ∀ n, (req n).number = some n) (plain : ∀ n, (req n).counted .trader = false)
    (line : Int → String) : Emits (Asks .trader counter cause) (do
      let n ← ofExcept (uniqueID root)
      request env (req n) (line n)) := by
  refine .ofExcept_bind fun n read => request_asks ?_ _
  intro k numbered
  have same : n = k := Option.some.inj ((number n).symm.trans numbered)
  rw [plain, ← same, id n read]
  rfl

theorem reqSettlementInfoConfirm_asks {root : Value} (id : ∀ n, uniqueID root = .ok n → n = cause) :
    Emits (Asks .trader counter cause) (reqSettlementInfoConfirm lib env root) :=
  .bind credentials_emits fun _ => uniqueID_asks id (fun _ => rfl) (fun _ => rfl) _

theorem reqQryTradingAccount_asks {root : Value} (id : ∀ n, uniqueID root = .ok n → n = cause) :
    Emits (Asks .trader counter cause) (reqQryTradingAccount lib env root) :=
  .bind credentials_emits fun _ => uniqueID_asks id (fun _ => rfl) (fun _ => rfl) _

theorem reqQryInvestorPosition_asks {root : Value} (id : ∀ n, uniqueID root = .ok n → n = cause) :
    Emits (Asks .trader counter cause) (reqQryInvestorPosition lib env root) :=
  .bind credentials_emits fun _ => .bind (.ofExcept _) fun _ => uniqueID_asks id (fun _ => rfl) (fun _ => rfl) _

theorem reqOrderInsert_asks {root : Value} (id : ∀ n, uniqueID root = .ok n → n = cause) :
    Emits (Asks .trader counter cause) (reqOrderInsert lib env root) :=
  .bind credentials_emits fun _ => .bind (.ofExcept _) fun _ => uniqueID_asks id (fun _ => rfl) (fun _ => rfl) _

/-- The number of a request that goes by the file global. -/
theorem nextRequestID_asks {req : Int → Request} (number : ∀ n, (req n).number = some n)
    (counted : ∀ n, (req n).counted .trader = true) (line : String) (x : TraderCtx) :
    ∀ o ∈ ((do
      let n ← nextRequestID
      request env (req n) line : TraderM Unit) x).log, Asks .trader x.iRequestID cause o := by
  have numbered : Numbered .trader x.iRequestID cause (req (increment x.iRequestID)) := by
    intro k numbered
    have same : increment x.iRequestID = k := Option.some.inj ((number _).symm.trans numbered)
    rw [counted, ← same]
    rfl
  exact request_asks numbered line _

theorem reqQryInstrument_asks (x : TraderCtx) :
    ∀ o ∈ (reqQryInstrument env x).log, Asks .trader x.iRequestID cause o :=
  nextRequestID_asks (fun _ => rfl) (fun _ => rfl) _ x

theorem reqOrderAction_asks (root : Value) (x : TraderCtx) :
    ∀ o ∈ (reqOrderAction lib env root x).log, Asks .trader x.iRequestID cause o := by
  refine Emits.kept_bind credentials_emits (credentials_keeps lib) fun _ => ?_
  refine Emits.kept_bind (.ofExcept _) (.ofExcept _) fun _ => ?_
  exact nextRequestID_asks (fun _ => rfl) (fun _ => rfl) _ x

end requests

end CTraderSpi

namespace CMdSpi
variable {lib : Lib} {env : Env} {P : Effect → Prop}

theorem callback_emits (reports : Reports P) {cb : MdCallback} (other : cb ≠ .onFrontConnected) :
    Emits P (callback lib env cb) := by
  have checks : ∀ info, Emits P (isErrorRspInfo info) := by
    intro info
    cases info with
    | none => exact .pure _
    | some i =>
      unfold isErrorRspInfo
      dsimp only
      split
      · exact .pure _
      · exact .bind (.emit (reports.err _)) fun _ => .pure _
  cases cb with
  | onFrontConnected => exact absurd rfl other
  | onFrontDisconnected nReason => exact .bind (.emit (reports.err _)) fun _ => .emit (reports.err _)
  | onHeartBeatWarning nTimeLapse => exact .bind (.emit (reports.err _)) fun _ => .emit (reports.err _)
  | onRspUserLogin p info n last =>
    exact .bind (deref_emits _) fun _ => .bind .get fun _ => send_emits reports _ _ _
  | onRspError info n last =>
    exact .bind (.emit (reports.err _)) fun _ => .bind (checks info) fun _ => .bind (.emit (reports.out _)) fun _ =>
      .bind (deref_emits _) fun _ => .bind (.emit (reports.out _)) fun _ => .emit (reports.out _)
  | onRspSubMarketData => exact .pure _
  | onRspUnSubMarketData => exact .emit (reports.err _)
  | onRtnDepthMarketData p =>
    exact .bind .get fun _ => .bind (known_emits _) fun _ => .bind (deref_emits _) fun _ =>
      sendEc_emits reports _ _ _ _

theorem onFrontConnected_asks (s : CMdSpi) (cause : Int) :
    ∀ o ∈ (onFrontConnected lib s).log, Asks .md s.iRequestID cause o := by
  refine Emits.kept_bind .get .get fun _ => ?_
  refine Emits.kept_bind (known_emits _) (known_keeps _) fun _ => ?_
  refine Emits.kept_bind (.ofExcept _) (.ofExcept _) fun _ => ?_
  refine Emits.kept_bind (known_emits _) (known_keeps _) fun _ => ?_
  refine Emits.kept_bind (.ofExcept _) (.ofExcept _) fun _ => ?_
  refine Emits.kept_bind (known_emits _) (known_keeps _) fun _ => ?_
  refine Emits.kept_bind (.ofExcept _) (.ofExcept _) fun _ => ?_
  refine Emits.kept_bind (.emit (asks_manages.out _)) (.emit _) fun _ => ?_
  refine Emits.emit (asks_request ?_ _) _
  intro n number
  exact (Option.some.inj number).symm

theorem mdSubscribeMarketData_asks (root : Value) {counter cause : Int} :
    Emits (Asks .md counter cause) (mdSubscribeMarketData lib env root) := by
  refine .bind (.ofExcept _) fun _ => .bind .get fun _ => .emit (asks_request ?_ _)
  intro n none
  cases none

end CMdSpi

/-- A request among the effects of the bridge is numbered from the counter of its
half, or from the message that causes it. -/
def Output.Asked (b : Bridge) (cause : Int) (o : Output) : Prop :=
  ∀ side h r, o.request = some (side, h, r) → Numbered side (b.counter side) cause r

section asked
variable {lib : Lib} {env : Env} {b : Bridge} {cause : Int}

theorem asked_trader {e : Effect} (asks : Asks .trader b.trader.iRequestID cause e) :
    (Output.trader e).Asked b cause := by
  intro side h r request
  obtain ⟨⟨k, r'⟩, at_, same⟩ := Option.map_eq_some_iff.mp request
  cases same
  exact asks _ _ at_

theorem asked_md {e : Effect} (asks : Asks .md (b.counter .md) cause e) : (Output.md e).Asked b cause := by
  intro side h r request
  obtain ⟨⟨k, r'⟩, at_, same⟩ := Option.map_eq_some_iff.mp request
  cases same
  exact asks _ _ at_

theorem asked_main (line : String) : (Output.main line).Asked b cause := fun _ _ _ none => by cases none

theorem asked_governs : Governs (Output.Asked b cause) where
  main := asked_main
  trader := {
    out := fun line => asked_trader (asks_manages.out line)
    err := fun line => asked_trader (asks_manages.err line)
    call := fun other => asked_trader (asks_manages.call other) }
  md := {
    out := fun line => asked_md (asks_manages.out line)
    err := fun line => asked_md (asks_manages.err line)
    call := fun other => asked_md (asks_manages.call other) }

theorem onTrader_asked {α : Type} {x : TraderHalfM α}
    (asks : ∀ o ∈ (x b.trader).log, Asks .trader b.trader.iRequestID cause o) :
    ∀ o ∈ (onTrader x b).log, o.Asked b cause := by
  intro o member
  obtain ⟨e, inside, rfl⟩ := List.mem_map.mp member
  exact asked_trader (asks e inside)

theorem onMd_asked {α : Type} {x : HalfM CMdSpi α}
    (asks : ∀ o ∈ (x b.md).log, Asks .md (b.counter .md) cause o) : ∀ o ∈ (onMd x b).log, o.Asked b cause := by
  intro o member
  obtain ⟨e, inside, rfl⟩ := List.mem_map.mp member
  exact asked_md (asks e inside)

/-- A call of the dispatcher works on the counter of the trading half. -/
theorem call_asked {x : TraderM Unit}
    (asks : ∀ s, ∀ o ∈ (x ⟨s, b.trader.iRequestID⟩).log, Asks .trader b.trader.iRequestID cause o) :
    ∀ o ∈ (onTrader (TraderHalf.call x) b).log, o.Asked b cause := by
  refine onTrader_asked fun o member => ?_
  cases atSpi : b.trader.spi with
  | none => simp [TraderHalf.call, bind_run, TraderHalf.invoke, atSpi] at member
  | some p =>
    cases object : b.trader.object p with
    | none => simp [TraderHalf.call, bind_run, TraderHalf.invoke, atSpi, focus, TraderHalf.ctx?, object] at member
    | some s =>
      have view : TraderHalf.ctx? p b.trader = some ⟨s, b.trader.iRequestID⟩ := by simp [TraderHalf.ctx?, object]
      simp only [TraderHalf.call, bind_run, get_run, andThen_ok, TraderHalf.invoke, atSpi, focus_run view,
        List.nil_append] at member
      exact asks s o member

theorem dispatch_asked {c : Nat} {root : Value} (type : ReqType) (id : ∀ n, uniqueID root = .ok n → n = cause) :
    ∀ o ∈ (dispatch lib env c c root type b).log, o.Asked b cause := by
  cases type with
  | onConnect => exact call_asked fun s => CTraderSpi.onRspConnect_emits asks_reports _
  | reqUserLogin => exact onTrader_asked (TraderHalf.login_emits asks_manages c c root _)
  | mdReqUserLogin => exact onMd_asked (MdHalf.login_emits asks_manages c c root _)
  | reqSettlementInfoConfirm => exact call_asked fun s => CTraderSpi.reqSettlementInfoConfirm_asks id _
  | reqOrderInsert => exact call_asked fun s => CTraderSpi.reqOrderInsert_asks id _
  | reqOrderAction => exact call_asked fun s => CTraderSpi.reqOrderAction_asks root _
  | mdSubscribeMarketData =>
    exact onMd_asked (MdHalf.call_emits (CMdSpi.mdSubscribeMarketData_asks root) _)
  | reqQryTradingAccount => exact call_asked fun s => CTraderSpi.reqQryTradingAccount_asks id _
  | reqQryInvestorPosition => exact call_asked fun s => CTraderSpi.reqQryInvestorPosition_asks id _
  | reqQryInstrument => exact call_asked fun s => CTraderSpi.reqQryInstrument_asks _
  | unknown => exact fun o member => by cases member

end asked

end MFutures
