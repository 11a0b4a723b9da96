import MFutures.Delivery

namespace MFutures
open Handler Bridge

/-- The handler sends nothing on the websocket. -/
def Quiet {σ α : Type} (x : Handler Output Fault σ α) : Prop := Emits (fun o => o.message = none) x

theorem Quiet.sent {σ α : Type} {x : Handler Output Fault σ α} (quiet : Quiet x) (s : σ) :
    sent (x s).log = [] :=
  List.filterMap_eq_nil_iff.mpr (quiet s)

section quiet
variable {lib : Lib} {env : Env} {α : Type}

theorem onTrader_quiet {x : TraderHalfM α} (mute : Mute x) : Quiet (onTrader x) := mute.zoom fun _ none => none

theorem onMd_quiet {x : HalfM CMdSpi α} (mute : Mute x) : Quiet (onMd x) := mute.zoom fun _ none => none

def ApiCall.isRequest : ApiCall → Bool
  | .request _ => true
  | _ => false

/-- `P` holds of the effects other than messages and requests. -/
structure Manages (P : Effect → Prop) : Prop where
  out : ∀ line, P (.out line)
  err : ∀ line, P (.err line)
  call : ∀ {h c}, c.isRequest = false → P (.call h c)

theorem mute_manages : Manages (fun e => e.message = none) := ⟨fun _ => rfl, fun _ => rfl, fun _ => rfl⟩

section halves
variable {S : Type} {P : Effect → Prop}

theorem Half.registerSpi_emits (manages : Manages P) (h : Nat) (p : Option Nat) :
    Emits P (registerSpi h p : HalfM S Unit) :=
  .bind (.emit (manages.call rfl)) fun _ => .modify _

theorem Half.registerFront_emits (manages : Manages P) (h : Nat) (addr : String) :
    Emits P (registerFront h addr : HalfM S Unit) :=
  .bind (.emit (manages.call rfl)) fun _ => .modify _

theorem Half.init_emits (manages : Manages P) (h : Nat) : Emits P (init h : HalfM S Unit) :=
  .bind (.emit (manages.call rfl)) fun _ => .modify _

theorem Half.release_emits (manages : Manages P) (h : Nat) : Emits P (release h : HalfM S Unit) :=
  .bind (.emit (manages.call rfl)) fun _ => .modify _

theorem Half.releaseOld_emits (manages : Manages P) : Emits P (releaseOld : HalfM S Unit) := by
  refine .bind .get fun x => ?_
  cases x.api
  · exact .pure _
  · exact release_emits manages _

theorem Half.create_emits (manages : Manages P) : Emits P (create : HalfM S Nat) :=
  .bind .get fun _ => .bind (.emit (manages.call rfl)) fun _ => .bind (.modify _) fun _ => .pure _

theorem Half.newSpi_emits (s : S) : Emits P (newSpi s) :=
  .bind .get fun _ => .bind (.modify _) fun _ => .pure _

theorem Half.teardown_emits (manages : Manages P) : Emits P (teardown : HalfM S Unit) := by
  refine .bind (.bind .get fun x => ?_) fun _ => .bind .get fun x => ?_
  · cases x.api
    · exact .pure _
    · exact .bind (registerSpi_emits manages _ _) fun _ => .bind (release_emits manages _) fun _ => .modify _
  · cases x.spi
    · exact .pure _
    · exact .modify _

end halves

section sessions
variable {P : Effect → Prop}

theorem TraderHalf.onHalf_emits {x : HalfM CTraderSpi α} (emits : Emits P x) : Emits P (onHalf x) :=
  emits.zoom fun _ holds => holds

theorem TraderHalf.invoke_emits {x : TraderM Unit} (emits : Emits P x) (p : Option Nat) :
    Emits P (invoke p x) := by
  cases p
  · exact .abort _
  · exact emits.focus

theorem TraderHalf.call_emits {x : TraderM Unit} (emits : Emits P x) : Emits P (call x) :=
  .bind .get fun _ => invoke_emits emits _

theorem TraderHalf.login_emits (manages : Manages P) (c hdl : Nat) (root : Value) :
    Emits P (login lib c hdl root) :=
  .bind (.ofExcept _) fun _ => .bind (.ofExcept _) fun _ => .bind (.emit (manages.out _)) fun _ =>
    .bind (.ofExcept _) fun _ => .bind (.emit (manages.out _)) fun _ => .bind (.ofExcept _) fun _ =>
    .bind (.emit (manages.out _)) fun _ => .bind (onHalf_emits (Half.releaseOld_emits manages)) fun _ =>
    .bind (onHalf_emits (Half.create_emits manages)) fun _ => .bind (onHalf_emits (Half.newSpi_emits _)) fun _ =>
    .bind (onHalf_emits (Half.registerSpi_emits manages _ _)) fun _ => .bind (invoke_emits (.modify _) _) fun _ =>
    .bind (.ofExcept _) fun _ => .bind (invoke_emits (.modify _) _) fun _ =>
    .bind (onHalf_emits (Half.registerFront_emits manages _ _)) fun _ => onHalf_emits (Half.init_emits manages _)

theorem MdHalf.invoke_emits {x : MdM Unit} (emits : Emits P x) (p : Option Nat) : Emits P (invoke p x) := by
  cases p
  · exact .abort _
  · exact emits.focus

theorem MdHalf.call_emits {x : MdM Unit} (emits : Emits P x) : Emits P (call x) :=
  .bind .get fun _ => invoke_emits emits _

theorem MdHalf.login_emits (manages : Manages P) (c hdl : Nat) (root : Value) :
    Emits P (login lib env c hdl root) :=
  .bind (Half.releaseOld_emits manages) fun _ => .bind (Half.create_emits manages) fun _ =>
    .bind (Half.newSpi_emits _) fun _ => .bind (Half.registerSpi_emits manages _ _) fun _ =>
    .bind (.ofExcept _) fun _ => .bind (.emit (manages.out _)) fun _ => .bind (.ofExcept _) fun _ =>
    .bind (invoke_emits (.modify _) _) fun _ => .bind (.ofExcept _) fun _ => .bind (.ofExcept _) fun _ =>
    .bind (.ofExcept _) fun _ => .bind (invoke_emits (.modify _) _) fun _ =>
    .bind (Half.registerFront_emits manages _ _) fun _ => Half.init_emits manages _

end sessions

/-- Only the answer to `OnConnect` is sent while a message is handled. -/
theorem dispatch_quiet (lib : Lib) (env : Env) (c hdl : Nat) (root : Value) {type : ReqType} (other : type ≠ .onConnect) :
    Quiet (dispatch lib env c hdl root type) := by
  cases type with
  | onConnect => exact absurd rfl other
  | reqUserLogin => exact onTrader_quiet (TraderHalf.login_emits mute_manages c hdl root)
  | mdReqUserLogin => exact onMd_quiet (MdHalf.login_emits mute_manages c hdl root)
  | reqSettlementInfoConfirm =>
    exact onTrader_quiet (TraderHalf.call_emits (CTraderSpi.reqSettlementInfoConfirm_mute root))
  | reqOrderInsert => exact onTrader_quiet (TraderHalf.call_emits (CTraderSpi.reqOrderInsert_mute root))
  | reqOrderAction => exact onTrader_quiet (TraderHalf.call_emits (CTraderSpi.reqOrderAction_mute root))
  | mdSubscribeMarketData => exact onMd_quiet (MdHalf.call_emits (CMdSpi.mdSubscribeMarketData_mute root))
  | reqQryTradingAccount =>
    exact onTrader_quiet (TraderHalf.call_emits (CTraderSpi.reqQryTradingAccount_mute root))
  | reqQryInvestorPosition =>
    exact onTrader_quiet (TraderHalf.call_emits (CTraderSpi.reqQryInvestorPosition_mute root))
  | reqQryInstrument => exact onTrader_quiet (TraderHalf.call_emits CTraderSpi.reqQryInstrument_mute)
  | unknown => exact .pure _

/-- `P` holds of the lines of test2.cpp, and of what both halves do but for
messages and requests. -/
structure Governs (P : Output → Prop) : Prop where
  main : ∀ line, P (.main line)
  trader : Manages fun e => P (.trader e)
  md : Manages fun e => P (.md e)

theorem onNet_emits {P : Output → Prop} {x : NetM α} (emits : Emits P x) : Emits P (onNet x) :=
  emits.zoom fun _ holds => holds

section connections
variable {P : Output → Prop} (governs : Governs P)
include governs

theorem printMain_emits (line : String) : Emits P (printMain line) := .emit (governs.main line)

theorem releaseTrader_emits : Emits P releaseTrader :=
  .bind ((Half.teardown_emits governs.md).zoom fun _ holds => holds) fun _ =>
    (TraderHalf.onHalf_emits (Half.teardown_emits governs.trader)).zoom fun _ holds => holds

theorem retry_emits : Emits P (retry lib env) := by
  refine .bind .get fun net => .bind (printMain_emits governs _) fun _ =>
    .bind (printMain_emits governs _) fun _ => ?_
  split
  · exact .modify _
  · exact .bind (printMain_emits governs _) fun _ => .abort _

theorem afterRun_emits (ls : List Loop) : Emits P (afterRun lib env ls) := by
  induction ls with
  | nil => exact .modify _
  | cons l ls ih =>
    refine .bind (printMain_emits governs _) fun _ => .bind (.modify _) fun _ => .bind .get fun net => ?_
    split
    · exact ih
    · exact retry_emits governs

theorem onClose_emits : Emits P (onClose lib env) :=
  .bind (onNet_emits (printMain_emits governs _)) fun _ => .bind (releaseTrader_emits governs) fun _ =>
    .bind (onNet_emits (.modify _)) fun _ => onNet_emits (retry_emits governs)

theorem attemptFailed_emits : Emits P (attemptFailed lib env) := by
  refine .bind .get fun b => ?_
  match b.net.loops with
  | [] => exact .pure _
  | [_] => exact onClose_emits governs
  | _ :: l :: ls =>
    have line := fun line => onNet_emits (printMain_emits governs line)
    refine .bind (.bind (line _) fun _ => .bind (line _) fun _ => releaseTrader_emits governs) fun _ => ?_
    exact onNet_emits (afterRun_emits governs _)

/-- The events of the websocket connection itself. -/
theorem connection_emits {event : Event} (connection : event = .opened ∨ event = .closed ∨ event = .failed) :
    Emits P (handle lib (env, event)) := by
  have setConn : ∀ conn, Emits P (onNet (modify (Net.setConn conn))) := fun conn => onNet_emits (.modify _)
  rcases connection with rfl | rfl | rfl
  · have opened := Emits.bind (.modify fun net => { net with status := true }) fun _ =>
      printMain_emits governs "Websocket connection ready"
    exact .bind (setConn _) fun _ => onNet_emits opened
  · exact .bind (setConn _) fun _ => onClose_emits governs
  · exact .bind (setConn _) fun _ => attemptFailed_emits governs

end connections

theorem mute_governs : Governs (fun o => o.message = none) := ⟨fun _ => rfl, mute_manages, mute_manages⟩

end quiet

/-- The outcome and the request number a response callback comes with. -/
def TraderCallback.response : TraderCallback → Option (Option CThostFtdcRspInfoField × Int)
  | .onRspUserLogin _ info n _ => some (info, n)
  | .onRspSettlementInfoConfirm _ info n _ => some (info, n)
  | .onRspQryInstrument _ info n _ => some (info, n)
  | .onRspQryTradingAccount _ info n _ => some (info, n)
  | .onRspQryInvestorPosition _ info n _ => some (info, n)
  | .onRspOrderInsert info n _ => some (info, n)
  | .onRspOrderAction info n _ => some (info, n)
  | .onRspError info n _ => some (info, n)
  | _ => none

def MdCallback.response : MdCallback → Option (Option CThostFtdcRspInfoField × Int)
  | .onRspUserLogin _ info n _ => some (info, n)
  | .onRspError info n _ => some (info, n)
  | _ => none

def Event.response : Event → Option (Option CThostFtdcRspInfoField × Int)
  | .trader _ cb => cb.response
  | .md _ cb => cb.response
  | _ => none

/-- The message of a market-data callback, through either kind of send. -/
def CMdSpi.outgoing (s : CMdSpi) : MdCallback → Option RspMessage
  | .onRtnDepthMarketData p => p.bind fun p => s.investorID.map fun investorID =>
      ⟨p.rspArgs investorID, 0, "OnRtnDepthMarketData", "false"⟩
  | cb => CMdSpi.relayed cb

theorem CMdSpi.outgoing_rspType {s : CMdSpi} {cb : MdCallback} {m : RspMessage}
    (has : s.outgoing cb = some m) : m.rspType = cb.rspType := by
  cases cb with
  | onRtnDepthMarketData p =>
    obtain ⟨_, _, inner⟩ := Option.bind_eq_some_iff.mp has
    obtain ⟨_, _, rfl⟩ := Option.map_eq_some_iff.mp inner
    rfl
  | onRspUserLogin p info n last =>
    obtain ⟨_, _, rfl⟩ := Option.map_eq_some_iff.mp has
    rfl
  | _ => cases has

/-- The message the handler of an event has for the server, in a state between two handlers. -/
def outgoing (lib : Lib) (b : Bridge) : Event → Option RspMessage
  | .trader _ cb => (b.trader.spi.bind b.trader.object).bind fun s => CTraderSpi.relayed lib s cb
  | .md _ cb => (b.md.spi.bind b.md.object).bind fun s => s.outgoing cb
  | .message payload =>
    match readStrJson lib payload with
    | .ok root =>
      match reqType lib root with
      | .ok .onConnect => (b.trader.spi.bind b.trader.object).map CTraderSpi.connectReply
      | _ => none
    | .error _ => none
  | _ => none

section outgoing
variable {lib : Lib} {b : Bridge} {env : Env} {api p : Nat}

theorem TraderSession.sent {s : CTraderSpi} (session : TraderSession b api p s) (cb : TraderCallback) :
    sent (MFutures.handle lib (env, .trader api cb) b).log =
      if env.sendOk then (CTraderSpi.relayed lib s cb).toList else [] := by
  have linked : (TraderCtx.mk s b.trader.iRequestID).self.Linked := session.linked
  rw [session.handle]
  simp only [Bridge.traderRan, sent_trader]
  exact (CTraderSpi.callback_relays lib env linked cb).sent

theorem MdSession.sent {s : CMdSpi} (session : MdSession b api p s) (cb : MdCallback) :
    sent (MFutures.handle lib (env, .md api cb) b).log = if env.sendOk then (s.outgoing cb).toList else [] := by
  rw [session.handle]
  simp only [Bridge.mdRan, sent_md]
  by_cases quote : ∃ p, cb = .onRtnDepthMarketData p
  · obtain ⟨record, rfl⟩ := quote
    obtain ⟨investorID, ready⟩ := Option.isSome_iff_exists.mp session.ready.investorID
    have known : s.investorID = some investorID := ready
    obtain ⟨c, hdl, run⟩ := CMdSpi.onRtnDepthMarketData_run env session.linked known record
    simp only [CMdSpi.callback, run]
    cases record with
    | none => cases env.sendOk <;> rfl
    | some record => cases ok : env.sendOk <;> simp [CMdSpi.outgoing, known]
  · have other : ∀ p, cb ≠ .onRtnDepthMarketData p := fun p same => quote ⟨p, same⟩
    rw [(CMdSpi.callback_relays lib env session.linked cb other).sent]
    cases cb <;> first | rfl | exact absurd rfl (other _)

theorem message_sent (inv : b.Inv lib) {payload : String} (able : Enabled b (env, .message payload)) :
    sent (handle lib (env, .message payload) b).log =
      if env.sendOk then (outgoing lib b (.message payload)).toList else [] := by
  rcases message_cases lib able with ⟨e, stops, early⟩ | ⟨c, root, type, opened, read, ofType, run⟩
  · have nothing : outgoing lib b (.message payload) = none := by
      rcases early with read | ⟨root, read, ofType⟩
      · simp only [outgoing, read]
      · simp only [outgoing, read, ofType]
    simp [stops, nothing]
  · rw [run]
    by_cases other : type = .onConnect
    · subst other
      cases atApi : b.trader.api with
      | none =>
        have atSpi : b.trader.spi = none := inv.trader.paired.mp atApi
        simp [outgoing, read, ofType, atSpi, sent_echoed, dispatch, onTrader, TraderHalf.call,
          TraderHalf.invoke, bind_run]
      | some api =>
        obtain ⟨p, s, session⟩ := inv.trader_session atApi
        obtain ⟨c, hdl, reply⟩ := CTraderSpi.onRspConnect_run lib env
          (x := ⟨s, b.trader.iRequestID⟩) session.linked
        simp only [dispatch, session.call, reply, Bridge.traderRan, sent_append, sent_echoed, sent_trader,
          outgoing, read, ofType, session.atSpi, Option.bind_some, session.object]
        cases env.sendOk <;> rfl
    · have silent := (dispatch_quiet lib env c c root other).sent b
      have nothing : outgoing lib b (.message payload) = none := by
        simp only [outgoing, read, ofType]
        cases type <;> first | rfl | exact absurd rfl other
      simp [silent, nothing, sent_echoed]

/-- A handler sends the one message it has for the server if the websocket is usable, and no other. -/
theorem handle_sent (inv : b.Inv lib) {event : Event} (able : Enabled b (env, event)) :
    sent (handle lib (env, event) b).log = if env.sendOk then (outgoing lib b event).toList else [] := by
  have none : outgoing lib b event = none → Quiet (handle lib (env, event)) →
      sent (handle lib (env, event) b).log = if env.sendOk then (outgoing lib b event).toList else [] := by
    intro nothing quiet
    simp [nothing, quiet.sent]
  cases event with
  | opened => exact none rfl (connection_emits mute_governs (.inl rfl))
  | closed => exact none rfl (connection_emits mute_governs (.inr (.inl rfl)))
  | failed => exact none rfl (connection_emits mute_governs (.inr (.inr rfl)))
  | message payload => exact message_sent inv able
  | trader api cb =>
    obtain ⟨p, s, session⟩ := inv.trader_session (inv.trader.live able)
    simp only [session.sent, outgoing, session.atSpi, session.object, Option.bind_some]
  | md api cb =>
    obtain ⟨p, s, session⟩ := inv.md_session (inv.md.live able)
    simp only [session.sent, outgoing, session.atSpi, session.object, Option.bind_some]

/-- The messages for the server in a run: those of the events that are served while
the websocket is usable. -/
def relays (lib : Lib) (b : Bridge) (es : List (Env × Event)) : List RspMessage :=
  ((bridge lib).served es b).filterMap fun at_ => if at_.2.1.sendOk then outgoing lib at_.1 at_.2.2 else none

theorem mem_relays {es : List (Env × Event)} {m : RspMessage} (member : m ∈ relays lib b es) :
    ∃ b' event, outgoing lib b' event = some m := by
  obtain ⟨at_, _, has⟩ := List.mem_filterMap.mp member
  split at has
  · exact ⟨at_.1, at_.2.2, has⟩
  · cases has

/-- A run sends each of them once, in the order of the events, and no other. -/
theorem run_sent (reach : Reachable lib b) {es : List (Env × Event)} (runs : (bridge lib).IsRun b es) :
    sent ((bridge lib).run es b).log = relays lib b es := by
  have each : ∀ at_ ∈ (bridge lib).served es b, sent ((bridge lib).handle at_.2 at_.1).log =
      (if at_.2.1.sendOk then outgoing lib at_.1 at_.2.2 else none).toList := by
    rintro ⟨b', env, event⟩ member
    obtain ⟨reach', able⟩ := EventSystem.served_reach reach runs _ member
    have one : sent ((bridge lib).handle (env, event) b').log = _ := handle_sent (Reachable.inv reach') able
    rw [one]
    cases env.sendOk <;> rfl
  rw [EventSystem.run_log, sent, List.filterMap_flatMap, relays, List.filterMap_eq_flatMap_toList]
  exact List.flatMap_congr each

end outgoing

end MFutures
