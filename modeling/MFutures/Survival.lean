import MFutures.Lib.Decided
import MFutures.Totality
import MFutures.TraderSteps
import MFutures.Nesting

namespace MFutures
open Handler Bridge

/-- The handler ends exactly if `p` holds, and never goes through a member in which
nothing has been stored or through a pointer to an object that is gone. -/
abbrev Tame {ω σ α : Type} (p : Prop) (x : Handler ω Fault σ α) (s : σ) : Prop :=
  Decided (fun e => e ≠ .wildPointer) p x s

section primitives
variable {σ α β : Type} {s : σ} {lib : Lib} {env : Env}

theorem cout_run (line : String) : (cout line : Handler Effect Fault σ Unit) s = ⟨[.out line], s, .ok ()⟩ := rfl

theorem cerr_run (line : String) : (cerr line : Handler Effect Fault σ Unit) s = ⟨[.err line], s, .ok ()⟩ := rfl

theorem known_run {x : Option α} {a : α} (set : x = some a) : (known x : Handler Effect Fault σ α) s = ⟨[], s, .ok a⟩ := by
  rw [set]
  rfl

/-- What is behind a pointer argument is read before the rest. -/
theorem deref_tame {q : Prop} {p : Option α} {f : α → Handler Effect Fault σ β} (next : ∀ a, Tame q (f a) s) :
    Tame (p.isSome = true ∧ q) (deref p >>= f) s := by
  cases p with
  | none => exact (Decided.stop (e := .nullPointer) rfl (by decide)).iff (by simp)
  | some a => exact (Decided.step (pure_run a s) (next a)).iff (by simp)

theorem strcpy_tame (array : CtpArray) (text : String) :
    Tame (text.length < lib.sizeof array) (ofExcept (lib.strcpy array text) : Handler Effect Fault σ String) s := by
  unfold Lib.strcpy
  split
  · rename_i short
    exact (Decided.done (a := text) rfl).iff (by simp [short])
  · rename_i long
    exact (Decided.stop (e := .overflow) rfl (by decide)).iff (by simp [long])

theorem converts_tame {p : Prop} {x : Except Fault α} (converts : Converts p x) :
    Tame p (ofExcept x : Handler Effect Fault σ α) s := by
  refine .ofExcept converts.ok fun e fault => ?_
  rw [converts.throws e fault]
  decide

theorem send_tame {c hdl : Option Nat} {k l : Nat} (client : c = some k) (handle : hdl = some l) (m : RspMessage) :
    Tame (env.sendOk = true) (send env c hdl m : Handler Effect Fault σ Unit) s := by
  unfold send
  refine .step (known_run client) ?_
  rw [handle]
  dsimp only
  split
  · rename_i up
    exact (Decided.done (a := ()) rfl).iff (by simp [up])
  · rename_i down
    exact (Decided.stop (e := .sendError) rfl (by decide)).iff (by simp [down])

end primitives

/-- The credentials fit the arrays of a login request. -/
structure Identity.LoginFits (lib : Lib) (i : Identity) : Prop where
  brokerID : ∀ t, i.brokerID = some t → t.length < lib.sizeof .brokerID
  userID : ∀ t, i.investorID = some t → t.length < lib.sizeof .userID
  password : ∀ t, i.password = some t → t.length < lib.sizeof .password

/-- The stored credentials, and what it is for them to fit. -/
theorem Identity.Ready.stored (lib : Lib) {i : Identity} (ready : i.Ready) :
    ∃ brokerID investorID password, i.brokerID = some brokerID ∧ i.investorID = some investorID ∧
      i.password = some password ∧ (i.LoginFits lib ↔ brokerID.length < lib.sizeof .brokerID ∧
        investorID.length < lib.sizeof .userID ∧ password.length < lib.sizeof .password) := by
  obtain ⟨brokerID, broker⟩ := Option.isSome_iff_exists.mp ready.brokerID
  obtain ⟨investorID, investor⟩ := Option.isSome_iff_exists.mp ready.investorID
  obtain ⟨password, pass⟩ := Option.isSome_iff_exists.mp ready.password
  refine ⟨brokerID, investorID, password, broker, investor, pass, ?_⟩
  constructor
  · exact fun fits => ⟨fits.brokerID _ broker, fits.userID _ investor, fits.password _ pass⟩
  · rintro ⟨short, short', short''⟩
    refine ⟨fun t same => ?_, fun t same => ?_, fun t same => ?_⟩
    · exact Option.some.inj (broker.symm.trans same) ▸ short
    · exact Option.some.inj (investor.symm.trans same) ▸ short'
    · exact Option.some.inj (pass.symm.trans same) ▸ short''

/-- The record that the callback reads is there. -/
@[simp] def TraderCallback.Recorded : TraderCallback → Prop
  | .onRspUserLogin p info _ last => last = true → isError info = false → p.isSome = true
  | .onRspSettlementInfoConfirm p info _ last => last = true → isError info = false → p.isSome = true
  | .onRspQryInstrument p _ _ _ => p.isSome = true
  | .onRspQryTradingAccount p info _ _ => isError info = false → p.isSome = true
  | .onRtnOrder p => p.isSome = true
  | .onRtnTrade p => p.isSome = true
  | _ => True

/-- Whether the callback copies a text over the login status. -/
@[simp] def TraderCallback.overwrites : TraderCallback → Bool
  | .onFrontDisconnected _ => true
  | .onRspUserLogin _ info _ last => last && !isError info
  | _ => false

namespace CTraderSpi
variable {lib : Lib} {env : Env} {x : TraderCtx}

/-- What a login message leaves behind in the SPI has been stored. -/
structure Full (s : CTraderSpi) : Prop where
  ready : s.identity.Ready
  loginID : s.loginID.isSome = true

theorem Full.linked {s : CTraderSpi} (full : s.Full) : s.Linked := full.ready.linked

/-- What a callback takes to end. -/
structure Bears (lib : Lib) (env : Env) (s : CTraderSpi) (cb : TraderCallback) : Prop where
  recorded : cb.Recorded
  writable : cb.overwrites = true → s.loginStatus.writable = true
  sendable : s.reachesSend cb = true → env.sendOk = true
  fits : cb = .onFrontConnected → s.identity.LoginFits lib

theorem bears_iff {s : CTraderSpi} {cb : TraderCallback} : s.Bears lib env cb ↔
    cb.Recorded ∧ (cb.overwrites = true → s.loginStatus.writable = true) ∧
      (s.reachesSend cb = true → env.sendOk = true) ∧ (cb = .onFrontConnected → s.identity.LoginFits lib) :=
  ⟨fun ⟨recorded, writable, sendable, fits⟩ => ⟨recorded, writable, sendable, fits⟩,
    fun ⟨recorded, writable, sendable, fits⟩ => ⟨recorded, writable, sendable, fits⟩⟩

theorem relay_tame (linked : x.self.Linked) (m : RspMessage) : Tame (env.sendOk = true) (relay lib env m) x := by
  obtain ⟨c, hdl, client, handle⟩ := linked
  exact .step (getJsonStr_run lib env m x) (.step rfl (send_tame client handle m))

theorem strcpyStatus_tame (status : String) : Tame (x.self.loginStatus.writable = true) (strcpyStatus status) x := by
  refine .step rfl ?_
  cases may : x.self.loginStatus.writable with
  | true => exact (Decided.done (a := ()) rfl).iff (by simp)
  | false => exact (Decided.stop (e := .readOnly) rfl (by decide)).iff (by simp)

theorem request_tame (req : Request) (line : String) : Tame True (request env req line) x :=
  .step rfl (.step rfl (.done rfl))

theorem reqUserLogin_tame (ready : x.self.identity.Ready) (loginID : Int) :
    Tame (x.self.identity.LoginFits lib) (reqUserLogin lib env loginID) x := by
  obtain ⟨brokerID, investorID, password, broker, investor, pass, fits⟩ := ready.stored lib
  have tame : Tame _ (reqUserLogin lib env loginID) x :=
    .step rfl <| .step (known_run broker) <| .bind (strcpy_tame _ _) fun _ _ =>
      .step (known_run investor) <| .bind (strcpy_tame _ _) fun _ _ => .step (known_run pass) <|
      .bind (strcpy_tame _ _) fun _ _ => request_tame _ _
  exact tame.iff (by simp [fits])

theorem onFrontConnected_tame (full : x.self.Full) :
    Tame (x.self.identity.LoginFits lib) (onFrontConnected lib env) x := by
  obtain ⟨loginID, stored⟩ := Option.isSome_iff_exists.mp full.loginID
  let told : TraderCtx := { x with self := { x.self with loginStatus := ⟨"N", true⟩ } }
  have login : Tame (x.self.identity.LoginFits lib) (reqUserLogin lib env loginID) told :=
    @reqUserLogin_tame lib env told full.ready loginID
  exact .step (cout_run _) (.step rfl (.step rfl (.step (known_run stored) login)))

/-- A record is read and relayed. -/
theorem record_tame {A : Type} (linked : x.self.Linked) (p : Option A) (m : A → RspMessage) :
    Tame (p.isSome = true ∧ env.sendOk = true) (do
      let p ← deref p
      relay lib env (m p)) x :=
  deref_tame fun a => relay_tame linked (m a)

/-- A record is read and relayed unless there is an error. -/
theorem response_tame {A : Type} (linked : x.self.Linked) (info : Option CThostFtdcRspInfoField) (p : Option A)
    (m : A → RspMessage) : Tame (isError info = false → p.isSome = true ∧ env.sendOk = true) (do
      if ← isErrorRspInfo lib env info then pure () else
        let p ← deref p
        relay lib env (m p)) x := by
  refine .step (isErrorRspInfo_run lib env info x) ?_
  refine (Decided.cond (p := True) (fun _ => .done rfl) fun _ => record_tame linked p m).iff ?_
  exact ⟨fun both => both.2, fun right => ⟨fun _ => trivial, right⟩⟩

/-- An error is read and relayed. -/
theorem error_tame (linked : x.self.Linked) (info : Option CThostFtdcRspInfoField)
    (m : CThostFtdcRspInfoField → RspMessage) : Tame (isError info = true → env.sendOk = true) (do
      if ← isErrorRspInfo lib env info then
        let info ← deref info
        relay lib env (m info)
      else pure ()) x := by
  refine .step (isErrorRspInfo_run lib env info x) ?_
  refine (Decided.cond (q := True) (fun _ => record_tame linked info m) fun _ => .done rfl).iff ?_
  cases info with
  | none => simp [isError]
  | some info => simp

/-- The status is written over, the record read and relayed. -/
theorem onRspUserLogin_tame (linked : x.self.Linked) (p : Option CThostFtdcRspUserLoginField)
    (info : Option CThostFtdcRspInfoField) (n : Int) (last : Bool) :
    Tame (last = true → isError info = false →
      x.self.loginStatus.writable = true ∧ p.isSome = true ∧ env.sendOk = true)
      (onRspUserLogin lib env p info n last) x := by
  have accepted (told : TraderCtx) (still : told.self.Linked) :
      Tame (p.isSome = true ∧ env.sendOk = true) (do
        let p ← deref p
        modify fun x => { x with self := { x.self with
          frontID := some p.frontID, sessionID := some p.sessionID, orderRef := some p.maxOrderRef } }
        relay lib env ⟨p.rspArgs, n, "OnRspUserLogin", "false"⟩ : TraderM Unit) told := by
    exact deref_tame fun r => .step (modify_run _ told) <| relay_tame (x := { told with self := { told.self with
      frontID := some r.frontID, sessionID := some r.sessionID, orderRef := some r.maxOrderRef } }) still _
  have still : (strcpyStatus "Y" x).state.self.Linked := by
    have kept : (strcpyStatus "Y" x).state.self.identity = x.self.identity := strcpyStatus_keeps "Y" x
    obtain ⟨c, hdl, client, handle⟩ := linked
    exact ⟨c, hdl, (congrArg Identity.client kept).trans client, (congrArg Identity.hdl kept).trans handle⟩
  have tame : Tame _ (onRspUserLogin lib env p info n last) x :=
    .step (cout_run _) <| .cond (q := True) (fun _ => .step (isErrorRspInfo_run lib env info x) <|
      .cond (p := True) (fun _ => .done (a := ()) rfl) fun _ => .bind (strcpyStatus_tame "Y") fun _ _ =>
      accepted _ still) fun _ => .done (a := ()) rfl
  refine tame.iff ?_
  cases last <;> cases isError info <;> simp

theorem onFrontDisconnected_tame (ready : x.self.identity.Ready) (nReason : Int) :
    Tame (x.self.loginStatus.writable = true ∧ env.sendOk = true) (onFrontDisconnected lib env nReason) x := by
  obtain ⟨investorID, stored⟩ := Option.isSome_iff_exists.mp ready.investorID
  have known : x.self.investorID = some investorID := stored
  have rest (m : RspMessage) : Tame (env.sendOk = true ∧ x.self.loginStatus.writable = true)
      (relay lib env m >>= fun _ => strcpyStatus "N") x := by
    refine (relay_tame ready.linked m).bind fun _ _ => ?_
    rw [show (relay lib env m x).state = x from relay_keeps lib env m x]
    exact strcpyStatus_tame "N"
  have tame : Tame _ (onFrontDisconnected lib env nReason) x :=
    .step (cout_run _) <| .step rfl <| .step (known_run known) (rest _)
  exact tame.iff and_comm

/-- A callback of a current session ends exactly if the session bears it. -/
theorem callback_tame (full : x.self.Full) (cb : TraderCallback) :
    Tame (x.self.Bears lib env cb) (callback lib env cb) x := by
  have linked := full.linked
  simp only [bears_iff]
  cases cb with
  | onFrontConnected =>
    exact (onFrontConnected_tame full).iff (by simp [reachesSend])
  | onFrontDisconnected nReason =>
    exact (onFrontDisconnected_tame full.ready nReason).iff
      (by simp [reachesSend])
  | onHeartBeatWarning nTimeLapse =>
    exact (Decided.done (a := ()) rfl).iff (by simp [reachesSend])
  | onRspUserLogin p info n last =>
    refine (onRspUserLogin_tame linked p info n last).iff ?_
    simp only [TraderCallback.Recorded, TraderCallback.overwrites, reachesSend]
    cases last <;> cases isError info <;> cases x.self.loginStatus.writable <;> cases p <;> simp
  | onRspSettlementInfoConfirm p info n last =>
    have tame : Tame _ (onRspSettlementInfoConfirm lib env p info n last) x :=
      .step (cout_run _) <| .cond (q := True) (fun _ => response_tame linked info p _) fun _ => .done (a := ()) rfl
    refine tame.iff ?_
    simp only [TraderCallback.Recorded, TraderCallback.overwrites, reachesSend]
    cases last <;> cases isError info <;> cases p <;> simp
  | onRspQryInstrument p info n last =>
    refine (record_tame linked p _).iff ?_
    cases p <;> simp [reachesSend]
  | onRspQryTradingAccount p info n last =>
    have tame : Tame _ (onRspQryTradingAccount lib env p info n) x :=
      .step (cout_run _) (response_tame linked info p _)
    refine tame.iff ?_
    simp only [TraderCallback.Recorded, TraderCallback.overwrites, reachesSend]
    cases isError info <;> cases p <;> simp
  | onRspQryInvestorPosition p info n last =>
    cases p with
    | none =>
      have tame : Tame True (onRspQryInvestorPosition lib env none n) x := .step (cout_run _) (.done (a := ()) rfl)
      exact tame.iff (by simp [reachesSend])
    | some p =>
      have tame : Tame _ (onRspQryInvestorPosition lib env (some p) n) x := .step (cout_run _) (relay_tame linked _)
      exact tame.iff (by simp [reachesSend])
  | onRspOrderInsert info n last =>
    have tame : Tame _ (onRspOrderInsert lib env info n) x := .step (cout_run _) (error_tame linked info _)
    exact tame.iff (by simp [reachesSend])
  | onRspOrderAction info n last =>
    have tame : Tame True (onRspOrderAction lib env info) x :=
      .step (cout_run _) (.step (isErrorRspInfo_run lib env info x) (.done (a := ()) rfl))
    exact tame.iff (by simp [reachesSend])
  | onRspError info n last =>
    have tame : Tame _ (onRspError lib env info n) x := .step (cerr_run _) (error_tame linked info _)
    exact tame.iff (by simp [reachesSend])
  | onRtnOrder p =>
    have tame : Tame _ (onRtnOrder lib env p) x := deref_tame fun r => .step (cout_run _) (relay_tame linked _)
    refine tame.iff ?_
    cases p <;> simp [reachesSend]
  | onRtnTrade p =>
    have tame : Tame _ (onRtnTrade lib env p) x := .step (cout_run _) (record_tame linked p _)
    refine tame.iff ?_
    cases p <;> simp [reachesSend]

end CTraderSpi

/-- The record that the callback reads is there. -/
@[simp] def MdCallback.Recorded : MdCallback → Prop
  | .onRspUserLogin p _ _ _ => p.isSome = true
  | .onRspError info _ _ => info.isSome = true
  | .onRtnDepthMarketData p => p.isSome = true
  | _ => True

namespace CMdSpi
variable {lib : Lib} {env : Env} {s : CMdSpi}

/-- What a callback takes to end. -/
structure Bears (lib : Lib) (env : Env) (s : CMdSpi) (cb : MdCallback) : Prop where
  recorded : cb.Recorded
  sendable : reachesSend cb = true → env.sendOk = true
  fits : cb = .onFrontConnected → s.identity.LoginFits lib

theorem bears_iff {cb : MdCallback} : s.Bears lib env cb ↔
    cb.Recorded ∧ (reachesSend cb = true → env.sendOk = true) ∧ (cb = .onFrontConnected → s.identity.LoginFits lib) :=
  ⟨fun ⟨recorded, sendable, fits⟩ => ⟨recorded, sendable, fits⟩,
    fun ⟨recorded, sendable, fits⟩ => ⟨recorded, sendable, fits⟩⟩

theorem onFrontConnected_tame (ready : s.identity.Ready) : Tame (s.identity.LoginFits lib) (onFrontConnected lib) s := by
  obtain ⟨brokerID, investorID, password, broker, investor, pass, fits⟩ := ready.stored lib
  have tame : Tame _ (onFrontConnected lib) s :=
    .step rfl <| .step (known_run broker) <| .bind (strcpy_tame _ _) fun _ _ =>
      .step (known_run investor) <| .bind (strcpy_tame _ _) fun _ _ => .step (known_run pass) <|
      .bind (strcpy_tame _ _) fun _ _ => .done (a := ()) rfl
  exact tame.iff (by simp [fits])

theorem isErrorRspInfo_run (info : Option CThostFtdcRspInfoField) :
    ∃ log, isErrorRspInfo info s = ⟨log, s, .ok (isError info)⟩ := by
  cases info with
  | none => exact ⟨[], rfl⟩
  | some i => by_cases zero : i.errorID = 0 <;> simp [isErrorRspInfo, isError, zero, cerr, bind_run]

/-- A callback of a current session ends exactly if the session bears it. -/
theorem callback_tame (ready : s.identity.Ready) (cb : MdCallback) :
    Tame (s.Bears lib env cb) (callback lib env cb) s := by
  simp only [bears_iff]
  cases cb with
  | onFrontConnected => exact (onFrontConnected_tame ready).iff (by simp [reachesSend])
  | onFrontDisconnected nReason => exact (Decided.done (a := ()) rfl).iff (by simp [reachesSend])
  | onHeartBeatWarning nTimeLapse => exact (Decided.done (a := ()) rfl).iff (by simp [reachesSend])
  | onRspUserLogin p info n last =>
    obtain ⟨c, hdl, client, handle⟩ := ready.linked
    have tame : Tame _ (onRspUserLogin env p n) s := deref_tame fun r => .step rfl (send_tame client handle _)
    refine tame.iff ?_
    cases p <;> simp [reachesSend]
  | onRspError info n last =>
    obtain ⟨log, read⟩ := @isErrorRspInfo_run s info
    have tame : Tame _ (onRspError info n last) s :=
      .step (cerr_run _) <| .step read <| .step (cout_run _) <| deref_tame fun i => .done (a := ()) rfl
    exact tame.iff (by simp [reachesSend])
  | onRspSubMarketData => exact (Decided.done (a := ()) rfl).iff (by simp [reachesSend])
  | onRspUnSubMarketData => exact (Decided.done (a := ()) rfl).iff (by simp [reachesSend])
  | onRtnDepthMarketData p =>
    obtain ⟨investorID, investor⟩ := Option.isSome_iff_exists.mp ready.investorID
    obtain ⟨c, hdl, run⟩ := onRtnDepthMarketData_run env ready.linked investor p
    cases p with
    | none => exact (Decided.stop (congrArg Outcome.val run) (by decide)).iff (by simp)
    | some p => exact (Decided.done (congrArg Outcome.val run)).iff (by simp [reachesSend])

end CMdSpi

section sessions
variable {lib : Lib} {b : Bridge}

theorem TraderStep.numbered {event : Event} {x : Half CTraderSpi} (step : TraderStep lib b event x)
    (numbered : ∀ p s, b.trader.spi = some p → b.trader.object p = some s → s.loginID.isSome = true) :
    ∀ p s, x.spi = some p → x.object p = some s → s.loginID.isSome = true := by
  intro p s atSpi object
  cases step with
  | idle => exact numbered p s atSpi object
  | torn => simp [Half.torn] at atSpi
  | login read ofType id =>
    cases Option.some.inj atSpi
    simp [Half.object, Half.installed] at object
    subst object
    rfl
  | @connect payload api p' s' session =>
    cases Option.some.inj (session.atSpi.symm.trans atSpi)
    cases Option.some.inj ((Half.object_store_self session.object _).symm.trans object)
    rw [s'.filled_loginID]
    exact numbered p s' session.atSpi session.object
  | @callback api p' s' cb session =>
    cases Option.some.inj (session.atSpi.symm.trans atSpi)
    cases Option.some.inj ((Half.object_store_self session.object _).symm.trans object)
    rw [s'.after_loginID]
    exact numbered p s' session.atSpi session.object

/-- The current trader session has all that its login message stores. -/
theorem Reachable.full (reach : Reachable lib b) {api p : Nat} {s : CTraderSpi} (session : TraderSession b api p s) :
    s.Full := by
  refine ⟨session.ready, ?_⟩
  have numbered : ∀ p s, b.trader.spi = some p → b.trader.object p = some s → s.loginID.isSome = true := by
    clear session
    induction reach with
    | start started =>
      obtain ⟨_, state⟩ := started_state started
      rw [state]
      exact fun _ _ none => by cases none
    | @next b e before able done ih => exact (trader_step (Reachable.inv before) able done).numbered ih
  exact numbered p s session.atSpi session.object

end sessions

/-- What the branch of a message takes to end: the session it calls, arguments that
can be converted, and texts and credentials that fit their arrays. -/
structure ReqType.Taken (lib : Lib) (type : ReqType) (root : Value) (b : Bridge) : Prop where
  session : ∀ side, type.callee = some side → (b.spiOf side).isSome = true
  convertible : type.Convertible root
  fits : ∀ s, b.traderSpi = some s → type.Fits lib root s

section messages
variable {lib : Lib} {env : Env} {root : Value}

/-- A message that copies nothing has nothing to fit. -/
theorem plain_fits {type : ReqType} (copies : type.copied root = []) (plain : type.credentialed = false)
    (s : CTraderSpi) : type.Fits lib root s where
  copied := by
    rw [copies]
    exact List.forall_mem_nil _
  credentials := by
    rw [plain]
    exact fun named => absurd named Bool.false_ne_true

/-- A message that calls no SPI takes its arguments and nothing else. -/
theorem plain_taken {type : ReqType} {b : Bridge} (callee : type.callee = none) (copies : type.copied root = [])
    (plain : type.credentialed = false) (s : CTraderSpi) : type.Accepts lib root s ↔ type.Taken lib root b := by
  constructor
  · rintro ⟨convertible, _⟩
    refine ⟨fun side same => ?_, convertible, fun s _ => plain_fits copies plain s⟩
    cases callee.symm.trans same
  · exact fun taken => ⟨taken.convertible, plain_fits copies plain s⟩

theorem Declines.tame {σ α : Type} {fits p : Prop} {x : Except Fault α} {s : σ} (declines : Declines fits x)
    (succeeds : Succeeds p x) : Tame p (ofExcept x : Handler Effect Fault σ α) s :=
  .ofExcept succeeds (declines.not (by decide) (by decide))

namespace CTraderSpi
variable {x : TraderCtx}

theorem credentials_tame (ready : x.self.identity.Ready) : Tame (x.self.CredentialsFit lib) (credentials lib) x := by
  refine ⟨credentials_ends x, fun e fault => ?_⟩
  rcases (credentials_fault fault).2 with rfl | ⟨_, broker | investor⟩
  · decide
  · have stored := ready.brokerID
    rw [show x.self.identity.brokerID = none from broker] at stored
    cases stored
  · have stored := ready.investorID
    rw [show x.self.identity.investorID = none from investor] at stored
    cases stored

theorem nextRequestID_tame : Tame True nextRequestID x := ⟨nextRequestID_ends x, fun _ fault => by cases fault⟩

theorem reqSettlementInfoConfirm_tame (ready : x.self.identity.Ready) :
    Tame (ReqType.reqSettlementInfoConfirm.Accepts lib root x.self) (reqSettlementInfoConfirm lib env root) x := by
  have tame : Tame _ (reqSettlementInfoConfirm lib env root) x := .bind (credentials_tame ready) fun _ _ =>
    .bind (converts_tame (uniqueID_converts root)) fun _ _ => request_tame _ _
  exact ⟨reqSettlementInfoConfirm_ends env x, tame.faults⟩

theorem reqOrderInsert_tame (ready : x.self.identity.Ready) :
    Tame (ReqType.reqOrderInsert.Accepts lib root x.self) (reqOrderInsert lib env root) x := by
  have tame : Tame _ (reqOrderInsert lib env root) x := .bind (credentials_tame ready) fun _ _ =>
    .bind ((inputOrder_declines lib root _ _).tame (inputOrder_succeeds _ _)) fun _ _ =>
    .bind (converts_tame (uniqueID_converts root)) fun _ _ => request_tame _ _
  exact ⟨reqOrderInsert_ends env x, tame.faults⟩

theorem reqOrderAction_tame (ready : x.self.identity.Ready) :
    Tame (ReqType.reqOrderAction.Accepts lib root x.self) (reqOrderAction lib env root) x := by
  have tame : Tame _ (reqOrderAction lib env root) x := .bind (credentials_tame ready) fun _ _ =>
    .bind ((orderAction_declines lib root _ _).tame (orderAction_succeeds _ _)) fun _ _ =>
    .bind nextRequestID_tame fun _ _ => request_tame _ _
  exact ⟨reqOrderAction_ends env x, tame.faults⟩

theorem reqQryTradingAccount_tame (ready : x.self.identity.Ready) :
    Tame (ReqType.reqQryTradingAccount.Accepts lib root x.self) (reqQryTradingAccount lib env root) x := by
  have tame : Tame _ (reqQryTradingAccount lib env root) x := .bind (credentials_tame ready) fun _ _ =>
    .bind (converts_tame (uniqueID_converts root)) fun _ _ => request_tame _ _
  exact ⟨reqQryTradingAccount_ends env x, tame.faults⟩

theorem reqQryInvestorPosition_tame (ready : x.self.identity.Ready) :
    Tame (ReqType.reqQryInvestorPosition.Accepts lib root x.self) (reqQryInvestorPosition lib env root) x := by
  have tame : Tame _ (reqQryInvestorPosition lib env root) x := .bind (credentials_tame ready) fun _ _ =>
    .bind ((positionInstrument_declines lib root).tame positionInstrument_succeeds) fun _ _ =>
    .bind (converts_tame (uniqueID_converts root)) fun _ _ => request_tame _ _
  exact ⟨reqQryInvestorPosition_ends env x, tame.faults⟩

theorem reqQryInstrument_tame : Tame True (reqQryInstrument env) x := by
  have tame : Tame _ (reqQryInstrument env) x := .bind nextRequestID_tame fun _ _ => request_tame _ _
  exact tame.iff (by simp)

end CTraderSpi

theorem mdSubscribeMarketData_tame (x : CMdSpi) (s : CTraderSpi) :
    Tame (ReqType.mdSubscribeMarketData.Accepts lib root s) (CMdSpi.mdSubscribeMarketData lib env root) x := by
  have tame : Tame _ (CMdSpi.mdSubscribeMarketData lib env root) x :=
    .bind (converts_tame (argString_converts lib root "InstrumentID")) fun _ _ => .step rfl (.done (a := ()) rfl)
  exact ⟨mdSubscribeMarketData_ends x s, tame.faults⟩

/-- A login that does not end throws an exception of jsoncpp. -/
theorem TraderHalf.login_tame (c hdl : Nat) (t : TraderHalf) (s : CTraderSpi) :
    Tame (ReqType.reqUserLogin.Accepts lib root s) (login lib c hdl root) t := by
  refine ⟨login_ends c hdl t s, fun e fault => ?_⟩
  have json : e = .jsonError := by
    by_cases early : EarlyArgs root
    · by_cases pass : root.hasText "PASSWORD" = true
      · obtain ⟨loginID, addr, brokerID, investorID, password, args⟩ := early.all lib pass
        obtain ⟨log, run⟩ := login_run c hdl t args
        rw [run] at fault
        cases fault
      · obtain ⟨_, log, run⟩ := login_late lib c hdl t early pass
        rw [run] at fault
        exact (Except.error.inj fault).symm
    · obtain ⟨log, run⟩ := login_early lib c hdl t early
      rw [run] at fault
      exact (Except.error.inj fault).symm
  rw [json]
  decide

theorem MdHalf.login_tame (c hdl : Nat) (t : Half CMdSpi) (s : CTraderSpi) :
    Tame (ReqType.mdReqUserLogin.Accepts lib root s) (login lib env c hdl root) t := by
  refine ⟨login_ends c hdl t s, fun e fault => ?_⟩
  have json : e = .jsonError := by
    by_cases args : Args root
    · obtain ⟨loginID, addr, brokerID, investorID, password, converted⟩ := args.all lib
      obtain ⟨log, run⟩ := login_run env c hdl t converted
      rw [run] at fault
      cases fault
    · obtain ⟨_, log, run⟩ := login_fails lib env c hdl t args
      rw [run] at fault
      exact (Except.error.inj fault).symm
  rw [json]
  decide

end messages

/-- The SPI of the market-data session. -/
def Bridge.mdSpi (b : Bridge) : Option CMdSpi := b.mdspi.bind b.md.object

/-- What an event takes to be handled to its end. The connection events take nothing. -/
def Survives (lib : Lib) (b : Bridge) : Env × Event → Prop
  | (_, .opened) => True
  | (_, .closed) => True
  | (_, .failed) => True
  | (_, .message payload) =>
    ∃ root type, readStrJson lib payload = .ok root ∧ reqType lib root = .ok type ∧ type.Taken lib root b
  | (env, .trader _ cb) => ∃ s, b.traderSpi = some s ∧ s.Bears lib env cb
  | (env, .md _ cb) => ∃ s, b.mdSpi = some s ∧ s.Bears lib env cb

section events
variable {lib : Lib} {b : Bridge}

theorem TraderSession.current {api p : Nat} {s : CTraderSpi} (session : TraderSession b api p s) :
    b.traderSpi = some s := by
  simp [Bridge.traderSpi, Bridge.spi, session.atSpi, session.object]

theorem MdSession.current {api p : Nat} {s : CMdSpi} (session : MdSession b api p s) : b.mdSpi = some s := by
  simp [Bridge.mdSpi, Bridge.mdspi, session.atSpi, session.object]

/-- A callback of the current session ends exactly if the session bears it. -/
theorem TraderSession.delivered {api p : Nat} {s : CTraderSpi} (session : TraderSession b api p s) (full : s.Full)
    (env : Env) (cb : TraderCallback) : Tame (s.Bears lib env cb) (MFutures.handle lib (env, .trader api cb)) b :=
  (@CTraderSpi.callback_tame lib env ⟨s, b.trader.iRequestID⟩ full cb).through (by rw [session.handle, Bridge.traderRan])

theorem MdSession.delivered {api p : Nat} {s : CMdSpi} (session : MdSession b api p s) (env : Env) (cb : MdCallback) :
    Tame (s.Bears lib env cb) (MFutures.handle lib (env, .md api cb)) b :=
  (CMdSpi.callback_tame session.ready cb).through (by rw [session.handle, Bridge.mdRan])

/-- A call of the dispatcher through NULL. -/
theorem onTrader_null (x : TraderM Unit) (none : b.trader.spi = none) :
    (onTrader (TraderHalf.call x) b).val = .error .nullPointer := by
  simp [onTrader, TraderHalf.call, bind_run, TraderHalf.invoke, none]

theorem onMd_null (x : MdM Unit) (none : b.md.spi = none) : (onMd (MdHalf.call x) b).val = .error .nullPointer := by
  simp [onMd, MdHalf.call, bind_run, MdHalf.invoke, none]

/-- A branch that calls the trader SPI. -/
theorem trader_taken (reach : Reachable lib b) {type : ReqType} (callee : type.callee = some .trader) {root : Value}
    {x : TraderM Unit} (ends : ∀ y : TraderCtx, y.self.identity.Ready → Tame (type.Accepts lib root y.self) x y) :
    Tame (type.Taken lib root b) (onTrader (TraderHalf.call x)) b := by
  cases atApi : b.trader.api with
  | none =>
    have none : b.trader.spi = none := reach.inv.trader.paired.mp atApi
    have stop : Tame False (onTrader (TraderHalf.call x)) b := .stop (onTrader_null x none) (by decide)
    refine stop.iff ⟨False.elim, fun taken => ?_⟩
    have session : b.trader.spi.isSome = true := taken.session .trader callee
    rw [none] at session
    cases session
  | some api =>
    obtain ⟨p, s, session⟩ := reach.inv.trader_session atApi
    have called : Tame (type.Accepts lib root s) (onTrader (TraderHalf.call x)) b :=
      (ends ⟨s, b.trader.iRequestID⟩ session.ready).through (by rw [session.call, Bridge.traderRan])
    refine called.iff ⟨fun accepts => ?_, fun taken => ⟨taken.convertible, taken.fits s session.current⟩⟩
    obtain ⟨convertible, fits⟩ : type.Accepts lib root s := accepts
    refine ⟨?_, convertible, ?_⟩
    · intro side same
      cases Option.some.inj (callee.symm.trans same)
      exact Option.isSome_iff_exists.mpr ⟨p, session.atSpi⟩
    · intro s' same
      cases Option.some.inj (session.current.symm.trans same)
      exact fits

/-- The branch that calls the market-data SPI. -/
theorem md_taken (reach : Reachable lib b) (env : Env) (root : Value) :
    Tame (ReqType.mdSubscribeMarketData.Taken lib root b)
      (onMd (MdHalf.call (CMdSpi.mdSubscribeMarketData lib env root))) b := by
  cases atApi : b.md.api with
  | none =>
    have none : b.md.spi = none := reach.inv.md.paired.mp atApi
    have stop : Tame False (onMd (MdHalf.call (CMdSpi.mdSubscribeMarketData lib env root))) b :=
      .stop (onMd_null _ none) (by decide)
    refine stop.iff ⟨False.elim, fun taken => ?_⟩
    have session : b.md.spi.isSome = true := taken.session .md rfl
    rw [none] at session
    cases session
  | some api =>
    obtain ⟨p, ms, session⟩ := reach.inv.md_session atApi
    have called (s : CTraderSpi) : Tame (ReqType.mdSubscribeMarketData.Accepts lib root s)
        (onMd (MdHalf.call (CMdSpi.mdSubscribeMarketData lib env root))) b :=
      (mdSubscribeMarketData_tame ms s).through (by rw [session.call, Bridge.mdRan])
    refine (called { tpUserApi := 0 }).iff ⟨fun accepts => ⟨?_, accepts.1, fun s _ => plain_fits rfl rfl s⟩,
      fun taken => ⟨taken.convertible, plain_fits rfl rfl _⟩⟩
    intro side same
    cases Option.some.inj same
    exact Option.isSome_iff_exists.mpr ⟨p, session.atSpi⟩

/-- A branch of `on_message` ends exactly if what it needs is there. -/
theorem dispatch_tame (reach : Reachable lib b) (env : Env) (c hdl : Nat) (root : Value) (type : ReqType) :
    Tame (type.Taken lib root b) (dispatch lib env c hdl root type) b := by
  cases type with
  | onConnect =>
    refine trader_taken reach rfl fun x ready => ?_
    obtain ⟨k, l, run⟩ := CTraderSpi.onRspConnect_run lib env ready.linked
    exact (Decided.done (congrArg Outcome.val run)).iff (by simp [ReqType.accepts_iff])
  | unknown =>
    have done : Tame (ReqType.unknown.Accepts lib root { tpUserApi := 0 }) (dispatch lib env c hdl root .unknown) b :=
      (Decided.done (a := ()) rfl).iff (by simp [ReqType.accepts_iff])
    exact done.iff (plain_taken rfl rfl rfl _)
  | reqUserLogin =>
    have login : Tame _ (dispatch lib env c hdl root .reqUserLogin) b :=
      (TraderHalf.login_tame c hdl b.trader { tpUserApi := 0 }).through rfl
    exact login.iff (plain_taken rfl rfl rfl _)
  | mdReqUserLogin =>
    have login : Tame _ (dispatch lib env c hdl root .mdReqUserLogin) b :=
      (MdHalf.login_tame c hdl b.md { tpUserApi := 0 }).through rfl
    exact login.iff (plain_taken rfl rfl rfl _)
  | mdSubscribeMarketData => exact md_taken reach env root
  | reqSettlementInfoConfirm =>
    exact trader_taken reach rfl fun _ ready => CTraderSpi.reqSettlementInfoConfirm_tame ready
  | reqOrderInsert => exact trader_taken reach rfl fun _ ready => CTraderSpi.reqOrderInsert_tame ready
  | reqOrderAction => exact trader_taken reach rfl fun _ ready => CTraderSpi.reqOrderAction_tame ready
  | reqQryTradingAccount =>
    exact trader_taken reach rfl fun _ ready => CTraderSpi.reqQryTradingAccount_tame ready
  | reqQryInvestorPosition =>
    exact trader_taken reach rfl fun _ ready => CTraderSpi.reqQryInvestorPosition_tame ready
  | reqQryInstrument =>
    exact trader_taken reach rfl fun _ _ => CTraderSpi.reqQryInstrument_tame.iff (by simp [ReqType.accepts_iff])

/-- An event that the surroundings can deliver is handled to its end exactly if it
finds what it needs, and never goes through a pointer to an object that is gone or
a member in which nothing has been stored. -/
theorem handle_tame (reach : Reachable lib b) {e : Env × Event} (able : Enabled b e) :
    Tame (Survives lib b e) (handle lib e) b := by
  obtain ⟨env, event⟩ := e
  cases event with
  | opened => exact .done (connection_handled reach.net_inv able (.inl rfl))
  | closed => exact .done (connection_handled reach.net_inv able (.inr (.inl rfl)))
  | failed => exact .done (connection_handled reach.net_inv able (.inr (.inr rfl)))
  | message payload =>
    rcases message_cases lib able with ⟨e, stops, early⟩ | ⟨c, root, type, _, read, ofType, run⟩
    · have wild : e ≠ .wildPointer := by
        rcases early with read | ⟨root, _, ofType⟩
        · rcases readStrJson_error lib read with rfl | rfl <;> decide
        · exact (@reqType_declines True lib root).not (by decide) (by decide) e ofType
      refine (Decided.stop (congrArg Outcome.val stops) wild).iff ⟨False.elim, ?_⟩
      rintro ⟨root, type, read, ofType, _⟩
      rcases early with other | ⟨root', read', other⟩
      · cases read.symm.trans other
      · cases read.symm.trans read'
        cases ofType.symm.trans other
    · have dispatched : Tame (type.Taken lib root b) (handle lib (env, .message payload)) b :=
        (dispatch_tame reach env c c root type).through (by rw [run])
      refine dispatched.iff ⟨fun taken => ⟨root, type, read, ofType, taken⟩, ?_⟩
      rintro ⟨root', type', read', ofType', taken⟩
      cases read.symm.trans read'
      cases ofType.symm.trans ofType'
      exact taken
  | trader api cb =>
    obtain ⟨p, s, session⟩ := reach.inv.trader_session (reach.inv.trader.live able)
    refine (session.delivered (reach.full session) env cb).iff ⟨fun bears => ⟨s, session.current, bears⟩, ?_⟩
    rintro ⟨s', current, bears⟩
    cases Option.some.inj (session.current.symm.trans current)
    exact bears
  | md api cb =>
    obtain ⟨p, s, session⟩ := reach.inv.md_session (reach.inv.md.live able)
    refine (session.delivered env cb).iff ⟨fun bears => ⟨s, session.current, bears⟩, ?_⟩
    rintro ⟨s', current, bears⟩
    cases Option.some.inj (session.current.symm.trans current)
    exact bears

end events

/-- A front that is lost, and then the connection. -/
def lostFront : List (Env × Event) :=
  [(.up, .trader 0 (.onFrontDisconnected 4097)), (.up, .closed), (.up, .opened)]

end MFutures
