import MFutures.Frames

namespace MFutures
open Handler

section relays
variable {σ α β : Type} {env : Env}

/-- The handler sends nothing. -/
def Mute (x : Handler Effect Fault σ α) : Prop := Emits (fun e => e.message = none) x

/-- No C++ exception leaves the handler. -/
def NoThrow (x : Handler Effect Fault σ α) : Prop := Faults (fun e => e.isException = false) x

/-- The activation ended with a C++ exception. -/
def Throws {ω : Type} (r : Outcome ω Fault σ α) : Prop := ∃ e, r.val = .error e ∧ e.isException = true

/-- From a state `s` the handler hands the message, if there is one, to a send
without an error code, which sends it or throws; and it throws nothing else. -/
structure Relays (env : Env) (x : Handler Effect Fault σ α) (s : σ) (m : Option RspMessage) : Prop where
  sent : messages (x s).log = if env.sendOk then m.toList else []
  throws : Throws (x s) ↔ m.isSome = true ∧ env.sendOk = false

theorem Mute.messages {x : Handler Effect Fault σ α} (mute : Mute x) (s : σ) : messages (x s).log = [] :=
  List.filterMap_eq_nil_iff.mpr (mute s)

theorem Relays.none {x : Handler Effect Fault σ α} (mute : Mute x) (noThrow : NoThrow x) (s : σ) :
    Relays env x s none where
  sent := by simp [mute.messages s]
  throws := by
    constructor
    · rintro ⟨e, fault, exception⟩
      have silent := noThrow s e fault
      rw [silent] at exception
      exact absurd exception (by decide)
    · rintro ⟨some, _⟩
      exact absurd some (by decide)

/-- A first part that sends nothing and ends leaves the relaying to the rest. -/
theorem Relays.bind {x : Handler Effect Fault σ α} {f : α → Handler Effect Fault σ β} {s t : σ} {a : α}
    {log : List Effect} {m : Option RspMessage} (first : x s = ⟨log, t, .ok a⟩)
    (mute : MFutures.messages log = []) (rest : Relays env (f a) t m) : Relays env (x >>= f) s m := by
  have run : (x >>= f) s = ⟨log ++ (f a t).log, (f a t).state, (f a t).val⟩ := by
    rw [bind_run, first, andThen_ok]
  refine ⟨?_, ?_⟩
  · rw [run, messages_append, mute, List.nil_append, rest.sent]
  · rw [run]
    exact rest.throws

/-- What follows a send keeps to itself. -/
theorem Relays.before {x : Handler Effect Fault σ α} {f : α → Handler Effect Fault σ β} {s : σ}
    {m : Option RspMessage} (first : Relays env x s m) (mute : ∀ a, Mute (f a))
    (noThrow : ∀ a, NoThrow (f a)) : Relays env (x >>= f) s m := by
  rcases run : x s with ⟨log, t, e | a⟩
  · have stopped : (x >>= f) s = ⟨log, t, .error e⟩ := by rw [bind_run, run, andThen_error]
    refine ⟨?_, ?_⟩
    · rw [stopped, ← first.sent, run]
    · rw [stopped, ← first.throws, run]
      simp [Throws]
  · have went : (x >>= f) s = ⟨log ++ (f a t).log, (f a t).state, (f a t).val⟩ := by
      rw [bind_run, run, andThen_ok]
    refine ⟨?_, ?_⟩
    · rw [went, messages_append, (mute a).messages, List.append_nil, ← first.sent, run]
    · rw [went, ← first.throws, run]
      constructor
      · rintro ⟨e, fault, exception⟩
        have silent := noThrow a t e fault
        rw [silent] at exception
        exact absurd exception (by decide)
      · rintro ⟨e, fault, _⟩
        cases fault

/-- A send with an error code sends the message or complains, and throws nothing. -/
theorem sendEc_run {c hdl : Option Nat} {k l : Nat} (client : c = some k) (handle : hdl = some l)
    (complaint : String) (m : RspMessage) (s : σ) : sendEc env complaint c hdl m s =
      ⟨[if env.sendOk then .send k l m else .out (complaint ++ env.ecMessage)], s, .ok ()⟩ := by
  subst client handle
  cases ok : env.sendOk <;> simp [sendEc, known, bind_run, ok, cout]

theorem cout_mute (line : String) : Mute (cout line : Handler Effect Fault σ Unit) := .emit rfl

theorem cerr_mute (line : String) : Mute (cerr line : Handler Effect Fault σ Unit) := .emit rfl

theorem known_emits {P : Effect → Prop} (p : Option α) : Emits P (known p : Handler Effect Fault σ α) := by
  cases p
  · exact .abort _
  · exact .pure _

theorem known_noThrow (p : Option α) : NoThrow (known p : Handler Effect Fault σ α) := by
  cases p
  · exact .abort rfl
  · exact .pure _

theorem deref_emits {P : Effect → Prop} (p : Option α) : Emits P (deref p : Handler Effect Fault σ α) := by
  cases p
  · exact .abort _
  · exact .pure _

theorem deref_noThrow (p : Option α) : NoThrow (deref p : Handler Effect Fault σ α) := by
  cases p
  · exact .abort rfl
  · exact .pure _

theorem Lib.strcpy_noThrow (lib : Lib) (array : CtpArray) (s : String) :
    NoThrow (ofExcept (lib.strcpy array s) : Handler Effect Fault σ String) := by
  refine .ofExcept fun e fault => ?_
  unfold Lib.strcpy at fault
  split at fault
  · cases fault
  · cases fault
    rfl

theorem send_relays {c hdl : Option Nat} {k l : Nat} (client : c = some k) (handle : hdl = some l)
    (m : RspMessage) (s : σ) : Relays env (send env c hdl m) s (some m) := by
  subst client handle
  cases ok : env.sendOk
  · refine ⟨by simp [send, known, bind_run, ok], ⟨fun _ => ⟨rfl, ok⟩, fun _ => ?_⟩⟩
    exact ⟨.sendError, by simp [send, known, bind_run, ok], rfl⟩
  · refine ⟨by simp [send, known, bind_run, ok], ⟨?_, fun bad => by simp [ok] at bad⟩⟩
    rintro ⟨e, fault, _⟩
    simp [send, known, bind_run, ok] at fault

theorem deref_relays {γ : Type} {p : Option γ} {f : γ → Handler Effect Fault σ β} {s : σ}
    {m : γ → RspMessage} (rest : ∀ a, p = some a → Relays env (f a) s (some (m a))) :
    Relays env (deref p >>= f) s (p.map m) := by
  cases p with
  | none =>
    refine ⟨by simp [deref, bind_run], ⟨?_, fun bad => by simp at bad⟩⟩
    rintro ⟨e, fault, exception⟩
    have null : Fault.nullPointer = e := by simpa [deref, bind_run] using fault
    subst null
    exact absurd exception (by decide)
  | some a => exact .bind (pure_run a s) rfl (rest a rfl)

end relays

/-- The type of the message a callback has for the server, where it has one. -/
def TraderCallback.rspType : TraderCallback → String
  | .onFrontDisconnected _ => "OnFrontDisconnected"
  | .onRspUserLogin _ _ _ _ => "OnRspUserLogin"
  | .onRspSettlementInfoConfirm _ _ _ _ => "OnRspSettlementInfoConfirm"
  | .onRspQryInstrument _ _ _ _ => "OnRspQryInstrument"
  | .onRspQryTradingAccount _ _ _ _ => "OnRspQryTradingAccount"
  | .onRspQryInvestorPosition _ _ _ _ => "OnRspQryInvestorPosition"
  | .onRspOrderInsert _ _ _ => "OnRspOrderInsert"
  | .onRspError _ _ _ => "OnRspError"
  | .onRtnOrder _ => "OnRtnOrder"
  | .onRtnTrade _ => "OnRtnTrade"
  | .onFrontConnected => ""
  | .onHeartBeatWarning _ => ""
  | .onRspOrderAction _ _ _ => ""

def MdCallback.rspType : MdCallback → String
  | .onRspUserLogin _ _ _ _ => "MdOnRspUserLogin"
  | .onRtnDepthMarketData _ => "OnRtnDepthMarketData"
  | _ => ""

namespace CTraderSpi
variable (lib : Lib) (env : Env)

/-- The message a callback hands to a send without an error code, if it gets there. -/
def relayed (s : CTraderSpi) : TraderCallback → Option RspMessage
  | .onFrontDisconnected nReason => s.investorID.map fun investorID => {
      rspArgs := .objectValue [("InvestorID", .stringValue investorID), ("Reason", .intValue nReason)]
      uniqueID := 0, rspType := "OnFrontDisconnected", isError := "false" }
  | .onRspUserLogin p info n last =>
    if last && !isError info && s.loginStatus.writable then
      p.map fun p => ⟨p.rspArgs, n, "OnRspUserLogin", "false"⟩
    else none
  | .onRspSettlementInfoConfirm p info n last =>
    if last && !isError info then
      p.map fun p => ⟨p.rspArgs, n, "OnRspSettlementInfoConfirm", "false"⟩
    else none
  | .onRspQryInstrument p _ n _ =>
    p.map fun p => ⟨p.rspArgs lib.gbktoutf8, n, "OnRspQryInstrument", "false"⟩
  | .onRspQryTradingAccount p info n _ =>
    if isError info then none else p.map fun p => ⟨p.rspArgs, n, "OnRspQryTradingAccount", "true"⟩
  | .onRspQryInvestorPosition p _ n _ =>
    p.map fun p => ⟨p.rspArgs, n, "OnRspQryInvestorPosition", "true"⟩
  | .onRspOrderInsert info n _ =>
    if isError info then info.map fun info => ⟨errorArgs lib info, n, "OnRspOrderInsert", "true"⟩ else none
  | .onRspError info n _ =>
    if isError info then info.map fun info => ⟨errorArgs lib info, n, "OnRspError", "true"⟩ else none
  | .onRtnOrder p => p.map fun p => ⟨p.rspArgs lib.gbktoutf8, p.requestID, "OnRtnOrder", "false"⟩
  | .onRtnTrade p => p.map fun p => ⟨p.rspArgs, 0, "OnRtnTrade", "false"⟩
  | .onFrontConnected => none
  | .onHeartBeatWarning _ => none
  | .onRspOrderAction _ _ _ => none

/-- The lines `isErrorRspInfo` prints. -/
def errorLines (info : Option CThostFtdcRspInfoField) : List Effect :=
  match info with
  | some i =>
    if i.errorID = 0 then []
    else [.out (env.now ++ "ErrorID=" ++ toString i.errorID ++ ", ErrorMsg=" ++ lib.gbktoutf8 i.errorMsg)]
  | none => []

theorem isErrorRspInfo_run (info : Option CThostFtdcRspInfoField) (x : TraderCtx) :
    isErrorRspInfo lib env info x = ⟨errorLines lib env info, x, .ok (isError info)⟩ := by
  cases info with
  | none => rfl
  | some i =>
    by_cases zero : i.errorID = 0
    · simp [isErrorRspInfo, errorLines, isError, zero]
    · simp [isErrorRspInfo, errorLines, isError, zero, cout, bind_run]

theorem errorLines_messages (info : Option CThostFtdcRspInfoField) :
    messages (errorLines lib env info) = [] := by
  cases info with
  | none => rfl
  | some i => unfold errorLines; dsimp only; split <;> rfl

/-- The line `getJsonStr` prints. -/
def jsonLines (m : RspMessage) : List Effect :=
  if m.rspType = "onRspConnect" then [] else [.out (env.now ++ "Json=" ++ lib.writeString m.root ++ "'")]

theorem getJsonStr_run (m : RspMessage) (x : TraderCtx) :
    getJsonStr lib env m x = ⟨jsonLines lib env m, x, .ok ()⟩ := by
  unfold getJsonStr jsonLines
  split <;> rfl

theorem jsonLines_messages (m : RspMessage) : messages (jsonLines lib env m) = [] := by
  unfold jsonLines
  split <;> rfl

variable {lib env}

/-- The session has been told its websocket connection. -/
def Linked (s : CTraderSpi) : Prop := ∃ c hdl, s.mClient = some c ∧ s.mHdl = some hdl

theorem relay_relays {x : TraderCtx} (linked : x.self.Linked) (m : RspMessage) :
    Relays env (relay lib env m) x (some m) := by
  obtain ⟨c, hdl, client, handle⟩ := linked
  refine .bind (getJsonStr_run lib env m x) (jsonLines_messages lib env m) ?_
  exact .bind (get_run x) rfl (send_relays client handle m x)

theorem map_rspType {A : Type} {p : Option A} {f : A → RspMessage} {m : RspMessage} {type : String}
    (has : p.map f = some m) (all : ∀ a, (f a).rspType = type) : m.rspType = type := by
  obtain ⟨a, _, same⟩ := Option.map_eq_some_iff.mp has
  rw [← same]
  exact all a

theorem relayed_rspType {s : CTraderSpi} {cb : TraderCallback} {m : RspMessage}
    (has : relayed lib s cb = some m) : m.rspType = cb.rspType := by
  cases cb with
  | onFrontDisconnected nReason => exact map_rspType has fun _ => rfl
  | onRspUserLogin p info n last =>
    simp only [relayed] at has
    split at has
    · exact map_rspType has fun _ => rfl
    · cases has
  | onRspSettlementInfoConfirm p info n last =>
    simp only [relayed] at has
    split at has
    · exact map_rspType has fun _ => rfl
    · cases has
  | onRspQryInstrument p info n last => exact map_rspType has fun _ => rfl
  | onRspQryTradingAccount p info n last =>
    simp only [relayed] at has
    split at has
    · cases has
    · exact map_rspType has fun _ => rfl
  | onRspQryInvestorPosition p info n last => exact map_rspType has fun _ => rfl
  | onRspOrderInsert info n last =>
    simp only [relayed] at has
    split at has
    · exact map_rspType has fun _ => rfl
    · cases has
  | onRspError info n last =>
    simp only [relayed] at has
    split at has
    · exact map_rspType has fun _ => rfl
    · cases has
  | onRtnOrder p => exact map_rspType has fun _ => rfl
  | onRtnTrade p => exact map_rspType has fun _ => rfl
  | onFrontConnected => cases has
  | onHeartBeatWarning nTimeLapse => cases has
  | onRspOrderAction info n last => cases has

/-- Whether a callback gets to a send without an error code. -/
def reachesSend (s : CTraderSpi) : TraderCallback → Bool
  | .onFrontDisconnected _ => true
  | .onRspUserLogin p info _ last => last && !isError info && s.loginStatus.writable && p.isSome
  | .onRspSettlementInfoConfirm p info _ last => last && !isError info && p.isSome
  | .onRspQryInstrument p _ _ _ => p.isSome
  | .onRspQryTradingAccount p info _ _ => !isError info && p.isSome
  | .onRspQryInvestorPosition p _ _ _ => p.isSome
  | .onRspOrderInsert info _ _ => isError info
  | .onRspError info _ _ => isError info
  | .onRtnOrder p => p.isSome
  | .onRtnTrade p => p.isSome
  | .onFrontConnected => false
  | .onHeartBeatWarning _ => false
  | .onRspOrderAction _ _ _ => false

theorem relayed_isSome {s : CTraderSpi} (investor : s.investorID.isSome = true) (cb : TraderCallback) :
    (relayed lib s cb).isSome = s.reachesSend cb := by
  have error : ∀ info : Option CThostFtdcRspInfoField, isError info = true → info.isSome = true := by
    intro info bad
    cases info with
    | none => cases bad
    | some => rfl
  cases cb with
  | onFrontDisconnected nReason => simpa [relayed, reachesSend] using investor
  | onRspUserLogin p info n last =>
    cases last <;> cases bad : isError info <;> cases writable : s.loginStatus.writable <;>
      simp [relayed, reachesSend, bad, writable]
  | onRspSettlementInfoConfirm p info n last =>
    cases last <;> cases bad : isError info <;> simp [relayed, reachesSend, bad]
  | onRspQryInstrument p info n last => simp [relayed, reachesSend]
  | onRspQryTradingAccount p info n last => cases bad : isError info <;> simp [relayed, reachesSend, bad]
  | onRspQryInvestorPosition p info n last => simp [relayed, reachesSend]
  | onRspOrderInsert info n last =>
    cases bad : isError info <;> simp [relayed, reachesSend, bad]
    exact error info bad
  | onRspError info n last =>
    cases bad : isError info <;> simp [relayed, reachesSend, bad]
    exact error info bad
  | onRtnOrder p => simp [relayed, reachesSend]
  | onRtnTrade p => simp [relayed, reachesSend]
  | onFrontConnected => rfl
  | onHeartBeatWarning nTimeLapse => rfl
  | onRspOrderAction info n last => rfl

theorem reqUserLogin_mute (loginID : Int) : Mute (reqUserLogin lib env loginID) :=
  .bind .get fun _ => .bind (known_emits _) fun _ => .bind (.ofExcept _) fun _ =>
    .bind (known_emits _) fun _ => .bind (.ofExcept _) fun _ => .bind (known_emits _) fun _ =>
    .bind (.ofExcept _) fun _ => .bind .get fun _ => .bind (.emit rfl) fun _ => cout_mute _

theorem reqUserLogin_noThrow (loginID : Int) : NoThrow (reqUserLogin lib env loginID) :=
  .bind .get fun _ => .bind (known_noThrow _) fun _ => .bind (lib.strcpy_noThrow _ _) fun _ =>
    .bind (known_noThrow _) fun _ => .bind (lib.strcpy_noThrow _ _) fun _ => .bind (known_noThrow _) fun _ =>
    .bind (lib.strcpy_noThrow _ _) fun _ => .bind .get fun _ => .bind (.emit _) fun _ => .emit _

theorem credentials_emits {P : Effect → Prop} : Emits P (credentials lib) :=
  .bind .get fun _ => .bind (known_emits _) fun _ => .bind (.ofExcept _) fun _ => .bind (known_emits _) fun _ =>
    .bind (.ofExcept _) fun _ => .pure _

theorem request_mute (req : Request) (line : String) : Mute (request env req line) :=
  .bind .get fun _ => .bind (.emit rfl) fun _ => cout_mute _

theorem nextRequestID_mute : Mute nextRequestID := .bind (.modify _) fun _ => .bind .get fun _ => .pure _

theorem reqSettlementInfoConfirm_mute (root : Value) : Mute (reqSettlementInfoConfirm lib env root) :=
  .bind credentials_emits fun _ => .bind (.ofExcept _) fun _ => request_mute _ _

theorem reqQryInstrument_mute : Mute (reqQryInstrument env) :=
  .bind nextRequestID_mute fun _ => request_mute _ _

theorem reqQryTradingAccount_mute (root : Value) : Mute (reqQryTradingAccount lib env root) :=
  .bind credentials_emits fun _ => .bind (.ofExcept _) fun _ => request_mute _ _

theorem reqQryInvestorPosition_mute (root : Value) : Mute (reqQryInvestorPosition lib env root) :=
  .bind credentials_emits fun _ => .bind (.ofExcept _) fun _ => .bind (.ofExcept _) fun _ => request_mute _ _

theorem reqOrderInsert_mute (root : Value) : Mute (reqOrderInsert lib env root) :=
  .bind credentials_emits fun _ => .bind (.ofExcept _) fun _ => .bind (.ofExcept _) fun _ => request_mute _ _

theorem reqOrderAction_mute (root : Value) : Mute (reqOrderAction lib env root) :=
  .bind credentials_emits fun _ => .bind (.ofExcept _) fun _ => .bind nextRequestID_mute fun _ =>
    request_mute _ _

theorem strcpyStatus_mute (status : String) : Mute (strcpyStatus status) := by
  refine .bind .get fun x => ?_
  split
  · exact .modify _
  · exact .abort _

theorem strcpyStatus_noThrow (status : String) : NoThrow (strcpyStatus status) := by
  refine .bind .get fun x => ?_
  split
  · exact .modify _
  · exact .abort rfl

/-- A callback that relays an error. -/
theorem error_relays {x : TraderCtx} (linked : x.self.Linked) (info : Option CThostFtdcRspInfoField)
    (m : CThostFtdcRspInfoField → RspMessage) :
    Relays env (do
      if ← isErrorRspInfo lib env info then
        let info ← deref info
        relay lib env (m info)
      else pure ()) x (if isError info then info.map m else none) := by
  refine .bind (isErrorRspInfo_run lib env info x) (errorLines_messages lib env info) ?_
  cases bad : isError info
  · exact .none (.pure _) (.pure _) x
  · exact deref_relays fun _ _ => relay_relays linked _

/-- A callback that relays a record unless it reports an error. -/
theorem record_relays (lib : Lib) (env : Env) {A : Type} {x : TraderCtx} (linked : x.self.Linked)
    (info : Option CThostFtdcRspInfoField) (p : Option A) (m : A → RspMessage) :
    Relays env (do
      if ← isErrorRspInfo lib env info then pure () else
        let p ← deref p
        relay lib env (m p)) x (if isError info then none else p.map m) := by
  refine .bind (isErrorRspInfo_run lib env info x) (errorLines_messages lib env info) ?_
  cases bad : isError info
  · exact deref_relays fun _ _ => relay_relays linked _
  · exact .none (.pure _) (.pure _) x

theorem onRspUserLogin_relays {x : TraderCtx} (linked : x.self.Linked)
    (p : Option CThostFtdcRspUserLoginField) (info : Option CThostFtdcRspInfoField) (n : Int) (last : Bool) :
    Relays env (onRspUserLogin lib env p info n last) x
      (relayed lib x.self (.onRspUserLogin p info n last)) := by
  refine .bind (x := cout _) rfl rfl ?_
  cases last with
  | false => exact .none (.pure _) (.pure _) x
  | true =>
    refine .bind (isErrorRspInfo_run lib env info x) (errorLines_messages lib env info) ?_
    cases bad : isError info with
    | true =>
      simp only [relayed, bad]
      exact .none (.pure _) (.pure _) x
    | false =>
      cases writable : x.self.loginStatus.writable with
      | false =>
        simp only [relayed, bad, writable]
        refine ⟨by simp [strcpyStatus, bind_run, writable], ⟨?_, fun bad => by simp at bad⟩⟩
        rintro ⟨e, fault, exception⟩
        have readOnly : Fault.readOnly = e := by simpa [strcpyStatus, bind_run, writable] using fault
        subst readOnly
        exact absurd exception (by decide)
      | true =>
        simp only [relayed, bad, writable]
        have copied : strcpyStatus "Y" x =
            ⟨[], { x with self := { x.self with loginStatus := ⟨"Y", true⟩ } }, .ok ()⟩ := by
          simp [strcpyStatus, bind_run, writable]
        refine .bind copied rfl ?_
        refine deref_relays fun a _ => .bind (x := modify _) rfl rfl ?_
        refine relay_relays ?_ _
        exact linked

theorem onFrontDisconnected_relays {x : TraderCtx} (linked : x.self.Linked) (nReason : Int) :
    Relays env (onFrontDisconnected lib env nReason) x (relayed lib x.self (.onFrontDisconnected nReason)) := by
  refine .bind (x := cout _) rfl rfl ?_
  refine .bind (get_run x) rfl ?_
  cases known : x.self.investorID with
  | none =>
    simp only [relayed, known]
    refine ⟨by simp [MFutures.known, bind_run], ⟨?_, fun bad => by simp at bad⟩⟩
    rintro ⟨e, fault, exception⟩
    have wild : Fault.wildPointer = e := by simpa [MFutures.known, bind_run] using fault
    subst wild
    exact absurd exception (by decide)
  | some investorID =>
    simp only [relayed, known]
    refine .bind (pure_run investorID x) rfl ?_
    exact .before (relay_relays linked _) (fun _ => strcpyStatus_mute _) fun _ => strcpyStatus_noThrow _

/-- Every callback hands at most one message to a send that may throw. -/
theorem callback_relays (lib : Lib) (env : Env) {x : TraderCtx} (linked : x.self.Linked) (cb : TraderCallback) :
    Relays env (callback lib env cb) x (relayed lib x.self cb) := by
  cases cb with
  | onFrontConnected =>
    refine .none ?_ ?_ x
    · exact .bind (cout_mute _) fun _ => .bind (.modify _) fun _ => .bind .get fun _ =>
        .bind (known_emits _) fun _ => reqUserLogin_mute _
    · exact .bind (.emit _) fun _ => .bind (.modify _) fun _ => .bind .get fun _ =>
        .bind (known_noThrow _) fun _ => reqUserLogin_noThrow _
  | onFrontDisconnected nReason => exact onFrontDisconnected_relays linked nReason
  | onHeartBeatWarning nTimeLapse => exact .none (cout_mute _) (.emit _) x
  | onRspUserLogin p info n last => exact onRspUserLogin_relays linked p info n last
  | onRspSettlementInfoConfirm p info n last =>
    refine .bind (x := cout _) rfl rfl ?_
    cases last with
    | false => exact .none (.pure _) (.pure _) x
    | true =>
      have record := record_relays lib env linked info p
        fun p => ⟨p.rspArgs, n, "OnRspSettlementInfoConfirm", "false"⟩
      cases bad : isError info <;> simpa [relayed, bad] using record
  | onRspQryInstrument p info n last => exact deref_relays fun _ _ => relay_relays linked _
  | onRspQryTradingAccount p info n last =>
    exact .bind (x := cout _) rfl rfl (record_relays lib env linked info p _)
  | onRspQryInvestorPosition p info n last =>
    refine .bind (x := cout _) rfl rfl ?_
    cases p with
    | none => exact .none (.pure _) (.pure _) x
    | some p => exact relay_relays linked _
  | onRspOrderInsert info n last => exact .bind (x := cout _) rfl rfl (error_relays linked info _)
  | onRspOrderAction info n last =>
    refine .bind (x := cout _) rfl rfl ?_
    refine .bind (isErrorRspInfo_run lib env info x) (errorLines_messages lib env info) ?_
    exact .none (.pure _) (.pure _) x
  | onRspError info n last => exact .bind (x := cerr _) rfl rfl (error_relays linked info _)
  | onRtnOrder p => exact deref_relays fun _ _ => .bind (x := cout _) rfl rfl (relay_relays linked _)
  | onRtnTrade p => exact .bind (x := cout _) rfl rfl (deref_relays fun _ _ => relay_relays linked _)

/-- The status `onRspConnect` reports: an empty one is filled in. -/
def filled (s : CTraderSpi) : CTraderSpi :=
  if s.loginStatus.text.length = 0 then { s with loginStatus := ⟨"N", true⟩ } else s

theorem filled_loginID (s : CTraderSpi) : s.filled.loginID = s.loginID := by
  unfold filled
  split <;> rfl

/-- The reply to `OnConnect`. -/
def connectReply (s : CTraderSpi) : RspMessage where
  rspArgs := .objectValue [("loginStatus", .stringValue s.filled.loginStatus.text)]
  uniqueID := 0
  rspType := "onRspConnect"
  isError := "false"

theorem onRspConnect_run (lib : Lib) (env : Env) {x : TraderCtx} (linked : x.self.Linked) : ∃ c hdl,
    onRspConnect lib env x = ⟨[if env.sendOk then .send c hdl x.self.connectReply
      else .out (env.now ++ "onRspConnect Echo failed because: " ++ env.ecMessage)],
      { x with self := x.self.filled }, .ok ()⟩ := by
  obtain ⟨c, hdl, client, handle⟩ := linked
  have filled : fillStatus x = ⟨[], { x with self := x.self.filled }, .ok ()⟩ := by
    by_cases empty : x.self.loginStatus.text.length = 0
    · have text : x.self.loginStatus.text = "" := String.length_eq_zero_iff.mp empty
      simp [fillStatus, bind_run, CTraderSpi.filled, text, newStatus]
    · have text : x.self.loginStatus.text ≠ "" := fun none => empty (String.length_eq_zero_iff.mpr none)
      simp [fillStatus, bind_run, CTraderSpi.filled, text]
  have still : x.self.filled.mClient = some c ∧ x.self.filled.mHdl = some hdl := by
    unfold CTraderSpi.filled
    split
    · exact ⟨client, handle⟩
    · exact ⟨client, handle⟩
  refine ⟨c, hdl, ?_⟩
  simp [onRspConnect, bind_run, filled, getJsonStr_run, jsonLines, sendEc_run still.1 still.2, connectReply]

/-- The SPI after a callback, as long as sends succeed: the login status follows
the front and the login responses, and a login response also sets the session
parameters. -/
def after (s : CTraderSpi) : TraderCallback → CTraderSpi
  | .onFrontConnected => { s with loginStatus := ⟨"N", true⟩ }
  | .onFrontDisconnected _ => if s.loginStatus.writable then { s with loginStatus := ⟨"N", true⟩ } else s
  | .onRspUserLogin p info _ last =>
    if last && !isError info && s.loginStatus.writable then
      match p with
      | some p => { s with
          loginStatus := ⟨"Y", true⟩, frontID := some p.frontID, sessionID := some p.sessionID
          orderRef := some p.maxOrderRef }
      | none => { s with loginStatus := ⟨"Y", true⟩ }
    else s
  | _ => s

theorem after_loginID (s : CTraderSpi) (cb : TraderCallback) : (s.after cb).loginID = s.loginID := by
  cases cb with
  | onFrontDisconnected nReason =>
    unfold after
    dsimp only
    split <;> rfl
  | onRspUserLogin record info n last =>
    unfold after
    dsimp only
    split
    · cases record <;> rfl
    · rfl
  | _ => rfl

theorem onFrontConnected_state (x : TraderCtx) :
    (onFrontConnected lib env x).state = { x with self := x.self.after .onFrontConnected } := by
  have kept := fun n y => reqUserLogin_keeps lib env n y
  simp only [id_eq] at kept
  cases loginID : x.self.loginID <;>
    simp [onFrontConnected, cout, bind_run, newStatus, after, known, loginID, kept]

theorem onRspUserLogin_state (x : TraderCtx) (p : Option CThostFtdcRspUserLoginField)
    (info : Option CThostFtdcRspInfoField) (n : Int) (last : Bool) :
    (onRspUserLogin lib env p info n last x).state =
      { x with self := x.self.after (.onRspUserLogin p info n last) } := by
  cases last with
  | false => simp [onRspUserLogin, cout, bind_run, after]
  | true =>
    cases bad : isError info with
    | true => simp [onRspUserLogin, cout, bind_run, isErrorRspInfo_run, bad, after]
    | false =>
      cases writable : x.self.loginStatus.writable with
      | false =>
        simp [onRspUserLogin, cout, bind_run, isErrorRspInfo_run, bad, after, strcpyStatus, writable]
      | true =>
        cases p with
        | none =>
          simp [onRspUserLogin, cout, bind_run, isErrorRspInfo_run, bad, after, strcpyStatus, writable, deref]
        | some p =>
          have kept := fun m y => relay_keeps lib env m y
          simp only [id_eq] at kept
          simp [onRspUserLogin, cout, bind_run, isErrorRspInfo_run, bad, after, strcpyStatus, writable, deref,
            kept]

theorem onFrontDisconnected_state {x : TraderCtx} (linked : x.self.Linked)
    (investor : x.self.investorID.isSome = true) (nReason : Int) :
    (onFrontDisconnected lib env nReason x).state = if env.sendOk then
      { x with self := x.self.after (.onFrontDisconnected nReason) } else x := by
  obtain ⟨investorID, known⟩ := Option.isSome_iff_exists.mp investor
  obtain ⟨c, hdl, client, handle⟩ := linked
  cases ok : env.sendOk
  · simp [onFrontDisconnected, cout, bind_run, MFutures.known, known, relay, getJsonStr_run, send, client,
      handle, ok]
  · cases writable : x.self.loginStatus.writable <;>
      simp [onFrontDisconnected, cout, bind_run, MFutures.known, known, relay, getJsonStr_run, send, client,
        handle, ok, strcpyStatus, after, writable]

theorem callback_state (lib : Lib) (env : Env) {x : TraderCtx} (linked : x.self.Linked)
    (investor : x.self.investorID.isSome = true) (cb : TraderCallback)
    (sends : env.sendOk = true ∨ ∀ nReason, cb ≠ .onFrontDisconnected nReason) :
    (callback lib env cb x).state = { x with self := x.self.after cb } := by
  cases cb with
  | onFrontConnected => exact onFrontConnected_state x
  | onFrontDisconnected nReason =>
    have ok : env.sendOk = true := sends.resolve_right fun other => other nReason rfl
    exact (onFrontDisconnected_state linked investor nReason).trans (if_pos ok)
  | onRspUserLogin p info n last => exact onRspUserLogin_state x p info n last
  | onHeartBeatWarning nTimeLapse => exact cout_keeps _ x
  | onRspSettlementInfoConfirm p info n last => exact onRspSettlementInfoConfirm_keeps lib env p info n last x
  | onRspQryInstrument p info n last => exact onRspQryInstrument_keeps lib env p n x
  | onRspQryTradingAccount p info n last => exact onRspQryTradingAccount_keeps lib env p info n x
  | onRspQryInvestorPosition p info n last => exact onRspQryInvestorPosition_keeps lib env p n x
  | onRspOrderInsert info n last => exact onRspOrderInsert_keeps lib env info n x
  | onRspOrderAction info n last => exact onRspOrderAction_keeps lib env info x
  | onRspError info n last => exact onRspError_keeps lib env info n x
  | onRtnOrder p => exact onRtnOrder_keeps lib env p x
  | onRtnTrade p => exact onRtnTrade_keeps lib env p x

end CTraderSpi

namespace CMdSpi
variable {lib : Lib} {env : Env}

/-- The message a callback hands to a send without an error code, if it gets there. -/
def relayed : MdCallback → Option RspMessage
  | .onRspUserLogin p _ n _ => p.map fun p => ⟨p.rspArgs, n, "MdOnRspUserLogin", "false"⟩
  | _ => none

/-- The session has been told its websocket connection. -/
def Linked (s : CMdSpi) : Prop := ∃ c hdl, s.mClient = some c ∧ s.mHdl = some hdl

theorem isErrorRspInfo_mute (info : Option CThostFtdcRspInfoField) : Mute (isErrorRspInfo info) := by
  cases info with
  | none => exact .pure _
  | some i =>
    unfold isErrorRspInfo
    dsimp only
    split
    · exact .pure _
    · exact .bind (cerr_mute _) fun _ => .pure _

theorem isErrorRspInfo_noThrow (info : Option CThostFtdcRspInfoField) : NoThrow (isErrorRspInfo info) := by
  cases info with
  | none => exact .pure _
  | some i =>
    unfold isErrorRspInfo
    dsimp only
    split
    · exact .pure _
    · exact .bind (.emit _) fun _ => .pure _

/-- Every callback but a quote hands at most one message to a send that may
throw, and relays nothing else. -/
theorem callback_relays (lib : Lib) (env : Env) {s : CMdSpi} (linked : s.Linked) (cb : MdCallback)
    (quote : ∀ p, cb ≠ .onRtnDepthMarketData p) : Relays env (callback lib env cb) s (relayed cb) := by
  cases cb with
  | onFrontConnected =>
    refine .none ?_ ?_ s
    · exact .bind .get fun _ => .bind (known_emits _) fun _ => .bind (.ofExcept _) fun _ =>
        .bind (known_emits _) fun _ => .bind (.ofExcept _) fun _ => .bind (known_emits _) fun _ =>
        .bind (.ofExcept _) fun _ => .bind (cout_mute _) fun _ => .bind (.modify _) fun _ => .bind .get fun _ =>
        .emit rfl
    · exact .bind .get fun _ => .bind (known_noThrow _) fun _ => .bind (lib.strcpy_noThrow _ _) fun _ =>
        .bind (known_noThrow _) fun _ => .bind (lib.strcpy_noThrow _ _) fun _ => .bind (known_noThrow _) fun _ =>
        .bind (lib.strcpy_noThrow _ _) fun _ => .bind (.emit _) fun _ => .bind (.modify _) fun _ =>
        .bind .get fun _ => .emit _
  | onFrontDisconnected nReason =>
    exact .none (.bind (cerr_mute _) fun _ => cerr_mute _) (.bind (.emit _) fun _ => .emit _) s
  | onHeartBeatWarning nTimeLapse =>
    exact .none (.bind (cerr_mute _) fun _ => cerr_mute _) (.bind (.emit _) fun _ => .emit _) s
  | onRspUserLogin p info n last =>
    obtain ⟨c, hdl, client, handle⟩ := linked
    exact deref_relays fun _ _ => .bind (get_run s) rfl (send_relays client handle _ s)
  | onRspError info n last =>
    refine .none ?_ ?_ s
    · exact .bind (cerr_mute _) fun _ => .bind (isErrorRspInfo_mute info) fun _ => .bind (cout_mute _) fun _ =>
        .bind (deref_emits _) fun _ => .bind (cout_mute _) fun _ => cout_mute _
    · exact .bind (.emit _) fun _ => .bind (isErrorRspInfo_noThrow info) fun _ => .bind (.emit _) fun _ =>
        .bind (deref_noThrow _) fun _ => .bind (.emit _) fun _ => .emit _
  | onRspSubMarketData => exact .none (.pure _) (.pure _) s
  | onRspUnSubMarketData => exact .none (cerr_mute _) (.emit _) s
  | onRtnDepthMarketData p => exact absurd rfl (quote p)

theorem mdSubscribeMarketData_mute (root : Value) : Mute (mdSubscribeMarketData lib env root) :=
  .bind (.ofExcept _) fun _ => .bind .get fun _ => .emit rfl

/-- A quote goes through a send with an error code. -/
theorem onRtnDepthMarketData_run (env : Env) {s : CMdSpi} {investorID : String} (linked : s.Linked)
    (known : s.investorID = some investorID) (p : Option CThostFtdcDepthMarketDataField) :
    ∃ c hdl, onRtnDepthMarketData env p s =
      match p with
      | some p => ⟨[if env.sendOk then .send c hdl ⟨p.rspArgs investorID, 0, "OnRtnDepthMarketData", "false"⟩
          else .out ("Echo failed because: " ++ env.ecMessage)], s, .ok ()⟩
      | none => ⟨[], s, .error .nullPointer⟩ := by
  obtain ⟨c, hdl, client, handle⟩ := linked
  refine ⟨c, hdl, ?_⟩
  cases p <;>
    simp [onRtnDepthMarketData, bind_run, MFutures.known, known, deref, sendEc_run client handle]

/-- Whether a callback gets to a send without an error code. -/
def reachesSend : MdCallback → Bool
  | .onRspUserLogin p _ _ _ => p.isSome
  | _ => false

/-- The SPI after a callback: only a login request moves its counter. -/
def after (lib : Lib) (s : CMdSpi) (cb : MdCallback) : CMdSpi :=
  match cb with
  | .onFrontConnected => (onFrontConnected lib s).state
  | _ => s

theorem callback_state (lib : Lib) (env : Env) (s : CMdSpi) (cb : MdCallback) :
    (callback lib env cb s).state = s.after lib cb := by
  cases cb with
  | onFrontConnected => rfl
  | onFrontDisconnected nReason => rfl
  | onHeartBeatWarning nTimeLapse => rfl
  | onRspUserLogin p info n last => exact onRspUserLogin_keeps env p n s
  | onRspError info n last => exact onRspError_keeps info n last s
  | onRspSubMarketData => rfl
  | onRspUnSubMarketData => rfl
  | onRtnDepthMarketData p => exact onRtnDepthMarketData_keeps env p s

end CMdSpi

end MFutures
