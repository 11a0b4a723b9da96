import MFutures.Session

namespace MFutures
open Handler

section primitives
variable {σ : Type} {α : Type}

theorem cout_keeps (line : String) : Keeps id (cout line : Handler Effect Fault σ Unit) := .emit _

theorem cerr_keeps (line : String) : Keeps id (cerr line : Handler Effect Fault σ Unit) := .emit _

theorem deref_keeps (p : Option α) : Keeps id (deref p : Handler Effect Fault σ α) := by
  cases p
  · exact .abort _
  · exact .pure _

theorem known_keeps (p : Option α) : Keeps id (known p : Handler Effect Fault σ α) := by
  cases p
  · exact .abort _
  · exact .pure _

theorem send_keeps (env : Env) (client hdl : Option Nat) (m : RspMessage) :
    Keeps id (send env client hdl m : Handler Effect Fault σ Unit) := by
  refine .bind (known_keeps _) fun c => ?_
  cases hdl with
  | none => exact .abort _
  | some h =>
    dsimp only
    split
    · exact .emit _
    · exact .abort _

theorem sendEc_keeps (env : Env) (complaint : String) (client hdl : Option Nat) (m : RspMessage) :
    Keeps id (sendEc env complaint client hdl m : Handler Effect Fault σ Unit) := by
  refine .bind (known_keeps _) fun c => ?_
  cases hdl with
  | none => exact .emit _
  | some h =>
    dsimp only
    split <;> exact .emit _

end primitives

/-- What a session is known by: its API, its websocket connection and the
credentials of its login message. -/
structure Identity where
  api : Nat
  client : Option Nat
  hdl : Option Nat
  brokerID : Option String
  investorID : Option String
  password : Option String

namespace CTraderSpi

def identity (s : CTraderSpi) : Identity :=
  ⟨s.tpUserApi, s.mClient, s.mHdl, s.brokerID, s.investorID, s.password⟩

variable (lib : Lib) (env : Env)

theorem getJsonStr_keeps (m : RspMessage) : Keeps id (getJsonStr lib env m) := by
  unfold getJsonStr
  split
  · exact .pure _
  · exact cout_keeps _

theorem relay_keeps (m : RspMessage) : Keeps id (relay lib env m) :=
  .bind (getJsonStr_keeps lib env m) fun _ => .bind .get fun _ => send_keeps _ _ _ _

theorem isErrorRspInfo_keeps (pRspInfo : Option CThostFtdcRspInfoField) :
    Keeps id (isErrorRspInfo lib env pRspInfo) := by
  cases pRspInfo with
  | none => exact .pure _
  | some info =>
    unfold isErrorRspInfo
    dsimp only
    split
    · exact .pure _
    · exact .bind (cout_keeps _) fun _ => .pure _

theorem request_keeps (req : Request) (line : String) : Keeps id (request env req line) :=
  .bind .get fun _ => .bind (.emit _) fun _ => cout_keeps _

theorem credentials_keeps : Keeps id (credentials lib) :=
  .bind .get fun _ => .bind (known_keeps _) fun _ => .bind (.ofExcept _) fun _ =>
    .bind (known_keeps _) fun _ => .bind (.ofExcept _) fun _ => .pure _

theorem reqUserLogin_keeps (loginID : Int) : Keeps id (reqUserLogin lib env loginID) :=
  .bind .get fun _ => .bind (known_keeps _) fun _ => .bind (.ofExcept _) fun _ =>
    .bind (known_keeps _) fun _ => .bind (.ofExcept _) fun _ => .bind (known_keeps _) fun _ =>
    .bind (.ofExcept _) fun _ => request_keeps env _ _

theorem newStatus_keeps (status : String) : Keeps (fun x => x.self.identity) (newStatus status) :=
  fun _ => rfl

theorem strcpyStatus_keeps (status : String) :
    Keeps (fun x => x.self.identity) (strcpyStatus status) := by
  refine .bind .get fun x => ?_
  split
  · exact fun _ => rfl
  · exact .abort _

theorem nextRequestID_keeps : Keeps TraderCtx.self nextRequestID :=
  .bind (fun _ => rfl) fun _ => .bind .get fun _ => .pure _

theorem onFrontConnected_keeps : Keeps (fun x => x.self.identity) (onFrontConnected lib env) :=
  .bind (cout_keeps _).weaken fun _ => .bind (newStatus_keeps _) fun _ => .bind .get fun _ =>
    .bind (known_keeps _).weaken fun _ => (reqUserLogin_keeps lib env _).weaken

theorem onRspConnect_keeps : Keeps (fun x => x.self.identity) (onRspConnect lib env) := by
  refine .bind (.bind .get fun _ => ?_) fun _ => .bind .get fun _ =>
    .bind (getJsonStr_keeps lib env _).weaken fun _ => (sendEc_keeps env _ _ _ _).weaken
  split
  · exact newStatus_keeps _
  · exact .pure _

theorem onRspUserLogin_keeps (p : Option CThostFtdcRspUserLoginField)
    (info : Option CThostFtdcRspInfoField) (n : Int) (last : Bool) :
    Keeps (fun x => x.self.identity) (onRspUserLogin lib env p info n last) := by
  refine .bind (cout_keeps _).weaken fun _ => ?_
  split
  · refine .bind (isErrorRspInfo_keeps lib env info).weaken fun bad => ?_
    split
    · exact .pure _
    · exact .bind (strcpyStatus_keeps _) fun _ => .bind (deref_keeps _).weaken fun _ =>
        .bind (fun _ => rfl) fun _ => (relay_keeps lib env _).weaken
  · exact .pure _

theorem onFrontDisconnected_keeps (nReason : Int) :
    Keeps (fun x => x.self.identity) (onFrontDisconnected lib env nReason) :=
  .bind (cout_keeps _).weaken fun _ => .bind .get fun _ => .bind (known_keeps _).weaken fun _ =>
    .bind (relay_keeps lib env _).weaken fun _ => strcpyStatus_keeps _

theorem onRspSettlementInfoConfirm_keeps (p : Option CThostFtdcSettlementInfoConfirmField)
    (info : Option CThostFtdcRspInfoField) (n : Int) (last : Bool) :
    Keeps id (onRspSettlementInfoConfirm lib env p info n last) := by
  refine .bind (cout_keeps _) fun _ => ?_
  split
  · refine .bind (isErrorRspInfo_keeps lib env info) fun bad => ?_
    split
    · exact .pure _
    · exact .bind (deref_keeps _) fun _ => relay_keeps lib env _
  · exact .pure _

theorem onRspQryInstrument_keeps (p : Option CThostFtdcInstrumentField) (n : Int) :
    Keeps id (onRspQryInstrument lib env p n) :=
  .bind (deref_keeps _) fun _ => relay_keeps lib env _

theorem onRspQryTradingAccount_keeps (p : Option CThostFtdcTradingAccountField)
    (info : Option CThostFtdcRspInfoField) (n : Int) :
    Keeps id (onRspQryTradingAccount lib env p info n) := by
  refine .bind (cout_keeps _) fun _ => .bind (isErrorRspInfo_keeps lib env info) fun bad => ?_
  split
  · exact .pure _
  · exact .bind (deref_keeps _) fun _ => relay_keeps lib env _

theorem onRspQryInvestorPosition_keeps (p : Option CThostFtdcInvestorPositionField) (n : Int) :
    Keeps id (onRspQryInvestorPosition lib env p n) := by
  refine .bind (cout_keeps _) fun _ => ?_
  cases p
  · exact .pure _
  · exact relay_keeps lib env _

theorem onRspOrderInsert_keeps (info : Option CThostFtdcRspInfoField) (n : Int) :
    Keeps id (onRspOrderInsert lib env info n) := by
  refine .bind (cout_keeps _) fun _ => .bind (isErrorRspInfo_keeps lib env info) fun bad => ?_
  split
  · exact .bind (deref_keeps _) fun _ => relay_keeps lib env _
  · exact .pure _

theorem onRspOrderAction_keeps (info : Option CThostFtdcRspInfoField) :
    Keeps id (onRspOrderAction lib env info) :=
  .bind (cout_keeps _) fun _ => .bind (isErrorRspInfo_keeps lib env info) fun _ => .pure _

theorem onRspError_keeps (info : Option CThostFtdcRspInfoField) (n : Int) :
    Keeps id (onRspError lib env info n) := by
  refine .bind (cerr_keeps _) fun _ => .bind (isErrorRspInfo_keeps lib env info) fun bad => ?_
  split
  · exact .bind (deref_keeps _) fun _ => relay_keeps lib env _
  · exact .pure _

theorem onRtnOrder_keeps (p : Option CThostFtdcOrderField) : Keeps id (onRtnOrder lib env p) :=
  .bind (deref_keeps _) fun _ => .bind (cout_keeps _) fun _ => relay_keeps lib env _

theorem onRtnTrade_keeps (p : Option CThostFtdcTradeField) : Keeps id (onRtnTrade lib env p) :=
  .bind (cout_keeps _) fun _ => .bind (deref_keeps _) fun _ => relay_keeps lib env _

/-- No callback changes what identifies the session of an SPI. -/
theorem callback_keeps (cb : TraderCallback) : Keeps (fun x => x.self.identity) (callback lib env cb) := by
  cases cb with
  | onFrontConnected => exact onFrontConnected_keeps lib env
  | onFrontDisconnected nReason => exact onFrontDisconnected_keeps lib env nReason
  | onHeartBeatWarning nTimeLapse => exact (cout_keeps _).weaken
  | onRspUserLogin p info n last => exact onRspUserLogin_keeps lib env p info n last
  | onRspSettlementInfoConfirm p info n last =>
    exact (onRspSettlementInfoConfirm_keeps lib env p info n last).weaken
  | onRspQryInstrument p info n last => exact (onRspQryInstrument_keeps lib env p n).weaken
  | onRspQryTradingAccount p info n last => exact (onRspQryTradingAccount_keeps lib env p info n).weaken
  | onRspQryInvestorPosition p info n last => exact (onRspQryInvestorPosition_keeps lib env p n).weaken
  | onRspOrderInsert info n last => exact (onRspOrderInsert_keeps lib env info n).weaken
  | onRspOrderAction info n last => exact (onRspOrderAction_keeps lib env info).weaken
  | onRspError info n last => exact (onRspError_keeps lib env info n).weaken
  | onRtnOrder p => exact (onRtnOrder_keeps lib env p).weaken
  | onRtnTrade p => exact (onRtnTrade_keeps lib env p).weaken

theorem reqSettlementInfoConfirm_keeps (root : Value) :
    Keeps id (reqSettlementInfoConfirm lib env root) :=
  .bind (credentials_keeps lib) fun _ => .bind (.ofExcept _) fun _ => request_keeps env _ _

theorem reqQryTradingAccount_keeps (root : Value) : Keeps id (reqQryTradingAccount lib env root) :=
  .bind (credentials_keeps lib) fun _ => .bind (.ofExcept _) fun _ => request_keeps env _ _

theorem reqQryInvestorPosition_keeps (root : Value) : Keeps id (reqQryInvestorPosition lib env root) :=
  .bind (credentials_keeps lib) fun _ => .bind (.ofExcept _) fun _ => .bind (.ofExcept _) fun _ =>
    request_keeps env _ _

theorem reqOrderInsert_keeps (root : Value) : Keeps id (reqOrderInsert lib env root) :=
  .bind (credentials_keeps lib) fun _ => .bind (.ofExcept _) fun _ => .bind (.ofExcept _) fun _ =>
    request_keeps env _ _

theorem reqQryInstrument_keeps : Keeps TraderCtx.self (reqQryInstrument env) :=
  .bind nextRequestID_keeps fun _ => (request_keeps env _ _).weaken

theorem reqOrderAction_keeps (root : Value) : Keeps TraderCtx.self (reqOrderAction lib env root) :=
  .bind (credentials_keeps lib).weaken fun _ => .bind (.ofExcept _) fun _ =>
    .bind nextRequestID_keeps fun _ => (request_keeps env _ _).weaken

end CTraderSpi

namespace CMdSpi

def identity (s : CMdSpi) : Identity :=
  ⟨s.mpUserApi, s.mClient, s.mHdl, s.brokerID, s.investorID, s.password⟩

variable (lib : Lib) (env : Env)

theorem isErrorRspInfo_keeps (pRspInfo : Option CThostFtdcRspInfoField) :
    Keeps id (isErrorRspInfo pRspInfo) := by
  cases pRspInfo with
  | none => exact .pure _
  | some info =>
    unfold isErrorRspInfo
    dsimp only
    split
    · exact .pure _
    · exact .bind (cerr_keeps _) fun _ => .pure _

theorem onFrontConnected_keeps : Keeps identity (onFrontConnected lib) :=
  .bind .get fun _ => .bind (known_keeps _).weaken fun _ => .bind (.ofExcept _) fun _ =>
    .bind (known_keeps _).weaken fun _ => .bind (.ofExcept _) fun _ =>
    .bind (known_keeps _).weaken fun _ => .bind (.ofExcept _) fun _ =>
    .bind (cout_keeps _).weaken fun _ => .bind (fun _ => rfl) fun _ => .bind .get fun _ => .emit _

theorem onRspUserLogin_keeps (p : Option CThostFtdcRspUserLoginField) (n : Int) :
    Keeps id (onRspUserLogin env p n) :=
  .bind (deref_keeps _) fun _ => .bind .get fun _ => send_keeps _ _ _ _

theorem onRspError_keeps (info : Option CThostFtdcRspInfoField) (n : Int) (last : Bool) :
    Keeps id (onRspError info n last) :=
  .bind (cerr_keeps _) fun _ => .bind (isErrorRspInfo_keeps info) fun _ =>
    .bind (cout_keeps _) fun _ => .bind (deref_keeps _) fun _ => .bind (cout_keeps _) fun _ =>
    cout_keeps _

theorem onRtnDepthMarketData_keeps (p : Option CThostFtdcDepthMarketDataField) :
    Keeps id (onRtnDepthMarketData env p) :=
  .bind .get fun _ => .bind (known_keeps _) fun _ => .bind (deref_keeps _) fun _ =>
    sendEc_keeps _ _ _ _ _

/-- No callback changes what identifies the session of an SPI. -/
theorem callback_keeps (cb : MdCallback) : Keeps identity (callback lib env cb) := by
  cases cb with
  | onFrontConnected => exact onFrontConnected_keeps lib
  | onFrontDisconnected nReason => exact .bind (cerr_keeps _).weaken fun _ => (cerr_keeps _).weaken
  | onHeartBeatWarning nTimeLapse => exact .bind (cerr_keeps _).weaken fun _ => (cerr_keeps _).weaken
  | onRspUserLogin p info n last => exact (onRspUserLogin_keeps env p n).weaken
  | onRspError info n last => exact (onRspError_keeps info n last).weaken
  | onRspSubMarketData => exact .pure _
  | onRspUnSubMarketData => exact (cerr_keeps _).weaken
  | onRtnDepthMarketData p => exact (onRtnDepthMarketData_keeps env p).weaken

theorem mdSubscribeMarketData_keeps (root : Value) : Keeps id (mdSubscribeMarketData lib env root) :=
  .bind (.ofExcept _) fun _ => .bind .get fun _ => .emit _

end CMdSpi

end MFutures
