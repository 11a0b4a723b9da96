import MFutures.Host

namespace MFutures
open Handler

/-- A `char*` member: the text it points to, and whether that may be written.
The default of `loginStatus` points to a literal. -/
structure CBuffer where
  text : String
  writable : Bool
  deriving DecidableEq

/-- The trader SPI. The constructor sets the API only; `none` is a member that
nothing has been stored in yet. -/
structure CTraderSpi where
  tpUserApi : Nat
  mClient : Option Nat := none
  mHdl : Option Nat := none
  brokerID : Option String := none
  investorID : Option String := none
  password : Option String := none
  frontID : Option Int := none
  sessionID : Option Int := none
  orderRef : Option String := none
  loginStatus : CBuffer := ⟨"N", false⟩
  loginID : Option Int := none
  deriving DecidableEq

/-- What a method of the trader SPI works on: the object and the file global
`iRequestID` of TraderSpi.cpp. -/
structure TraderCtx where
  self : CTraderSpi
  iRequestID : Int

abbrev TraderM := Handler Effect Fault TraderCtx

inductive TraderCallback
  | onFrontConnected
  | onFrontDisconnected (nReason : Int)
  | onHeartBeatWarning (nTimeLapse : Int)
  | onRspUserLogin (pRspUserLogin : Option CThostFtdcRspUserLoginField)
      (pRspInfo : Option CThostFtdcRspInfoField) (nRequestID : Int) (bIsLast : Bool)
  | onRspSettlementInfoConfirm (pSettlementInfoConfirm : Option CThostFtdcSettlementInfoConfirmField)
      (pRspInfo : Option CThostFtdcRspInfoField) (nRequestID : Int) (bIsLast : Bool)
  | onRspQryInstrument (pInstrument : Option CThostFtdcInstrumentField)
      (pRspInfo : Option CThostFtdcRspInfoField) (nRequestID : Int) (bIsLast : Bool)
  | onRspQryTradingAccount (pTradingAccount : Option CThostFtdcTradingAccountField)
      (pRspInfo : Option CThostFtdcRspInfoField) (nRequestID : Int) (bIsLast : Bool)
  | onRspQryInvestorPosition (pInvestorPosition : Option CThostFtdcInvestorPositionField)
      (pRspInfo : Option CThostFtdcRspInfoField) (nRequestID : Int) (bIsLast : Bool)
  | onRspOrderInsert (pRspInfo : Option CThostFtdcRspInfoField) (nRequestID : Int) (bIsLast : Bool)
  | onRspOrderAction (pRspInfo : Option CThostFtdcRspInfoField) (nRequestID : Int) (bIsLast : Bool)
  | onRspError (pRspInfo : Option CThostFtdcRspInfoField) (nRequestID : Int) (bIsLast : Bool)
  | onRtnOrder (pOrder : Option CThostFtdcOrderField)
  | onRtnTrade (pTrade : Option CThostFtdcTradeField)

namespace CTraderSpi

def setWebsocket (c hdl : Nat) : TraderM Unit :=
  modify fun x => { self := { x.self with mClient := some c, mHdl := some hdl }, iRequestID := 0 }

def setUserLoginInfo (id : Int) (brokerID investorID password : String) : TraderM Unit :=
  modify fun x => { x with self := { x.self with
    loginID := some id, brokerID := some brokerID, investorID := some investorID,
    password := some password } }

/-- `strcpy(loginStatus, status)` -/
def strcpyStatus (status : String) : TraderM Unit := do
  if (← get).self.loginStatus.writable then
    modify fun x => { x with self := { x.self with loginStatus := ⟨status, true⟩ } }
  else
    abort .readOnly

/-- `loginStatus = new char[2]; strcpy(loginStatus, status);` -/
def newStatus (status : String) : TraderM Unit :=
  modify fun x => { x with self := { x.self with loginStatus := ⟨status, true⟩ } }

/-- `++iRequestID` -/
def nextRequestID : TraderM Int := do
  modify fun x => { x with iRequestID := increment x.iRequestID }
  return (← get).iRequestID

variable (lib : Lib) (env : Env)

/-- The text of the message is printed, except for the reply to `OnConnect`. -/
def getJsonStr (m : RspMessage) : TraderM Unit :=
  if m.rspType = "onRspConnect" then pure ()
  else cout (env.now ++ "Json=" ++ lib.writeString m.root ++ "'")

/-- `m_client->send(m_hdl, getJsonStr(..).c_str(), text)` -/
def relay (m : RspMessage) : TraderM Unit := do
  getJsonStr lib env m
  let self := (← get).self
  send env self.mClient self.mHdl m

def isErrorRspInfo (pRspInfo : Option CThostFtdcRspInfoField) : TraderM Bool := do
  match pRspInfo with
  | some info =>
    if info.errorID = 0 then return false
    cout (env.now ++ "ErrorID=" ++ toString info.errorID ++ ", ErrorMsg=" ++ lib.gbktoutf8 info.errorMsg)
    return true
  | none => return false

def errorArgs (pRspInfo : CThostFtdcRspInfoField) : Value :=
  .objectValue [("ErrorMsg", .stringValue (lib.gbktoutf8 pRspInfo.errorMsg))]

/-- A call of the API, and the verdict printed after it. -/
def request (req : Request) (line : String) : TraderM Unit := do
  emit (.call (← get).self.tpUserApi (.request req))
  cout (env.now ++ line ++ verdict env.iResult)

/-- `strcpy` of BROKER_ID and INVESTOR_ID into a cleared request. -/
def credentials : TraderM (String × String) := do
  let self := (← get).self
  let brokerID ← known self.brokerID
  let brokerID ← ofExcept (lib.strcpy .brokerID brokerID)
  let investorID ← known self.investorID
  let investorID ← ofExcept (lib.strcpy .investorID investorID)
  return (brokerID, investorID)

def reqUserLogin (loginID : Int) : TraderM Unit := do
  let self := (← get).self
  let brokerID ← known self.brokerID
  let brokerID ← ofExcept (lib.strcpy .brokerID brokerID)
  let userID ← known self.investorID
  let userID ← ofExcept (lib.strcpy .userID userID)
  let password ← known self.password
  let password ← ofExcept (lib.strcpy .password password)
  request env (.reqUserLogin ⟨brokerID, userID, password⟩ loginID) ("ReqUserLogin: " ++ brokerID)

def onFrontConnected : TraderM Unit := do
  cout (env.now ++ "OnFrontConnected")
  newStatus "N"
  let loginID ← known (← get).self.loginID
  reqUserLogin lib env loginID

/-- `if (strlen(loginStatus) == 0)`, of `onRspConnect`. -/
def fillStatus : TraderM Unit := do
  if (← get).self.loginStatus.text.length = 0 then newStatus "N" else pure ()

/-- The catch clause around the send is dead: a send with an error code does
not throw. -/
def onRspConnect : TraderM Unit := do
  fillStatus
  let self := (← get).self
  let m : RspMessage := {
    rspArgs := .objectValue [("loginStatus", .stringValue self.loginStatus.text)]
    uniqueID := 0, rspType := "onRspConnect", isError := "false" }
  getJsonStr lib env m
  sendEc env (env.now ++ "onRspConnect Echo failed because: ") self.mClient self.mHdl m

def onRspUserLogin (pRspUserLogin : Option CThostFtdcRspUserLoginField)
    (pRspInfo : Option CThostFtdcRspInfoField) (nRequestID : Int) (bIsLast : Bool) : TraderM Unit := do
  cout (env.now ++ "--->>> OnRspUserLogin")
  if bIsLast then
    if ← isErrorRspInfo lib env pRspInfo then pure () else
      strcpyStatus "Y"
      let p ← deref pRspUserLogin
      modify fun x => { x with self := { x.self with
        frontID := some p.frontID, sessionID := some p.sessionID, orderRef := some p.maxOrderRef } }
      relay lib env ⟨p.rspArgs, nRequestID, "OnRspUserLogin", "false"⟩
  else pure ()

def reqSettlementInfoConfirm (root : Value) : TraderM Unit := do
  let (brokerID, investorID) ← credentials lib
  let nRequestID ← ofExcept (uniqueID root)
  request env (.reqSettlementInfoConfirm brokerID investorID nRequestID) "ReqSettlementInfoConfirm: "

def onRspSettlementInfoConfirm (pSettlementInfoConfirm : Option CThostFtdcSettlementInfoConfirmField)
    (pRspInfo : Option CThostFtdcRspInfoField) (nRequestID : Int) (bIsLast : Bool) : TraderM Unit := do
  cout "--->>> OnRspSettlementInfoConfirm"
  if bIsLast then
    if ← isErrorRspInfo lib env pRspInfo then pure () else
      let p ← deref pSettlementInfoConfirm
      relay lib env ⟨p.rspArgs, nRequestID, "OnRspSettlementInfoConfirm", "false"⟩
  else pure ()

/-- The request number is the bridge's own, not the UniqueID of the message. -/
def reqQryInstrument : TraderM Unit := do
  let nRequestID ← nextRequestID
  request env (.reqQryInstrument nRequestID) "ReqQryInstrument: "

def onRspQryInstrument (pInstrument : Option CThostFtdcInstrumentField) (nRequestID : Int) :
    TraderM Unit := do
  let p ← deref pInstrument
  relay lib env ⟨p.rspArgs lib.gbktoutf8, nRequestID, "OnRspQryInstrument", "false"⟩

def reqQryTradingAccount (root : Value) : TraderM Unit := do
  let (brokerID, investorID) ← credentials lib
  let nRequestID ← ofExcept (uniqueID root)
  request env (.reqQryTradingAccount brokerID investorID nRequestID) "ReqQryTradingAccount: "

def onRspQryTradingAccount (pTradingAccount : Option CThostFtdcTradingAccountField)
    (pRspInfo : Option CThostFtdcRspInfoField) (nRequestID : Int) : TraderM Unit := do
  cout (env.now ++ "OnRspQryTradingAccount")
  if ← isErrorRspInfo lib env pRspInfo then pure () else
    let p ← deref pTradingAccount
    relay lib env ⟨p.rspArgs, nRequestID, "OnRspQryTradingAccount", "true"⟩

/-- Without an instrument the cleared field stays empty. -/
def positionInstrument (root : Value) : Except Fault String := do
  if (← reqArg root "InstrumentID").isNull then return ""
  lib.strcpy .instrumentID (cStr (← lib.argString root "InstrumentID"))

def reqQryInvestorPosition (root : Value) : TraderM Unit := do
  let (brokerID, investorID) ← credentials lib
  let instrumentID ← ofExcept (positionInstrument lib root)
  let nRequestID ← ofExcept (uniqueID root)
  request env (.reqQryInvestorPosition brokerID investorID instrumentID nRequestID)
    ("ReqQryInvestorPosition: " ++ toString env.iResult)

def onRspQryInvestorPosition (pInvestorPosition : Option CThostFtdcInvestorPositionField)
    (nRequestID : Int) : TraderM Unit := do
  cout (env.now ++ "OnRspQryInvestorPosition:")
  match pInvestorPosition with
  | none => pure ()
  | some p => relay lib env ⟨p.rspArgs, nRequestID, "OnRspQryInvestorPosition", "true"⟩

/-- `s.c_str()[0]` -/
def firstChar (s : String) : Char := s.toList.headD '\x00'

/-- The order the message asks for, in the order the fields are filled in. -/
def inputOrder (root : Value) (brokerID investorID : String) :
    Except Fault CThostFtdcInputOrderField := do
  let orderRef ← lib.strcpy .orderRef (cStr (← lib.argString root "OrderRef"))
  let instrumentID ← lib.strcpy .instrumentID (cStr (← lib.argString root "InstrumentID"))
  let direction ← lib.argString root "Direction"
  let combOffsetFlag ← lib.argString root "CombOffsetFlag"
  let limitPrice ← (← reqArg root "LimitPrice").asDouble
  let volumeTotalOriginal ← (← reqArg root "VolumeTotalOriginal").asInt
  return {
    brokerID, investorID, orderRef, instrumentID
    orderPriceType := thostFtdcOptLimitPrice
    direction := firstChar direction
    combOffsetFlag := firstChar combOffsetFlag
    combHedgeFlag := thostFtdcHfSpeculation
    limitPrice, volumeTotalOriginal
    timeCondition := thostFtdcTcGFD
    volumeCondition := thostFtdcVcAV
    minVolume := 1
    contingentCondition := thostFtdcCcImmediately
    forceCloseReason := thostFtdcFccNotForceClose
    isAutoSuspend := 0
    userForceClose := 0 }

def reqOrderInsert (root : Value) : TraderM Unit := do
  let (brokerID, investorID) ← credentials lib
  let req ← ofExcept (inputOrder lib root brokerID investorID)
  let nRequestID ← ofExcept (uniqueID root)
  request env (.reqOrderInsert req nRequestID) ("ReqOrderInsert: " ++ toString nRequestID ++ ";xx=")

def onRspOrderInsert (pRspInfo : Option CThostFtdcRspInfoField) (nRequestID : Int) : TraderM Unit := do
  cout (env.now ++ "OnRspOrderInsert")
  if ← isErrorRspInfo lib env pRspInfo then
    let info ← deref pRspInfo
    relay lib env ⟨errorArgs lib info, nRequestID, "OnRspOrderInsert", "true"⟩
  else pure ()

/-- The cancel the message asks for, in the order the fields are filled in. -/
def orderAction (root : Value) (brokerID investorID : String) :
    Except Fault CThostFtdcInputOrderActionField := do
  let orderRef ← lib.strcpy .orderRef (cStr (← lib.argString root "OrderRef"))
  let instrumentID ← lib.strcpy .instrumentID (cStr (← lib.argString root "InstrumentID"))
  let frontID ← (← reqArg root "FrontID").asInt
  let sessionID ← (← reqArg root "SessionID").asInt
  return ⟨brokerID, investorID, orderRef, instrumentID, frontID, sessionID, thostFtdcAfDelete⟩

/-- The request number is the bridge's own, not the UniqueID of the message. -/
def reqOrderAction (root : Value) : TraderM Unit := do
  let (brokerID, investorID) ← credentials lib
  let req ← ofExcept (orderAction lib root brokerID investorID)
  let nRequestID ← nextRequestID
  request env (.reqOrderAction req nRequestID) "ReqOrderAction: "

def onRspOrderAction (pRspInfo : Option CThostFtdcRspInfoField) : TraderM Unit := do
  cout (env.now ++ "OnRspOrderAction")
  let _ ← isErrorRspInfo lib env pRspInfo

def onRtnOrder (pOrder : Option CThostFtdcOrderField) : TraderM Unit := do
  let p ← deref pOrder
  cout (env.now ++ "OnRtnOrder=" ++ toString p.requestID)
  relay lib env ⟨p.rspArgs lib.gbktoutf8, p.requestID, "OnRtnOrder", "false"⟩

def onRtnTrade (pTrade : Option CThostFtdcTradeField) : TraderM Unit := do
  cout (env.now ++ "OnRtnTrade")
  let p ← deref pTrade
  relay lib env ⟨p.rspArgs, 0, "OnRtnTrade", "false"⟩

def onFrontDisconnected (nReason : Int) : TraderM Unit := do
  cout (env.now ++ "OnFrontDisconnected:Reason = " ++ toString nReason)
  let investorID ← known (← get).self.investorID
  relay lib env {
    rspArgs := .objectValue [("InvestorID", .stringValue investorID), ("Reason", .intValue nReason)]
    uniqueID := 0, rspType := "OnFrontDisconnected", isError := "false" }
  strcpyStatus "N"

def onHeartBeatWarning (nTimeLapse : Int) : TraderM Unit :=
  cout (env.now ++ "OnHeartBeatWarning,nTimerLapse=" ++ toString nTimeLapse)

def onRspError (pRspInfo : Option CThostFtdcRspInfoField) (nRequestID : Int) : TraderM Unit := do
  cerr "--->>> OnRspError"
  if ← isErrorRspInfo lib env pRspInfo then
    let info ← deref pRspInfo
    relay lib env ⟨errorArgs lib info, nRequestID, "OnRspError", "true"⟩
  else pure ()

/-- The callback of the SPI that the API invokes. -/
def callback : TraderCallback → TraderM Unit
  | .onFrontConnected => onFrontConnected lib env
  | .onFrontDisconnected nReason => onFrontDisconnected lib env nReason
  | .onHeartBeatWarning nTimeLapse => onHeartBeatWarning env nTimeLapse
  | .onRspUserLogin p info n last => onRspUserLogin lib env p info n last
  | .onRspSettlementInfoConfirm p info n last => onRspSettlementInfoConfirm lib env p info n last
  | .onRspQryInstrument p _ n _ => onRspQryInstrument lib env p n
  | .onRspQryTradingAccount p info n _ => onRspQryTradingAccount lib env p info n
  | .onRspQryInvestorPosition p _ n _ => onRspQryInvestorPosition lib env p n
  | .onRspOrderInsert info n _ => onRspOrderInsert lib env info n
  | .onRspOrderAction info _ _ => onRspOrderAction lib env info
  | .onRspError info n _ => onRspError lib env info n
  | .onRtnOrder p => onRtnOrder lib env p
  | .onRtnTrade p => onRtnTrade lib env p

end CTraderSpi

end MFutures
