import MFutures.Host

namespace MFutures
open Handler

/-- The market-data SPI. The constructor sets the API only. It stores no login
number, and its own `iRequestID`, which nothing initialises, starts as whatever
the allocation holds. -/
structure CMdSpi where
  mpUserApi : Nat
  mClient : Option Nat := none
  mHdl : Option Nat := none
  brokerID : Option String := none
  investorID : Option String := none
  password : Option String := none
  iRequestID : Int
  deriving DecidableEq

abbrev MdM := Handler Effect Fault CMdSpi

inductive MdCallback
  | onFrontConnected
  | onFrontDisconnected (nReason : Int)
  | onHeartBeatWarning (nTimeLapse : Int)
  | onRspUserLogin (pRspUserLogin : Option CThostFtdcRspUserLoginField)
      (pRspInfo : Option CThostFtdcRspInfoField) (nRequestID : Int) (bIsLast : Bool)
  | onRspError (pRspInfo : Option CThostFtdcRspInfoField) (nRequestID : Int) (bIsLast : Bool)
  | onRspSubMarketData
  | onRspUnSubMarketData
  | onRtnDepthMarketData (pDepthMarketData : Option CThostFtdcDepthMarketDataField)

namespace CMdSpi

def setWebsocket (c hdl : Nat) : MdM Unit :=
  modify fun x => { x with mClient := some c, mHdl := some hdl }

/-- The login number is dropped. -/
def setUserLoginInfo (_loginID : Int) (brokerID investorID password : String) : MdM Unit :=
  modify fun x => { x with
    brokerID := some brokerID, investorID := some investorID, password := some password }

variable (lib : Lib) (env : Env)

/-- `m_client->send(m_hdl, getJsonStr(..).c_str(), text)` -/
def relay (m : RspMessage) : MdM Unit := do
  let self ← get
  send env self.mClient self.mHdl m

def isErrorRspInfo (pRspInfo : Option CThostFtdcRspInfoField) : MdM Bool := do
  match pRspInfo with
  | some info =>
    if info.errorID = 0 then return false
    cerr ("--->>> ErrorID=" ++ toString info.errorID ++ ", ErrorMsg=" ++ info.errorMsg)
    return true
  | none => return false

/-- An error is printed, and not relayed. -/
def onRspError (pRspInfo : Option CThostFtdcRspInfoField) (nRequestID : Int) (bIsLast : Bool) :
    MdM Unit := do
  cerr "--->>> OnRspError"
  let _ ← isErrorRspInfo pRspInfo
  cout "OnRspError:"
  let info ← deref pRspInfo
  cout ("ErrorCode=[" ++ toString info.errorID ++ "],     ErrorMsg=[" ++ info.errorMsg ++ "]")
  cout ("RequestID=[" ++ toString nRequestID ++ "], Chain=[" ++ (if bIsLast then "1" else "0") ++ "]")

def onFrontDisconnected (nReason : Int) : MdM Unit := do
  cerr "--->>> OnFrontDisconnected"
  cerr ("--->>> OnFrontDisconnected Reason = " ++ toString nReason)

def onHeartBeatWarning (nTimeLapse : Int) : MdM Unit := do
  cerr "--->>> OnHeartBeatWarning"
  cerr ("--->>> nTimerLapse = " ++ toString nTimeLapse)

/-- The login request is numbered by the counter of the object. -/
def onFrontConnected : MdM Unit := do
  let self ← get
  let brokerID ← known self.brokerID
  let brokerID ← ofExcept (lib.strcpy .brokerID brokerID)
  let userID ← known self.investorID
  let userID ← ofExcept (lib.strcpy .userID userID)
  let password ← known self.password
  let password ← ofExcept (lib.strcpy .password password)
  cout "OnFrontConnected."
  modify fun x => { x with iRequestID := increment x.iRequestID }
  let self ← get
  emit (.call self.mpUserApi (.request (.reqUserLogin ⟨brokerID, userID, password⟩ self.iRequestID)))

/-- Neither the error nor the end of the chain is looked at. -/
def onRspUserLogin (pRspUserLogin : Option CThostFtdcRspUserLoginField) (nRequestID : Int) :
    MdM Unit := do
  let p ← deref pRspUserLogin
  relay env ⟨p.rspArgs, nRequestID, "MdOnRspUserLogin", "false"⟩

/-- The name is taken from a temporary string that is gone when the API reads it. -/
def mdSubscribeMarketData (root : Value) : MdM Unit := do
  let _ ← ofExcept (lib.argString root "InstrumentID")
  emit (.call (← get).mpUserApi (.request (.subscribeMarketData env.dangling)))

def onRspSubMarketData : MdM Unit := pure ()

def onRspUnSubMarketData : MdM Unit := cerr "OnRspUnSubMarketData"

/-- The catch clause around the send is dead: a send with an error code does
not throw. -/
def onRtnDepthMarketData (pDepthMarketData : Option CThostFtdcDepthMarketDataField) : MdM Unit := do
  let self ← get
  let investorID ← known self.investorID
  let p ← deref pDepthMarketData
  sendEc env "Echo failed because: " self.mClient self.mHdl
    ⟨p.rspArgs investorID, 0, "OnRtnDepthMarketData", "false"⟩

/-- The callback of the SPI that the API invokes. -/
def callback : MdCallback → MdM Unit
  | .onFrontConnected => onFrontConnected lib
  | .onFrontDisconnected nReason => onFrontDisconnected nReason
  | .onHeartBeatWarning nTimeLapse => onHeartBeatWarning nTimeLapse
  | .onRspUserLogin p _ n _ => onRspUserLogin env p n
  | .onRspError info n last => onRspError info n last
  | .onRspSubMarketData => onRspSubMarketData
  | .onRspUnSubMarketData => onRspUnSubMarketData
  | .onRtnDepthMarketData p => onRtnDepthMarketData env p

end CMdSpi

end MFutures
