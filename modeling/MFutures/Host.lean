import MFutures.Records
import MFutures.Lib.Handler

namespace MFutures

/-- The character arrays of CTP requests that the bridge fills with `strcpy`. -/
inductive CtpArray
  | brokerID
  | userID
  | password
  | investorID
  | instrumentID
  | orderRef
  deriving DecidableEq, Repr

/-- The libraries outside the bridge, as far as it uses them: the reader, the
writer and the printing of doubles of jsoncpp, the GBK conversion, the array
sizes of the CTP header and the URIs that `get_connection` accepts. -/
structure Lib where
  parse : String → Option Value
  /-- Whether the reader throws, because the values are nested too deep. -/
  tooDeep : String → Bool
  writeString : Value → String
  valueToString : Double → String
  gbktoutf8 : String → String
  sizeof : CtpArray → Nat
  accepts : String → Bool

/-- The sizes of the arrays in the CTP header. -/
def CtpArray.size : CtpArray → Nat
  | .brokerID => 11
  | .userID => 16
  | .password => 41
  | .investorID => 13
  | .instrumentID => 31
  | .orderRef => 13

/-- The libraries on plain ASCII texts: a reader of the texts of `roots`, its
writer, a GBK conversion that changes nothing and a URI parser that takes every URI. -/
def Lib.plain (roots : List Value) : Lib where
  parse := fun text => (roots.map fun root => (root.text, root)).lookup text
  tooDeep := fun _ => false
  writeString := Value.text
  valueToString := fun _ => "0.0"
  gbktoutf8 := id
  sizeof := CtpArray.size
  accepts := fun _ => true

/-- A message of the server. -/
def serverMessage (reqType : String) (uniqueID : Int) (reqArgs : List (String × Value)) : Value :=
  .objectValue [("ReqType", .stringValue reqType), ("UniqueID", .intValue uniqueID),
    ("ReqArgs", .objectValue reqArgs)]

/-- The arguments of a trader login, and of a market-data login. -/
def loginArgs (password : String) : List (String × Value) :=
  [("URL", .stringValue "tcp://front:41205"), ("BROKER_ID", .stringValue "9999"),
    ("INVESTOR_ID", .stringValue "110623"), ("PASSWORD", .stringValue password)]

def mdLoginArgs (password : String) : List (String × Value) :=
  ("MarketUrl", .stringValue "tcp://front:41213") :: loginArgs password

/-- What the surroundings contribute to one activation of a handler. Each
activation sends at most one message and makes at most one request. -/
structure Env where
  /-- The text of `getCurrentTime()`. -/
  now : String
  /-- Whether a send on the websocket succeeds, and the text of its error. -/
  sendOk : Bool
  ecMessage : String
  /-- The value a request of the CTP API returns. -/
  iResult : Int
  /-- What a freshly allocated `CMdSpi` happens to hold in `iRequestID`. -/
  stale : Int
  /-- What the dangling instrument name of `MdSubscribeMarketData` reads as. -/
  dangling : String
  /-- What is printed of a connection: its state once it is requested, its server
  header and its close reason. -/
  connText : String
  server : String
  closeReason : String
  deriving Inhabited

/-- `strcpy` of a C string into an array of a CTP request. -/
def Lib.strcpy (lib : Lib) (array : CtpArray) (s : String) : Except Fault String :=
  if s.length < lib.sizeof array then .ok s else .error .overflow

theorem Lib.strcpy_ok {lib : Lib} {array : CtpArray} {s t : String} (copy : lib.strcpy array s = .ok t) :
    s.length < lib.sizeof array ∧ t = s := by
  unfold Lib.strcpy at copy
  split at copy
  · exact ⟨‹_›, (Except.ok.inj copy).symm⟩
  · cases copy

theorem Lib.strcpy_error {lib : Lib} {array : CtpArray} {s : String} {e : Fault} (copy : lib.strcpy array s = .error e) :
    e = .overflow ∧ ¬s.length < lib.sizeof array := by
  unfold Lib.strcpy at copy
  split at copy
  · cases copy
  · rename_i long
    cases copy
    exact ⟨rfl, long⟩

/-- The JSON message `getJsonStr` builds. -/
structure RspMessage where
  rspArgs : Value
  uniqueID : Int
  rspType : String
  isError : String

def RspMessage.root (m : RspMessage) : Value :=
  .objectValue [("RspArgs", m.rspArgs), ("UniqueID", .intValue m.uniqueID),
    ("RspType", .stringValue m.rspType), ("IsError", .stringValue m.isError)]

/-- The login request. Neither SPI clears it, so only these fields are known. -/
structure CThostFtdcReqUserLoginField where
  (brokerID userID password : String)
  deriving DecidableEq

structure CThostFtdcInputOrderField where
  (brokerID investorID orderRef instrumentID : String)
  (orderPriceType direction combOffsetFlag combHedgeFlag : Char)
  limitPrice : Double
  volumeTotalOriginal : Int
  (timeCondition volumeCondition : Char)
  minVolume : Int
  (contingentCondition forceCloseReason : Char)
  (isAutoSuspend userForceClose : Int)
  deriving DecidableEq

structure CThostFtdcInputOrderActionField where
  (brokerID investorID orderRef instrumentID : String)
  (frontID sessionID : Int)
  actionFlag : Char
  deriving DecidableEq

def thostFtdcOptLimitPrice : Char := '2'
def thostFtdcHfSpeculation : Char := '1'
def thostFtdcTcGFD : Char := '3'
def thostFtdcVcAV : Char := '1'
def thostFtdcCcImmediately : Char := '1'
def thostFtdcFccNotForceClose : Char := '0'
def thostFtdcAfDelete : Char := '0'

/-- The requests the bridge makes of a CTP API, each with its request number. -/
inductive Request
  | reqUserLogin (req : CThostFtdcReqUserLoginField) (nRequestID : Int)
  | reqSettlementInfoConfirm (brokerID investorID : String) (nRequestID : Int)
  | reqQryInstrument (nRequestID : Int)
  | reqQryTradingAccount (brokerID investorID : String) (nRequestID : Int)
  | reqQryInvestorPosition (brokerID investorID instrumentID : String) (nRequestID : Int)
  | reqOrderInsert (req : CThostFtdcInputOrderField) (nRequestID : Int)
  | reqOrderAction (req : CThostFtdcInputOrderActionField) (nRequestID : Int)
  | subscribeMarketData (instrument : String)
  deriving DecidableEq

/-- The calls the bridge makes on a CTP API object. -/
inductive ApiCall
  | create
  | registerSpi (spi : Option Nat)
  | registerFront (addr : String)
  | init
  | release
  | request (req : Request)
  deriving DecidableEq

/-- What one half of the bridge does to its surroundings. Objects are named by
numbers: `c` is a websocket client, `hdl` its connection, `api` a CTP API. -/
inductive Effect
  | out (line : String)
  | err (line : String)
  | send (c hdl : Nat) (msg : RspMessage)
  | call (api : Nat) (call : ApiCall)

/-- The effects of the bridge: the lines printed by test2.cpp itself, and the
effects of the trading half and of the market-data half. -/
inductive Output
  | main (line : String)
  | trader (e : Effect)
  | md (e : Effect)

def Effect.message : Effect → Option RspMessage
  | .send _ _ m => some m
  | _ => none

def Output.message : Output → Option RspMessage
  | .main _ => none
  | .trader e => e.message
  | .md e => e.message

/-- The websocket messages among the effects, in the order they were sent. -/
def messages (log : List Effect) : List RspMessage := log.filterMap Effect.message

@[simp] theorem messages_nil : messages [] = [] := rfl

@[simp] theorem messages_append (a b : List Effect) : messages (a ++ b) = messages a ++ messages b :=
  List.filterMap_append

@[simp] theorem messages_out (line : String) (log : List Effect) :
    messages (.out line :: log) = messages log := rfl

@[simp] theorem messages_err (line : String) (log : List Effect) :
    messages (.err line :: log) = messages log := rfl

@[simp] theorem messages_call (api : Nat) (call : ApiCall) (log : List Effect) :
    messages (.call api call :: log) = messages log := rfl

@[simp] theorem messages_send (c hdl : Nat) (m : RspMessage) (log : List Effect) :
    messages (.send c hdl m :: log) = m :: messages log := rfl

section operations
variable {σ α : Type}

def cout (line : String) : Handler Effect Fault σ Unit := Handler.emit (.out line)

def cerr (line : String) : Handler Effect Fault σ Unit := Handler.emit (.err line)

/-- Read through a pointer argument of a callback. -/
def deref (p : Option α) : Handler Effect Fault σ α :=
  match p with
  | some a => pure a
  | none => Handler.abort .nullPointer

/-- Read a member that the constructor leaves indeterminate. -/
def known (x : Option α) : Handler Effect Fault σ α :=
  match x with
  | some a => pure a
  | none => Handler.abort .wildPointer

/-- `client->send(hdl, text, opcode)`: throws where the connection is not
usable. An empty `connection_hdl` denotes no connection. -/
def send (env : Env) (client hdl : Option Nat) (m : RspMessage) : Handler Effect Fault σ Unit := do
  let c ← known client
  match hdl with
  | some h => if env.sendOk then Handler.emit (.send c h m) else Handler.abort .sendError
  | none => Handler.abort .sendError

/-- `client->send(hdl, text, opcode, ec)`: a failure is only printed. -/
def sendEc (env : Env) (complaint : String) (client hdl : Option Nat) (m : RspMessage) :
    Handler Effect Fault σ Unit := do
  let c ← known client
  match hdl with
  | some h =>
    if env.sendOk then Handler.emit (.send c h m) else cout (complaint ++ env.ecMessage)
  | none => cout (complaint ++ env.ecMessage)

end operations

/-- `IsErrorRspInfo`, without its print. -/
def isError (pRspInfo : Option CThostFtdcRspInfoField) : Bool :=
  match pRspInfo with
  | some info => info.errorID != 0
  | none => false

/-- The verdict every request path prints. -/
def verdict (iResult : Int) : String := if iResult = 0 then "Success" else "Fail"

/-- `root["ReqArgs"][key]` -/
def reqArg (root : Value) (key : String) : Except Fault Value := do
  (← root.index "ReqArgs").index key

def Lib.argString (lib : Lib) (root : Value) (key : String) : Except Fault String := do
  (← reqArg root key).asString lib.valueToString

/-- `root["UniqueID"].asInt()` -/
def uniqueID (root : Value) : Except Fault Int := do
  (← root.index "UniqueID").asInt

end MFutures
