import MFutures.Session
import MFutures.Lib.EventSystem

namespace MFutures
open Handler

inductive Conn
  | connecting
  | opened
  | closed
  deriving DecidableEq, Repr

/-- An activation of `run()` on the event loop of a websocket client. Every
client makes one connection; its handle goes by the number of the client. -/
structure Loop where
  client : Nat
  conn : Conn
  deriving DecidableEq

/-- The websocket side. `loops` is the stack of active event loops, innermost
first: the last is `mc.run()` of `main`, and each one above it is the
`mmc.run()` of an activation of `on_close` that the loop below it is still
executing. `main` is over when the stack is empty. -/
structure Net where
  status : Bool := false
  uri : String := "ws://192.168.1.6:8080/futures/websocket/cppclient001"
  loops : List Loop := []
  clients : Nat := 0
  deriving DecidableEq

structure Bridge where
  trader : TraderHalf
  md : Half CMdSpi
  net : Net

abbrev BridgeM := Handler Output Fault Bridge
abbrev NetM := Handler Output Fault Net

namespace Bridge

def pTraderApi (b : Bridge) : Option Nat := b.trader.api
def spi (b : Bridge) : Option Nat := b.trader.spi
def mdspi (b : Bridge) : Option Nat := b.md.spi

def onTrader {α : Type} (x : TraderHalfM α) : BridgeM α :=
  zoom Bridge.trader (fun t b => { b with trader := t }) Output.trader x

def onMd {α : Type} (x : HalfM CMdSpi α) : BridgeM α :=
  zoom Bridge.md (fun t b => { b with md := t }) Output.md x

def onNet {α : Type} (x : NetM α) : BridgeM α :=
  zoom Bridge.net (fun t b => { b with net := t }) id x

end Bridge

open Bridge

/-- The values of `ReqType` that `on_message` compares with. -/
inductive ReqType
  | onConnect
  | mdSubscribeMarketData
  | reqUserLogin
  | mdReqUserLogin
  | reqSettlementInfoConfirm
  | reqOrderInsert
  | reqOrderAction
  | reqQryTradingAccount
  | reqQryInvestorPosition
  | reqQryInstrument
  | unknown
  deriving DecidableEq, Repr

def ReqType.ofString (s : String) : ReqType :=
  if s = "OnConnect" then .onConnect
  else if s = "MdSubscribeMarketData" then .mdSubscribeMarketData
  else if s = "ReqUserLogin" then .reqUserLogin
  else if s = "MdReqUserLogin" then .mdReqUserLogin
  else if s = "ReqSettlementInfoConfirm" then .reqSettlementInfoConfirm
  else if s = "ReqOrderInsert" then .reqOrderInsert
  else if s = "ReqOrderAction" then .reqOrderAction
  else if s = "ReqQryTradingAccount" then .reqQryTradingAccount
  else if s = "ReqQryInvestorPosition" then .reqQryInvestorPosition
  else if s = "ReqQryInstrument" then .reqQryInstrument
  else .unknown

/-- Whether `on_message` prints the payload. -/
def ReqType.logged : ReqType → Bool
  | .onConnect => false
  | .mdSubscribeMarketData => false
  | _ => true

section messages
variable (lib : Lib) (env : Env)

/-- There is no return statement for text that does not parse. -/
def readStrJson (str : String) : Except Fault Value :=
  if lib.tooDeep str then .error .jsonError
  else
    match lib.parse str with
    | some root => .ok root
    | none => .error .noReturn

/-- `root["ReqType"].asString()`, which every test of the chain evaluates again. -/
def reqType (root : Value) : Except Fault ReqType := do
  return ReqType.ofString (← (← root.index "ReqType").asString lib.valueToString)

/-- The branches of `on_message`. -/
def dispatch (c hdl : Nat) (root : Value) : ReqType → BridgeM Unit
  | .onConnect => onTrader (TraderHalf.call (CTraderSpi.onRspConnect lib env))
  | .reqUserLogin => onTrader (TraderHalf.login lib c hdl root)
  | .mdReqUserLogin => onMd (MdHalf.login lib env c hdl root)
  | .reqSettlementInfoConfirm =>
    onTrader (TraderHalf.call (CTraderSpi.reqSettlementInfoConfirm lib env root))
  | .reqOrderInsert => onTrader (TraderHalf.call (CTraderSpi.reqOrderInsert lib env root))
  | .reqOrderAction => onTrader (TraderHalf.call (CTraderSpi.reqOrderAction lib env root))
  | .mdSubscribeMarketData => onMd (MdHalf.call (CMdSpi.mdSubscribeMarketData lib env root))
  | .reqQryTradingAccount => onTrader (TraderHalf.call (CTraderSpi.reqQryTradingAccount lib env root))
  | .reqQryInvestorPosition =>
    onTrader (TraderHalf.call (CTraderSpi.reqQryInvestorPosition lib env root))
  | .reqQryInstrument => onTrader (TraderHalf.call (CTraderSpi.reqQryInstrument env))
  | .unknown => pure ()

def echo (type : ReqType) (payload : String) : BridgeM Unit :=
  if type.logged then emit (.main (env.now ++ "on_message:" ++ payload)) else pure ()

def onMessage (c hdl : Nat) (payload : String) : BridgeM Unit := do
  let root ← ofExcept (readStrJson lib payload)
  let type ← ofExcept (reqType lib root)
  echo env type payload
  dispatch lib env c hdl root type

/-- The line `on_message` prints. -/
def echoed (type : ReqType) (payload : String) : List Output :=
  if type.logged then [.main (env.now ++ "on_message:" ++ payload)] else []

variable {lib env}

/-- A message that parses to an object with a string type is printed and dispatched. -/
theorem onMessage_run {c hdl : Nat} {payload : String} {root : Value} {type : ReqType}
    (read : readStrJson lib payload = .ok root) (ofType : reqType lib root = .ok type) (b : Bridge) :
    onMessage lib env c hdl payload b =
      ⟨echoed env type payload ++ (dispatch lib env c hdl root type b).log,
        (dispatch lib env c hdl root type b).state, (dispatch lib env c hdl root type b).val⟩ := by
  cases logged : type.logged <;> simp [onMessage, bind_run, read, ofType, echo, echoed, logged]

theorem onMessage_ok {c hdl : Nat} {payload : String} {b : Bridge}
    (done : (onMessage lib env c hdl payload b).val = .ok ()) :
    ∃ root type, readStrJson lib payload = .ok root ∧ reqType lib root = .ok type ∧
      (dispatch lib env c hdl root type b).val = .ok () := by
  obtain ⟨root, read, rest⟩ := bind_ok done
  obtain ⟨type, ofType, _⟩ := bind_ok rest
  refine ⟨root, type, read, ofType, ?_⟩
  rwa [onMessage_run read ofType] at done

end messages

def releaseTrader : BridgeM Unit := do
  onMd Half.teardown
  onTrader (TraderHalf.onHalf Half.teardown)

section connections
variable (lib : Lib) (env : Env)

/-- The state of the innermost connection. -/
def Net.conn (net : Net) : Option Conn := net.loops.head?.map Loop.conn

def Net.setConn (conn : Conn) (net : Net) : Net :=
  { net with loops := match net.loops with
      | l :: ls => { l with conn } :: ls
      | [] => [] }

def printMain (line : String) : NetM Unit := emit (.main line)

def onOpen : NetM Unit := do
  modify fun net => { net with status := true }
  printMain "Websocket connection ready"

/-- The body of the loop of `on_close` up to `mmc.run()`. -/
def retry : NetM Unit := do
  let uri := (← get).uri
  printMain ("wait for connection run:" ++ uri)
  printMain ("start connection run:" ++ uri)
  if lib.accepts uri then
    modify fun net => { net with
      loops := ⟨net.clients, .connecting⟩ :: net.loops, clients := net.clients + 1 }
  else
    printMain (" connection error: " ++ env.ecMessage)
    abort .nullPointer

/-- What follows the return of the innermost `run()`, above the loops `beneath`.
The activation of `on_close` that started it tests `status` again. If that ends
the activation, the loop it ran in has no connection left and returns as well. -/
def afterRun : List Loop → NetM Unit
  | [] => modify fun net => { net with loops := [] }
  | l :: ls => do
    printMain ("close code: " ++ env.closeReason)
    modify fun net => { net with loops := l :: ls }
    if (← get).status then afterRun ls else retry lib env

/-- `on_close`, up to the first `mmc.run()`. -/
def onClose : BridgeM Unit := do
  onNet (printMain "have client on_close:")
  releaseTrader
  onNet (modify fun net => { net with status := false })
  onNet (retry lib env)

def onFail : BridgeM Unit := do
  onNet (printMain "have client on_fail")
  onNet (printMain ("on_fail：" ++ env.server ++ " " ++ env.ecMessage))
  releaseTrader

/-- A failed attempt: `main` registers `on_close` for it, a retry `on_fail`, and
the event loop of the retry has nothing left to do after that. -/
def attemptFailed : BridgeM Unit := do
  match (← get).net.loops with
  | [] => pure ()
  | [_] => onClose lib env
  | _ :: l :: ls => do
    onFail env
    onNet (afterRun lib env (l :: ls))

/-- `main`, up to `mc.run()`. -/
def main (argv : Option String) : NetM Unit := do
  modify fun net => { net with uri := argv.getD net.uri }
  if lib.accepts (← get).uri then
    modify fun net => { net with
      loops := ⟨net.clients, .connecting⟩ :: net.loops, clients := net.clients + 1 }
    printMain ("connect: " ++ env.connText ++ ", close reason: " ++ env.closeReason)
  else
    printMain ("could not create connection because: " ++ env.ecMessage)

end connections

/-- What can happen to the bridge between two handler activations. -/
inductive Event
  /-- The innermost connection attempt succeeds. -/
  | opened
  /-- The innermost connection closes. -/
  | closed
  /-- The innermost connection attempt fails. -/
  | failed
  | message (payload : String)
  /-- A callback that a CTP API object makes on the SPI registered with it. -/
  | trader (api : Nat) (cb : TraderCallback)
  | md (api : Nat) (cb : MdCallback)

/-- An API calls back between its `Init` and its `Release`, if it has an SPI. -/
def Half.Live {S : Type} (x : Half S) (api : Nat) : Prop :=
  ∃ a, x.apis[api]? = some a ∧ a.inited = true ∧ a.released = 0 ∧ a.registered.isSome = true

/-- The events the surroundings can deliver. -/
def Enabled (b : Bridge) : Env × Event → Prop
  | (_, .opened) => b.net.conn = some .connecting
  | (_, .closed) => b.net.conn = some .opened
  | (_, .failed) => b.net.conn = some .connecting
  | (_, .message _) => b.net.conn = some .opened
  | (_, .trader api _) => b.trader.Live api
  | (_, .md api _) => b.md.Live api

/-- The handler of an event. -/
def handle (lib : Lib) : Env × Event → BridgeM Unit
  | (_, .opened) => do
    onNet (modify (Net.setConn .opened))
    onNet onOpen
  | (env, .closed) => do
    onNet (modify (Net.setConn .closed))
    onClose lib env
  | (env, .failed) => do
    onNet (modify (Net.setConn .closed))
    attemptFailed lib env
  | (env, .message payload) => do
    match (← get).net.loops with
    | l :: _ => onMessage lib env l.client l.client payload
    | [] => pure ()
  | (env, .trader api cb) => onTrader (TraderHalf.deliver lib env api cb)
  | (env, .md api cb) => onMd (MdHalf.deliver lib env api cb)

/-- The bridge as a system of events. -/
def bridge (lib : Lib) : EventSystem Output Fault Bridge (Env × Event) where
  enabled := Enabled
  handle := handle lib

/-- The globals at process start: all four pointers are NULL. -/
def Bridge.boot : Bridge := ⟨{}, {}, {}⟩

/-- The bridge once `main` has reached `mc.run()`: `get_connection` accepted the URI. -/
def Started (lib : Lib) (b : Bridge) : Prop :=
  ∃ env argv, b = (onNet (main lib env argv) Bridge.boot).state ∧ lib.accepts b.net.uri = true

/-- The bridge that `main` leaves to its event loop when it is given no URI. -/
def Bridge.listening (lib : Lib) : Bridge := (onNet (main lib default none) Bridge.boot).state

/-- The states of the bridge between two handler activations. -/
def Reachable (lib : Lib) (b : Bridge) : Prop := (bridge lib).Reach (Started lib) b

end MFutures
