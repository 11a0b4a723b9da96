import MFutures.TraderSpi
import MFutures.MdSpi

namespace MFutures
open Handler

/-- A CTP API object: the SPI registered with it, its front, whether `Init` was
called and the registered SPI as `Init` found it, and how often it was released. -/
structure Api (S : Type) where
  registered : Option Nat := none
  front : Option String := none
  inited : Bool := false
  initSpi : Option S := none
  released : Nat := 0

/-- One half of the bridge: the two globals (`pTraderApi` and `spi`, or `pMdApi`
and `mdspi`), every API object ever created and every SPI object ever allocated.
A deleted SPI is `none`. -/
structure Half (S : Type) where
  api : Option Nat := none
  spi : Option Nat := none
  apis : List (Api S) := []
  spis : List (Option S) := []

abbrev HalfM (S : Type) := Handler Effect Fault (Half S)

namespace Half
variable {S : Type}

/-- The SPI object at an address. -/
def object (x : Half S) (p : Nat) : Option S := x.spis[p]?.join

def store (x : Half S) (p : Nat) (s : S) : Half S := { x with spis := x.spis.set p (some s) }

def updateApi (x : Half S) (h : Nat) (f : Api S → Api S) : Half S :=
  { x with apis := x.apis.modify h f }

/-- `CreateFtdcTraderApi` or `CreateFtdcMdApi`, stored in the global. -/
def create : HalfM S Nat := do
  let h := (← get).apis.length
  emit (.call h .create)
  modify fun x => { x with api := some h, apis := x.apis ++ [{}] }
  return h

/-- `new` of an SPI object, stored in the global. -/
def newSpi (s : S) : HalfM S Nat := do
  let p := (← get).spis.length
  modify fun x => { x with spi := some p, spis := x.spis ++ [some s] }
  return p

def registerSpi (h : Nat) (p : Option Nat) : HalfM S Unit := do
  emit (.call h (.registerSpi p))
  modify fun x => x.updateApi h fun a => { a with registered := p }

def registerFront (h : Nat) (addr : String) : HalfM S Unit := do
  emit (.call h (.registerFront addr))
  modify fun x => x.updateApi h fun a => { a with front := some addr }

/-- From here on the API may call the registered SPI back. -/
def init (h : Nat) : HalfM S Unit := do
  emit (.call h .init)
  modify fun x => x.updateApi h fun a =>
    { a with inited := true, initSpi := a.registered.bind x.object }

def release (h : Nat) : HalfM S Unit := do
  emit (.call h .release)
  modify fun x => x.updateApi h fun a => { a with released := a.released + 1 }

/-- A login message first releases the API it replaces; the SPI it replaces is
neither unregistered nor deleted. -/
def releaseOld : HalfM S Unit := do
  match (← get).api with
  | some h => release h
  | none => pure ()

/-- `RegisterSpi(NULL)`, `Release`, and the global set to NULL. -/
def dropApi : HalfM S Unit := do
  match (← get).api with
  | some h =>
    registerSpi h none
    release h
    modify fun x => { x with api := none }
  | none => pure ()

/-- `delete`, and the global set to NULL. -/
def dropSpi : HalfM S Unit := do
  match (← get).spi with
  | some p => modify fun x => { x with spi := none, spis := x.spis.set p none }
  | none => pure ()

/-- The part of `ReleaseTrader` for one half. -/
def teardown : HalfM S Unit := do
  dropApi
  dropSpi

end Half

/-- The trading half, with the file global `iRequestID` that its SPI uses. -/
structure TraderHalf extends Half CTraderSpi where
  iRequestID : Int := 0

abbrev TraderHalfM := Handler Effect Fault TraderHalf

namespace TraderHalf

/-- An operation on the globals and objects alone. -/
def onHalf {α : Type} (x : HalfM CTraderSpi α) : TraderHalfM α :=
  zoom TraderHalf.toHalf (fun half t => { t with toHalf := half }) id x

def ctx? (p : Nat) (t : TraderHalf) : Option TraderCtx :=
  (t.object p).map fun self => ⟨self, t.iRequestID⟩

def putCtx (p : Nat) (c : TraderCtx) (t : TraderHalf) : TraderHalf :=
  { toHalf := t.store p c.self, iRequestID := c.iRequestID }

/-- Call a method through a pointer to the SPI. -/
def invoke (p : Option Nat) (x : TraderM Unit) : TraderHalfM Unit :=
  match p with
  | some p => focus (ctx? p) (putCtx p) .wildPointer x
  | none => abort .nullPointer

/-- A call `spi->x` of the dispatcher. -/
def call (x : TraderM Unit) : TraderHalfM Unit := do
  invoke (← get).spi x

variable (lib : Lib) (env : Env)

/-- The `ReqUserLogin` branch of `on_message`. -/
def login (c hdl : Nat) (root : Value) : TraderHalfM Unit := do
  let saddr ← ofExcept (lib.argString root "URL")
  let loginID ← ofExcept (uniqueID root)
  cout ("URL=" ++ saddr)
  let brokerID ← ofExcept (lib.argString root "BROKER_ID")
  cout ("BROKER_ID=" ++ cStr brokerID)
  let investorID ← ofExcept (lib.argString root "INVESTOR_ID")
  cout ("INVESTOR_ID=" ++ cStr investorID)
  onHalf Half.releaseOld
  let api ← onHalf Half.create
  let p ← onHalf (Half.newSpi { tpUserApi := api })
  onHalf (Half.registerSpi api (some p))
  invoke (some p) (CTraderSpi.setWebsocket c hdl)
  let password ← ofExcept (lib.argString root "PASSWORD")
  invoke (some p)
    (CTraderSpi.setUserLoginInfo loginID (cStr brokerID) (cStr investorID) (cStr password))
  onHalf (Half.registerFront api (cStr saddr))
  onHalf (Half.init api)

/-- A callback that the API makes on the SPI registered with it. -/
def deliver (api : Nat) (cb : TraderCallback) : TraderHalfM Unit := do
  invoke ((← get).apis[api]?.bind Api.registered) (CTraderSpi.callback lib env cb)

end TraderHalf

namespace MdHalf

abbrev MdHalfM := HalfM CMdSpi

/-- Call a method through a pointer to the SPI. -/
def invoke (p : Option Nat) (x : MdM Unit) : MdHalfM Unit :=
  match p with
  | some p => focus (fun t => t.object p) (fun s t => t.store p s) .wildPointer x
  | none => abort .nullPointer

/-- A call `mdspi->x` of the dispatcher. -/
def call (x : MdM Unit) : MdHalfM Unit := do
  invoke (← get).spi x

variable (lib : Lib) (env : Env)

/-- The `MdReqUserLogin` branch of `on_message`: the session is replaced before
any argument of the message is read. -/
def login (c hdl : Nat) (root : Value) : MdHalfM Unit := do
  Half.releaseOld
  let api ← Half.create
  let p ← Half.newSpi { mpUserApi := api, iRequestID := env.stale }
  Half.registerSpi api (some p)
  let saddr ← ofExcept (lib.argString root "MarketUrl")
  cout ("md addr=" ++ cStr saddr)
  let loginID ← ofExcept (uniqueID root)
  invoke (some p) (CMdSpi.setWebsocket c hdl)
  let brokerID ← ofExcept (lib.argString root "BROKER_ID")
  let investorID ← ofExcept (lib.argString root "INVESTOR_ID")
  let password ← ofExcept (lib.argString root "PASSWORD")
  invoke (some p)
    (CMdSpi.setUserLoginInfo loginID (cStr brokerID) (cStr investorID) (cStr password))
  Half.registerFront api (cStr saddr)
  Half.init api

/-- A callback that the API makes on the SPI registered with it. -/
def deliver (api : Nat) (cb : MdCallback) : MdHalfM Unit := do
  invoke ((← get).apis[api]?.bind Api.registered) (CMdSpi.callback lib env cb)

end MdHalf

end MFutures
