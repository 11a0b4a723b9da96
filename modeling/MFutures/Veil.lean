import MFutures.Agreement

namespace MFutures
open Handler Bridge

/-- Whether a password fits the array of the login request. -/
def Lib.passwordFits (lib : Lib) (password : String) : Bool := decide (password.length < lib.sizeof .password)

/-- Two effects that differ in the password of a login request at most. -/
inductive Effect.Veiled : Effect → Effect → Prop
  | same (e : Effect) : Effect.Veiled e e
  | login (h : Nat) (brokerID userID password password' : String) (n : Int) :
      Effect.Veiled (.call h (.request (.reqUserLogin ⟨brokerID, userID, password⟩ n)))
        (.call h (.request (.reqUserLogin ⟨brokerID, userID, password'⟩ n)))

/-- Logs that differ in the passwords of login requests at most. -/
def veiled : Comparison Effect := .pointwise Effect.Veiled

theorem veiled_refl (log : List Effect) : veiled.rel log log := List.forall₂_same.mpr fun e _ => .same e

section operations
variable {σ α : Type} {R : σ → σ → Prop} {env : Env}

theorem emit_agrees (e : Effect) :
    Agrees R veiled (emit e : Handler Effect Fault σ Unit) (emit e : Handler Effect Fault σ Unit) :=
  .emit (veiled_refl _)

theorem known_agrees (p : Option α) : Agrees R veiled (known p) (known p) := by
  cases p
  · exact .abort _
  · exact .pure _

theorem deref_agrees (p : Option α) : Agrees R veiled (deref p) (deref p) := by
  cases p
  · exact .abort _
  · exact .pure _

theorem send_agrees (c hdl : Option Nat) (m : RspMessage) : Agrees R veiled (send env c hdl m) (send env c hdl m) := by
  refine .bind (known_agrees _) fun k => ?_
  cases hdl with
  | none => exact .abort _
  | some l =>
    dsimp only
    split
    · exact emit_agrees _
    · exact .abort _

theorem sendEc_agrees (complaint : String) (c hdl : Option Nat) (m : RspMessage) :
    Agrees R veiled (sendEc env complaint c hdl m) (sendEc env complaint c hdl m) := by
  refine .bind (known_agrees _) fun k => ?_
  cases hdl with
  | none => exact emit_agrees _
  | some l =>
    dsimp only
    split <;> exact emit_agrees _

/-- Passwords that fit alike are copied alike. -/
theorem password_agrees {lib : Lib} {p p' : Option String}
    (fits : p.map lib.passwordFits = p'.map lib.passwordFits) {f : String → Handler Effect Fault σ Unit}
    (next : ∀ pw pw', Agrees R veiled (f pw) (f pw')) :
    Agrees R veiled (known p >>= fun password => ofExcept (lib.strcpy .password password) >>= f)
      (known p' >>= fun password => ofExcept (lib.strcpy .password password) >>= f) := by
  cases p with
  | none =>
    cases p' with
    | none => exact .bind (known_agrees _) fun _ => .bind (.ofExcept rfl) fun pw => next pw pw
    | some pw' => cases fits
  | some pw =>
    cases p' with
    | none => cases fits
    | some pw' =>
      have fits : lib.passwordFits pw = lib.passwordFits pw' := Option.some.inj fits
      change Agrees _ _ (ofExcept (lib.strcpy .password pw) >>= f) (ofExcept (lib.strcpy .password pw') >>= f)
      by_cases fit : pw.length < lib.sizeof .password
      · have fit' : pw'.length < lib.sizeof .password := by simpa [Lib.passwordFits, fit] using fits
        have copied : lib.strcpy .password pw = .ok pw := if_pos fit
        have copied' : lib.strcpy .password pw' = .ok pw' := if_pos fit'
        exact .ofExcept_ok copied copied' (next pw pw')
      · have long : ¬ pw'.length < lib.sizeof .password := by simpa [Lib.passwordFits, fit] using fits
        simp only [Lib.strcpy, if_neg fit, if_neg long]
        exact .ofExcept_bind fun _ none => by cases none

end operations

namespace CTraderSpi

def withPassword (s : CTraderSpi) (p : Option String) : CTraderSpi := { s with password := p }

/-- What is left of a trader SPI without its password: whether it fits. -/
def veil (lib : Lib) (s : CTraderSpi) : CTraderSpi × Option Bool :=
  (s.withPassword none, s.password.map lib.passwordFits)

/-- Contexts that differ in the password at most, and not in whether it fits. -/
def SameCtx (lib : Lib) (x y : TraderCtx) : Prop := x.self.veil lib = y.self.veil lib ∧ x.iRequestID = y.iRequestID

variable {lib : Lib} {env : Env}

theorem SameCtx.cases {x y : TraderCtx} (same : SameCtx lib x y) :
    ∃ (self : CTraderSpi) (p p' : Option String) (n : Int),
      x = ⟨self.withPassword p, n⟩ ∧ y = ⟨self.withPassword p', n⟩ ∧
        p.map lib.passwordFits = p'.map lib.passwordFits := by
  obtain ⟨x, n⟩ := x
  obtain ⟨y, k⟩ := y
  obtain ⟨same, rfl⟩ := same
  obtain ⟨rest, fits⟩ := Prod.mk.inj same
  have unveiled := congrArg (withPassword · y.password) rest
  exact ⟨x, x.password, y.password, n, rfl, congrArg (TraderCtx.mk · n) unveiled.symm, fits⟩

theorem SameCtx.intro (self : CTraderSpi) {p p' : Option String} (n : Int)
    (fits : p.map lib.passwordFits = p'.map lib.passwordFits) :
    SameCtx lib ⟨self.withPassword p, n⟩ ⟨self.withPassword p', n⟩ :=
  ⟨Prod.ext rfl fits, rfl⟩

/-- A part of the object other than its password is set. -/
theorem set_agrees (f : CTraderSpi → CTraderSpi)
    (apart : ∀ self p, f (self.withPassword p) = (f self).withPassword p) :
    Agrees (SameCtx lib) veiled (modify fun x => { x with self := f x.self } : TraderM Unit)
      (modify fun x => { x with self := f x.self }) := by
  refine .modify fun x y same => ?_
  obtain ⟨self, p, p', n, rfl, rfl, fits⟩ := same.cases
  dsimp only
  rw [apart, apart]
  exact .intro (f self) n fits

theorem strcpyStatus_agrees (status : String) :
    Agrees (SameCtx lib) veiled (strcpyStatus status) (strcpyStatus status) := by
  refine .get_bind fun x y same => ?_
  obtain ⟨self, p, p', n, rfl, rfl, fits⟩ := same.cases
  refine .ite Iff.rfl ?_ ?_
  · exact set_agrees (fun s => { s with loginStatus := ⟨status, true⟩ }) fun _ _ => rfl
  · exact .abort _

theorem newStatus_agrees (status : String) : Agrees (SameCtx lib) veiled (newStatus status) (newStatus status) :=
  set_agrees (fun s => { s with loginStatus := ⟨status, true⟩ }) fun _ _ => rfl

theorem nextRequestID_agrees : Agrees (SameCtx lib) veiled nextRequestID nextRequestID := by
  refine .bind (.modify fun x y same => ?_) fun _ => .get_bind fun x y same => ?_
  · exact ⟨same.1, congrArg increment same.2⟩
  · rw [same.2]
    exact .pure _

theorem getJsonStr_agrees (m : RspMessage) :
    Agrees (SameCtx lib) veiled (getJsonStr lib env m) (getJsonStr lib env m) := by
  unfold getJsonStr
  split
  · exact .pure _
  · exact emit_agrees _

theorem relay_agrees (m : RspMessage) : Agrees (SameCtx lib) veiled (relay lib env m) (relay lib env m) := by
  refine .bind (getJsonStr_agrees m) fun _ => .get_bind fun x y same => ?_
  obtain ⟨self, p, p', n, rfl, rfl, fits⟩ := same.cases
  exact send_agrees _ _ _

theorem isErrorRspInfo_agrees (info : Option CThostFtdcRspInfoField) :
    Agrees (SameCtx lib) veiled (isErrorRspInfo lib env info) (isErrorRspInfo lib env info) := by
  cases info with
  | none => exact .pure _
  | some i =>
    unfold isErrorRspInfo
    dsimp only
    split
    · exact .pure _
    · exact .bind (emit_agrees _) fun _ => .pure _

theorem request_agrees {r r' : Request} (same : ∀ h, Effect.Veiled (.call h (.request r)) (.call h (.request r')))
    (line : String) : Agrees (SameCtx lib) veiled (request env r line) (request env r' line) := by
  refine .get_bind fun x y ctx => ?_
  obtain ⟨self, p, p', n, rfl, rfl, fits⟩ := ctx.cases
  exact .bind (.emit (.cons (same _) .nil)) fun _ => emit_agrees _

theorem credentials_agrees : Agrees (SameCtx lib) veiled (credentials lib) (credentials lib) := by
  refine .get_bind fun x y same => ?_
  obtain ⟨self, p, p', n, rfl, rfl, fits⟩ := same.cases
  exact .bind (known_agrees _) fun _ => .bind (.ofExcept rfl) fun _ => .bind (known_agrees _) fun _ =>
    .bind (.ofExcept rfl) fun _ => .pure _

/-- The password goes into the login request, if it fits, and nowhere else. -/
theorem reqUserLogin_agrees (loginID : Int) :
    Agrees (SameCtx lib) veiled (reqUserLogin lib env loginID) (reqUserLogin lib env loginID) := by
  refine .get_bind fun x y same => ?_
  obtain ⟨self, p, p', n, rfl, rfl, fits⟩ := same.cases
  refine .bind (known_agrees _) fun _ => .bind (.ofExcept rfl) fun brokerID => .bind (known_agrees _) fun _ =>
    .bind (.ofExcept rfl) fun userID => password_agrees fits fun pw pw' => ?_
  exact request_agrees (fun h => .login h brokerID userID pw pw' loginID) _

theorem onFrontConnected_agrees :
    Agrees (SameCtx lib) veiled (onFrontConnected lib env) (onFrontConnected lib env) := by
  refine .bind (emit_agrees _) fun _ => .bind (newStatus_agrees _) fun _ => .get_bind fun x y same => ?_
  obtain ⟨self, p, p', n, rfl, rfl, fits⟩ := same.cases
  exact .bind (known_agrees _) fun loginID => reqUserLogin_agrees loginID

theorem onFrontDisconnected_agrees (nReason : Int) :
    Agrees (SameCtx lib) veiled (onFrontDisconnected lib env nReason) (onFrontDisconnected lib env nReason) := by
  refine .bind (emit_agrees _) fun _ => .get_bind fun x y same => ?_
  obtain ⟨self, p, p', n, rfl, rfl, fits⟩ := same.cases
  exact .bind (known_agrees _) fun _ => .bind (relay_agrees _) fun _ => strcpyStatus_agrees _

theorem onRspConnect_agrees : Agrees (SameCtx lib) veiled (onRspConnect lib env) (onRspConnect lib env) := by
  have fill : Agrees (SameCtx lib) veiled fillStatus fillStatus := by
    refine .get_bind fun x y same => ?_
    obtain ⟨self, p, p', n, rfl, rfl, fits⟩ := same.cases
    exact .ite Iff.rfl (newStatus_agrees _) (.pure _)
  refine .bind fill fun _ => .get_bind fun x y same => ?_
  obtain ⟨self, p, p', n, rfl, rfl, fits⟩ := same.cases
  exact .bind (getJsonStr_agrees _) fun _ => sendEc_agrees _ _ _ _

theorem onRspUserLogin_agrees (p : Option CThostFtdcRspUserLoginField) (info : Option CThostFtdcRspInfoField)
    (n : Int) (last : Bool) :
    Agrees (SameCtx lib) veiled (onRspUserLogin lib env p info n last) (onRspUserLogin lib env p info n last) := by
  refine .bind (emit_agrees _) fun _ => .ite Iff.rfl ?_ (.pure _)
  refine .bind (isErrorRspInfo_agrees info) fun bad => .ite Iff.rfl (.pure _) ?_
  refine .bind (strcpyStatus_agrees _) fun _ => .bind (deref_agrees p) fun r => .bind ?_ fun _ => relay_agrees _
  exact set_agrees (fun s => { s with
    frontID := some r.frontID, sessionID := some r.sessionID, orderRef := some r.maxOrderRef }) fun _ _ => rfl

/-- A callback that relays a record unless it reports an error. -/
theorem record_agrees {A : Type} (info : Option CThostFtdcRspInfoField) (p : Option A) (m : A → RspMessage) :
    Agrees (SameCtx lib) veiled (do
      if ← isErrorRspInfo lib env info then pure () else
        let p ← deref p
        relay lib env (m p)) (do
      if ← isErrorRspInfo lib env info then pure () else
        let p ← deref p
        relay lib env (m p)) :=
  .bind (isErrorRspInfo_agrees info) fun _ => .ite Iff.rfl (.pure _) (.bind (deref_agrees p) fun _ => relay_agrees _)

/-- A callback that relays an error. -/
theorem error_agrees (info : Option CThostFtdcRspInfoField) (m : CThostFtdcRspInfoField → RspMessage) :
    Agrees (SameCtx lib) veiled (do
      if ← isErrorRspInfo lib env info then
        let info ← deref info
        relay lib env (m info)
      else pure ()) (do
      if ← isErrorRspInfo lib env info then
        let info ← deref info
        relay lib env (m info)
      else pure ()) :=
  .bind (isErrorRspInfo_agrees info) fun _ => .ite Iff.rfl (.bind (deref_agrees info) fun _ => relay_agrees _) (.pure _)

theorem callback_agrees (cb : TraderCallback) :
    Agrees (SameCtx lib) veiled (callback lib env cb) (callback lib env cb) := by
  cases cb with
  | onFrontConnected => exact onFrontConnected_agrees
  | onFrontDisconnected nReason => exact onFrontDisconnected_agrees nReason
  | onHeartBeatWarning nTimeLapse => exact emit_agrees _
  | onRspUserLogin p info n last => exact onRspUserLogin_agrees p info n last
  | onRspSettlementInfoConfirm p info n last =>
    exact .bind (emit_agrees _) fun _ => .ite Iff.rfl (record_agrees info p _) (.pure _)
  | onRspQryInstrument p info n last => exact .bind (deref_agrees p) fun _ => relay_agrees _
  | onRspQryTradingAccount p info n last => exact .bind (emit_agrees _) fun _ => record_agrees info p _
  | onRspQryInvestorPosition p info n last =>
    refine .bind (emit_agrees _) fun _ => ?_
    cases p with
    | none => exact .pure _
    | some p => exact relay_agrees _
  | onRspOrderInsert info n last => exact .bind (emit_agrees _) fun _ => error_agrees info _
  | onRspOrderAction info n last =>
    exact .bind (emit_agrees _) fun _ => .bind (isErrorRspInfo_agrees info) fun _ => .pure _
  | onRspError info n last => exact .bind (emit_agrees _) fun _ => error_agrees info _
  | onRtnOrder p => exact .bind (deref_agrees p) fun _ => .bind (emit_agrees _) fun _ => relay_agrees _
  | onRtnTrade p => exact .bind (emit_agrees _) fun _ => .bind (deref_agrees p) fun _ => relay_agrees _

section requests
variable (root : Value)

/-- The same request of both contexts. -/
theorem same_request (r : Request) (line : String) :
    Agrees (SameCtx lib) veiled (request env r line) (request env r line) :=
  request_agrees (fun _ => .same _) line

theorem reqSettlementInfoConfirm_agrees :
    Agrees (SameCtx lib) veiled (reqSettlementInfoConfirm lib env root) (reqSettlementInfoConfirm lib env root) :=
  .bind credentials_agrees fun _ => .bind (.ofExcept rfl) fun _ => same_request _ _

theorem reqQryTradingAccount_agrees :
    Agrees (SameCtx lib) veiled (reqQryTradingAccount lib env root) (reqQryTradingAccount lib env root) :=
  .bind credentials_agrees fun _ => .bind (.ofExcept rfl) fun _ => same_request _ _

theorem reqQryInvestorPosition_agrees :
    Agrees (SameCtx lib) veiled (reqQryInvestorPosition lib env root) (reqQryInvestorPosition lib env root) :=
  .bind credentials_agrees fun _ => .bind (.ofExcept rfl) fun _ => .bind (.ofExcept rfl) fun _ => same_request _ _

theorem reqOrderInsert_agrees :
    Agrees (SameCtx lib) veiled (reqOrderInsert lib env root) (reqOrderInsert lib env root) :=
  .bind credentials_agrees fun _ => .bind (.ofExcept rfl) fun _ => .bind (.ofExcept rfl) fun _ => same_request _ _

theorem reqQryInstrument_agrees : Agrees (SameCtx lib) veiled (reqQryInstrument env) (reqQryInstrument env) :=
  .bind nextRequestID_agrees fun _ => same_request _ _

theorem reqOrderAction_agrees :
    Agrees (SameCtx lib) veiled (reqOrderAction lib env root) (reqOrderAction lib env root) :=
  .bind credentials_agrees fun _ => .bind (.ofExcept rfl) fun _ => .bind nextRequestID_agrees fun _ =>
    same_request _ _

end requests

/-- The credentials are stored; the passwords may differ if they fit alike. -/
theorem setUserLoginInfo_agrees (id : Int) (brokerID investorID : String) {pw pw' : String}
    (fits : lib.passwordFits pw = lib.passwordFits pw') :
    Agrees (SameCtx lib) veiled (setUserLoginInfo id brokerID investorID pw)
      (setUserLoginInfo id brokerID investorID pw') := by
  refine .modify fun x y same => ?_
  obtain ⟨self, p, p', n, rfl, rfl, _⟩ := same.cases
  exact .intro { self with loginID := some id, brokerID := some brokerID, investorID := some investorID } n
    (congrArg some fits)

theorem setWebsocket_agrees (c hdl : Nat) :
    Agrees (SameCtx lib) veiled (setWebsocket c hdl) (setWebsocket c hdl) := by
  refine .modify fun x y same => ?_
  obtain ⟨self, p, p', n, rfl, rfl, fits⟩ := same.cases
  exact .intro { self with mClient := some c, mHdl := some hdl } 0 fits

end CTraderSpi

namespace CMdSpi

def withPassword (s : CMdSpi) (p : Option String) : CMdSpi := { s with password := p }

/-- What is left of a market-data SPI without its password: whether it fits. -/
def veil (lib : Lib) (s : CMdSpi) : CMdSpi × Option Bool :=
  (s.withPassword none, s.password.map lib.passwordFits)

def SameSpi (lib : Lib) (x y : CMdSpi) : Prop := x.veil lib = y.veil lib

variable {lib : Lib} {env : Env}

theorem SameSpi.cases {x y : CMdSpi} (same : SameSpi lib x y) : ∃ (self : CMdSpi) (p p' : Option String),
    x = self.withPassword p ∧ y = self.withPassword p' ∧ p.map lib.passwordFits = p'.map lib.passwordFits := by
  obtain ⟨rest, fits⟩ := Prod.mk.inj same
  have unveiled := congrArg (withPassword · y.password) rest
  exact ⟨x, x.password, y.password, rfl, unveiled.symm, fits⟩

theorem SameSpi.intro (self : CMdSpi) {p p' : Option String}
    (fits : p.map lib.passwordFits = p'.map lib.passwordFits) :
    SameSpi lib (self.withPassword p) (self.withPassword p') :=
  Prod.ext rfl fits

theorem relay_agrees (m : RspMessage) : Agrees (SameSpi lib) veiled (relay env m) (relay env m) := by
  refine .get_bind fun x y same => ?_
  obtain ⟨self, p, p', rfl, rfl, fits⟩ := same.cases
  exact send_agrees _ _ _

theorem isErrorRspInfo_agrees (info : Option CThostFtdcRspInfoField) :
    Agrees (SameSpi lib) veiled (isErrorRspInfo info) (isErrorRspInfo info) := by
  cases info with
  | none => exact .pure _
  | some i => exact .ite Iff.rfl (.pure _) (.bind (emit_agrees _) fun _ => .pure _)

/-- The password goes into the login request, if it fits, and nowhere else. -/
theorem onFrontConnected_agrees : Agrees (SameSpi lib) veiled (onFrontConnected lib) (onFrontConnected lib) := by
  refine .get_bind fun x y same => ?_
  obtain ⟨self, p, p', rfl, rfl, fits⟩ := same.cases
  refine .bind (known_agrees _) fun _ => .bind (.ofExcept rfl) fun brokerID => .bind (known_agrees _) fun _ =>
    .bind (.ofExcept rfl) fun userID => password_agrees fits fun pw pw' => ?_
  refine .bind (emit_agrees _) fun _ => .bind (.modify fun x y same => ?_) fun _ => .get_bind fun x y same => ?_
  · obtain ⟨self, p, p', rfl, rfl, fits⟩ := same.cases
    exact .intro { self with iRequestID := increment self.iRequestID } fits
  · obtain ⟨self, p, p', rfl, rfl, fits⟩ := same.cases
    exact .emit (.cons (.login _ _ _ _ _ _) .nil)

theorem callback_agrees (cb : MdCallback) :
    Agrees (SameSpi lib) veiled (callback lib env cb) (callback lib env cb) := by
  cases cb with
  | onFrontConnected => exact onFrontConnected_agrees
  | onFrontDisconnected nReason => exact .bind (emit_agrees _) fun _ => emit_agrees _
  | onHeartBeatWarning nTimeLapse => exact .bind (emit_agrees _) fun _ => emit_agrees _
  | onRspUserLogin p info n last => exact .bind (deref_agrees p) fun _ => relay_agrees _
  | onRspError info n last =>
    exact .bind (emit_agrees _) fun _ => .bind (isErrorRspInfo_agrees info) fun _ => .bind (emit_agrees _) fun _ =>
      .bind (deref_agrees info) fun _ => .bind (emit_agrees _) fun _ => emit_agrees _
  | onRspSubMarketData => exact .pure _
  | onRspUnSubMarketData => exact emit_agrees _
  | onRtnDepthMarketData p =>
    refine .get_bind fun x y same => ?_
    obtain ⟨self, q, q', rfl, rfl, fits⟩ := same.cases
    exact .bind (known_agrees _) fun _ => .bind (deref_agrees p) fun _ => sendEc_agrees _ _ _ _

theorem mdSubscribeMarketData_agrees (root : Value) :
    Agrees (SameSpi lib) veiled (mdSubscribeMarketData lib env root) (mdSubscribeMarketData lib env root) := by
  refine .bind (.ofExcept rfl) fun _ => .get_bind fun x y same => ?_
  obtain ⟨self, p, p', rfl, rfl, fits⟩ := same.cases
  exact emit_agrees _

theorem setUserLoginInfo_agrees (id : Int) (brokerID investorID : String) {pw pw' : String}
    (fits : lib.passwordFits pw = lib.passwordFits pw') :
    Agrees (SameSpi lib) veiled (setUserLoginInfo id brokerID investorID pw)
      (setUserLoginInfo id brokerID investorID pw') := by
  refine .modify fun x y same => ?_
  obtain ⟨self, p, p', rfl, rfl, _⟩ := same.cases
  exact .intro { self with brokerID := some brokerID, investorID := some investorID } (congrArg some fits)

theorem setWebsocket_agrees (c hdl : Nat) :
    Agrees (SameSpi lib) veiled (setWebsocket c hdl) (setWebsocket c hdl) := by
  refine .modify fun x y same => ?_
  obtain ⟨self, p, p', rfl, rfl, fits⟩ := same.cases
  exact .intro { self with mClient := some c, mHdl := some hdl } fits

end CMdSpi

def Api.map {S T : Type} (f : S → T) (a : Api S) : Api T where
  registered := a.registered
  front := a.front
  inited := a.inited
  initSpi := a.initSpi.map f
  released := a.released

theorem map_modify {α β : Type} (f : α → β) {g : α → α} {g' : β → β} (same : ∀ a, g' (f a) = f (g a))
    (l : List α) (n : Nat) : (l.map f).modify n g' = (l.modify n g).map f := by
  induction l generalizing n with
  | nil => cases n <;> rfl
  | cons a l ih =>
    cases n with
    | zero => simp [same]
    | succ n => simp [ih]

namespace Half
variable {S T : Type}

/-- A half with something else in place of its SPI objects. -/
def map (f : S → T) (x : Half S) : Half T where
  api := x.api
  spi := x.spi
  apis := x.apis.map (Api.map f)
  spis := x.spis.map (Option.map f)

variable (f : S → T)

theorem object_map (x : Half S) (p : Nat) : (x.map f).object p = (x.object p).map f := by
  cases at_ : x.spis[p]? <;> simp [object, map, at_]

theorem store_map (x : Half S) (p : Nat) (s : S) : (x.store p s).map f = (x.map f).store p (f s) := by
  simp [store, map]

theorem updateApi_map {g : Api S → Api S} {g' : Api T → Api T} (same : ∀ a, g' (a.map f) = (g a).map f)
    (x : Half S) (h : Nat) : (x.map f).updateApi h g' = (x.updateApi h g).map f := by
  simp only [updateApi, map, map_modify _ same]

theorem create_follows : Handler.Follows (Half.map f) (create : HalfM S Nat) (create : HalfM T Nat) := by
  refine .get_bind fun x => ?_
  have length : (x.map f).apis.length = x.apis.length := by simp [map]
  simp only [length]
  refine .bind (.emit _) fun _ => .bind (.modify fun y => ?_) fun _ => .pure _
  simp [map, Api.map]

theorem newSpi_follows (s : S) : Handler.Follows (Half.map f) (newSpi s) (newSpi (f s)) := by
  refine .get_bind fun x => ?_
  have length : (x.map f).spis.length = x.spis.length := by simp [map]
  simp only [length]
  refine .bind (.modify fun y => ?_) fun _ => .pure _
  simp [map]

theorem registerSpi_follows (h : Nat) (p : Option Nat) :
    Handler.Follows (Half.map f) (registerSpi h p : HalfM S Unit) (registerSpi h p : HalfM T Unit) :=
  .bind (.emit _) fun _ => .modify fun x => updateApi_map f (fun _ => rfl) x h

theorem registerFront_follows (h : Nat) (addr : String) :
    Handler.Follows (Half.map f) (registerFront h addr : HalfM S Unit) (registerFront h addr : HalfM T Unit) :=
  .bind (.emit _) fun _ => .modify fun x => updateApi_map f (fun _ => rfl) x h

theorem init_follows (h : Nat) : Handler.Follows (Half.map f) (init h : HalfM S Unit) (init h : HalfM T Unit) := by
  refine .bind (.emit _) fun _ => .modify fun x => updateApi_map f (fun a => ?_) x h
  cases registered : a.registered with
  | none => simp [Api.map, registered]
  | some p => simp [Api.map, registered, object_map]

theorem release_follows (h : Nat) :
    Handler.Follows (Half.map f) (release h : HalfM S Unit) (release h : HalfM T Unit) :=
  .bind (.emit _) fun _ => .modify fun x => updateApi_map f (fun _ => rfl) x h

theorem releaseOld_follows :
    Handler.Follows (Half.map f) (releaseOld : HalfM S Unit) (releaseOld : HalfM T Unit) := by
  refine .get_bind fun x => ?_
  have same : (x.map f).api = x.api := rfl
  cases api : x.api with
  | none =>
    rw [same, api]
    exact .pure _
  | some h =>
    rw [same, api]
    exact release_follows f h

theorem dropApi_follows : Handler.Follows (Half.map f) (dropApi : HalfM S Unit) (dropApi : HalfM T Unit) := by
  refine .get_bind fun x => ?_
  have same : (x.map f).api = x.api := rfl
  cases api : x.api with
  | none =>
    rw [same, api]
    exact .pure _
  | some h =>
    rw [same, api]
    exact .bind (registerSpi_follows f h none) fun _ => .bind (release_follows f h) fun _ => .modify fun _ => rfl

theorem dropSpi_follows : Handler.Follows (Half.map f) (dropSpi : HalfM S Unit) (dropSpi : HalfM T Unit) := by
  refine .get_bind fun x => ?_
  have same : (x.map f).spi = x.spi := rfl
  cases spi : x.spi with
  | none =>
    rw [same, spi]
    exact .pure _
  | some p =>
    rw [same, spi]
    exact .modify fun y => by simp [map]

theorem teardown_follows :
    Handler.Follows (Half.map f) (teardown : HalfM S Unit) (teardown : HalfM T Unit) :=
  .bind (dropApi_follows f) fun _ => dropSpi_follows f

theorem registered_map (x : Half S) (h : Nat) :
    (x.map f).apis[h]?.bind Api.registered = x.apis[h]?.bind Api.registered := by
  cases at_ : x.apis[h]? <;> simp [map, at_, Api.map]

/-- Halves that are the same but for what `f` does not tell apart. -/
def SameUnder (x y : Half S) : Prop := x.map f = y.map f

variable {f} {x y : Half S}

theorem SameUnder.spi (same : SameUnder f x y) : x.spi = y.spi := by
  have halves : (x.map f).spi = (y.map f).spi := congrArg (fun h => h.spi) same
  exact halves

theorem SameUnder.registered (same : SameUnder f x y) (h : Nat) :
    x.apis[h]?.bind Api.registered = y.apis[h]?.bind Api.registered := by
  rw [← registered_map f x, ← registered_map f y, same]

theorem SameUnder.object (same : SameUnder f x y) (p : Nat) :
    Option.Rel (fun s t => f s = f t) (x.object p) (y.object p) := by
  have objects : (x.object p).map f = (y.object p).map f := by rw [← object_map, ← object_map, same]
  cases left : x.object p <;> cases right : y.object p <;> rw [left, right] at objects
  · exact .none
  · cases objects
  · cases objects
  · exact .some (Option.some.inj objects)

theorem SameUnder.store (same : SameUnder f x y) (p : Nat) {s t : S} (objects : f s = f t) :
    SameUnder f (x.store p s) (y.store p t) := by
  unfold SameUnder
  rw [store_map, store_map, same, objects]

/-- Operations that the objects can be followed through do not tell them apart. -/
theorem follows_agrees {α : Type} {op op' : HalfM S α} {op'' : HalfM T α}
    (left : Handler.Follows (Half.map f) op op'') (right : Handler.Follows (Half.map f) op' op'') :
    Agrees (SameUnder f) veiled op op' :=
  left.agrees right veiled_refl

end Half

/-- Login messages that differ in the password at most, and not in whether it fits. -/
structure SameLogin (lib : Lib) (root root' : Value) : Prop where
  arg : ∀ key, key ≠ "PASSWORD" → lib.argString root key = lib.argString root' key
  id : uniqueID root = uniqueID root'
  password : lib.argString root "PASSWORD" = lib.argString root' "PASSWORD" ∨
    ∃ pw pw', lib.argString root "PASSWORD" = .ok pw ∧ lib.argString root' "PASSWORD" = .ok pw' ∧
      lib.passwordFits (cStr pw) = lib.passwordFits (cStr pw')

theorem SameLogin.refl (lib : Lib) (root : Value) : SameLogin lib root root := ⟨fun _ _ => rfl, rfl, .inl rfl⟩

theorem SameLogin.password_agrees {lib : Lib} {root root' : Value} (same : SameLogin lib root root') {σ α : Type}
    {R : σ → σ → Prop} {f : String → Handler Effect Fault σ α}
    (next : ∀ pw pw', lib.passwordFits (cStr pw) = lib.passwordFits (cStr pw') → Agrees R veiled (f pw) (f pw')) :
    Agrees R veiled (ofExcept (lib.argString root "PASSWORD") >>= f)
      (ofExcept (lib.argString root' "PASSWORD") >>= f) := by
  rcases same.password with equal | ⟨pw, pw', left, right, fits⟩
  · exact .bind (.ofExcept equal) fun pw => next pw pw rfl
  · exact .ofExcept_ok left right (next pw pw' fits)

namespace TraderHalf

/-- Trading halves that differ in passwords at most, and not in whether they fit. -/
def Same (lib : Lib) (x y : TraderHalf) : Prop :=
  Half.SameUnder (CTraderSpi.veil lib) x.toHalf y.toHalf ∧ x.iRequestID = y.iRequestID

variable {lib : Lib} {env : Env} {α : Type}

theorem onHalf_agrees {x y : HalfM CTraderSpi α}
    (agrees : Agrees (Half.SameUnder (CTraderSpi.veil lib)) veiled x y) :
    Agrees (Same lib) veiled (onHalf x) (onHalf y) := by
  refine agrees.zoom (fun _ _ same => same.1) (fun _ _ _ _ same half => ⟨half, same.2⟩) fun a b logs => ?_
  rw [List.map_id, List.map_id]
  exact logs

theorem invoke_agrees {x y : TraderM Unit} (agrees : Agrees (CTraderSpi.SameCtx lib) veiled x y)
    (p : Option Nat) : Agrees (Same lib) veiled (invoke p x) (invoke p y) := by
  cases p with
  | none => exact .abort _
  | some p =>
    refine agrees.focus (fun s t same => ?_) fun s t a b same ctx => ⟨same.1.store p ctx.1, ctx.2⟩
    have objects := same.1.object p
    unfold ctx?
    cases left : s.object p <;> cases right : t.object p <;> rw [left, right] at objects
    · exact .none
    · cases objects
    · cases objects
    · cases objects with
      | some both => exact .some ⟨both, same.2⟩

theorem call_agrees {x y : TraderM Unit} (agrees : Agrees (CTraderSpi.SameCtx lib) veiled x y) :
    Agrees (Same lib) veiled (call x) (call y) := by
  refine .get_bind fun s t same => ?_
  rw [same.1.spi]
  exact invoke_agrees agrees _

theorem deliver_agrees (api : Nat) (cb : TraderCallback) :
    Agrees (Same lib) veiled (deliver lib env api cb) (deliver lib env api cb) := by
  refine .get_bind fun s t same => ?_
  rw [same.1.registered]
  exact invoke_agrees (CTraderSpi.callback_agrees cb) _

theorem login_agrees (c hdl : Nat) {root root' : Value} (same : SameLogin lib root root') :
    Agrees (Same lib) veiled (login lib c hdl root) (login lib c hdl root') := by
  have half : ∀ {α : Type} {op op' : HalfM CTraderSpi α} {op'' : HalfM (CTraderSpi × Option Bool) α},
      Handler.Follows (Half.map (CTraderSpi.veil lib)) op op'' →
      Handler.Follows (Half.map (CTraderSpi.veil lib)) op' op'' →
      Agrees (Same lib) veiled (onHalf op) (onHalf op') :=
    fun left right => onHalf_agrees (Half.follows_agrees left right)
  refine .bind (.ofExcept (same.arg _ (by decide))) fun saddr => .bind (.ofExcept same.id) fun loginID =>
    .bind (emit_agrees _) fun _ => .bind (.ofExcept (same.arg _ (by decide))) fun brokerID =>
    .bind (emit_agrees _) fun _ => .bind (.ofExcept (same.arg _ (by decide))) fun investorID =>
    .bind (emit_agrees _) fun _ => ?_
  refine .bind (half (Half.releaseOld_follows _) (Half.releaseOld_follows _)) fun _ =>
    .bind (half (Half.create_follows _) (Half.create_follows _)) fun api =>
    .bind (half (Half.newSpi_follows _ _) (Half.newSpi_follows _ _)) fun p =>
    .bind (half (Half.registerSpi_follows _ _ _) (Half.registerSpi_follows _ _ _)) fun _ =>
    .bind (invoke_agrees (CTraderSpi.setWebsocket_agrees c hdl) _) fun _ => ?_
  refine same.password_agrees fun pw pw' fits => ?_
  exact .bind (invoke_agrees (CTraderSpi.setUserLoginInfo_agrees loginID _ _ fits) _) fun _ =>
    .bind (half (Half.registerFront_follows _ _ _) (Half.registerFront_follows _ _ _)) fun _ =>
    half (Half.init_follows _ _) (Half.init_follows _ _)

theorem teardown_agrees : Agrees (Same lib) veiled (onHalf Half.teardown) (onHalf Half.teardown) :=
  onHalf_agrees (Half.follows_agrees (Half.teardown_follows _) (Half.teardown_follows _))

end TraderHalf

namespace MdHalf

/-- Market-data halves that differ in passwords at most, and not in whether they fit. -/
abbrev Same (lib : Lib) : Half CMdSpi → Half CMdSpi → Prop := Half.SameUnder (CMdSpi.veil lib)

variable {lib : Lib} {env : Env}

theorem invoke_agrees {x y : MdM Unit} (agrees : Agrees (CMdSpi.SameSpi lib) veiled x y) (p : Option Nat) :
    Agrees (Same lib) veiled (invoke p x) (invoke p y) := by
  cases p with
  | none => exact .abort _
  | some p =>
    have focused : Agrees (Same lib) veiled
        (focus (fun t => t.object p) (fun s t => t.store p s) .wildPointer x)
        (focus (fun t => t.object p) (fun s t => t.store p s) .wildPointer y) := by
      refine agrees.focus ?_ ?_
      · exact fun s t same => Half.SameUnder.object same p
      · exact fun s t a b same objects => Half.SameUnder.store same p objects
    exact focused

theorem call_agrees {x y : MdM Unit} (agrees : Agrees (CMdSpi.SameSpi lib) veiled x y) :
    Agrees (Same lib) veiled (call x) (call y) := by
  refine .get_bind fun s t same => ?_
  rw [same.spi]
  exact invoke_agrees agrees _

theorem deliver_agrees (api : Nat) (cb : MdCallback) :
    Agrees (Same lib) veiled (deliver lib env api cb) (deliver lib env api cb) := by
  refine .get_bind fun s t same => ?_
  rw [same.registered]
  exact invoke_agrees (CMdSpi.callback_agrees cb) _

theorem login_agrees (c hdl : Nat) {root root' : Value} (same : SameLogin lib root root') :
    Agrees (Same lib) veiled (login lib env c hdl root) (login lib env c hdl root') := by
  have half : ∀ {α : Type} {op op' : HalfM CMdSpi α} {op'' : HalfM (CMdSpi × Option Bool) α},
      Handler.Follows (Half.map (CMdSpi.veil lib)) op op'' →
      Handler.Follows (Half.map (CMdSpi.veil lib)) op' op'' → Agrees (Same lib) veiled op op' :=
    fun left right => Half.follows_agrees left right
  refine .bind (half (Half.releaseOld_follows _) (Half.releaseOld_follows _)) fun _ =>
    .bind (half (Half.create_follows _) (Half.create_follows _)) fun api =>
    .bind (half (Half.newSpi_follows _ _) (Half.newSpi_follows _ _)) fun p =>
    .bind (half (Half.registerSpi_follows _ _ _) (Half.registerSpi_follows _ _ _)) fun _ =>
    .bind (.ofExcept (same.arg _ (by decide))) fun saddr => .bind (emit_agrees _) fun _ =>
    .bind (.ofExcept same.id) fun loginID => .bind (invoke_agrees (CMdSpi.setWebsocket_agrees c hdl) _) fun _ =>
    .bind (.ofExcept (same.arg _ (by decide))) fun brokerID =>
    .bind (.ofExcept (same.arg _ (by decide))) fun investorID => ?_
  refine same.password_agrees fun pw pw' fits => ?_
  exact .bind (invoke_agrees (CMdSpi.setUserLoginInfo_agrees loginID _ _ fits) _) fun _ =>
    .bind (half (Half.registerFront_follows _ _ _) (Half.registerFront_follows _ _ _)) fun _ =>
    half (Half.init_follows _ _) (Half.init_follows _ _)

end MdHalf

end MFutures
