import MFutures.Frames
import MFutures.Reconnect

namespace MFutures
open Handler Bridge

/-- All that `setWebsocket` and `setUserLoginInfo` store has been stored. -/
structure Identity.Ready (i : Identity) : Prop where
  client : i.client.isSome = true
  hdl : i.hdl.isSome = true
  brokerID : i.brokerID.isSome = true
  investorID : i.investorID.isSome = true
  password : i.password.isSome = true

theorem mem_modify {α : Type} {l : List α} {i : Nat} {f : α → α} {a : α} (member : a ∈ l.modify i f) :
    ∃ b ∈ l, a = b ∨ a = f b := by
  obtain ⟨j, bound, value⟩ := List.mem_iff_getElem.mp member
  have inside : j < l.length := by simpa using bound
  refine ⟨l[j], List.getElem_mem inside, ?_⟩
  rw [List.getElem_modify] at value
  split at value
  · exact .inr value.symm
  · exact .inl value.symm

theorem modify_concat {α : Type} {l : List α} {n : Nat} (length : l.length = n) (a : α) (f : α → α) :
    (l ++ [a]).modify n f = l ++ [f a] := by
  subst length
  induction l with
  | nil => rfl
  | cons b l ih => simpa using ih

namespace Half
variable {S : Type}

theorem object_lt {x : Half S} {p : Nat} {s : S} (found : x.object p = some s) : p < x.spis.length := by
  by_contra beyond
  simp [object, List.getElem?_eq_none (Nat.not_lt.mp beyond)] at found

theorem object_store_self {x : Half S} {p : Nat} {s : S} (found : x.object p = some s) (s' : S) :
    (x.store p s').object p = some s' := by
  simp [object, store, List.getElem?_set_self (object_lt found)]

theorem object_store_ne {x : Half S} {p q : Nat} (different : p ≠ q) (s : S) :
    (x.store p s).object q = x.object q := by
  simp [object, store, List.getElem?_set_ne different]

/-- One half between two handlers. `opened` is the connection that is open. -/
structure Inv (ident : S → Identity) (opened : Option Nat) (x : Half S) : Prop where
  paired : x.api = none ↔ x.spi = none
  current : ∀ h p, x.api = some h → x.spi = some p → ∃ s a, x.object p = some s ∧
    x.apis[h]? = some a ∧ (ident s).api = h ∧ a.registered = some p ∧ a.inited = true ∧
    a.released = 0 ∧ (ident s).Ready ∧ opened.isSome = true ∧ (ident s).client = opened ∧
    (ident s).hdl = opened
  ended : ∀ h a, x.apis[h]? = some a → x.api ≠ some h → a.released = 1
  inits : ∀ a ∈ x.apis, a.inited = true → ∃ s, a.initSpi = some s ∧ (ident s).Ready

variable {ident : S → Identity} {opened : Option Nat} {x : Half S}

/-- A session is the one thing that needs an open connection. -/
theorem Inv.idle (inv : x.Inv ident opened) (idle : x.api = none) (other : Option Nat) :
    x.Inv ident other where
  paired := inv.paired
  current := fun h p atApi => by simp [idle] at atApi
  ended := inv.ended
  inits := inv.inits

theorem Inv.closed (inv : x.Inv ident none) : x.api = none := by
  by_contra session
  obtain ⟨h, atApi⟩ := Option.ne_none_iff_exists'.mp session
  have paired : x.spi ≠ none := fun none => session (inv.paired.mpr none)
  obtain ⟨p, atSpi⟩ := Option.ne_none_iff_exists'.mp paired
  obtain ⟨_, _, _, _, _, _, _, _, _, some, _⟩ := inv.current h p atApi atSpi
  simp at some

theorem Inv.store (inv : x.Inv ident opened) {p : Nat} {s s' : S} (found : x.object p = some s)
    (same : ident s' = ident s) : (x.store p s').Inv ident opened where
  paired := inv.paired
  current := by
    intro h q atApi atSpi
    obtain ⟨t, a, atT, atA, rest⟩ := inv.current h q atApi atSpi
    by_cases here : p = q
    · subst here
      have equal : s = t := Option.some.inj (found.symm.trans atT)
      subst equal
      exact ⟨s', a, object_store_self found s', atA, by simpa only [same] using rest⟩
    · exact ⟨t, a, (object_store_ne here s').trans atT, atA, rest⟩
  ended := inv.ended
  inits := inv.inits

theorem retire_length (x : Half S) (f : Api S → Api S) : (x.retire f).length = x.apis.length := by
  unfold retire
  split <;> simp

/-- Releasing the current API once leaves every API released once. -/
theorem Inv.retire_released (inv : x.Inv ident opened) {f : Api S → Api S}
    (once : ∀ a, (f a).released = a.released + 1) {h : Nat} {a : Api S}
    (atA : (x.retire f)[h]? = some a) : a.released = 1 := by
  cases session : x.api with
  | none =>
    simp only [retire, session] at atA
    exact inv.ended h a atA (by simp [session])
  | some k =>
    have paired : x.spi ≠ none := fun none => by simp [inv.paired.mpr none] at session
    obtain ⟨p, atSpi⟩ := Option.ne_none_iff_exists'.mp paired
    obtain ⟨_, b, _, atB, _, _, _, fresh, _⟩ := inv.current k p session atSpi
    simp only [retire, session] at atA
    by_cases here : k = h
    · subst here
      rw [List.getElem?_modify_eq, atB] at atA
      cases Option.some.inj atA
      rw [once, fresh]
    · rw [List.getElem?_modify_ne _ _ here] at atA
      exact inv.ended h a atA (by simpa [session] using here)

theorem Inv.retire_inits (inv : x.Inv ident opened) {f : Api S → Api S} {a : Api S}
    (member : a ∈ x.retire f) (started : a.inited = true)
    (inited : ∀ a, (f a).inited = a.inited) (initSpi : ∀ a, (f a).initSpi = a.initSpi) :
    ∃ s, a.initSpi = some s ∧ (ident s).Ready := by
  unfold retire at member
  split at member
  · obtain ⟨b, old, rfl | rfl⟩ := mem_modify member
    · exact inv.inits _ old started
    · rw [initSpi]
      exact inv.inits b old (by rw [← inited, started])
  · exact inv.inits a member started

theorem Inv.torn (inv : x.Inv ident opened) : x.torn.Inv ident none where
  paired := by simp [Half.torn]
  current := by simp [Half.torn]
  ended := fun _ _ atA _ => inv.retire_released (fun _ => rfl) atA
  inits := fun _ member started => inv.retire_inits member started (fun _ => rfl) (fun _ => rfl)

/-- What a completed login message makes of a half: the old API is released, a
new API and a new SPI take over, and nothing becomes of the old SPI. -/
def installed (x : Half S) (s : S) (addr : String) : Half S where
  api := some x.apis.length
  spi := some x.spis.length
  apis := (x.retire fun a => { a with released := a.released + 1 }) ++
    [{ registered := some x.spis.length, front := some addr, inited := true, initSpi := some s }]
  spis := x.spis ++ [some s]

theorem Inv.installed (inv : x.Inv ident opened) {s : S} {c : Nat} (addr : String)
    (api : (ident s).api = x.apis.length) (ready : (ident s).Ready)
    (client : (ident s).client = some c) (hdl : (ident s).hdl = some c) :
    (x.installed s addr).Inv ident (some c) where
  paired := by simp [Half.installed]
  current := by
    intro h p atApi atSpi
    cases Option.some.inj atApi
    cases Option.some.inj atSpi
    exact ⟨s, { registered := some x.spis.length, front := some addr, inited := true, initSpi := some s },
      by simp [object, Half.installed], by simp [Half.installed, retire_length],
      api, rfl, rfl, rfl, ready, rfl, client, hdl⟩
  ended := by
    intro h a atA other
    have different : h ≠ x.apis.length := fun same => other (by rw [same]; rfl)
    simp only [Half.installed, List.getElem?_append, retire_length] at atA
    split at atA
    · exact inv.retire_released (fun _ => rfl) atA
    · rename_i beyond
      rw [List.getElem?_eq_none (by simp only [List.length_singleton]; omega)] at atA
      simp at atA
  inits := by
    intro a member started
    rcases List.mem_append.mp member with old | new
    · exact inv.retire_inits old started (fun _ => rfl) (fun _ => rfl)
    · cases List.mem_singleton.mp new
      exact ⟨s, rfl, ready⟩

end Half

namespace TraderHalf
variable {lib : Lib} {env : Env}

/-- The SPI object a login message sets up. -/
def sessionSpi (api c hdl : Nat) (loginID : Int) (brokerID investorID password : String) : CTraderSpi where
  tpUserApi := api
  mClient := some c
  mHdl := some hdl
  brokerID := some brokerID
  investorID := some investorID
  password := some password
  loginID := some loginID

/-- What a login message says, when all of it converts. -/
structure LoginArgs (lib : Lib) (root : Value) (loginID : Int) (addr brokerID investorID password : String) : Prop where
  url : lib.argString root "URL" = .ok addr
  id : uniqueID root = .ok loginID
  broker : lib.argString root "BROKER_ID" = .ok brokerID
  investor : lib.argString root "INVESTOR_ID" = .ok investorID
  pass : lib.argString root "PASSWORD" = .ok password

theorem login_args {c hdl : Nat} {root : Value} {t : TraderHalf}
    (done : (login lib c hdl root t).val = .ok ()) :
    ∃ loginID addr brokerID investorID password,
      LoginArgs lib root loginID addr brokerID investorID password := by
  obtain ⟨addr, url, done⟩ := bind_ok done
  obtain ⟨loginID, id, done⟩ := bind_ok done
  obtain ⟨_, _, done⟩ := bind_ok done
  obtain ⟨brokerID, broker, done⟩ := bind_ok done
  obtain ⟨_, _, done⟩ := bind_ok done
  obtain ⟨investorID, investor, done⟩ := bind_ok done
  obtain ⟨_, _, done⟩ := bind_ok done
  obtain ⟨_, _, done⟩ := bind_ok done
  obtain ⟨_, _, done⟩ := bind_ok done
  obtain ⟨_, _, done⟩ := bind_ok done
  obtain ⟨_, _, done⟩ := bind_ok done
  obtain ⟨_, _, done⟩ := bind_ok done
  obtain ⟨password, pass, done⟩ := bind_ok done
  exact ⟨loginID, addr, brokerID, investorID, password, url, id, broker, investor, pass⟩

theorem login_run (c hdl : Nat) {root : Value} (t : TraderHalf) {loginID : Int}
    {addr brokerID investorID password : String}
    (args : LoginArgs lib root loginID addr brokerID investorID password) :
    ∃ log, login lib c hdl root t = ⟨log, {
      toHalf := t.toHalf.installed (sessionSpi t.apis.length c hdl loginID (cStr brokerID)
        (cStr investorID) (cStr password)) (cStr addr)
      iRequestID := 0 }, .ok ()⟩ := by
  obtain ⟨url, id, broker, investor, pass⟩ := args
  rcases t with ⟨⟨api, spi, apis, spis⟩, iRequestID⟩
  cases api <;>
    simp [login, bind_run, url, id, broker, cout, investor, pass, onHalf, Half.releaseOld,
      Half.release, Half.create, Half.newSpi, Half.registerSpi, Half.registerFront, Half.init, invoke,
      focus, ctx?, putCtx, Half.object, Half.store, Half.updateApi, CTraderSpi.setWebsocket,
      CTraderSpi.setUserLoginInfo, Half.installed, Half.retire, sessionSpi, modify_concat]

/-- A method call writes nothing but the object it is made on. -/
theorem invoke_half {x : TraderM Unit} (keeps : Keeps (fun c => c.self.identity) x)
    (p : Option Nat) (t : TraderHalf) :
    (invoke p x t).state.toHalf = t.toHalf ∨ ∃ q s s', p = some q ∧ t.object q = some s ∧
      s'.identity = s.identity ∧ (invoke p x t).state.toHalf = t.toHalf.store q s' := by
  cases p with
  | none => exact .inl rfl
  | some q =>
    cases found : t.object q with
    | none => exact .inl (by simp [invoke, focus, ctx?, found])
    | some s =>
      have view : ctx? q t = some ⟨s, t.iRequestID⟩ := by simp [ctx?, found]
      refine .inr ⟨q, s, (x ⟨s, t.iRequestID⟩).state.self, rfl, found, keeps _, ?_⟩
      simp [invoke, focus_run view, putCtx]

theorem invoke_inv {x : TraderM Unit} (keeps : Keeps (fun c => c.self.identity) x) (p : Option Nat)
    {t : TraderHalf} {opened : Option Nat} (inv : t.toHalf.Inv CTraderSpi.identity opened) :
    (invoke p x t).state.toHalf.Inv CTraderSpi.identity opened := by
  rcases invoke_half keeps p t with same | ⟨q, s, s', _, found, ident, stored⟩
  · rwa [same]
  · rw [stored]
    exact inv.store found ident

end TraderHalf

namespace MdHalf
variable {lib : Lib} {env : Env}

/-- The SPI object a login message sets up. -/
def sessionSpi (env : Env) (api c hdl : Nat) (brokerID investorID password : String) : CMdSpi where
  mpUserApi := api
  mClient := some c
  mHdl := some hdl
  brokerID := some brokerID
  investorID := some investorID
  password := some password
  iRequestID := env.stale

/-- What a login message says, when all of it converts. -/
structure LoginArgs (lib : Lib) (root : Value) (loginID : Int)
    (addr brokerID investorID password : String) : Prop where
  url : lib.argString root "MarketUrl" = .ok addr
  id : uniqueID root = .ok loginID
  broker : lib.argString root "BROKER_ID" = .ok brokerID
  investor : lib.argString root "INVESTOR_ID" = .ok investorID
  pass : lib.argString root "PASSWORD" = .ok password

theorem login_args {c hdl : Nat} {root : Value} {t : Half CMdSpi}
    (done : (login lib env c hdl root t).val = .ok ()) :
    ∃ loginID addr brokerID investorID password,
      LoginArgs lib root loginID addr brokerID investorID password := by
  obtain ⟨_, _, done⟩ := bind_ok done
  obtain ⟨_, _, done⟩ := bind_ok done
  obtain ⟨_, _, done⟩ := bind_ok done
  obtain ⟨_, _, done⟩ := bind_ok done
  obtain ⟨addr, url, done⟩ := bind_ok done
  obtain ⟨_, _, done⟩ := bind_ok done
  obtain ⟨loginID, id, done⟩ := bind_ok done
  obtain ⟨_, _, done⟩ := bind_ok done
  obtain ⟨brokerID, broker, done⟩ := bind_ok done
  obtain ⟨investorID, investor, done⟩ := bind_ok done
  obtain ⟨password, pass, done⟩ := bind_ok done
  exact ⟨loginID, addr, brokerID, investorID, password, url, id, broker, investor, pass⟩

theorem login_run (env : Env) (c hdl : Nat) {root : Value} (t : Half CMdSpi) {loginID : Int}
    {addr brokerID investorID password : String}
    (args : LoginArgs lib root loginID addr brokerID investorID password) :
    ∃ log, login lib env c hdl root t = ⟨log,
      t.installed (sessionSpi env t.apis.length c hdl (cStr brokerID) (cStr investorID) (cStr password))
        (cStr addr), .ok ()⟩ := by
  obtain ⟨url, id, broker, investor, pass⟩ := args
  rcases t with ⟨api, spi, apis, spis⟩
  cases api <;>
    simp [login, bind_run, url, id, broker, cout, investor, pass, Half.releaseOld, Half.release,
      Half.create, Half.newSpi, Half.registerSpi, Half.registerFront, Half.init, invoke, focus,
      Half.object, Half.store, Half.updateApi, CMdSpi.setWebsocket, CMdSpi.setUserLoginInfo,
      Half.installed, Half.retire, sessionSpi, modify_concat]

/-- A method call writes nothing but the object it is made on. -/
theorem invoke_half {x : MdM Unit} (keeps : Keeps CMdSpi.identity x) (p : Option Nat)
    (t : Half CMdSpi) :
    (invoke p x t).state = t ∨ ∃ q s s', p = some q ∧ t.object q = some s ∧
      s'.identity = s.identity ∧ (invoke p x t).state = t.store q s' := by
  cases p with
  | none => exact .inl rfl
  | some q =>
    cases found : t.object q with
    | none => exact .inl (by simp [invoke, focus, found])
    | some s =>
      refine .inr ⟨q, s, (x s).state, rfl, found, keeps _, ?_⟩
      simp [invoke, focus, found]

theorem invoke_inv {x : MdM Unit} (keeps : Keeps CMdSpi.identity x) (p : Option Nat)
    {t : Half CMdSpi} {opened : Option Nat} (inv : t.Inv CMdSpi.identity opened) :
    (invoke p x t).state.Inv CMdSpi.identity opened := by
  rcases invoke_half keeps p t with same | ⟨q, s, s', _, found, ident, stored⟩
  · rwa [same]
  · rw [stored]
    exact inv.store found ident

end MdHalf

/-- The connection that is open now. -/
def Net.opened (net : Net) : Option Nat :=
  match net.loops with
  | l :: _ => if l.conn = .opened then some l.client else none
  | [] => none

/-- The invariant of the whole bridge. -/
structure Bridge.Inv (lib : Lib) (b : Bridge) : Prop where
  net : b.net.Inv lib
  trader : b.trader.toHalf.Inv CTraderSpi.identity b.net.opened
  md : b.md.Inv CMdSpi.identity b.net.opened

/-- The branches of the dispatcher keep both halves in order, on the connection
that is open. -/
theorem dispatch_inv {lib : Lib} {env : Env} {b : Bridge} {c : Nat} (root : Value) (type : ReqType)
    (opened : b.net.opened = some c) (inv : b.Inv lib)
    (done : (dispatch lib env c c root type b).val = .ok ()) :
    (dispatch lib env c c root type b).state.Inv lib := by
  obtain ⟨net, trader, md⟩ := inv
  cases type with
  | onConnect => exact ⟨net, TraderHalf.invoke_inv (CTraderSpi.onRspConnect_keeps lib env) _ trader, md⟩
  | reqUserLogin =>
    obtain ⟨loginID, addr, brokerID, investorID, password, args⟩ := TraderHalf.login_args done
    obtain ⟨log, run⟩ := TraderHalf.login_run c c b.trader args
    refine ⟨net, ?_, md⟩
    change ((TraderHalf.login lib c c root b.trader).state.toHalf).Inv _ b.net.opened
    rw [run, opened]
    exact trader.installed _ rfl ⟨rfl, rfl, rfl, rfl, rfl⟩ rfl rfl
  | mdReqUserLogin =>
    obtain ⟨loginID, addr, brokerID, investorID, password, args⟩ := MdHalf.login_args done
    obtain ⟨log, run⟩ := MdHalf.login_run env c c b.md args
    refine ⟨net, trader, ?_⟩
    change ((MdHalf.login lib env c c root b.md).state).Inv _ b.net.opened
    rw [run, opened]
    exact md.installed _ rfl ⟨rfl, rfl, rfl, rfl, rfl⟩ rfl rfl
  | reqSettlementInfoConfirm =>
    exact ⟨net, TraderHalf.invoke_inv (CTraderSpi.reqSettlementInfoConfirm_keeps lib env root).weaken _ trader, md⟩
  | reqOrderInsert =>
    exact ⟨net, TraderHalf.invoke_inv (CTraderSpi.reqOrderInsert_keeps lib env root).weaken _ trader, md⟩
  | reqOrderAction =>
    exact ⟨net, TraderHalf.invoke_inv ((CTraderSpi.reqOrderAction_keeps lib env root).map CTraderSpi.identity) _ trader, md⟩
  | mdSubscribeMarketData =>
    exact ⟨net, trader, MdHalf.invoke_inv (CMdSpi.mdSubscribeMarketData_keeps lib env root).weaken _ md⟩
  | reqQryTradingAccount =>
    exact ⟨net, TraderHalf.invoke_inv (CTraderSpi.reqQryTradingAccount_keeps lib env root).weaken _ trader, md⟩
  | reqQryInvestorPosition =>
    exact ⟨net, TraderHalf.invoke_inv (CTraderSpi.reqQryInvestorPosition_keeps lib env root).weaken _ trader, md⟩
  | reqQryInstrument =>
    exact ⟨net, TraderHalf.invoke_inv ((CTraderSpi.reqQryInstrument_keeps env).map CTraderSpi.identity) _ trader, md⟩
  | unknown => exact ⟨net, trader, md⟩

theorem onMessage_inv {lib : Lib} {env : Env} {b : Bridge} {c : Nat} {payload : String}
    (opened : b.net.opened = some c) (inv : b.Inv lib)
    (done : (onMessage lib env c c payload b).val = .ok ()) :
    (onMessage lib env c c payload b).state.Inv lib := by
  obtain ⟨root, type, read, ofType, dispatched⟩ := onMessage_ok done
  rw [onMessage_run read ofType]
  exact dispatch_inv root type opened inv dispatched

theorem Net.opened_of_conn {net : Net} (conn : net.conn = some .opened) :
    ∃ l ls, net.loops = l :: ls ∧ net.opened = some l.client := by
  unfold Net.conn at conn
  unfold Net.opened
  cases loops : net.loops with
  | nil => simp [loops] at conn
  | cons l ls =>
    have innermost : l.conn = .opened := by simpa [loops] using conn
    exact ⟨l, ls, rfl, by simp [innermost]⟩

theorem Net.opened_of_connecting {net : Net} (conn : net.conn = some .connecting) :
    net.opened = none := by
  unfold Net.conn at conn
  unfold Net.opened
  cases loops : net.loops with
  | nil => rfl
  | cons l ls =>
    have innermost : l.conn = .connecting := by simpa [loops] using conn
    simp [innermost]

theorem handle_bridge_inv {lib : Lib} {b : Bridge} {ev : Env × Event} (inv : b.Inv lib)
    (able : Enabled b ev) (done : (handle lib ev b).val = .ok ()) : (handle lib ev b).state.Inv lib := by
  have netInv := handle_inv inv.net able
  obtain ⟨env, event⟩ := ev
  cases event with
  | opened =>
    obtain ⟨log, run⟩ := handle_opened env lib b
    rw [run] at netInv ⊢
    have idle := Net.opened_of_connecting able
    exact ⟨netInv, inv.trader.idle (idle ▸ inv.trader).closed _, inv.md.idle (idle ▸ inv.md).closed _⟩
  | closed | failed =>
    obtain ⟨log, net, waiting, run⟩ := handle_ended inv.net able (by simp)
    rw [run] at netInv ⊢
    have idle := Net.opened_of_connecting waiting
    exact ⟨netInv, idle ▸ inv.trader.torn, idle ▸ inv.md.torn⟩
  | message payload =>
    obtain ⟨l, ls, loops, opened⟩ := Net.opened_of_conn able
    simp only [handle, bind_run, get_run, andThen_ok, loops] at done ⊢
    exact onMessage_inv opened inv done
  | trader api cb =>
    exact ⟨inv.net, TraderHalf.invoke_inv (CTraderSpi.callback_keeps lib env cb) _ inv.trader, inv.md⟩
  | md api cb =>
    exact ⟨inv.net, inv.trader, MdHalf.invoke_inv (CMdSpi.callback_keeps lib env cb) _ inv.md⟩

theorem Half.Inv.empty {S : Type} (ident : S → Identity) (opened : Option Nat) :
    ({} : Half S).Inv ident opened where
  paired := by simp
  current := by simp
  ended := by simp
  inits := by simp

theorem started_bridge_inv {lib : Lib} {b : Bridge} (start : Started lib b) : b.Inv lib := by
  have net := started_inv start
  obtain ⟨_, state⟩ := started_state start
  refine ⟨net, ?_, ?_⟩ <;> rw [state]
  · exact .empty _ _
  · exact .empty _ _

theorem Reachable.inv {lib : Lib} {b : Bridge} (reach : Reachable lib b) : b.Inv lib :=
  EventSystem.Reach.invariant (P := fun b => b.Inv lib) (fun _ start => started_bridge_inv start)
    (fun _ _ inv able done => handle_bridge_inv inv able done) reach

/-- The session invariant of one half: what holds of its two globals, of every
API object and of the SPI, with `opened` the connection that is open. -/
structure Half.SessionInvariant {S : Type} (ident : S → Identity) (opened : Option Nat) (x : Half S) :
    Prop where
  paired : x.api = none ↔ x.spi = none
  registered : ∀ p, x.spi = some p → ∃ s h a, x.object p = some s ∧ x.api = some h ∧
    (ident s).api = h ∧ x.apis[h]? = some a ∧ a.registered = some p ∧ a.released = 0
  released : ∀ h a, x.apis[h]? = some a → x.api = some h ∧ a.released = 0 ∨ x.api ≠ some h ∧ a.released = 1
  inits : ∀ a ∈ x.apis, a.inited = true → ∃ s, a.initSpi = some s ∧ (ident s).Ready
  connection : ∀ p s, x.spi = some p → x.object p = some s →
    ∃ c, opened = some c ∧ (ident s).client = some c ∧ (ident s).hdl = some c

theorem Half.Inv.session {S : Type} {ident : S → Identity} {opened : Option Nat} {x : Half S}
    (inv : x.Inv ident opened) : x.SessionInvariant ident opened where
  paired := inv.paired
  registered := by
    intro p atSpi
    have session : x.api ≠ none := fun none => by simp [inv.paired.mp none] at atSpi
    obtain ⟨h, atApi⟩ := Option.ne_none_iff_exists'.mp session
    obtain ⟨s, a, atS, atA, api, registered, _, released, _⟩ := inv.current h p atApi atSpi
    exact ⟨s, h, a, atS, atApi, api, atA, registered, released⟩
  released := by
    intro h a atA
    by_cases session : x.api = some h
    · have paired : x.spi ≠ none := fun none => by simp [inv.paired.mpr none] at session
      obtain ⟨p, atSpi⟩ := Option.ne_none_iff_exists'.mp paired
      obtain ⟨_, a', _, atA', _, _, _, released, _⟩ := inv.current h p session atSpi
      cases Option.some.inj (atA.symm.trans atA')
      exact .inl ⟨session, released⟩
    · exact .inr ⟨session, inv.ended h a atA session⟩
  inits := inv.inits
  connection := by
    intro p s atSpi atS
    have session : x.api ≠ none := fun none => by simp [inv.paired.mp none] at atSpi
    obtain ⟨h, atApi⟩ := Option.ne_none_iff_exists'.mp session
    obtain ⟨t, a, atT, _, _, _, _, _, _, isOpen, client, hdl⟩ := inv.current h p atApi atSpi
    obtain ⟨c, opened⟩ := Option.isSome_iff_exists.mp isOpen
    cases Option.some.inj (atS.symm.trans atT)
    exact ⟨c, opened, client.trans opened, hdl.trans opened⟩

/-- The session invariant of both halves holds between any two handler
activations, and the open connection it speaks of is none that has closed. -/
theorem session_invariant (lib : Lib) (b : Bridge) (reach : Reachable lib b) :
    b.trader.toHalf.SessionInvariant CTraderSpi.identity b.net.opened ∧
    b.md.SessionInvariant CMdSpi.identity b.net.opened ∧
    ∀ c, b.net.opened = some c → ∀ k ∈ b.net.loops, k.conn = .closed → k.client ≠ c := by
  refine ⟨reach.inv.trader.session, reach.inv.md.session, fun c opened k member closed same => ?_⟩
  obtain ⟨_, distinct, _, l, ls, loops, _, _, _⟩ := reach.net_inv
  rw [loops] at distinct member
  have isOpen : l.conn = .opened ∧ l.client = c := by simpa [Net.opened, loops] using opened
  rcases List.mem_cons.mp member with here | beneath
  · simp [here, isOpen.1] at closed
  · have other := (List.nodup_cons.mp distinct).1
    exact other (by rw [isOpen.2, ← same]; exact List.mem_map_of_mem beneath)

/-- A server that logs in to both halves on the first connection. -/
def bothLogins : List Value :=
  [serverMessage "ReqUserLogin" 1 (loginArgs "secret"), serverMessage "MdReqUserLogin" 2 (mdLoginArgs "secret")]

/-- An activation during which the websocket is usable. -/
def Env.up : Env := { (default : Env) with sendOk := true }

def bothLoggedIn : List (Env × Event) :=
  (.up, .opened) :: bothLogins.map fun root => (.up, .message root.text)

set_option maxRecDepth 4000 in
theorem session_invariant_logged_in :
    let b := ((bridge (.plain bothLogins)).run bothLoggedIn (Bridge.listening (.plain bothLogins))).state
    b.trader.toHalf.SessionInvariant CTraderSpi.identity b.net.opened ∧
    b.md.SessionInvariant CMdSpi.identity b.net.opened ∧
    ∀ c, b.net.opened = some c → ∀ k ∈ b.net.loops, k.conn = .closed → k.client ≠ c :=
  session_invariant (.plain bothLogins) _ (EventSystem.Reach.run (.start (started_listening rfl))
    ⟨rfl, fun _ => ⟨rfl, fun _ => ⟨rfl, fun _ => trivial⟩⟩⟩ rfl)

/-- After both logins the trading front connects and accepts its login. -/
def frontUp : List (Env × Event) :=
  bothLoggedIn ++ [(.up, .trader 0 .onFrontConnected),
    (.up, .trader 0 (.onRspUserLogin (some default) none 1 true))]

/-- Libraries that read both login messages and some more. -/
def loginLib (more : List Value) : Lib := .plain (bothLogins ++ more)

theorem loginLib_read {root : Value} {more : List Value} (new : ∀ login ∈ bothLogins, root.text ≠ login.text) :
    readStrJson (loginLib (root :: more)) root.text = .ok root := by
  have miss : (bothLogins.map fun login => (login.text, login)).lookup root.text = none := by
    refine List.lookup_eq_none_iff.mpr fun p member => ?_
    obtain ⟨login, here, rfl⟩ := List.mem_map.mp member
    simpa using new login here
  simp [readStrJson, loginLib, Lib.plain, List.lookup_append, miss]

/-- The bridge with a front that has accepted its login. -/
def Bridge.frontUp (more : List Value) : Bridge :=
  ((bridge (loginLib more)).run MFutures.frontUp (Bridge.listening (loginLib more))).state

set_option maxRecDepth 4000 in
theorem frontUp_reachable (more : List Value) : Reachable (loginLib more) (Bridge.frontUp more) :=
  EventSystem.Reach.run (.start (started_listening rfl))
    ⟨rfl, fun _ => ⟨rfl, fun _ => ⟨rfl, fun _ => ⟨⟨_, rfl, rfl, rfl, rfl⟩, fun _ =>
      ⟨⟨_, rfl, rfl, rfl, rfl⟩, fun _ => trivial⟩⟩⟩⟩⟩ rfl

end MFutures
