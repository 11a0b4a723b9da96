import MFutures.SessionInvariant
import MFutures.Conversion

namespace MFutures
open Handler Bridge

namespace Half
variable {S : Type}

/-- An API object that has not been released. -/
def Alive (x : Half S) (h : Nat) : Prop := ∃ a, x.apis[h]? = some a ∧ a.released = 0

/-- The credentials that the current SPI stores. -/
def credentials (ident : S → Identity) (x : Half S) : Option (Option String × Option String × Option String) :=
  (x.spi.bind x.object).map fun s => ((ident s).brokerID, (ident s).investorID, (ident s).password)

/-- Both pointers, the APIs that are alive and the stored credentials are what they were. -/
structure Undisturbed (ident : S → Identity) (x y : Half S) : Prop where
  api : y.api = x.api
  spi : y.spi = x.spi
  alive : ∀ h, y.Alive h ↔ x.Alive h
  credentials : y.credentials ident = x.credentials ident

/-- The current API of the first state is replaced or released in the second. -/
def GivesUp (x y : Half S) : Prop := ∃ h, x.api = some h ∧ (y.api ≠ some h ∨ x.Alive h ∧ ¬ y.Alive h)

/-- The current session is complete: its API has an SPI and a front and was
initialised, and the SPI has its connection and its credentials. -/
def Configured (ident : S → Identity) (x : Half S) : Prop :=
  ∃ h p s a, x.api = some h ∧ x.spi = some p ∧ x.object p = some s ∧ x.apis[h]? = some a ∧
    a.registered = some p ∧ a.front.isSome = true ∧ a.inited = true ∧ a.released = 0 ∧ (ident s).Ready

/-- What a login message leaves that fails after the switch: the old API is
released, a new API and a new SPI have taken over, and `Init` is never called. -/
def begun (x : Half S) (s : S) : Half S where
  api := some x.apis.length
  spi := some x.spis.length
  apis := (x.retire fun a => { a with released := a.released + 1 }) ++ [{ registered := some x.spis.length }]
  spis := x.spis ++ [some s]

/-- A login message is atomic for a half: a conversion that throws does not
disturb it, and its session is given up only for one that is complete. -/
structure LoginAtomic (ident : S → Identity) (x y : Half S) (val : Except Fault Unit) : Prop where
  throws : val = .error .jsonError → x.Undisturbed ident y
  replaced : x.GivesUp y → y.Configured ident

variable {ident : S → Identity} {x : Half S}

theorem Undisturbed.refl (ident : S → Identity) (x : Half S) : x.Undisturbed ident x where
  api := rfl
  spi := rfl
  alive := fun _ => Iff.rfl
  credentials := rfl

theorem LoginAtomic.refl (x : Half S) (val : Except Fault Unit) : x.LoginAtomic ident x val where
  throws := fun _ => .refl ident x
  replaced := by
    rintro ⟨h, session, other | ⟨alive, dead⟩⟩
    · exact absurd session other
    · exact absurd alive dead

/-- The new API was not there before. -/
theorem not_loginAtomic_begun (s : S) : ¬ x.LoginAtomic ident (x.begun s) (.error .jsonError) := by
  intro atomic
  have fresh : (x.begun s).Alive x.apis.length :=
    ⟨{ registered := some x.spis.length }, by simp [begun, retire_length], rfl⟩
  obtain ⟨a, atA, _⟩ := ((atomic.throws rfl).alive _).mp fresh
  rw [List.getElem?_eq_none (Nat.le_refl _)] at atA
  cases atA

theorem begun_object (s : S) : (x.begun s).object x.spis.length = some s := by simp [begun, object]

theorem begun_store (s s' : S) : (x.begun s).store x.spis.length s' = x.begun s' := by simp [begun, store]

/-- The switch comes first and succeeds; what follows it runs on the half-built session. -/
theorem switch_run {α : Type} (x : Half S) (s : Nat → S) (f : Nat → Nat → HalfM S α) :
    (do
      releaseOld
      let api ← create
      let p ← newSpi (s api)
      registerSpi api (some p)
      f api p) x =
    andThen ⟨x.api.toList.map (.call · .release) ++
      [.call x.apis.length .create, .call x.apis.length (.registerSpi (some x.spis.length))],
      x.begun (s x.apis.length), .ok ()⟩ fun _ => f x.apis.length x.spis.length := by
  rcases x with ⟨api, spi, apis, spis⟩
  cases api <;> simp [bind_run, releaseOld, release, create, newSpi, registerSpi, updateApi, begun, retire, modify_concat]

theorem LoginAtomic.installed (s : S) (addr : String) (ready : (ident s).Ready) :
    x.LoginAtomic ident (x.installed s addr) (.ok ()) where
  throws := fun fault => by cases fault
  replaced := fun _ => ⟨x.apis.length, x.spis.length, s,
    { registered := some x.spis.length, front := some addr, inited := true, initSpi := some s },
    rfl, rfl, by simp [object, Half.installed], by simp [Half.installed, retire_length], rfl, rfl, rfl, rfl, ready⟩

end Half

namespace TraderHalf

/-- What a trader login converts before the switch. -/
structure EarlyArgs (root : Value) : Prop where
  url : root.hasText "URL" = true
  id : root.hasID = true
  broker : root.hasText "BROKER_ID" = true
  investor : root.hasText "INVESTOR_ID" = true

theorem EarlyArgs.all {root : Value} (early : EarlyArgs root) (lib : Lib) (pass : root.hasText "PASSWORD" = true) :
    ∃ loginID addr brokerID investorID password,
      LoginArgs lib root loginID addr brokerID investorID password := by
  obtain ⟨addr, url⟩ := (argString_converts lib root "URL").ok.mpr early.url
  obtain ⟨loginID, id⟩ := (uniqueID_converts root).ok.mpr early.id
  obtain ⟨brokerID, broker⟩ := (argString_converts lib root "BROKER_ID").ok.mpr early.broker
  obtain ⟨investorID, investor⟩ := (argString_converts lib root "INVESTOR_ID").ok.mpr early.investor
  obtain ⟨password, pass⟩ := (argString_converts lib root "PASSWORD").ok.mpr pass
  exact ⟨loginID, addr, brokerID, investorID, password, url, id, broker, investor, pass⟩

theorem LoginArgs.converted {lib : Lib} {root : Value} {loginID : Int} {addr brokerID investorID password : String}
    (args : LoginArgs lib root loginID addr brokerID investorID password) :
    EarlyArgs root ∧ root.hasText "PASSWORD" = true :=
  ⟨⟨(argString_converts lib root _).ok.mp ⟨_, args.url⟩, (uniqueID_converts root).ok.mp ⟨_, args.id⟩,
    (argString_converts lib root _).ok.mp ⟨_, args.broker⟩, (argString_converts lib root _).ok.mp ⟨_, args.investor⟩⟩,
    (argString_converts lib root _).ok.mp ⟨_, args.pass⟩⟩

variable (lib : Lib) {root : Value} (c hdl : Nat) (t : TraderHalf)

/-- A conversion that throws before the switch leaves the half alone. -/
theorem login_early (early : ¬ EarlyArgs root) : ∃ log, login lib c hdl root t = ⟨log, t, .error .jsonError⟩ := by
  by_cases url : root.hasText "URL" = true
  · obtain ⟨addr, url'⟩ := (argString_converts lib root "URL").ok.mpr url
    by_cases id : root.hasID = true
    · obtain ⟨loginID, id'⟩ := (uniqueID_converts root).ok.mpr id
      by_cases broker : root.hasText "BROKER_ID" = true
      · obtain ⟨brokerID, broker'⟩ := (argString_converts lib root "BROKER_ID").ok.mpr broker
        have investor : ¬ root.hasText "INVESTOR_ID" = true := fun investor => early ⟨url, id, broker, investor⟩
        simp [login, bind_run, url', id', broker', cout, (argString_converts lib root _).error investor]
      · simp [login, bind_run, url', id', cout, (argString_converts lib root _).error broker]
    · simp [login, bind_run, url', (uniqueID_converts root).error id]
  · simp [login, bind_run, (argString_converts lib root _).error url]

/-- A password that does not convert is found after the switch. -/
theorem login_late (early : EarlyArgs root) (password : ¬ root.hasText "PASSWORD" = true) :
    ∃ s log, login lib c hdl root t =
      ⟨log, { toHalf := t.toHalf.begun s, iRequestID := 0 }, .error .jsonError⟩ := by
  obtain ⟨addr, url⟩ := (argString_converts lib root "URL").ok.mpr early.url
  obtain ⟨loginID, id⟩ := (uniqueID_converts root).ok.mpr early.id
  obtain ⟨brokerID, broker⟩ := (argString_converts lib root "BROKER_ID").ok.mpr early.broker
  obtain ⟨investorID, investor⟩ := (argString_converts lib root "INVESTOR_ID").ok.mpr early.investor
  have thrown := (argString_converts lib root _).error password
  rcases t with ⟨⟨api, spi, apis, spis⟩, iRequestID⟩
  refine ⟨{ tpUserApi := apis.length, mClient := some c, mHdl := some hdl }, ?_⟩
  cases api <;>
    simp [login, bind_run, url, id, broker, cout, investor, thrown, onHalf, Half.releaseOld,
      Half.release, Half.create, Half.newSpi, Half.registerSpi, invoke, focus, ctx?, putCtx, Half.object,
      Half.store, Half.updateApi, CTraderSpi.setWebsocket, Half.begun, Half.retire, modify_concat]

/-- Whether the message is one that a trader login handles atomically. -/
def SafeLogin (root : Value) : Prop := EarlyArgs root → root.hasText "PASSWORD" = true

theorem login_safe_iff :
    t.toHalf.LoginAtomic CTraderSpi.identity (login lib c hdl root t).state.toHalf (login lib c hdl root t).val ↔
      SafeLogin root := by
  by_cases early : EarlyArgs root
  · by_cases pass : root.hasText "PASSWORD" = true
    · obtain ⟨loginID, addr, brokerID, investorID, password, args⟩ := early.all lib pass
      obtain ⟨log, run⟩ := login_run c hdl t args
      rw [run]
      exact ⟨fun _ _ => pass, fun _ => .installed _ _ ⟨rfl, rfl, rfl, rfl, rfl⟩⟩
    · obtain ⟨s, log, run⟩ := login_late lib c hdl t early pass
      rw [run]
      exact ⟨fun atomic => absurd atomic (Half.not_loginAtomic_begun s), fun safe => absurd (safe early) pass⟩
  · obtain ⟨log, run⟩ := login_early lib c hdl t early
    rw [run]
    exact ⟨fun _ complete => absurd complete early, fun _ => .refl _ _⟩

end TraderHalf

namespace MdHalf

/-- What a market-data login converts, all of it after the switch. -/
structure Args (root : Value) : Prop where
  url : root.hasText "MarketUrl" = true
  id : root.hasID = true
  broker : root.hasText "BROKER_ID" = true
  investor : root.hasText "INVESTOR_ID" = true
  pass : root.hasText "PASSWORD" = true

theorem Args.all {root : Value} (args : Args root) (lib : Lib) : ∃ loginID addr brokerID investorID password,
    LoginArgs lib root loginID addr brokerID investorID password := by
  obtain ⟨addr, url⟩ := (argString_converts lib root "MarketUrl").ok.mpr args.url
  obtain ⟨loginID, id⟩ := (uniqueID_converts root).ok.mpr args.id
  obtain ⟨brokerID, broker⟩ := (argString_converts lib root "BROKER_ID").ok.mpr args.broker
  obtain ⟨investorID, investor⟩ := (argString_converts lib root "INVESTOR_ID").ok.mpr args.investor
  obtain ⟨password, pass⟩ := (argString_converts lib root "PASSWORD").ok.mpr args.pass
  exact ⟨loginID, addr, brokerID, investorID, password, url, id, broker, investor, pass⟩

theorem LoginArgs.converted {lib : Lib} {root : Value} {loginID : Int} {addr brokerID investorID password : String}
    (args : LoginArgs lib root loginID addr brokerID investorID password) : Args root :=
  ⟨(argString_converts lib root _).ok.mp ⟨_, args.url⟩, (uniqueID_converts root).ok.mp ⟨_, args.id⟩,
    (argString_converts lib root _).ok.mp ⟨_, args.broker⟩, (argString_converts lib root _).ok.mp ⟨_, args.investor⟩,
    (argString_converts lib root _).ok.mp ⟨_, args.pass⟩⟩

theorem invoke_begun (t : Half CMdSpi) (s : CMdSpi) (x : MdM Unit) :
    invoke (some t.spis.length) x (t.begun s) = ⟨(x s).log, t.begun (x s).state, (x s).val⟩ := by
  simp [invoke, focus, t.begun_object, t.begun_store]

variable (lib : Lib) {root : Value}

/-- A conversion that throws leaves a half-built session. -/
theorem login_fails (env : Env) (c hdl : Nat) (t : Half CMdSpi) (fails : ¬ Args root) :
    ∃ s log, login lib env c hdl root t = ⟨log, t.begun s, .error .jsonError⟩ := by
  have text (key : String) := (argString_converts lib root key).cases
  have run : login lib env c hdl root t = _ := Half.switch_run t _ _
  rw [run]
  rcases text "MarketUrl" with stop | ⟨url, addr, url'⟩
  · simp [bind_run, stop]
  rcases (uniqueID_converts root).cases with stop | ⟨id, loginID, id'⟩
  · simp [bind_run, url', cout, stop]
  rcases text "BROKER_ID" with stop | ⟨broker, brokerID, broker'⟩
  · simp [bind_run, url', cout, id', invoke_begun, CMdSpi.setWebsocket, stop]
  rcases text "INVESTOR_ID" with stop | ⟨investor, investorID, investor'⟩
  · simp [bind_run, url', cout, id', invoke_begun, CMdSpi.setWebsocket, broker', stop]
  rcases text "PASSWORD" with stop | ⟨pass, _⟩
  · simp [bind_run, url', cout, id', invoke_begun, CMdSpi.setWebsocket, broker', investor', stop]
  · exact absurd ⟨url, id, broker, investor, pass⟩ fails

theorem login_args_iff (env : Env) (c hdl : Nat) (t : Half CMdSpi) :
    t.LoginAtomic CMdSpi.identity (login lib env c hdl root t).state (login lib env c hdl root t).val ↔ Args root := by
  by_cases args : Args root
  · obtain ⟨loginID, addr, brokerID, investorID, password, converted⟩ := args.all lib
    obtain ⟨log, run⟩ := login_run env c hdl t converted
    rw [run]
    exact ⟨fun _ => args, fun _ => .installed _ _ ⟨rfl, rfl, rfl, rfl, rfl⟩⟩
  · obtain ⟨s, log, run⟩ := login_fails lib env c hdl t args
    rw [run]
    exact ⟨fun atomic => absurd atomic (Half.not_loginAtomic_begun s), fun safe => absurd safe args⟩

end MdHalf

/-- A login message is atomic for both halves. -/
def LoginAtomic (b : Bridge) (r : Outcome Output Fault Bridge Unit) : Prop :=
  b.trader.toHalf.LoginAtomic CTraderSpi.identity r.state.trader.toHalf r.val ∧
  b.md.LoginAtomic CMdSpi.identity r.state.md r.val

/-- What a login message must convert to be handled atomically. -/
def SafeLogin (root : Value) : ReqType → Prop
  | .reqUserLogin => TraderHalf.SafeLogin root
  | _ => MdHalf.Args root

/-- A login message is handled atomically exactly if its password converts or an
earlier argument does not, for a trader login, and exactly if all its arguments
convert, for a market-data login. -/
theorem login_atomic_iff (lib : Lib) (env : Env) (c hdl : Nat) {payload : String} {root : Value} {type : ReqType}
    (read : readStrJson lib payload = .ok root) (ofType : reqType lib root = .ok type)
    (login : type = .reqUserLogin ∨ type = .mdReqUserLogin) (b : Bridge) :
    LoginAtomic b (onMessage lib env c hdl payload b) ↔ SafeLogin root type := by
  rw [onMessage_run read ofType]
  rcases login with rfl | rfl
  · have trader : b.trader.toHalf.LoginAtomic CTraderSpi.identity _ _ ↔ TraderHalf.SafeLogin root :=
      TraderHalf.login_safe_iff lib c hdl b.trader
    exact ⟨fun atomic => trader.mp atomic.1, fun safe => ⟨trader.mpr safe, .refl _ _⟩⟩
  · have md : b.md.LoginAtomic CMdSpi.identity _ _ ↔ MdHalf.Args root := MdHalf.login_args_iff lib env c hdl b.md
    exact ⟨fun atomic => md.mp atomic.2, fun safe => ⟨.refl _ _, md.mpr safe⟩⟩

/-- A login message whose password is an array. -/
def badPassword : Value :=
  serverMessage "ReqUserLogin" 3 [("URL", .stringValue "tcp://front:41205"), ("BROKER_ID", .stringValue "9999"),
    ("INVESTOR_ID", .stringValue "110623"), ("PASSWORD", .arrayValue [])]

set_option maxRecDepth 4000 in
theorem badPassword_read : readStrJson (loginLib [badPassword]) badPassword.text = .ok badPassword :=
  loginLib_read (by decide)

set_option maxRecDepth 4000 in
/-- A trader session that runs is given up for one without credentials. -/
theorem login_not_atomic :
    Reachable (loginLib [badPassword]) (.frontUp [badPassword]) ∧
    readStrJson (loginLib [badPassword]) badPassword.text = .ok badPassword ∧
    reqType (loginLib [badPassword]) badPassword = .ok .reqUserLogin ∧
    ¬ LoginAtomic (.frontUp [badPassword])
      (onMessage (loginLib [badPassword]) .up 0 0 badPassword.text (.frontUp [badPassword])) := by
  refine ⟨frontUp_reachable _, badPassword_read, rfl, fun atomic => ?_⟩
  rw [onMessage_run badPassword_read rfl] at atomic
  exact absurd (atomic.1.throws rfl).api (by decide)

theorem login_atomic_iff_badPassword :
    LoginAtomic (.frontUp [badPassword])
      (onMessage (loginLib [badPassword]) .up 0 0 badPassword.text (.frontUp [badPassword])) ↔
    SafeLogin badPassword .reqUserLogin :=
  login_atomic_iff (loginLib [badPassword]) .up 0 0 badPassword_read rfl (.inl rfl) _

end MFutures
