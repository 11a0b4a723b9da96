import MFutures.Requests
import MFutures.Conversion

namespace MFutures
open Handler Bridge

/-- The half whose SPI `on_message` calls a method of. A login message calls the
SPI it has just made. -/
def ReqType.callee : ReqType → Option Side
  | .reqUserLogin => none
  | .mdReqUserLogin => none
  | .unknown => none
  | .mdSubscribeMarketData => some .md
  | _ => some .trader

def Bridge.spiOf (b : Bridge) : Side → Option Nat
  | .trader => b.spi
  | .md => b.mdspi

/-- What is asked of a message: no method is called through NULL, and where the
half it is for has no session, it changes nothing. -/
structure DispatchSound (lib : Lib) (b : Bridge) (env : Env) (payload : String) : Prop where
  called : (handle lib (env, .message payload) b).val ≠ .error .nullPointer
  ignored : ∀ type side, messageType lib payload = some type → type.callee = some side →
    b.spiOf side = none → (handle lib (env, .message payload) b).state = b

/-- The halves that have logged in on the connection, as the events tell. -/
structure LoggedIn where
  trader : Bool := false
  md : Bool := false

def LoggedIn.on (h : LoggedIn) : Side → Bool
  | .trader => h.trader
  | .md => h.md

def LoggedIn.after (lib : Lib) (h : LoggedIn) : Event → LoggedIn
  | .closed => {}
  | .failed => {}
  | .message payload =>
    match messageType lib payload with
    | some .reqUserLogin => { h with trader := true }
    | some .mdReqUserLogin => { h with md := true }
    | _ => h
  | _ => h

/-- The event is no message for a half that has not logged in. -/
def Event.Expected (lib : Lib) (h : LoggedIn) : Event → Prop
  | .message payload => ∀ type side, messageType lib payload = some type → type.callee = some side →
      h.on side = true
  | _ => True

/-- Each message for a half comes after a login of that half on the same connection. -/
def LoginsFirst (lib : Lib) : LoggedIn → List (Env × Event) → Prop
  | _, [] => True
  | h, (_, event) :: es => event.Expected lib h ∧ LoginsFirst lib (h.after lib event) es

/-- A half has a session exactly if the events so far have logged it in. -/
def LoggedIn.Tells (h : LoggedIn) (b : Bridge) : Prop := ∀ side, h.on side = (b.spiOf side).isSome

/-- The text of an argument, up to its first NUL, fits the array. -/
def Lib.TextFits (lib : Lib) (root : Value) (key : String) (array : CtpArray) : Prop :=
  ∀ s, lib.argString root key = .ok s → (cStr s).length < lib.sizeof array

/-- Conversions and copies end in an exception of jsoncpp, or in a copy past an
array where not everything fits. -/
def Declines {α : Type} (fits : Prop) (x : Except Fault α) : Prop :=
  ∀ e, x = .error e → e = .jsonError ∨ e = .overflow ∧ ¬fits

/-- The handler does not go through NULL. -/
def NotNull {σ α : Type} (x : Handler Effect Fault σ α) : Prop := Faults (fun e => e ≠ .nullPointer) x

section refusals
variable {α β : Type} {fits : Prop} {lib : Lib} {root : Value}

theorem Declines.ok (a : α) : Declines fits (.ok a : Except Fault α) := fun _ fault => by cases fault

theorem Declines.bind {x : Except Fault α} {f : α → Except Fault β} (first : Declines fits x)
    (next : ∀ a, x = .ok a → Declines fits (f a)) : Declines fits (x >>= f) := by
  cases x with
  | error e =>
    intro e' fault
    cases fault
    exact first e rfl
  | ok a => exact next a rfl

/-- Nothing else goes wrong. -/
theorem Declines.not {x : Except Fault α} (declines : Declines fits x) {e' : Fault} (json : e' ≠ .jsonError)
    (copied : e' ≠ .overflow) : ∀ e, x = .error e → e ≠ e' := by
  rintro e fault rfl
  rcases declines e fault with same | ⟨same, _⟩
  · exact json same
  · exact copied same

theorem Converts.declines {p : Prop} {x : Except Fault α} (converts : Converts p x) : Declines fits x :=
  fun e fault => Or.inl (converts.throws e fault)

theorem strcpy_declines {key s : String} {array : CtpArray} (value : lib.argString root key = .ok s)
    (within : fits → lib.TextFits root key array) : Declines fits (lib.strcpy array (cStr s)) :=
  fun _ fault => Or.inr ⟨(Lib.strcpy_error fault).1, fun fit => (Lib.strcpy_error fault).2 (within fit s value)⟩

variable (lib root)

theorem readStrJson_error {payload : String} {e : Fault} (fault : readStrJson lib payload = .error e) :
    e = .jsonError ∨ e = .noReturn := by
  unfold readStrJson at fault
  split at fault
  · exact Or.inl (Except.error.inj fault).symm
  · split at fault
    · cases fault
    · exact Or.inr (Except.error.inj fault).symm

theorem reqType_declines : Declines fits (reqType lib root) :=
  .bind (root.index_converts _).declines fun v _ => .bind (v.asString_converts _).declines fun _ _ => .ok _

namespace CTraderSpi

theorem positionInstrument_declines : Declines (lib.TextFits root "InstrumentID" .instrumentID)
    (positionInstrument lib root) := by
  refine .bind (reqArg_converts root _).declines fun v _ => ?_
  split
  · exact .ok _
  · exact .bind (argString_converts lib root _).declines fun s value => strcpy_declines value id

theorem inputOrder_declines (brokerID investorID : String) :
    Declines (lib.TextFits root "OrderRef" .orderRef ∧ lib.TextFits root "InstrumentID" .instrumentID)
      (inputOrder lib root brokerID investorID) :=
  .bind (argString_converts lib root _).declines fun _ ref => .bind (strcpy_declines ref And.left) fun _ _ =>
    .bind (argString_converts lib root _).declines fun _ inst => .bind (strcpy_declines inst And.right) fun _ _ =>
    .bind (argString_converts lib root _).declines fun _ _ => .bind (argString_converts lib root _).declines fun _ _ =>
    .bind (reqArg_converts root _).declines fun v _ => .bind v.asDouble_converts.declines fun _ _ =>
    .bind (reqArg_converts root _).declines fun w _ => .bind w.asInt_converts.declines fun _ _ => .ok _

theorem orderAction_declines (brokerID investorID : String) :
    Declines (lib.TextFits root "OrderRef" .orderRef ∧ lib.TextFits root "InstrumentID" .instrumentID)
      (orderAction lib root brokerID investorID) :=
  .bind (argString_converts lib root _).declines fun _ ref => .bind (strcpy_declines ref And.left) fun _ _ =>
    .bind (argString_converts lib root _).declines fun _ inst => .bind (strcpy_declines inst And.right) fun _ _ =>
    .bind (reqArg_converts root _).declines fun v _ => .bind v.asInt_converts.declines fun _ _ =>
    .bind (reqArg_converts root _).declines fun w _ => .bind w.asInt_converts.declines fun _ _ => .ok _

end CTraderSpi

end refusals

section handlers
variable {σ α : Type} (lib : Lib) (env : Env) (root : Value)

theorem known_notNull (p : Option α) : NotNull (known p : Handler Effect Fault σ α) := by
  cases p
  · exact .abort (by decide)
  · exact .pure _

theorem Declines.notNull {fits : Prop} {x : Except Fault α} (declines : Declines fits x) :
    NotNull (ofExcept x : Handler Effect Fault σ α) :=
  .ofExcept (declines.not (by decide) (by decide))

theorem Converts.notNull {p : Prop} {x : Except Fault α} (converts : Converts p x) :
    NotNull (ofExcept x : Handler Effect Fault σ α) :=
  @Declines.notNull σ α True x converts.declines

theorem Lib.strcpy_notNull (array : CtpArray) (s : String) :
    NotNull (ofExcept (lib.strcpy array s) : Handler Effect Fault σ String) :=
  .ofExcept fun e fault => (Lib.strcpy_error fault).1 ▸ (by decide)

namespace CTraderSpi

theorem credentials_notNull : NotNull (credentials lib) :=
  .bind .get fun _ => .bind (known_notNull _) fun _ => .bind (lib.strcpy_notNull _ _) fun _ =>
    .bind (known_notNull _) fun _ => .bind (lib.strcpy_notNull _ _) fun _ => .pure _

theorem request_notNull (req : Request) (line : String) : NotNull (request env req line) :=
  .bind .get fun _ => .bind (.emit _) fun _ => .emit _

theorem nextRequestID_notNull : NotNull nextRequestID := .bind (.modify _) fun _ => .bind .get fun _ => .pure _

theorem reqSettlementInfoConfirm_notNull : NotNull (reqSettlementInfoConfirm lib env root) :=
  .bind (credentials_notNull lib) fun _ => .bind (uniqueID_converts root).notNull fun _ => request_notNull env _ _

theorem reqQryTradingAccount_notNull : NotNull (reqQryTradingAccount lib env root) :=
  .bind (credentials_notNull lib) fun _ => .bind (uniqueID_converts root).notNull fun _ => request_notNull env _ _

theorem reqQryInvestorPosition_notNull : NotNull (reqQryInvestorPosition lib env root) :=
  .bind (credentials_notNull lib) fun _ => .bind (positionInstrument_declines lib root).notNull fun _ =>
    .bind (uniqueID_converts root).notNull fun _ => request_notNull env _ _

theorem reqOrderInsert_notNull : NotNull (reqOrderInsert lib env root) :=
  .bind (credentials_notNull lib) fun _ => .bind (inputOrder_declines lib root _ _).notNull fun _ =>
    .bind (uniqueID_converts root).notNull fun _ => request_notNull env _ _

theorem reqOrderAction_notNull : NotNull (reqOrderAction lib env root) :=
  .bind (credentials_notNull lib) fun _ => .bind (orderAction_declines lib root _ _).notNull fun _ =>
    .bind nextRequestID_notNull fun _ => request_notNull env _ _

theorem reqQryInstrument_notNull : NotNull (reqQryInstrument env) :=
  .bind nextRequestID_notNull fun _ => request_notNull env _ _

theorem onRspConnect_notNull : NotNull (onRspConnect lib env) := by
  refine .bind (.bind .get fun _ => ?_) fun _ => .bind .get fun _ => .bind ?_ fun _ => .bind (known_notNull _) fun _ => ?_
  · split
    · exact .modify _
    · exact .pure _
  · unfold getJsonStr
    split
    · exact .pure _
    · exact .emit _
  · split
    · split
      · exact .emit _
      · exact .emit _
    · exact .emit _

end CTraderSpi

theorem CMdSpi.mdSubscribeMarketData_notNull : NotNull (mdSubscribeMarketData lib env root) :=
  .bind (argString_converts lib root _).notNull fun _ => .bind .get fun _ => .emit _

namespace Half
variable {S : Type}

theorem create_notNull : NotNull (create : HalfM S Nat) :=
  .bind .get fun _ => .bind (.emit _) fun _ => .bind (.modify _) fun _ => .pure _

theorem newSpi_notNull (s : S) : NotNull (newSpi s) := .bind .get fun _ => .bind (.modify _) fun _ => .pure _

theorem releaseOld_notNull : NotNull (releaseOld : HalfM S Unit) := by
  refine .bind .get fun x => ?_
  split
  · exact .bind (.emit _) fun _ => .modify _
  · exact .pure _

end Half

theorem TraderHalf.invoke_notNull {x : TraderM Unit} (notNull : NotNull x) (p : Nat) : NotNull (invoke (some p) x) :=
  notNull.focus (by decide)

theorem MdHalf.invoke_notNull {x : MdM Unit} (notNull : NotNull x) (p : Nat) : NotNull (invoke (some p) x) :=
  notNull.focus (by decide)

/-- A login message calls no SPI but its own. -/
theorem TraderHalf.login_notNull (c hdl : Nat) : NotNull (login lib c hdl root) :=
  .bind (argString_converts lib root _).notNull fun _ => .bind (uniqueID_converts root).notNull fun _ =>
    .bind (.emit _) fun _ => .bind (argString_converts lib root _).notNull fun _ => .bind (.emit _) fun _ =>
    .bind (argString_converts lib root _).notNull fun _ => .bind (.emit _) fun _ =>
    .bind Half.releaseOld_notNull.zoom fun _ => .bind Half.create_notNull.zoom fun _ =>
    .bind (Half.newSpi_notNull _).zoom fun _ =>
    .bind (Faults.bind (.emit _) fun _ => .modify _).zoom fun _ => .bind (invoke_notNull (.modify _) _) fun _ =>
    .bind (argString_converts lib root _).notNull fun _ => .bind (invoke_notNull (.modify _) _) fun _ =>
    .bind (Faults.bind (.emit _) fun _ => .modify _).zoom fun _ => (Faults.bind (.emit _) fun _ => .modify _).zoom

theorem MdHalf.login_notNull (c hdl : Nat) : NotNull (login lib env c hdl root) :=
  .bind Half.releaseOld_notNull fun _ => .bind Half.create_notNull fun _ => .bind (Half.newSpi_notNull _) fun _ =>
    .bind (.bind (.emit _) fun _ => .modify _) fun _ => .bind (argString_converts lib root _).notNull fun _ =>
    .bind (.emit _) fun _ => .bind (uniqueID_converts root).notNull fun _ =>
    .bind (invoke_notNull (.modify _) _) fun _ => .bind (argString_converts lib root _).notNull fun _ =>
    .bind (argString_converts lib root _).notNull fun _ => .bind (argString_converts lib root _).notNull fun _ =>
    .bind (invoke_notNull (.modify _) _) fun _ => .bind (.bind (.emit _) fun _ => .modify _) fun _ =>
    .bind (.emit _) fun _ => .modify _

end handlers

section messages
variable {lib : Lib} {env : Env} {b : Bridge}

/-- A call of the dispatcher goes through NULL exactly if its half has no SPI. -/
theorem trader_call_null (inv : b.Inv lib) {x : TraderM Unit} (notNull : NotNull x) :
    (onTrader (TraderHalf.call x) b).val = .error .nullPointer ↔ b.spiOf .trader = none := by
  cases atApi : b.trader.api with
  | none =>
    have atSpi : b.trader.spi = none := inv.trader.paired.mp atApi
    simp [onTrader, TraderHalf.call, bind_run, TraderHalf.invoke, atSpi, spiOf, Bridge.spi]
  | some api =>
    obtain ⟨p, s, session⟩ := inv.trader_session atApi
    rw [session.call]
    constructor
    · exact fun null => absurd rfl (notNull _ _ null)
    · exact fun missing => absurd (session.atSpi.symm.trans missing) (by simp)

theorem md_call_null (inv : b.Inv lib) {x : MdM Unit} (notNull : NotNull x) :
    (onMd (MdHalf.call x) b).val = .error .nullPointer ↔ b.spiOf .md = none := by
  cases atApi : b.md.api with
  | none =>
    have atSpi : b.md.spi = none := inv.md.paired.mp atApi
    simp [onMd, MdHalf.call, bind_run, MdHalf.invoke, atSpi, spiOf, Bridge.mdspi]
  | some api =>
    obtain ⟨p, s, session⟩ := inv.md_session atApi
    rw [session.call]
    constructor
    · exact fun null => absurd rfl (notNull _ _ null)
    · exact fun missing => absurd (session.atSpi.symm.trans missing) (by simp)

/-- What the branches of `on_message` call through NULL. -/
theorem dispatch_null (env : Env) (inv : b.Inv lib) (c hdl : Nat) (root : Value) (type : ReqType) :
    (dispatch lib env c hdl root type b).val = .error .nullPointer ↔
      ∃ side, type.callee = some side ∧ b.spiOf side = none := by
  have trader {x : TraderM Unit} (notNull : NotNull x) : (onTrader (TraderHalf.call x) b).val = .error .nullPointer ↔
      ∃ side, some Side.trader = some side ∧ b.spiOf side = none := by
    simpa using trader_call_null inv notNull
  have never {x : BridgeM Unit} (notNull : (x b).val ≠ .error .nullPointer) :
      (x b).val = .error .nullPointer ↔ ∃ side, none = some side ∧ b.spiOf side = none := by
    simpa using notNull
  cases type with
  | onConnect => exact trader (CTraderSpi.onRspConnect_notNull lib env)
  | mdSubscribeMarketData =>
    have md := md_call_null inv (CMdSpi.mdSubscribeMarketData_notNull lib env root)
    simpa [ReqType.callee, dispatch] using md
  | reqUserLogin => exact never fun null => TraderHalf.login_notNull lib root c hdl _ _ null rfl
  | mdReqUserLogin => exact never fun null => MdHalf.login_notNull lib env root c hdl _ _ null rfl
  | reqSettlementInfoConfirm => exact trader (CTraderSpi.reqSettlementInfoConfirm_notNull lib env root)
  | reqOrderInsert => exact trader (CTraderSpi.reqOrderInsert_notNull lib env root)
  | reqOrderAction => exact trader (CTraderSpi.reqOrderAction_notNull lib env root)
  | reqQryTradingAccount => exact trader (CTraderSpi.reqQryTradingAccount_notNull lib env root)
  | reqQryInvestorPosition => exact trader (CTraderSpi.reqQryInvestorPosition_notNull lib env root)
  | reqQryInstrument => exact trader (CTraderSpi.reqQryInstrument_notNull env)
  | unknown => exact never fun null => by cases null

/-- A payload without a message type stops `on_message` before it does anything. -/
theorem untyped_stops {payload : String} (able : Enabled b (env, .message payload))
    (untyped : messageType lib payload = none) :
    ∃ e, e ≠ .nullPointer ∧ handle lib (env, .message payload) b = ⟨[], b, .error e⟩ := by
  rcases message_cases lib able with ⟨e, stops, early⟩ | ⟨c, root, type, _, read, ofType, _⟩
  · refine ⟨e, ?_, stops⟩
    rcases early with read | ⟨root, _, ofType⟩
    · rcases readStrJson_error lib read with rfl | rfl <;> decide
    · exact (@reqType_declines True lib root).not (by decide) (by decide) e ofType
  · exact absurd (messageType_read read ofType) (by simp [untyped])

/-- A message is dispatched soundly exactly if it is for no half or for one that
has a session. -/
theorem dispatchSound_iff (inv : b.Inv lib) {payload : String} (able : Enabled b (env, .message payload)) :
    DispatchSound lib b env payload ↔ ∀ type side, messageType lib payload = some type →
      type.callee = some side → (b.spiOf side).isSome = true := by
  cases typed : messageType lib payload with
  | none =>
    obtain ⟨e, other, stops⟩ := untyped_stops able typed
    constructor
    · intro _ _ _ known
      cases known
    · refine fun _ => ⟨by simpa [stops] using other, fun _ _ known => ?_⟩
      simp [typed] at known
  | some type =>
    obtain ⟨root, read, ofType⟩ := messageType_some typed
    obtain ⟨l, ls, loops, opened⟩ := Net.opened_of_conn able
    have null := dispatch_null env inv l.client l.client root type
    have run : handle lib (env, .message payload) b = _ := handle_message opened read ofType
    constructor
    · intro sound type' side known callee
      cases known
      by_contra missing
      refine sound.called ?_
      rw [run]
      exact null.mpr ⟨side, callee, by simpa using missing⟩
    · intro present
      refine ⟨fun fault => ?_, fun type' side known callee missing => ?_⟩
      · rw [run] at fault
        obtain ⟨side, callee, missing⟩ := null.mp fault
        simpa [missing] using present type side rfl callee
      · cases Option.some.inj (typed.symm.trans known)
        simpa [missing] using present type side rfl callee

/-- A method call leaves the pointers alone. -/
theorem TraderHalf.invoke_spi (p : Option Nat) (x : TraderM Unit) : Keeps (fun t : TraderHalf => t.spi) (invoke p x) := by
  intro t
  cases p with
  | none => rfl
  | some q => cases found : t.ctx? q <;> simp [invoke, focus, found, putCtx, Half.store]

theorem MdHalf.invoke_spi (p : Option Nat) (x : MdM Unit) : Keeps (fun t : Half CMdSpi => t.spi) (invoke p x) := by
  intro t
  cases p with
  | none => rfl
  | some q => cases found : t.object q <;> simp [invoke, focus, found, Half.store]

theorem LoggedIn.Tells.kept {h : LoggedIn} {b' : Bridge} (tells : h.Tells b) (trader : b'.spi = b.spi)
    (md : b'.mdspi = b.mdspi) : h.Tells b' := by
  intro side
  rw [tells side]
  cases side with
  | trader => exact congrArg Option.isSome trader.symm
  | md => exact congrArg Option.isSome md.symm

/-- A login message that ends leaves its half with a session; no other message
makes one or ends one. -/
theorem dispatch_tells {h : LoggedIn} (tells : h.Tells b) {c hdl : Nat} {root : Value} {type : ReqType} {payload : String}
    (typed : messageType lib payload = some type) (done : (dispatch lib env c hdl root type b).val = .ok ()) :
    (h.after lib (.message payload)).Tells (dispatch lib env c hdl root type b).state := by
  have trader {x : TraderM Unit} : h.Tells (onTrader (TraderHalf.call x) b).state :=
    tells.kept (TraderHalf.invoke_spi _ x _) rfl
  cases type <;> simp only [LoggedIn.after, typed]
  case reqUserLogin =>
    obtain ⟨loginID, addr, brokerID, investorID, password, args⟩ := TraderHalf.login_args done
    obtain ⟨log, run⟩ := TraderHalf.login_run c hdl b.trader args
    intro side
    cases side with
    | trader => simp [LoggedIn.on, dispatch, onTrader, run, Bridge.spiOf, Bridge.spi, Half.installed]
    | md => exact tells .md
  case mdReqUserLogin =>
    obtain ⟨loginID, addr, brokerID, investorID, password, args⟩ := MdHalf.login_args done
    obtain ⟨log, run⟩ := MdHalf.login_run env c hdl b.md args
    intro side
    cases side with
    | trader => exact tells .trader
    | md => simp [LoggedIn.on, dispatch, onMd, run, Bridge.spiOf, Bridge.mdspi, Half.installed]
  case mdSubscribeMarketData => exact tells.kept rfl (MdHalf.invoke_spi _ _ _)
  case unknown => exact tells
  all_goals exact trader

/-- The events tell which halves have a session. -/
theorem handle_tells {h : LoggedIn} (inv : b.Inv lib) (tells : h.Tells b) {event : Event} (able : Enabled b (env, event))
    (done : (handle lib (env, event) b).val = .ok ()) : (h.after lib event).Tells (handle lib (env, event) b).state := by
  cases event with
  | opened => exact tells
  | closed | failed =>
    obtain ⟨log, net, _, run⟩ := handle_ended inv.net able (by simp)
    rw [run]
    exact fun side => by cases side <;> rfl
  | message payload =>
    rcases message_cases lib able with ⟨e, stops, _⟩ | ⟨c, root, type, _, read, ofType, run⟩
    · rw [stops] at done
      cases done
    · rw [run] at done ⊢
      exact dispatch_tells tells (messageType_read read ofType) done
  | trader api cb => exact tells.kept (TraderHalf.invoke_spi _ _ _) rfl
  | md api cb => exact tells.kept rfl (MdHalf.invoke_spi _ _ _)

theorem expected_iff {h : LoggedIn} (inv : b.Inv lib) (tells : h.Tells b) {event : Event} (able : Enabled b (env, event)) :
    (∀ payload, event = .message payload → DispatchSound lib b env payload) ↔ event.Expected lib h := by
  cases event with
  | message payload =>
    have sound := dispatchSound_iff inv able
    simp only [Event.Expected, tells _, ← sound]
    exact ⟨fun all => all payload rfl, fun one payload' same => by cases same; exact one⟩
  | _ => exact ⟨fun _ => trivial, fun _ _ other => by cases other⟩

end messages

/-- From a state the events so far tell the sessions of. -/
theorem served_sound_iff {lib : Lib} {b : Bridge} {h : LoggedIn} (inv : b.Inv lib) (tells : h.Tells b)
    {es : List (Env × Event)} (runs : (bridge lib).IsRun b es) :
    (∀ at_ ∈ (bridge lib).served es b, ∀ env payload, at_.2 = (env, .message payload) →
      DispatchSound lib at_.1 env payload) ↔
    LoginsFirst lib h (((bridge lib).served es b).map Prod.snd) := by
  induction es generalizing b h with
  | nil => simp [EventSystem.served, LoginsFirst]
  | cons e es ih =>
    obtain ⟨env, event⟩ := e
    obtain ⟨able, rest⟩ := runs
    have here : (∀ env' payload, (env, event) = (env', .message payload) → DispatchSound lib b env' payload) ↔
        event.Expected lib h := by
      rw [← expected_iff inv tells able]
      constructor
      · intro all payload same
        exact all env payload (by rw [same])
      · intro all env' payload same
        cases same
        exact all payload rfl
    cases first : ((bridge lib).handle (env, event) b).val with
    | error e => simp only [EventSystem.served, first, List.mem_singleton, forall_eq, here, List.map_cons,
        List.map_nil, LoginsFirst, and_true]
    | ok u =>
      have later := ih (handle_bridge_inv inv able first) (handle_tells inv tells able first) (rest first)
      simp only [EventSystem.served, first, List.mem_cons, forall_eq_or_imp, here, List.map_cons, LoginsFirst]
      exact and_congr Iff.rfl later

/-- In a run from process start no message is dispatched to a missing session
exactly if every message for a half comes after a login of that half on the same
connection. -/
theorem dispatch_sound_iff (lib : Lib) {b : Bridge} (start : Started lib b) {es : List (Env × Event)}
    (runs : (bridge lib).IsRun b es) :
    (∀ at_ ∈ (bridge lib).served es b, ∀ env payload, at_.2 = (env, .message payload) →
      DispatchSound lib at_.1 env payload) ↔
    LoginsFirst lib {} (((bridge lib).served es b).map Prod.snd) := by
  refine served_sound_iff (started_bridge_inv start) ?_ runs
  obtain ⟨_, state⟩ := started_state start
  rw [state]
  exact fun side => by cases side <;> rfl

/-- A server that first of all asks for the login status. -/
def connectMessage : Value := serverMessage "OnConnect" 0 []

def connectFirst : List (Env × Event) := [(.up, .opened), (.up, .message connectMessage.text)]

set_option maxRecDepth 4000 in
/-- The status is asked of a session that does not exist. -/
theorem null_dispatched :
    ¬ ∀ b es, Started (.plain [connectMessage]) b → (bridge (.plain [connectMessage])).IsRun b es →
      ∀ at_ ∈ (bridge (.plain [connectMessage])).served es b, ∀ env payload, at_.2 = (env, .message payload) →
        DispatchSound (.plain [connectMessage]) at_.1 env payload := by
  intro all
  have sound := all _ connectFirst (started_listening rfl) ⟨rfl, fun _ => ⟨rfl, fun _ => trivial⟩⟩ (_, _)
    (List.mem_cons_of_mem _ List.mem_cons_self) .up connectMessage.text rfl
  exact sound.called rfl

def subscription : Value := serverMessage "MdSubscribeMarketData" 3 [("InstrumentID", .stringValue "ag1801")]

def sessionLib : Lib := loginLib [connectMessage, subscription]

/-- Both halves log in on the first connection, and then each is called. -/
def bothCalled : List (Env × Event) :=
  bothLoggedIn ++ [(.up, .message connectMessage.text), (.up, .message subscription.text)]

set_option maxRecDepth 4000 in
theorem dispatch_sound_iff_logged_in :
    (∀ at_ ∈ (bridge sessionLib).served bothCalled (Bridge.listening sessionLib), ∀ env payload,
      at_.2 = (env, .message payload) → DispatchSound sessionLib at_.1 env payload) ↔
    LoginsFirst sessionLib {} (((bridge sessionLib).served bothCalled (Bridge.listening sessionLib)).map Prod.snd) :=
  dispatch_sound_iff sessionLib (started_listening rfl)
    ⟨rfl, fun _ => ⟨rfl, fun _ => ⟨rfl, fun _ => ⟨rfl, fun _ => ⟨rfl, fun _ => trivial⟩⟩⟩⟩⟩

end MFutures
