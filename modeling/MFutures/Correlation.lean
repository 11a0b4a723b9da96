import MFutures.TraderSteps
import MFutures.Requests

namespace MFutures
open Handler Bridge

/-- A request made of CTP: the API it was made of, the UniqueID of the message
of the server that caused it, and the counter of its half just before. -/
structure Entry where
  side : Side
  api : Nat
  request : Request
  cause : Int
  counter : Int

/-- The requests made so far, and the UniqueID of the login that created each API. -/
structure Ledger where
  entries : List Entry := []
  logins : Side × Nat → Int := fun _ => 0

section ledger
variable (lib : Lib)

/-- The message of the server that causes the requests made for an event: the
message itself, or the login whose session a callback belongs to. -/
def Ledger.cause (ledger : Ledger) : Event → Int
  | .message payload => messageID lib payload
  | .trader api _ => ledger.logins (.trader, api)
  | .md api _ => ledger.logins (.md, api)
  | _ => 0

/-- A login message creates the next API of its half. -/
def Ledger.created (ledger : Ledger) (b : Bridge) : Event → Side × Nat → Int
  | .message payload =>
    match messageType lib payload with
    | some .reqUserLogin =>
      Function.update ledger.logins (.trader, b.trader.apis.length) (messageID lib payload)
    | some .mdReqUserLogin => Function.update ledger.logins (.md, b.md.apis.length) (messageID lib payload)
    | _ => ledger.logins
  | _ => ledger.logins

def Ledger.note (ledger : Ledger) (b : Bridge) (event : Event) (log : List Output) : Ledger where
  entries := ledger.entries ++ (log.filterMap Output.request).map fun r =>
    ⟨r.1, r.2.1, r.2.2, ledger.cause lib event, b.counter r.1⟩
  logins := ledger.created lib b event

end ledger

/-- The kinds of requests a response can be a response to. -/
def TraderCallback.answers : TraderCallback → Request → Bool
  | .onRspUserLogin _ _ _ _, .reqUserLogin _ _ => true
  | .onRspSettlementInfoConfirm _ _ _ _, .reqSettlementInfoConfirm _ _ _ => true
  | .onRspQryInstrument _ _ _ _, .reqQryInstrument _ => true
  | .onRspQryTradingAccount _ _ _ _, .reqQryTradingAccount _ _ _ => true
  | .onRspQryInvestorPosition _ _ _ _, .reqQryInvestorPosition _ _ _ _ => true
  | .onRspOrderInsert _ _ _, .reqOrderInsert _ _ => true
  | .onRspOrderAction _ _ _, .reqOrderAction _ _ => true
  | .onRspError _ _ _, _ => true
  | _, _ => false

def MdCallback.answers : MdCallback → Request → Bool
  | .onRspUserLogin _ _ _ _, .reqUserLogin _ _ => true
  | .onRspError _ _ _, _ => true
  | _, _ => false

/-- The event is a response to the request of the entry: it comes from its API,
is of its kind and echoes its number. -/
def Event.Answers (event : Event) (e : Entry) : Prop :=
  (∃ response, event.response = some response ∧ e.request.number = some response.2) ∧
  match event with
  | .trader api cb => e.side = .trader ∧ e.api = api ∧ cb.answers e.request = true
  | .md api cb => e.side = .md ∧ e.api = api ∧ cb.answers e.request = true
  | _ => False

/-- The ledger beside a run in which every response answers a request. The tag
of a response is the place of its request in the ledger. -/
def correlation (lib : Lib) : EventSystem.History Output Bridge (Env × Event) Ledger Nat where
  admits ledger _ e k := e.2.response.isSome = true → ∃ entry, ledger.entries[k]? = some entry ∧ e.2.Answers entry
  note b e _ log ledger := ledger.note lib b e.2 log

/-- The request number is the one the server knows. -/
def Entry.Aligned (e : Entry) : Prop := e.request.counted e.side = true → increment e.counter = e.cause

/-- The login whose session a trader SPI belongs to is the one it has the number of. -/
def Ledger.Names (ledger : Ledger) (x : Half CTraderSpi) : Prop :=
  ∀ api p s, x.api = some api → x.spi = some p → x.object p = some s →
    s.loginID = some (ledger.logins (.trader, api))

theorem message_asked {lib : Lib} {env : Env} {b : Bridge} {payload : String}
    (able : Enabled b (env, .message payload)) :
    ∀ o ∈ (handle lib (env, .message payload) b).log, o.Asked b (messageID lib payload) := by
  rcases message_cases lib able with ⟨e, stops, _⟩ | ⟨c, root, type, opened, read, ofType, run⟩
  · rw [stops]
    exact fun _ none => absurd none List.not_mem_nil
  · rw [run]
    intro o member
    rcases List.mem_append.mp member with line | later
    · unfold echoed at line
      split at line
      · rw [List.mem_singleton.mp line]
        exact asked_main _
      · cases line
    · refine dispatch_asked type (fun n id => ?_) o later
      simp [messageID, read, id]

/-- Every request an event makes is numbered from a counter or from its cause. -/
theorem handle_asked {lib : Lib} {env : Env} {b : Bridge} {ledger : Ledger} (inv : b.Inv lib)
    (names : ledger.Names b.trader.toHalf) {event : Event} (able : Enabled b (env, event)) :
    ∀ o ∈ (handle lib (env, event) b).log, o.Asked b (ledger.cause lib event) := by
  cases event with
  | opened => exact connection_emits asked_governs (.inl rfl) b
  | closed => exact connection_emits asked_governs (.inr (.inl rfl)) b
  | failed => exact connection_emits asked_governs (.inr (.inr rfl)) b
  | message payload => exact message_asked able
  | trader api cb =>
    obtain ⟨p, s, session⟩ := inv.trader_session (inv.trader.live able)
    rw [session.handle]
    intro o member
    obtain ⟨e, inside, rfl⟩ := List.mem_map.mp member
    refine asked_trader ?_
    by_cases front : cb = .onFrontConnected
    · subst front
      exact CTraderSpi.onFrontConnected_asks ⟨s, b.trader.iRequestID⟩
        (names api p s session.atApi session.atSpi session.object) e inside
    · exact CTraderSpi.callback_emits asks_reports front _ e inside
  | md api cb =>
    obtain ⟨p, s, session⟩ := inv.md_session (inv.md.live able)
    rw [session.handle]
    intro o member
    obtain ⟨e, inside, rfl⟩ := List.mem_map.mp member
    have counter : b.counter .md = s.iRequestID := by simp [Bridge.counter, session.atSpi, session.object]
    refine asked_md ?_
    rw [counter]
    by_cases front : cb = .onFrontConnected
    · subst front
      exact CMdSpi.onFrontConnected_asks s _ e inside
    · exact CMdSpi.callback_emits asks_reports front _ e inside

/-- The bridge beside its ledger. -/
abbrev recordedBridge (lib : Lib) : EventSystem Output Fault (Bridge × Ledger) ((Env × Event) × Nat) :=
  (bridge lib).watched (correlation lib)

def Recorded (lib : Lib) (w : Bridge × Ledger) : Prop :=
  (recordedBridge lib).Reach (fun w => Started lib w.1 ∧ w.2 = {}) w

section recorded
variable {lib : Lib} {w : Bridge × Ledger}

theorem Recorded.reachable (recorded : Recorded lib w) : Reachable lib w.1 :=
  EventSystem.Reach.watched (fun _ start => start.1) recorded

theorem TraderSession.lt {b : Bridge} {api p : Nat} {s : CTraderSpi} (session : TraderSession b api p s) :
    api < b.trader.apis.length := by
  have registered := session.registered
  by_contra beyond
  simp [List.getElem?_eq_none (Nat.not_lt.mp beyond)] at registered

/-- A login message names the next API only. -/
theorem created_old (ledger : Ledger) {b : Bridge} (event : Event) {api : Nat}
    (old : api < b.trader.apis.length) : ledger.created lib b event (.trader, api) = ledger.logins (.trader, api) := by
  have other : (Side.trader, api) ≠ (.trader, b.trader.apis.length) := by
    intro same
    cases same
    omega
  cases event with
  | message payload =>
    unfold Ledger.created
    cases type : messageType lib payload with
    | none => simp [type]
    | some type' => cases type' <;> simp [type, Function.update_of_ne other]
  | _ => rfl

theorem Ledger.Names.old {ledger : Ledger} {b : Bridge} (inv : b.Inv lib) (names : ledger.Names b.trader.toHalf)
    (event : Event) {api p : Nat} {s : CTraderSpi} (atApi : b.trader.api = some api)
    (atSpi : b.trader.spi = some p) (object : b.trader.object p = some s) :
    s.loginID = some (ledger.created lib b event (.trader, api)) := by
  obtain ⟨_, _, session⟩ := inv.trader_session atApi
  rw [created_old ledger event session.lt]
  exact names api p s atApi atSpi object

theorem names_step {b : Bridge} {event : Event} {ledger : Ledger} {x : Half CTraderSpi} (inv : b.Inv lib)
    (names : ledger.Names b.trader.toHalf) (step : TraderStep lib b event x) (log : List Output) :
    (ledger.note lib b event log).Names x := by
  intro api p s atApi atSpi object
  change s.loginID = some (ledger.created lib b event (.trader, api))
  cases step with
  | idle => exact names.old inv event atApi atSpi object
  | torn => simp [Half.torn] at atApi
  | login read ofType id =>
    cases Option.some.inj atApi
    cases Option.some.inj atSpi
    simp [Half.object, Half.installed] at object
    subst object
    simp [Ledger.created, messageType_read read ofType, read, messageID, id, TraderHalf.sessionSpi]
  | @connect payload api' p' s' session =>
    cases Option.some.inj (session.atSpi.symm.trans atSpi)
    cases Option.some.inj ((Half.object_store_self session.object _).symm.trans object)
    rw [← names.old inv (.message payload) atApi atSpi session.object]
    exact s'.filled_loginID
  | @callback api' p' s' cb session =>
    cases Option.some.inj (session.atSpi.symm.trans atSpi)
    cases Option.some.inj ((Half.object_store_self session.object _).symm.trans object)
    rw [← names.old inv (.trader api' cb) atApi atSpi session.object]
    exact s'.after_loginID cb

/-- What a run keeps of its ledger: the logins of the sessions, and how every
request was numbered. -/
structure Ledger.Kept (ledger : Ledger) (b : Bridge) : Prop where
  names : ledger.Names b.trader.toHalf
  numbered : ∀ e ∈ ledger.entries, Numbered e.side e.counter e.cause e.request

theorem Recorded.kept (recorded : Recorded lib w) : w.2.Kept w.1 := by
  induction recorded with
  | start init =>
    obtain ⟨started, fresh⟩ := init
    obtain ⟨_, state⟩ := started_state started
    rw [fresh, state]
    exact ⟨fun _ _ _ atApi => (by cases atApi), fun _ member => (by cases member)⟩
  | @next w e before able done ih =>
    have inv : w.1.Inv lib := (Recorded.reachable before).inv
    refine ⟨names_step inv ih.names (trader_step inv able.1 done) _, fun entry member => ?_⟩
    rcases List.mem_append.mp member with old | new
    · exact ih.numbered entry old
    · obtain ⟨⟨side, h, r⟩, requested, rfl⟩ := List.mem_map.mp new
      obtain ⟨o, inside, request⟩ := List.mem_filterMap.mp requested
      exact handle_asked inv ih.names able.1 o inside side h r request

end recorded

/-- Whether an event gets to a send without an error code. -/
def Event.reachesSend (b : Bridge) : Event → Bool
  | .trader _ cb => ((b.trader.spi.bind b.trader.object).map fun s => s.reachesSend cb).getD false
  | .md _ cb => CMdSpi.reachesSend cb
  | _ => false

theorem CTraderSpi.relayed_uniqueID {lib : Lib} {s : CTraderSpi} {cb : TraderCallback}
    {info : Option CThostFtdcRspInfoField} {n : Int} {m : RspMessage} (response : cb.response = some (info, n))
    (has : relayed lib s cb = some m) : m.uniqueID = n := by
  have record : ∀ {A : Type} {p : Option A} {f : A → RspMessage}, p.map f = some m →
      (∀ a, (f a).uniqueID = n) → m.uniqueID = n := by
    intro A p f mapped all
    obtain ⟨a, _, rfl⟩ := Option.map_eq_some_iff.mp mapped
    exact all a
  cases cb with
  | onRspUserLogin p info n last =>
    cases response
    simp only [relayed] at has
    split at has
    · exact record has fun _ => rfl
    · cases has
  | onRspSettlementInfoConfirm p info n last =>
    cases response
    simp only [relayed] at has
    split at has
    · exact record has fun _ => rfl
    · cases has
  | onRspQryInstrument p info n last =>
    cases response
    exact record has fun _ => rfl
  | onRspQryTradingAccount p info n last =>
    cases response
    simp only [relayed] at has
    split at has
    · cases has
    · exact record has fun _ => rfl
  | onRspQryInvestorPosition p info n last =>
    cases response
    exact record has fun _ => rfl
  | onRspOrderInsert info n last =>
    cases response
    simp only [relayed] at has
    split at has
    · exact record has fun _ => rfl
    · cases has
  | onRspError info n last =>
    cases response
    simp only [relayed] at has
    split at has
    · exact record has fun _ => rfl
    · cases has
  | onRspOrderAction info n last => cases has
  | _ => cases response

section responses
variable {lib : Lib} {b : Bridge} {env : Env} {event : Event} {info : Option CThostFtdcRspInfoField} {n : Int}

/-- A response is passed on under its request number. -/
theorem outgoing_uniqueID (response : event.response = some (info, n)) {m : RspMessage}
    (has : outgoing lib b event = some m) : m.uniqueID = n := by
  cases event with
  | trader api cb =>
    obtain ⟨s, _, relayed⟩ := Option.bind_eq_some_iff.mp has
    exact CTraderSpi.relayed_uniqueID response relayed
  | md api cb =>
    obtain ⟨s, _, relayed⟩ := Option.bind_eq_some_iff.mp has
    cases cb with
    | onRspUserLogin p info n last =>
      cases response
      obtain ⟨_, _, rfl⟩ := Option.map_eq_some_iff.mp relayed
      rfl
    | onRspError info n last => cases relayed
    | _ => cases response
  | _ => cases response

theorem outgoing_isSome (inv : b.Inv lib) (able : Enabled b (env, event))
    (response : event.response = some (info, n)) : (outgoing lib b event).isSome = event.reachesSend b := by
  cases event with
  | trader api cb =>
    obtain ⟨p, s, session⟩ := inv.trader_session (inv.trader.live able)
    have investor : s.investorID.isSome = true := session.ready.investorID
    simp only [outgoing, Event.reachesSend, session.atSpi, Option.bind_some, session.object, Option.map_some,
      Option.getD_some]
    exact CTraderSpi.relayed_isSome investor cb
  | md api cb =>
    obtain ⟨p, s, session⟩ := inv.md_session (inv.md.live able)
    simp only [outgoing, Event.reachesSend, session.atSpi, Option.bind_some, session.object]
    cases cb with
    | onRspUserLogin p info n last => simp [CMdSpi.outgoing, CMdSpi.relayed, CMdSpi.reachesSend]
    | onRspError info n last => rfl
    | _ => cases response
  | _ => cases response

end responses

/-- An activation of the watched bridge: the state it meets, the event, and its tag. -/
abbrev Activation := (Bridge × Ledger) × (Env × Event) × Nat

/-- What is sent for a response carries the UniqueID of the message of the server
that caused it. -/
def Attributed (lib : Lib) : Activation → Prop
  | ((b, ledger), (env, event), k) => event.response.isSome = true →
    ∀ m ∈ sent (handle lib (env, event) b).log, ∀ e, ledger.entries[k]? = some e → m.uniqueID = e.cause

/-- A response that gets to a usable websocket answers a request whose number the server knows. -/
def AnswersAligned : Activation → Prop
  | ((b, ledger), (env, event), k) => event.response.isSome = true → env.sendOk = true →
    event.reachesSend b = true → ∀ e, ledger.entries[k]? = some e → e.Aligned

theorem Event.Answers.number {event : Event} {e : Entry} (answers : event.Answers e)
    {info : Option CThostFtdcRspInfoField} {n : Int} (response : event.response = some (info, n)) :
    e.request.number = some n := by
  obtain ⟨⟨pair, at_, number⟩, _⟩ := answers
  cases response.symm.trans at_
  exact number

/-- The number of a request is the UniqueID behind it exactly if the two agree. -/
theorem Numbered.aligned {e : Entry} (numbered : Numbered e.side e.counter e.cause e.request) {n : Int}
    (number : e.request.number = some n) : n = e.cause ↔ e.Aligned := by
  have value := numbered n number
  unfold Entry.Aligned
  cases counted : e.request.counted e.side with
  | false =>
    rw [counted] at value
    exact ⟨fun _ none => absurd none (by decide), fun _ => value⟩
  | true =>
    rw [counted] at value
    have next : n = increment e.counter := value
    rw [next]
    exact ⟨fun same _ => same, fun same => same rfl⟩

theorem attributed_iff {lib : Lib} {w : Bridge × Ledger} (recorded : Recorded lib w) {e : (Env × Event) × Nat}
    (able : (recordedBridge lib).enabled w e) : Attributed lib (w, e) ↔ AnswersAligned (w, e) := by
  obtain ⟨b, ledger⟩ := w
  obtain ⟨⟨env, event⟩, k⟩ := e
  obtain ⟨enabled, admits⟩ := able
  have inv : b.Inv lib := recorded.reachable.inv
  have sends : sent (handle lib (env, event) b).log = if env.sendOk then (outgoing lib b event).toList else [] :=
    handle_sent inv enabled
  cases response : event.response with
  | none => simp [Attributed, AnswersAligned, response]
  | some pair =>
    obtain ⟨info, n⟩ := pair
    obtain ⟨entry, at_, answers⟩ := admits (by rw [response]; rfl)
    have member : entry ∈ ledger.entries := List.mem_of_getElem? at_
    have number := answers.number response
    have aligned := (recorded.kept.numbered entry member).aligned number
    have passes := outgoing_isSome inv enabled response
    constructor
    · intro attributed some ok reaches e same
      cases Option.some.inj (at_.symm.trans same)
      obtain ⟨m, message⟩ := Option.isSome_iff_exists.mp (passes.trans reaches)
      have inside : m ∈ sent (handle lib (env, event) b).log := by simp [sends, ok, message]
      rw [← aligned, ← outgoing_uniqueID response message]
      exact attributed some m inside entry at_
    · intro answersAligned some m inside e same
      cases Option.some.inj (at_.symm.trans same)
      rw [sends] at inside
      cases ok : env.sendOk with
      | false => simp [ok] at inside
      | true =>
        have message : outgoing lib b event = .some m := by simpa [ok] using inside
        have reaches : event.reachesSend b = true := by rw [← passes, message]; rfl
        rw [outgoing_uniqueID response message, aligned]
        exact answersAligned some ok reaches entry at_

/-- In a run whose responses answer requests, every response passed on carries
the UniqueID of the message that caused it exactly if each answers a request
whose number is that UniqueID. -/
theorem responses_attributed (lib : Lib) {w : Bridge × Ledger} (recorded : Recorded lib w)
    {es : List ((Env × Event) × Nat)} (runs : (recordedBridge lib).IsRun w es) :
    (∀ a ∈ (recordedBridge lib).served es w, Attributed lib a) ↔
      ∀ a ∈ (recordedBridge lib).served es w, AnswersAligned a := by
  have each := EventSystem.served_reach recorded runs
  refine forall₂_congr fun a member => ?_
  obtain ⟨before, able⟩ := each a member
  exact attributed_iff before able

/-- The UniqueIDs of the messages of a run. -/
def messageIDs (lib : Lib) (es : List ((Env × Event) × Nat)) : List Int :=
  es.filterMap fun e =>
    match e.1.2 with
    | .message payload => some (messageID lib payload)
    | _ => none

/-- An instrument query of the server, after the login with UniqueID 1. -/
def instrumentQuery : Value := serverMessage "ReqQryInstrument" 5 []

def instrumentLib : Lib := loginLib [instrumentQuery]

def instrumentQueried : List ((Env × Event) × Nat) :=
  frontUp.map (·, 0) ++ [((.up, .message instrumentQuery.text), 0)]

/-- The response answers the second request of the run, which went out as number 1. -/
def instrumentAnswer : (Env × Event) × Nat := ((.up, .trader 0 (.onRspQryInstrument (some default) none 1 true)), 1)

def recording (lib : Lib) : Bridge × Ledger := (.listening lib, {})

set_option maxRecDepth 4000 in
theorem instrumentQueried_isRun : (recordedBridge instrumentLib).IsRun (recording instrumentLib)
    (instrumentQueried ++ [instrumentAnswer]) := by
  have silent : ∀ {ledger : Ledger} {b : Bridge} {e : Env × Event} {k : Nat}, e.2.response = none →
      (correlation instrumentLib).admits ledger b e k :=
    fun none some => by simp [none] at some
  refine ⟨⟨rfl, silent rfl⟩, fun _ => ⟨⟨rfl, silent rfl⟩, fun _ => ⟨⟨rfl, silent rfl⟩, fun _ =>
    ⟨⟨⟨_, rfl, rfl, rfl, rfl⟩, silent rfl⟩, fun _ => ⟨⟨⟨_, rfl, rfl, rfl, rfl⟩, fun _ => ?_⟩, fun _ =>
    ⟨⟨rfl, silent rfl⟩, fun _ => ⟨⟨⟨_, rfl, rfl, rfl, rfl⟩, fun _ => ?_⟩, fun _ => trivial⟩⟩⟩⟩⟩⟩⟩
  · exact ⟨_, rfl, ⟨_, rfl, rfl⟩, rfl, rfl, rfl⟩
  · exact ⟨_, rfl, ⟨_, rfl, rfl⟩, rfl, rfl, rfl⟩

set_option maxRecDepth 4000 in
/-- The instrument query goes out as request 1, and the answer to it is relayed
under the UniqueID of the login. -/
theorem responses_crossed :
    (recordedBridge instrumentLib).IsRun (recording instrumentLib) (instrumentQueried ++ [instrumentAnswer]) ∧
    messageIDs instrumentLib (instrumentQueried ++ [instrumentAnswer]) = [1, 2, 5] ∧
    ¬ ∀ a ∈ (recordedBridge instrumentLib).served (instrumentQueried ++ [instrumentAnswer])
      (recording instrumentLib), Attributed instrumentLib a := by
  refine ⟨instrumentQueried_isRun, rfl, fun all => ?_⟩
  have last : (((recordedBridge instrumentLib).run instrumentQueried (recording instrumentLib)).state,
      instrumentAnswer) ∈ (recordedBridge instrumentLib).served (instrumentQueried ++ [instrumentAnswer])
        (recording instrumentLib) := EventSystem.served_last rfl instrumentAnswer
  have same := all _ last rfl _ List.mem_cons_self _ rfl
  exact absurd same (by decide)

theorem responses_attributed_instrument :
    (∀ a ∈ (recordedBridge instrumentLib).served (instrumentQueried ++ [instrumentAnswer])
      (recording instrumentLib), Attributed instrumentLib a) ↔
    ∀ a ∈ (recordedBridge instrumentLib).served (instrumentQueried ++ [instrumentAnswer])
      (recording instrumentLib), AnswersAligned a :=
  responses_attributed instrumentLib (.start ⟨started_listening rfl, rfl⟩) instrumentQueried_isRun

end MFutures
