import MFutures.Outgoing

namespace MFutures
open Handler Bridge

/-- The requests that CTP answers by a chain of records. -/
inductive Query
  | settlementInfoConfirm
  | tradingAccount
  | investorPosition
  | instrument
  deriving DecidableEq

namespace Query

abbrev Record : Query → Type
  | settlementInfoConfirm => CThostFtdcSettlementInfoConfirmField
  | tradingAccount => CThostFtdcTradingAccountField
  | investorPosition => CThostFtdcInvestorPositionField
  | instrument => CThostFtdcInstrumentField

def reqType : Query → ReqType
  | settlementInfoConfirm => .reqSettlementInfoConfirm
  | tradingAccount => .reqQryTradingAccount
  | investorPosition => .reqQryInvestorPosition
  | instrument => .reqQryInstrument

def rspType : Query → String
  | settlementInfoConfirm => "OnRspSettlementInfoConfirm"
  | tradingAccount => "OnRspQryTradingAccount"
  | investorPosition => "OnRspQryInvestorPosition"
  | instrument => "OnRspQryInstrument"

/-- The response callback of the request. -/
def callback : (q : Query) → Option q.Record → Option CThostFtdcRspInfoField → Int → Bool → TraderCallback
  | settlementInfoConfirm => .onRspSettlementInfoConfirm
  | tradingAccount => .onRspQryTradingAccount
  | investorPosition => .onRspQryInvestorPosition
  | instrument => .onRspQryInstrument

def rspArgs (gbktoutf8 : String → String) : (q : Query) → q.Record → Value
  | settlementInfoConfirm => CThostFtdcSettlementInfoConfirmField.rspArgs
  | tradingAccount => CThostFtdcTradingAccountField.rspArgs
  | investorPosition => CThostFtdcInvestorPositionField.rspArgs
  | instrument => CThostFtdcInstrumentField.rspArgs gbktoutf8

/-- The message of a record. -/
def message (lib : Lib) (q : Query) (n : Int) (r : q.Record) : RspMessage where
  rspArgs := q.rspArgs lib.gbktoutf8 r
  uniqueID := n
  rspType := q.rspType
  isError := match q with
    | settlementInfoConfirm => "false"
    | tradingAccount => "true"
    | investorPosition => "true"
    | instrument => "false"

/-- Whether a record of the chain is passed on: of a settlement confirmation only the last is. -/
def relays (q : Query) (last : Bool) : Bool := q ≠ .settlementInfoConfirm || last

end Query

/-- What CTP does about a request that was made of it. The records of a chain
come with the outcome reported beside each. -/
inductive Disposal (q : Query)
  | rejected
  | chain (records : List (q.Record × Option CThostFtdcRspInfoField))
  | empty (info : Option CThostFtdcRspInfoField)

/-- The callbacks of a chain, the last of them marked so. -/
def Query.chain (q : Query) (n : Int) :
    List (q.Record × Option CThostFtdcRspInfoField) → List TraderCallback
  | [] => []
  | (r, info) :: rest => q.callback (some r) info n rest.isEmpty :: q.chain n rest

def Disposal.callbacks {q : Query} (n : Int) : Disposal q → List TraderCallback
  | .rejected => []
  | .chain records => q.chain n records
  | .empty info => [q.callback none info n true]

/-- A chain has a record, and nothing the request is answered by is an error. -/
def Disposal.Proper {q : Query} : Disposal q → Prop
  | .rejected => True
  | .chain records => records ≠ [] ∧ ∀ r ∈ records, isError r.2 = false
  | .empty info => isError info = false

/-- A callback for the request, and what else the bridge handles before it. -/
structure Turn where
  before : List (Env × Event)
  env : Env
  cb : TraderCallback

section turns
variable (lib : Lib) (api : Nat)

def Turn.state (t : Turn) (b : Bridge) : Bridge := ((bridge lib).run t.before b).state

def Turn.outcome (t : Turn) (b : Bridge) : Outcome Output Fault Bridge Unit :=
  handle lib (t.env, .trader api t.cb) (t.state lib b)

/-- The surroundings can play these turns, and what is in between does not take
the bridge down. -/
def Playable : List Turn → Bridge → Prop
  | [], _ => True
  | t :: ts, b => (bridge lib).IsRun b t.before ∧ ((bridge lib).run t.before b).val = .ok () ∧
      (t.state lib b).trader.Live api ∧
      ((t.outcome lib api b).val = .ok () → Playable ts (t.outcome lib api b).state)

/-- The activations for the callbacks of the request, up to a fault in one of them. -/
def activations : List Turn → Bridge → List (Outcome Output Fault Bridge Unit)
  | [], _ => []
  | t :: ts, b => t.outcome lib api b :: match (t.outcome lib api b).val with
      | .ok _ => activations ts (t.outcome lib api b).state
      | .error _ => []

/-- The messages of the query's type among the effects of some activations. -/
def Query.answers (q : Query) (rs : List (Outcome Output Fault Bridge Unit)) : List RspMessage :=
  rs.flatMap fun r => (sent r.log).filter fun m => m.rspType = q.rspType

end turns

/-- The records of a chain that are passed on, as messages. -/
def Query.expected (lib : Lib) (q : Query) (n : Int) :
    List (q.Record × Option CThostFtdcRspInfoField) → List RspMessage
  | [] => []
  | (r, _) :: rest => (if q.relays rest.isEmpty then [q.message lib n r] else []) ++ q.expected lib n rest

/-- The websocket is usable whenever a record of the chain is passed on. -/
def Query.Usable (q : Query) : List Turn → Prop
  | [] => True
  | t :: ts => (q.relays ts.isEmpty = true → t.env.sendOk = true) ∧ q.Usable ts

/-- The query is answered: at least one message of its type, for each record of
a chain one in order (but for a settlement confirmation), and no NULL record is read. -/
structure Answered (lib : Lib) (q : Query) (d : Disposal q) (rs : List (Outcome Output Fault Bridge Unit)) :
    Prop where
  some : q.answers rs ≠ []
  each : ∀ records, d = .chain records → q ≠ .settlementInfoConfirm →
    (q.answers rs).map RspMessage.rspArgs = records.map fun r => q.rspArgs lib.gbktoutf8 r.1
  noNull : ∀ r ∈ rs, r.val ≠ .error .nullPointer

section callbacks
variable {lib : Lib} {env : Env} {x : TraderCtx} {info : Option CThostFtdcRspInfoField} {n : Int}

theorem relay_val (lib : Lib) (env : Env) (linked : x.self.Linked) (m : RspMessage) : (CTraderSpi.relay lib env m x).val =
    if env.sendOk then .ok () else .error .sendError := by
  obtain ⟨c, hdl, client, handle⟩ := linked
  cases ok : env.sendOk <;>
    simp [CTraderSpi.relay, bind_run, CTraderSpi.getJsonStr_run, send, known, client, handle, ok]

/-- The outcome of a callback with a good record. -/
theorem query_record_val (linked : x.self.Linked) (q : Query) (r : q.Record) (good : isError info = false)
    (last : Bool) : (CTraderSpi.callback lib env (q.callback (some r) info n last) x).val =
      if q.relays last && !env.sendOk then .error .sendError else .ok () := by
  have relay := fun m => relay_val lib env linked m
  cases q with
  | settlementInfoConfirm =>
    cases last <;> cases ok : env.sendOk <;>
      simp [Query.callback, CTraderSpi.callback, CTraderSpi.onRspSettlementInfoConfirm, bind_run, cout,
        CTraderSpi.isErrorRspInfo_run, good, deref, relay, Query.relays, ok]
  | tradingAccount =>
    cases ok : env.sendOk <;>
      simp [Query.callback, CTraderSpi.callback, CTraderSpi.onRspQryTradingAccount, bind_run, cout,
        CTraderSpi.isErrorRspInfo_run, good, deref, relay, Query.relays, ok]
  | investorPosition =>
    cases ok : env.sendOk <;>
      simp [Query.callback, CTraderSpi.callback, CTraderSpi.onRspQryInvestorPosition, bind_run, cout, relay,
        Query.relays, ok]
  | instrument =>
    cases ok : env.sendOk <;>
      simp [Query.callback, CTraderSpi.callback, CTraderSpi.onRspQryInstrument, bind_run, deref, relay,
        Query.relays, ok]

theorem query_record_relayed (s : CTraderSpi) (q : Query) (r : q.Record) (good : isError info = false)
    (last : Bool) : CTraderSpi.relayed lib s (q.callback (some r) info n last) =
      if q.relays last then some (q.message lib n r) else none := by
  cases q <;> cases last <;>
    simp [Query.callback, CTraderSpi.relayed, Query.relays, Query.message, Query.rspArgs, Query.rspType, good]

theorem query_null_relayed (s : CTraderSpi) (q : Query) (good : isError info = false) (last : Bool) :
    CTraderSpi.relayed lib s (q.callback none info n last) = none := by
  cases q <;> cases last <;> simp [Query.callback, CTraderSpi.relayed, good]

end callbacks

section plays
variable {lib : Lib} {api : Nat} {b : Bridge}

/-- The activation of a turn runs the callback on the session of the API. -/
theorem Turn.session {t : Turn} (reach : Reachable lib b) (runs : (bridge lib).IsRun b t.before)
    (through : ((bridge lib).run t.before b).val = .ok ()) (live : (t.state lib b).trader.Live api) :
    Reachable lib (t.state lib b) ∧ ∃ p s, TraderSession (t.state lib b) api p s := by
  have later : Reachable lib (t.state lib b) := EventSystem.Reach.run reach runs through
  obtain ⟨p, s, session⟩ := later.inv.trader_session (later.inv.trader.live live)
  exact ⟨later, p, s, session⟩

/-- What becomes of a good record: it is passed on, dropped, or lost with an exception. -/
theorem Turn.record {t : Turn} {q : Query} {r : q.Record} {info : Option CThostFtdcRspInfoField} {n : Int}
    {last : Bool} (reach : Reachable lib b) (runs : (bridge lib).IsRun b t.before)
    (through : ((bridge lib).run t.before b).val = .ok ()) (live : (t.state lib b).trader.Live api)
    (at_ : t.cb = q.callback (some r) info n last) (good : isError info = false) :
    sent (t.outcome lib api b).log =
      (if q.relays last && t.env.sendOk then [q.message lib n r] else []) ∧
    (t.outcome lib api b).val = if q.relays last && !t.env.sendOk then .error .sendError else .ok () := by
  obtain ⟨_, p, s, session⟩ := Turn.session reach runs through live
  refine ⟨?_, ?_⟩
  · unfold Turn.outcome
    rw [session.sent, at_, query_record_relayed s q r good last]
    cases q.relays last <;> cases t.env.sendOk <;> rfl
  · unfold Turn.outcome
    rw [session.handle, at_]
    exact query_record_val (x := ⟨s, _⟩) session.linked q r good last

theorem Query.chain_length (q : Query) (n : Int) (records : List (q.Record × Option CThostFtdcRspInfoField)) :
    (q.chain n records).length = records.length := by
  induction records with
  | nil => rfl
  | cons r rest ih => simp [chain, ih]

/-- A chain has as many callbacks as records. -/
theorem Query.chain_isEmpty {q : Query} {n : Int} {turns : List Turn}
    {records : List (q.Record × Option CThostFtdcRspInfoField)} (calls : turns.map Turn.cb = q.chain n records) :
    turns.isEmpty = records.isEmpty := by
  have length := congrArg List.length calls
  rw [Query.chain_length, List.length_map] at length
  cases turns <;> cases records <;> simp_all

theorem activations_error {t : Turn} {ts : List Turn} {e : Fault} (fault : (t.outcome lib api b).val = .error e) :
    activations lib api (t :: ts) b = [t.outcome lib api b] := by
  simp only [activations, fault]

theorem activations_ok {t : Turn} {ts : List Turn} (done : (t.outcome lib api b).val = .ok ()) :
    activations lib api (t :: ts) b = t.outcome lib api b :: activations lib api ts (t.outcome lib api b).state := by
  simp only [activations, done]

theorem Query.answers_cons (q : Query) (r : Outcome Output Fault Bridge Unit)
    (rs : List (Outcome Output Fault Bridge Unit)) :
    q.answers (r :: rs) = ((sent r.log).filter fun m => m.rspType = q.rspType) ++ q.answers rs := rfl

/-- The answers to a chain are the expected ones up to the first that could not
be sent; no callback of a chain reads a NULL record. -/
theorem chain_answers (q : Query) (n : Int) {turns : List Turn}
    {records : List (q.Record × Option CThostFtdcRspInfoField)} (reach : Reachable lib b)
    (calls : turns.map Turn.cb = q.chain n records) (good : ∀ r ∈ records, isError r.2 = false)
    (plays : Playable lib api turns b) :
    q.answers (activations lib api turns b) <+: q.expected lib n records ∧
    (q.answers (activations lib api turns b) = q.expected lib n records ↔ q.Usable turns) ∧
    ∀ r ∈ activations lib api turns b, r.val ≠ .error .nullPointer := by
  induction turns generalizing b records with
  | nil =>
    have none : records = [] := List.isEmpty_iff.mp (Query.chain_isEmpty calls).symm
    subst none
    exact ⟨List.prefix_refl _, ⟨fun _ => trivial, fun _ => rfl⟩, fun r member => by cases member⟩
  | cons t ts ih =>
    cases records with
    | nil => cases calls
    | cons record rest =>
      obtain ⟨r, info⟩ := record
      obtain ⟨head, tail⟩ := List.cons.inj calls
      obtain ⟨runs, through, live, next⟩ := plays
      obtain ⟨later, p, s, session⟩ := Turn.session reach runs through live
      obtain ⟨sends, val⟩ := Turn.record reach runs through live head (good _ List.mem_cons_self)
      have goodRest : ∀ r ∈ rest, isError r.2 = false := fun r member => good r (List.mem_cons_of_mem _ member)
      have able : (bridge lib).enabled (t.state lib b) (t.env, .trader api t.cb) := live
      have isEmpty : q.Usable (t :: ts) ↔
          (q.relays rest.isEmpty = true → t.env.sendOk = true) ∧ q.Usable ts := by
        rw [← Query.chain_isEmpty tail]
        rfl
      rw [isEmpty]
      by_cases lost : q.relays rest.isEmpty = true ∧ t.env.sendOk = false
      · obtain ⟨relays, off⟩ := lost
        have fault : (t.outcome lib api b).val = .error .sendError := by simpa [relays, off] using val
        have silent : q.answers [t.outcome lib api b] = [] := by
          simp [Query.answers, sends, relays, off]
        rw [activations_error fault, silent]
        refine ⟨List.nil_prefix, ?_, ?_⟩
        · simp [Query.expected, relays, off]
        · intro o member
          rw [List.mem_singleton.mp member, fault]
          decide
      · have done : (t.outcome lib api b).val = .ok () := by
          rw [val]
          refine if_neg fun both => lost ?_
          simpa using both
        have after : Reachable lib (t.outcome lib api b).state := .next later able done
        obtain ⟨before, usable, noNull⟩ := ih after tail goodRest (next done)
        have passed : (sent (t.outcome lib api b).log).filter (fun m => m.rspType = q.rspType) =
            if q.relays rest.isEmpty then [q.message lib n r] else [] := by
          rw [sends]
          cases relays : q.relays rest.isEmpty with
          | false => rfl
          | true =>
            have on : t.env.sendOk = true := by simpa [relays] using lost
            simp [on, Query.message]
        have met : (q.relays rest.isEmpty = true → t.env.sendOk = true) ∧ q.Usable ts ↔ q.Usable ts := by
          refine and_iff_right fun relays => ?_
          simpa [relays] using lost
        rw [activations_ok done, Query.answers_cons, passed, met, Query.expected]
        refine ⟨(List.prefix_append_right_inj _).mpr before, ?_, ?_⟩
        · rw [List.append_cancel_left_eq, usable]
        · intro o member
          rcases List.mem_cons.mp member with rfl | later
          · rw [done]
            decide
          · exact noNull o later

/-- The callback without a record sends nothing. -/
theorem empty_answers (q : Query) {n : Int} {info : Option CThostFtdcRspInfoField} {turns : List Turn}
    (reach : Reachable lib b) (good : isError info = false)
    (calls : turns.map Turn.cb = [q.callback none info n true]) (plays : Playable lib api turns b) :
    q.answers (activations lib api turns b) = [] := by
  obtain ⟨t, one, at_⟩ := List.map_eq_singleton_iff.mp calls
  subst one
  obtain ⟨runs, through, live, _⟩ := plays
  obtain ⟨_, p, s, session⟩ := Turn.session reach runs through live
  have nothing : sent (t.outcome lib api b).log = [] := by
    unfold Turn.outcome
    rw [session.sent, at_, query_null_relayed s q good true]
    cases t.env.sendOk <;> rfl
  simp only [activations, Query.answers_cons, nothing]
  split <;> rfl

end plays

/-- The activation for the request itself sends nothing. -/
theorem request_silent {lib : Lib} {q : Query} {b : Bridge} {env : Env} {payload : String} {root : Value}
    (able : Enabled b (env, .message payload)) (read : readStrJson lib payload = .ok root)
    (ofType : reqType lib root = .ok q.reqType) : sent (handle lib (env, .message payload) b).log = [] := by
  obtain ⟨l, ls, loops, opened⟩ := Net.opened_of_conn able
  have other : q.reqType ≠ .onConnect := by cases q <;> decide
  rw [handle_message opened read ofType]
  simp only [sent_append, sent_echoed, (dispatch_quiet lib env l.client l.client root other).sent, List.append_nil]

theorem expected_nonempty (lib : Lib) (q : Query) (n : Int)
    {records : List (q.Record × Option CThostFtdcRspInfoField)} (some : records ≠ []) :
    q.expected lib n records ≠ [] := by
  induction records with
  | nil => exact absurd rfl some
  | cons r rest ih =>
    cases rest with
    | nil =>
      have relays : q.relays true = true := by cases q <;> rfl
      simp [Query.expected, relays]
    | cons k ks =>
      have more := ih (by simp)
      simp only [Query.expected] at more ⊢
      exact fun none => more (List.append_eq_nil_iff.mp none).2

/-- Of a settlement confirmation one message is expected. -/
theorem expected_settlement (lib : Lib) (n : Int)
    {records : List (CThostFtdcSettlementInfoConfirmField × Option CThostFtdcRspInfoField)}
    (some : records ≠ []) : (Query.settlementInfoConfirm.expected lib n records).length = 1 := by
  induction records with
  | nil => exact absurd rfl some
  | cons r rest ih =>
    cases rest with
    | nil => rfl
    | cons k ks => simpa [Query.expected, Query.relays] using ih (by simp)

theorem expected_args (lib : Lib) {q : Query} (query : q ≠ .settlementInfoConfirm) (n : Int)
    (records : List (q.Record × Option CThostFtdcRspInfoField)) :
    (q.expected lib n records).map RspMessage.rspArgs = records.map fun r => q.rspArgs lib.gbktoutf8 r.1 := by
  have all : ∀ last, q.relays last = true := fun last => by simp [Query.relays, query]
  induction records with
  | nil => rfl
  | cons r rest ih => simp [Query.expected, all, ih, Query.message]

/-- An answer of which each record has its message is the expected one. -/
theorem answers_whole {lib : Lib} {q : Query} {n : Int} {records : List (q.Record × Option CThostFtdcRspInfoField)}
    {given : List RspMessage} (before : given <+: q.expected lib n records) (records_some : records ≠ [])
    (some : given ≠ []) (each : q ≠ .settlementInfoConfirm →
      given.map RspMessage.rspArgs = records.map fun r => q.rspArgs lib.gbktoutf8 r.1) :
    given = q.expected lib n records := by
  refine before.eq_of_length ?_
  by_cases settlement : q = .settlementInfoConfirm
  · subst settlement
    have one := expected_settlement lib n records_some
    have bound := before.length_le
    have positive : 0 < given.length := List.length_pos_iff.mpr some
    omega
  · have here := congrArg List.length (each settlement)
    have whole := congrArg List.length (expected_args lib settlement n records)
    rw [List.length_map, List.length_map] at here whole
    omega

/-- A dispatched query is answered exactly if CTP answers it by a chain of
records and the websocket is usable for each of them that is passed on. -/
theorem queries_answered (lib : Lib) (q : Query) {b : Bridge} (reach : Reachable lib b) {env : Env}
    {payload : String} {root : Value} {api : Nat} {n : Int} (able : Enabled b (env, .message payload))
    (read : readStrJson lib payload = .ok root) (ofType : reqType lib root = .ok q.reqType)
    (done : (handle lib (env, .message payload) b).val = .ok ()) (d : Disposal q) (proper : d.Proper)
    {turns : List Turn} (calls : turns.map Turn.cb = d.callbacks n)
    (plays : Playable lib api turns (handle lib (env, .message payload) b).state) :
    Answered lib q d (handle lib (env, .message payload) b ::
      activations lib api turns (handle lib (env, .message payload) b).state) ↔
    (∃ records, d = .chain records) ∧ q.Usable turns := by
  have requested : Reachable lib (handle lib (env, .message payload) b).state := .next reach able done
  have silent := request_silent able read ofType
  have answers : ∀ rs, q.answers (handle lib (env, .message payload) b :: rs) = q.answers rs := by
    intro rs
    rw [Query.answers_cons, silent]
    rfl
  cases d with
  | rejected =>
    have none : turns = [] := List.map_eq_nil_iff.mp calls
    subst none
    constructor
    · intro answered
      exact absurd (answers []) answered.some
    · rintro ⟨⟨records, other⟩, _⟩
      cases other
  | empty info =>
    constructor
    · intro answered
      have nothing := empty_answers q requested proper calls plays
      exact absurd ((answers _).trans nothing) answered.some
    · rintro ⟨⟨records, other⟩, _⟩
      cases other
  | chain records =>
    obtain ⟨some, good⟩ := proper
    obtain ⟨before, usable, noNull⟩ := chain_answers q n requested calls good plays
    constructor
    · intro answered
      have given := answered.some
      have each := answered.each records rfl
      rw [answers] at given each
      exact ⟨⟨records, rfl⟩, usable.mp (answers_whole before some given each)⟩
    · rintro ⟨_, met⟩
      have all := usable.mpr met
      refine ⟨?_, ?_, ?_⟩
      · rw [answers, all]
        exact expected_nonempty lib q n some
      · rintro records' same query
        cases same
        rw [answers, all]
        exact expected_args lib query n records
      · intro r member
        rcases List.mem_cons.mp member with rfl | later
        · rw [done]
          decide
        · exact noNull r later

/-- Queries of the server on a session whose front is up. -/
def accountQuery : Value := serverMessage "ReqQryTradingAccount" 5 []

def positionQuery : Value := serverMessage "ReqQryInvestorPosition" 6 []

def queryLib : Lib := loginLib [accountQuery, positionQuery]

def Bridge.queried : Bridge := .frontUp [accountQuery, positionQuery]

set_option maxRecDepth 4000 in
/-- A query that CTP rejects, and one without a result, are not answered; an
account query without a result is answered by reading a NULL record. -/
theorem queries_unanswered :
    Reachable queryLib .queried ∧
    ¬ Answered queryLib .tradingAccount .rejected
      [handle queryLib ({ Env.up with iResult := -2 }, .message accountQuery.text) .queried] ∧
    ¬ Answered queryLib .investorPosition (.empty none)
      (handle queryLib (.up, .message positionQuery.text) .queried ::
        activations queryLib 0 [⟨[], .up, .onRspQryInvestorPosition none none 6 true⟩]
          (handle queryLib (.up, .message positionQuery.text) .queried).state) ∧
    (handle queryLib (.up, .trader 0 (.onRspQryTradingAccount none none 5 true))
      (handle queryLib (.up, .message accountQuery.text) .queried).state).val = .error .nullPointer :=
  ⟨frontUp_reachable _, fun answered => answered.some rfl, fun answered => answered.some rfl, rfl⟩

/-- Two accounts, the second with the all-clear that CTP may send beside a record. -/
def accounts : List (Query.tradingAccount.Record × Option CThostFtdcRspInfoField) :=
  [({ (default : CThostFtdcTradingAccountField) with accountID := "110623", balance := .ofInt 5000 }, none),
    ({ (default : CThostFtdcTradingAccountField) with accountID := "110624" }, some { errorID := 0, errorMsg := "" })]

/-- The two records, with a trade reported in between. -/
def accountTurns : List Turn :=
  [⟨[], .up, .onRspQryTradingAccount (accounts[0]?.map Prod.fst) none 5 false⟩,
    ⟨[(.up, .trader 0 (.onRtnTrade (some default)))], .up,
      .onRspQryTradingAccount (accounts[1]?.map Prod.fst) (some { errorID := 0, errorMsg := "" }) 5 true⟩]

set_option maxRecDepth 4000 in
theorem queries_answered_account :
    Answered queryLib .tradingAccount (.chain accounts)
      (handle queryLib (.up, .message accountQuery.text) .queried ::
        activations queryLib 0 accountTurns (handle queryLib (.up, .message accountQuery.text) .queried).state) ↔
    (∃ records, Disposal.chain (q := .tradingAccount) accounts = .chain records) ∧
      Query.tradingAccount.Usable accountTurns :=
  queries_answered queryLib .tradingAccount (frontUp_reachable _) rfl rfl rfl rfl (.chain accounts)
    ⟨by decide, by simp [accounts, isError]⟩ rfl
    ⟨trivial, rfl, ⟨_, rfl, rfl, rfl, rfl⟩, fun _ => ⟨⟨⟨_, rfl, rfl, rfl, rfl⟩, fun _ => trivial⟩, rfl,
      ⟨_, rfl, rfl, rfl, rfl⟩, fun _ => trivial⟩⟩

end MFutures
