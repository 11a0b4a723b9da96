import MFutures.Outgoing
import Mathlib.Data.List.TakeWhile

namespace MFutures
open Handler Bridge

/-- What identifies an order to CTP, as the comment in `ReqOrderAction` lists it. -/
structure OrderKey where
  (orderRef : String) (frontID sessionID : Int) (instrumentID : String)
  deriving DecidableEq

def CThostFtdcOrderField.key (o : CThostFtdcOrderField) : OrderKey :=
  ⟨o.orderRef, o.frontID, o.sessionID, o.instrumentID⟩

def CThostFtdcInputOrderActionField.key (a : CThostFtdcInputOrderActionField) : OrderKey :=
  ⟨a.orderRef, a.frontID, a.sessionID, a.instrumentID⟩

/-- The order actions submitted to CTP. -/
def Output.orderAction : Output → Option CThostFtdcInputOrderActionField
  | .trader (.call _ (.request (.reqOrderAction a _))) => some a
  | _ => none

def orderActions (log : List Output) : List CThostFtdcInputOrderActionField := log.filterMap Output.orderAction

def Printable (s : String) : Prop := ∀ c ∈ s.toList, ' ' ≤ c ∧ c ≤ '~'

/-- An order record as CTP delivers it: its texts are printable and fit their
arrays, its numbers are 32-bit integers. -/
structure CThostFtdcOrderField.WellFormed (lib : Lib) (o : CThostFtdcOrderField) : Prop where
  orderRef : Printable o.orderRef ∧ o.orderRef.length < lib.sizeof .orderRef
  instrumentID : Printable o.instrumentID ∧ o.instrumentID.length < lib.sizeof .instrumentID
  frontID : minInt ≤ o.frontID ∧ o.frontID ≤ maxInt
  sessionID : minInt ≤ o.sessionID ∧ o.sessionID ≤ maxInt

/-- The arguments of the message are those of the notification. -/
def Echoes (root : Value) (m : RspMessage) : Prop := ∀ key, reqArg root key = m.rspArgs.index key

/-- The credentials of the session fit the arrays they are copied to. -/
structure CTraderSpi.CredentialsFit (lib : Lib) (s : CTraderSpi) : Prop where
  brokerID : ∃ t, s.brokerID = some t ∧ t.length < lib.sizeof .brokerID
  investorID : ∃ t, s.investorID = some t ∧ t.length < lib.sizeof .investorID

/-- The cancel of an order: one action that deletes what has its key. -/
def Cancels (log : List Output) (o : CThostFtdcOrderField) : Prop :=
  ∃ a, orderActions log = [a] ∧ a.actionFlag = thostFtdcAfDelete ∧ a.key = o.key

theorem cStr_printable {s : String} (printable : Printable s) : cStr s = s := by
  have noNul : ∀ c ∈ s.toList, decide (c ≠ '\x00') = true := by
    intro c member
    have lower : ' ' ≤ c := (printable c member).1
    refine decide_eq_true fun nul => ?_
    subst nul
    exact absurd lower (by decide)
  unfold cStr
  rw [List.takeWhile_eq_self_iff.mpr noNul, String.ofList_toList]

section decode
variable {lib : Lib} {o : CThostFtdcOrderField} {root : Value} {m : RspMessage}

theorem echo_orderRef (args : m.rspArgs = o.rspArgs lib.gbktoutf8) (echo : Echoes root m) :
    lib.argString root "OrderRef" = .ok o.orderRef := by
  unfold Lib.argString
  rw [echo, args]
  rfl

/-- The notification has no member for the instrument. -/
theorem echo_instrumentID (args : m.rspArgs = o.rspArgs lib.gbktoutf8) (echo : Echoes root m) :
    lib.argString root "InstrumentID" = .ok "" := by
  unfold Lib.argString
  rw [echo, args]
  rfl

theorem echo_frontID (args : m.rspArgs = o.rspArgs lib.gbktoutf8) (echo : Echoes root m) :
    reqArg root "FrontID" = .ok (.intValue o.frontID) := by
  rw [echo, args]
  rfl

theorem echo_sessionID (args : m.rspArgs = o.rspArgs lib.gbktoutf8) (echo : Echoes root m) :
    reqArg root "SessionID" = .ok (.intValue o.sessionID) := by
  rw [echo, args]
  rfl

/-- The action read from an echoed notification: everything but the instrument
comes back. -/
theorem orderAction_echo (fits : o.WellFormed lib) (args : m.rspArgs = o.rspArgs lib.gbktoutf8)
    (echo : Echoes root m) (brokerID investorID : String) :
    CTraderSpi.orderAction lib root brokerID investorID =
      .ok ⟨brokerID, investorID, o.orderRef, "", o.frontID, o.sessionID, thostFtdcAfDelete⟩ := by
  have room : "".length < lib.sizeof .instrumentID := by
    have some := fits.instrumentID.2
    have zero : "".length = 0 := rfl
    omega
  have orderRef : lib.strcpy .orderRef (cStr o.orderRef) = .ok o.orderRef := by
    rw [cStr_printable fits.orderRef.1]
    exact if_pos fits.orderRef.2
  have instrumentID : lib.strcpy .instrumentID (cStr "") = .ok "" := if_pos room
  simp only [CTraderSpi.orderAction, echo_orderRef args echo, echo_instrumentID args echo, echo_frontID args echo,
    echo_sessionID args echo, orderRef, instrumentID, Value.asInt_intValue fits.frontID.1 fits.frontID.2,
    Value.asInt_intValue fits.sessionID.1 fits.sessionID.2, bind, Except.bind, pure, Except.pure]

end decode

section credentials
variable {lib : Lib} {x : TraderCtx}

theorem credentials_fit (fit : x.self.CredentialsFit lib) :
    ∃ brokerID investorID, CTraderSpi.credentials lib x = ⟨[], x, .ok (brokerID, investorID)⟩ := by
  obtain ⟨⟨brokerID, broker, short⟩, investorID, investor, short'⟩ := fit
  refine ⟨brokerID, investorID, ?_⟩
  simp [CTraderSpi.credentials, bind_run, known, broker, investor, Lib.strcpy, short, short']

theorem credentials_silent (lib : Lib) (x : TraderCtx) : (CTraderSpi.credentials lib x).log = [] := by
  have silent : Emits (fun _ => False) (CTraderSpi.credentials lib) := CTraderSpi.credentials_emits
  exact List.eq_nil_iff_forall_not_mem.mpr (silent x)

theorem credentials_ok {r : String × String} (done : (CTraderSpi.credentials lib x).val = .ok r) :
    x.self.CredentialsFit lib := by
  cases broker : x.self.brokerID with
  | none => simp [CTraderSpi.credentials, bind_run, known, broker] at done
  | some brokerID =>
    cases copy : lib.strcpy .brokerID brokerID with
    | error e => simp [CTraderSpi.credentials, bind_run, known, broker, copy] at done
    | ok brokerID' =>
      cases investor : x.self.investorID with
      | none => simp [CTraderSpi.credentials, bind_run, known, broker, copy, investor] at done
      | some investorID =>
        cases copy' : lib.strcpy .investorID investorID with
        | error e => simp [CTraderSpi.credentials, bind_run, known, broker, copy, investor, copy'] at done
        | ok investorID' =>
          exact ⟨⟨brokerID, broker, (Lib.strcpy_ok copy).1⟩, investorID, investor, (Lib.strcpy_ok copy').1⟩

end credentials

section cancel
variable {lib : Lib} {env : Env} {b : Bridge} {api p c hdl : Nat} {s : CTraderSpi} {root : Value}
  {o : CThostFtdcOrderField} {m : RspMessage}

theorem orderActions_echoed (type : ReqType) (payload : String) (log : List Output) :
    orderActions (echoed env type payload ++ log) = orderActions log := by
  unfold echoed
  split <;> rfl

/-- An echoed cancel is submitted if the credentials of the session fit, with
an empty instrument. -/
theorem reqOrderAction_echo (env : Env) (c hdl : Nat) (session : TraderSession b api p s) (fits : o.WellFormed lib)
    (args : m.rspArgs = o.rspArgs lib.gbktoutf8) (echo : Echoes root m) (fit : s.CredentialsFit lib) :
    ∃ brokerID investorID, orderActions (dispatch lib env c hdl root .reqOrderAction b).log =
      [⟨brokerID, investorID, o.orderRef, "", o.frontID, o.sessionID, thostFtdcAfDelete⟩] := by
  obtain ⟨brokerID, investorID, run⟩ := credentials_fit (x := ⟨s, b.trader.iRequestID⟩) fit
  refine ⟨brokerID, investorID, ?_⟩
  simp only [dispatch, session.call, Bridge.traderRan, CTraderSpi.reqOrderAction, bind_run, run, andThen_ok,
    orderAction_echo fits args echo, ofExcept_run, CTraderSpi.nextRequestID, modify_run, get_run, pure_run,
    CTraderSpi.request, emit_run, cout]
  rfl

/-- Without fitting credentials nothing is submitted. -/
theorem reqOrderAction_unfit (session : TraderSession b api p s) (unfit : ¬ s.CredentialsFit lib) :
    orderActions (dispatch lib env c hdl root .reqOrderAction b).log = [] := by
  have silent := credentials_silent lib ⟨s, b.trader.iRequestID⟩
  rcases run : CTraderSpi.credentials lib ⟨s, b.trader.iRequestID⟩ with ⟨log, t, e | r⟩
  · have nothing : log = [] := by simpa [run] using silent
    simp [dispatch, session.call, Bridge.traderRan, CTraderSpi.reqOrderAction, bind_run, run, nothing, orderActions]
  · exact absurd (credentials_ok (x := ⟨s, b.trader.iRequestID⟩) (by rw [run])) unfit

end cancel

/-- A notification carries the arguments of its order. -/
theorem notified_args {lib : Lib} {b : Bridge} {env : Env} {api : Nat} {o : CThostFtdcOrderField} {m : RspMessage}
    (reach : Reachable lib b) (live : b.trader.Live api)
    (notified : m ∈ sent (handle lib (env, .trader api (.onRtnOrder (some o))) b).log) :
    m.rspArgs = o.rspArgs lib.gbktoutf8 := by
  obtain ⟨p, s, session⟩ := reach.inv.trader_session (reach.inv.trader.live live)
  rw [session.sent] at notified
  split at notified
  · have only : m = ⟨o.rspArgs lib.gbktoutf8, o.requestID, "OnRtnOrder", "false"⟩ := by
      simpa [CTraderSpi.relayed] using notified
    rw [only]
  · cases notified

/-- What two orders have in common when one message echoes both. -/
theorem echo_common {lib : Lib} {o o' : CThostFtdcOrderField} {m m' : RspMessage} {root : Value}
    (args : m.rspArgs = o.rspArgs lib.gbktoutf8) (args' : m'.rspArgs = o'.rspArgs lib.gbktoutf8)
    (echo : Echoes root m) (echo' : Echoes root m') :
    o.orderRef = o'.orderRef ∧ o.frontID = o'.frontID ∧ o.sessionID = o'.sessionID := by
  refine ⟨?_, ?_, ?_⟩
  · have same := (echo_orderRef args echo).symm.trans (echo_orderRef args' echo')
    exact Except.ok.inj same
  · have same := (echo_frontID args echo).symm.trans (echo_frontID args' echo')
    exact Value.intValue.inj (Except.ok.inj same)
  · have same := (echo_sessionID args echo).symm.trans (echo_sessionID args' echo')
    exact Value.intValue.inj (Except.ok.inj same)

/-- The echo of an order notification cancels that order exactly if the order
has no instrument and the credentials of the session fit; and two orders that
have the echo in common have one key exactly if they have one instrument. -/
theorem echoed_cancel (lib : Lib) {b b' : Bridge} (reach : Reachable lib b) (reach' : Reachable lib b')
    {env env' : Env} {api api' : Nat} {o : CThostFtdcOrderField} {m : RspMessage} {payload : String}
    {root : Value} (fits : o.WellFormed lib) (live : b.trader.Live api)
    (notified : m ∈ sent (handle lib (env, .trader api (.onRtnOrder (some o))) b).log)
    (able : Enabled b' (env', .message payload)) (session : b'.pTraderApi = some api')
    (read : readStrJson lib payload = .ok root) (ofType : reqType lib root = .ok .reqOrderAction)
    (echo : Echoes root m) :
    (∃ p s, TraderSession b' api' p s ∧ (Cancels (handle lib (env', .message payload) b').log o ↔
      o.instrumentID = "" ∧ s.CredentialsFit lib)) ∧
    ∀ o' m' c env'' api'', Reachable lib c → c.trader.Live api'' →
      m' ∈ sent (handle lib (env'', .trader api'' (.onRtnOrder (some o'))) c).log → Echoes root m' →
      (o.key = o'.key ↔ o.instrumentID = o'.instrumentID) := by
  have args := notified_args reach live notified
  obtain ⟨l, ls, loops, opened⟩ := Net.opened_of_conn able
  obtain ⟨p, s, session⟩ := reach'.inv.trader_session session
  refine ⟨⟨p, s, session, ?_⟩, ?_⟩
  · rw [handle_message opened read ofType]
    unfold Cancels
    simp only [orderActions_echoed]
    by_cases fit : s.CredentialsFit lib
    · obtain ⟨brokerID, investorID, submitted⟩ := reqOrderAction_echo env' l.client l.client session
        fits args echo fit
      rw [submitted]
      constructor
      · rintro ⟨a, only, _, key⟩
        cases only
        have instrument : "" = o.instrumentID := congrArg OrderKey.instrumentID key
        exact ⟨instrument.symm, fit⟩
      · rintro ⟨empty, _⟩
        refine ⟨_, rfl, rfl, ?_⟩
        simp only [CThostFtdcInputOrderActionField.key, CThostFtdcOrderField.key, empty]
    · rw [reqOrderAction_unfit session fit]
      constructor
      · rintro ⟨a, none, _⟩
        cases none
      · rintro ⟨_, fits⟩
        exact absurd fits fit
  · intro o' m' c env'' api'' reach'' live' notified' echo'
    have args' := notified_args reach'' live' notified'
    obtain ⟨orderRef, frontID, sessionID⟩ := echo_common args args' echo echo'
    constructor
    · exact fun key => congrArg OrderKey.instrumentID key
    · intro instrument
      simp only [CThostFtdcOrderField.key, orderRef, frontID, sessionID, instrument]

/-- An order of an instrument, and the server's cancel of it: the arguments of
its notification. -/
def sampleOrder : CThostFtdcOrderField :=
  { (default : CThostFtdcOrderField) with orderRef := "12", instrumentID := "ag1801", frontID := 1, sessionID := 7 }

def sampleCancel : Value :=
  .objectValue [("ReqType", .stringValue "ReqOrderAction"), ("UniqueID", .intValue 9),
    ("ReqArgs", sampleOrder.rspArgs id)]

theorem sampleOrder_wellFormed : sampleOrder.WellFormed (loginLib [sampleCancel]) where
  orderRef := ⟨by simp [Printable, sampleOrder], by decide⟩
  instrumentID := ⟨by simp [Printable, sampleOrder], by decide⟩
  frontID := by decide
  sessionID := by decide

def sampleNotification : RspMessage := ⟨sampleOrder.rspArgs id, 0, "OnRtnOrder", "false"⟩

set_option maxRecDepth 4000 in
theorem sampleOrder_notified : sampleNotification ∈ sent (handle (loginLib [sampleCancel])
    (.up, .trader 0 (.onRtnOrder (some sampleOrder))) (.frontUp [sampleCancel])).log :=
  List.mem_singleton.mpr rfl

set_option maxRecDepth 4000 in
theorem sampleCancel_read : readStrJson (loginLib [sampleCancel]) sampleCancel.text = .ok sampleCancel :=
  loginLib_read (by decide)

set_option maxRecDepth 4000 in
/-- The echoed cancel of an order of "ag1801" names no instrument, and it is the
echo of the same order of "cu1801" as well. -/
theorem order_not_cancelled :
    sampleOrder.WellFormed (loginLib [sampleCancel]) ∧ Reachable (loginLib [sampleCancel]) (.frontUp [sampleCancel]) ∧
    Echoes sampleCancel sampleNotification ∧
    orderActions (handle (loginLib [sampleCancel]) (.up, .message sampleCancel.text) (.frontUp [sampleCancel])).log =
      [⟨"9999", "110623", "12", "", 1, 7, thostFtdcAfDelete⟩] ∧
    ¬ Cancels (handle (loginLib [sampleCancel]) (.up, .message sampleCancel.text) (.frontUp [sampleCancel])).log
      sampleOrder ∧
    { sampleOrder with instrumentID := "cu1801" }.key ≠ sampleOrder.key ∧
    { sampleOrder with instrumentID := "cu1801" }.rspArgs id = sampleOrder.rspArgs id := by
  have submitted : orderActions (handle (loginLib [sampleCancel]) (.up, .message sampleCancel.text)
      (.frontUp [sampleCancel])).log = [⟨"9999", "110623", "12", "", 1, 7, thostFtdcAfDelete⟩] := by
    rw [handle_message (c := 0) rfl sampleCancel_read rfl, orderActions_echoed]
    rfl
  refine ⟨sampleOrder_wellFormed, frontUp_reachable _, fun _ => rfl, submitted, ?_, by decide, rfl⟩
  rintro ⟨a, only, _, key⟩
  rw [submitted] at only
  cases only
  exact absurd key (by decide)

set_option maxRecDepth 4000 in
theorem echoed_cancel_sampleOrder :
    (∃ p s, TraderSession (.frontUp [sampleCancel]) 0 p s ∧
      (Cancels (handle (loginLib [sampleCancel]) (.up, .message sampleCancel.text) (.frontUp [sampleCancel])).log
        sampleOrder ↔ sampleOrder.instrumentID = "" ∧ s.CredentialsFit (loginLib [sampleCancel]))) ∧
    ∀ o' m' c env'' api'', Reachable (loginLib [sampleCancel]) c → c.trader.Live api'' →
      m' ∈ sent (handle (loginLib [sampleCancel]) (env'', .trader api'' (.onRtnOrder (some o'))) c).log →
      Echoes sampleCancel m' → (sampleOrder.key = o'.key ↔ sampleOrder.instrumentID = o'.instrumentID) :=
  echoed_cancel (loginLib [sampleCancel]) (frontUp_reachable _) (frontUp_reachable _) sampleOrder_wellFormed
    ⟨_, rfl, rfl, rfl, rfl⟩ sampleOrder_notified rfl rfl sampleCancel_read rfl fun _ => rfl

end MFutures
