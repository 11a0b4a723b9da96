import MFutures.Totality

namespace MFutures
open Handler

/-- The order an effect submits. -/
def Effect.order : Effect → Option CThostFtdcInputOrderField
  | .call _ (.request (.reqOrderInsert req _)) => some req
  | _ => none

def orders (log : List Effect) : List CThostFtdcInputOrderField := log.filterMap Effect.order

namespace Value

/-- The value is a number, and the double is that number. -/
def IsNumber (v : Value) (d : Double) : Prop :=
  match v with
  | .intValue n => d = .finite (.ofInt n)
  | .uintValue n => d = .finite (.ofInt n)
  | .realValue d' => d = d'
  | _ => False

/-- The value is a number, and the integer is that number. -/
def IsInteger (v : Value) (n : Int) : Prop :=
  match v with
  | .intValue m => m = n
  | .uintValue m => (m : Int) = n
  | .realValue .negZero => n = 0
  | .realValue d => d = .finite (.ofInt n)
  | _ => False

/-- The value is a number that a double represents. -/
def IsDouble : Value → Prop
  | .intValue n => Double.roundInt n = n
  | .uintValue n => Double.roundInt n = n
  | .realValue _ => True
  | _ => False

end Value

/-- The order is the one the message asks for, value for value. -/
structure OrderAsked (root : Value) (o : CThostFtdcInputOrderField) : Prop where
  orderRef : root.arg "OrderRef" = .stringValue o.orderRef
  instrumentID : root.arg "InstrumentID" = .stringValue o.instrumentID
  direction : root.arg "Direction" = .stringValue (String.singleton o.direction)
  combOffsetFlag : root.arg "CombOffsetFlag" = .stringValue (String.singleton o.combOffsetFlag)
  limitPrice : (root.arg "LimitPrice").IsNumber o.limitPrice
  volumeTotalOriginal : (root.arg "VolumeTotalOriginal").IsInteger o.volumeTotalOriginal

/-- The order is made of what the arguments of the message convert to. -/
structure OrderConverted (lib : Lib) (root : Value) (o : CThostFtdcInputOrderField) : Prop where
  orderRef : ∃ s, lib.argString root "OrderRef" = .ok s ∧ o.orderRef = cStr s
  instrumentID : ∃ s, lib.argString root "InstrumentID" = .ok s ∧ o.instrumentID = cStr s
  direction : ∃ s, lib.argString root "Direction" = .ok s ∧ o.direction = CTraderSpi.firstChar s
  combOffsetFlag : ∃ s, lib.argString root "CombOffsetFlag" = .ok s ∧ o.combOffsetFlag = CTraderSpi.firstChar s
  limitPrice : (root.arg "LimitPrice").asDouble = .ok o.limitPrice
  volumeTotalOriginal : (root.arg "VolumeTotalOriginal").asInt = .ok o.volumeTotalOriginal

/-- The message gives texts without a NUL, one-character strings, a number that
a double represents and an integer. -/
structure OrderGiven (root : Value) : Prop where
  orderRef : ∃ s, root.arg "OrderRef" = .stringValue s ∧ '\x00' ∉ s.toList
  instrumentID : ∃ s, root.arg "InstrumentID" = .stringValue s ∧ '\x00' ∉ s.toList
  direction : ∃ c, root.arg "Direction" = .stringValue (String.singleton c)
  combOffsetFlag : ∃ c, root.arg "CombOffsetFlag" = .stringValue (String.singleton c)
  limitPrice : (root.arg "LimitPrice").IsDouble
  volumeTotalOriginal : ∃ n, (root.arg "VolumeTotalOriginal").IsInteger n

theorem cStr_no_nul (s : String) : '\x00' ∉ (cStr s).toList := by
  intro member
  rw [cStr, String.toList_ofList] at member
  simpa using List.mem_takeWhile_imp member

theorem cStr_of_no_nul {s : String} (clean : '\x00' ∉ s.toList) : cStr s = s := by
  have all : ∀ c ∈ s.toList, decide (c ≠ '\x00') = true :=
    fun c member => decide_eq_true fun nul => clean (nul ▸ member)
  rw [cStr, List.takeWhile_eq_self_iff.mpr all, String.ofList_toList]

theorem Double.truncate_ofInt (n : Int) : truncate (.finite (.ofInt n)) = n := by
  by_cases zero : n = 0
  · subst zero
    rfl
  · have whole : n >>> n.trailingZeros * 2 ^ n.trailingZeros = n := by
      rw [Int.shiftRight_eq_div_pow]
      exact_mod_cast Int.ediv_mul_cancel (Int.two_pow_trailingZeros_dvd zero)
    simp only [truncate, Dyadic.ofInt, Dyadic.ofIntWithPrec, dif_neg zero]
    split
    · rename_i none
      have odd : n.trailingZeros = 0 := by omega
      simp [odd]
    · have exponent : (-(0 - (n.trailingZeros : Int))).toNat = n.trailingZeros := by omega
      rw [exponent, whole]

section values
variable {v : Value}

theorem text_exact {f : Double → String} {s : String} (value : v.asString f = .ok s) :
    v = .stringValue (cStr s) ↔ ∃ t, v = .stringValue t ∧ '\x00' ∉ t.toList := by
  constructor
  · exact fun same => ⟨cStr s, same, cStr_no_nul s⟩
  · rintro ⟨t, rfl, clean⟩
    cases value
    rw [cStr_of_no_nul clean]

theorem char_exact {f : Double → String} {s : String} (value : v.asString f = .ok s) :
    v = .stringValue (String.singleton (CTraderSpi.firstChar s)) ↔ ∃ c, v = .stringValue (String.singleton c) := by
  constructor
  · exact fun same => ⟨_, same⟩
  · rintro ⟨c, rfl⟩
    cases value
    simp [CTraderSpi.firstChar]

theorem ofInt_exact (n : Int) : Double.ofInt n = .finite (.ofInt n) ↔ Double.roundInt n = n := by
  constructor
  · intro same
    have truncated := congrArg Double.truncate same
    rwa [Double.ofInt, Double.truncate_ofInt, Double.truncate_ofInt] at truncated
  · intro same
    rw [Double.ofInt, same]

theorem number_exact {d : Double} (value : v.asDouble = .ok d) : v.IsNumber d ↔ v.IsDouble := by
  cases v with
  | intValue n =>
    cases value
    exact ofInt_exact n
  | uintValue n =>
    cases value
    exact ofInt_exact n
  | realValue d' =>
    cases value
    exact iff_true_intro rfl
  | _ => exact Iff.rfl

theorem checked_ok {α : Type} {p : Prop} [Decidable p] {e : Fault} {a b : α}
    (value : (if p then .ok a else .error e) = Except.ok b) : b = a := by
  split at value
  · exact (Except.ok.inj value).symm
  · cases value

/-- If the value is an integer, `asInt` gives that integer or throws. -/
theorem asInt_integer {n m : Int} (integer : v.IsInteger m) (value : v.asInt = .ok n) : n = m := by
  cases v with
  | intValue k => exact (checked_ok value).trans integer
  | uintValue k => exact (checked_ok value).trans integer
  | realValue d =>
    cases d with
    | finite v =>
      cases integer
      rw [checked_ok value, Double.truncate_ofInt]
    | negZero =>
      have zero : 0 = n := Except.ok.inj value
      exact zero.symm.trans integer.symm
    | _ => cases integer
  | _ => cases integer

theorem integer_exact {n : Int} (value : v.asInt = .ok n) : v.IsInteger n ↔ ∃ m, v.IsInteger m := by
  constructor
  · exact fun integer => ⟨n, integer⟩
  · rintro ⟨m, integer⟩
    rw [asInt_integer integer value]
    exact integer

end values

section conversion
variable {lib : Lib} {root : Value}

theorem argString_value {key s : String} (value : lib.argString root key = .ok s) :
    (root.arg key).asString lib.valueToString = .ok s := by
  obtain ⟨v, read, text⟩ := except_bind_ok value
  rwa [reqArg_value read] at text

theorem inputOrder_converted {brokerID investorID : String} {o : CThostFtdcInputOrderField}
    (order : CTraderSpi.inputOrder lib root brokerID investorID = .ok o) : OrderConverted lib root o := by
  obtain ⟨ref, refText, order⟩ := except_bind_ok order
  obtain ⟨orderRef, refCopy, order⟩ := except_bind_ok order
  obtain ⟨inst, instText, order⟩ := except_bind_ok order
  obtain ⟨instrumentID, instCopy, order⟩ := except_bind_ok order
  obtain ⟨direction, directionText, order⟩ := except_bind_ok order
  obtain ⟨flag, flagText, order⟩ := except_bind_ok order
  obtain ⟨price, priceRead, order⟩ := except_bind_ok order
  obtain ⟨limitPrice, priceValue, order⟩ := except_bind_ok order
  obtain ⟨volume, volumeRead, order⟩ := except_bind_ok order
  obtain ⟨volumeTotal, volumeValue, order⟩ := except_bind_ok order
  rw [reqArg_value priceRead] at priceValue
  rw [reqArg_value volumeRead] at volumeValue
  cases order
  exact {
    orderRef := ⟨ref, refText, (Lib.strcpy_ok refCopy).2⟩
    instrumentID := ⟨inst, instText, (Lib.strcpy_ok instCopy).2⟩
    direction := ⟨direction, directionText, rfl⟩
    combOffsetFlag := ⟨flag, flagText, rfl⟩
    limitPrice := priceValue
    volumeTotalOriginal := volumeValue }

/-- The converted order is the one asked for exactly if no conversion loses
anything. -/
theorem OrderConverted.asked_iff {o : CThostFtdcInputOrderField} (converted : OrderConverted lib root o) :
    OrderAsked root o ↔ OrderGiven root := by
  obtain ⟨⟨ref, refText, refSame⟩, ⟨inst, instText, instSame⟩, ⟨direction, directionText, directionSame⟩,
    ⟨flag, flagText, flagSame⟩, price, volume⟩ := converted
  have orderRef := text_exact (argString_value refText)
  have instrumentID := text_exact (argString_value instText)
  have direction := char_exact (argString_value directionText)
  have combOffsetFlag := char_exact (argString_value flagText)
  rw [← refSame] at orderRef
  rw [← instSame] at instrumentID
  rw [← directionSame] at direction
  rw [← flagSame] at combOffsetFlag
  have limitPrice := number_exact price
  have volumeTotalOriginal := integer_exact volume
  constructor
  · intro asked
    exact ⟨orderRef.mp asked.orderRef, instrumentID.mp asked.instrumentID, direction.mp asked.direction,
      combOffsetFlag.mp asked.combOffsetFlag, limitPrice.mp asked.limitPrice,
      volumeTotalOriginal.mp asked.volumeTotalOriginal⟩
  · intro given
    exact ⟨orderRef.mpr given.orderRef, instrumentID.mpr given.instrumentID, direction.mpr given.direction,
      combOffsetFlag.mpr given.combOffsetFlag, limitPrice.mpr given.limitPrice,
      volumeTotalOriginal.mpr given.volumeTotalOriginal⟩

end conversion

section submission
variable (lib : Lib) (env : Env) (root : Value) (x : TraderCtx)

theorem request_submits (o : CThostFtdcInputOrderField) (n : Int) (line : String) :
    ∃ text, CTraderSpi.request env (.reqOrderInsert o n) line x =
      ⟨[.call x.self.tpUserApi (.request (.reqOrderInsert o n)), .out text], x, .ok ()⟩ :=
  ⟨_, rfl⟩

/-- A fault that `ReqOrderInsert` stops with: an exception of jsoncpp, or, where not
everything it copies fits, a copy past an array or of credentials that were never stored. -/
def OrderFault (e : Fault) : Prop :=
  e = .jsonError ∨ ¬ReqType.reqOrderInsert.Fits lib root x.self ∧
    (e = .overflow ∨ e = .wildPointer ∧ (x.self.brokerID = none ∨ x.self.investorID = none))

/-- What `ReqOrderInsert` does: it fails without a trace, or it submits the
order that `inputOrder` reads and prints a line. -/
theorem reqOrderInsert_cases :
    (∃ e, OrderFault lib root x e ∧ CTraderSpi.reqOrderInsert lib env root x = ⟨[], x, .error e⟩) ∨
    ∃ brokerID investorID o n line, CTraderSpi.inputOrder lib root brokerID investorID = .ok o ∧
      CTraderSpi.reqOrderInsert lib env root x =
        ⟨[.call x.self.tpUserApi (.request (.reqOrderInsert o n)), .out line], x, .ok ()⟩ := by
  have silent := credentials_silent lib x
  have kept : (CTraderSpi.credentials lib x).state = x := CTraderSpi.credentials_keeps lib x
  cases stored : CTraderSpi.credentials lib x with
  | mk log y val =>
    rw [stored] at silent kept
    rw [show log = [] from silent, show y = x from kept] at stored
    cases val with
    | error e =>
      obtain ⟨unfit, fault⟩ := @CTraderSpi.credentials_fault lib x e (by rw [stored])
      exact .inl ⟨e, .inr ⟨fun fits => unfit (fits.credentials rfl), fault⟩,
        by rw [CTraderSpi.reqOrderInsert, bind_run, stored, andThen_error]⟩
    | ok r =>
      obtain ⟨brokerID, investorID⟩ := r
      cases order : CTraderSpi.inputOrder lib root brokerID investorID with
      | error e =>
        refine .inl ⟨e, ?_, by simp [CTraderSpi.reqOrderInsert, bind_run, stored, order]⟩
        refine (CTraderSpi.inputOrder_declines lib root brokerID investorID e order).imp_right fun ⟨past, long⟩ => ?_
        exact ⟨fun fits => long ⟨fits.copied ("OrderRef", .orderRef) (by simp),
          fits.copied ("InstrumentID", .instrumentID) (by simp)⟩, .inl past⟩
      | ok o =>
        cases id : uniqueID root with
        | error e =>
          exact .inl ⟨e, .inl ((uniqueID_converts root).throws e id),
            by simp [CTraderSpi.reqOrderInsert, bind_run, stored, order, id]⟩
        | ok n =>
          obtain ⟨line, submits⟩ := request_submits env x o n ("ReqOrderInsert: " ++ toString n ++ ";xx=")
          refine .inr ⟨brokerID, investorID, o, n, line, order, ?_⟩
          simp only [CTraderSpi.reqOrderInsert, bind_run, stored, order, id, andThen_ok, ofExcept_run, submits]
          rfl

/-- What an activation of `ReqOrderInsert` does. It submits at most one order.
Where all that it copies fits, it submits one exactly if all that it converts can
be converted, and else throws an exception of jsoncpp before anything happens. Where
not, it has not got to submit anything when it throws or what it does is undefined.
An order has the values its arguments convert to, and they are the values given
exactly if no conversion loses anything. -/
structure OrderSubmission (r : Outcome Effect Fault TraderCtx Unit) : Prop where
  atMostOne : (orders r.log).length ≤ 1
  returns : orders r.log ≠ [] → r.val = .ok ()
  submits : ReqType.reqOrderInsert.Fits lib root x.self →
    (orders r.log ≠ [] ↔ ReqType.reqOrderInsert.Convertible root)
  refuses : ReqType.reqOrderInsert.Fits lib root x.self → ¬ReqType.reqOrderInsert.Convertible root →
    r = ⟨[], x, .error .jsonError⟩
  undefined : ¬ReqType.reqOrderInsert.Fits lib root x.self → r.log = [] ∧ r.state = x ∧
    ∃ e, r.val = .error e ∧ (e = .jsonError ∨ e = .overflow ∨
      e = .wildPointer ∧ (x.self.brokerID = none ∨ x.self.investorID = none))
  converted : ∀ o ∈ orders r.log, OrderConverted lib root o
  asked : ∀ o ∈ orders r.log, OrderAsked root o ↔ OrderGiven root

theorem reqOrderInsert_submission : OrderSubmission lib root x (CTraderSpi.reqOrderInsert lib env root x) := by
  have ends : Ends (ReqType.reqOrderInsert.Accepts lib root x.self) (CTraderSpi.reqOrderInsert lib env root) x :=
    CTraderSpi.reqOrderInsert_ends env x
  obtain ⟨e, fault, run⟩ | ⟨brokerID, investorID, o, n, line, order, run⟩ := reqOrderInsert_cases lib env root x
  · have refused : ¬ ReqType.reqOrderInsert.Accepts lib root x.self := by
      intro accepts
      obtain ⟨_, done⟩ := ends.mpr accepts
      rw [run] at done
      cases done
    rw [run]
    refine ⟨Nat.zero_le 1, fun some => absurd rfl some, fun fits => ?_, fun fits _ => ?_, fun _ => ⟨rfl, rfl, e, rfl, ?_⟩,
      fun _ member => absurd member List.not_mem_nil, fun _ member => absurd member List.not_mem_nil⟩
    · exact ⟨fun some => absurd rfl some, fun convertible => absurd ⟨convertible, fits⟩ refused⟩
    · rcases fault with rfl | ⟨unfit, _⟩
      · rfl
      · exact absurd fits unfit
    · exact fault.imp_right And.right
  · obtain ⟨convertible, fits⟩ : ReqType.reqOrderInsert.Accepts lib root x.self := ends.mp ⟨(), by rw [run]⟩
    have converted := inputOrder_converted order
    have single : ∀ o' ∈ [o], o' = o := fun _ member => List.mem_singleton.mp member
    rw [run]
    refine ⟨le_refl 1, fun _ => rfl, fun _ => ⟨fun _ => convertible, fun _ => List.cons_ne_nil _ _⟩,
      fun _ lossy => absurd convertible lossy, fun unfit => absurd fits unfit, ?_, ?_⟩
    · intro o' member
      rw [single o' member]
      exact converted
    · intro o' member
      rw [single o' member]
      exact converted.asked_iff

end submission

/-- An order without an instrument, for two and a half lots. -/
def halfLots : Value :=
  serverMessage "ReqOrderInsert" 7 [("OrderRef", .stringValue "1"), ("Direction", .stringValue "0"),
    ("CombOffsetFlag", .stringValue "0"), ("LimitPrice", .intValue 2700),
    ("VolumeTotalOriginal", .realValue (.finite (.ofOdd 5 1 rfl)))]

/-- A session whose credentials are set. -/
def credentialed : TraderCtx where
  self := { tpUserApi := 0, brokerID := some "9999", investorID := some "110623" }
  iRequestID := 0

set_option maxRecDepth 4000 in
/-- Two lots of the empty instrument are ordered. -/
theorem order_not_asked :
    credentialed.self.CredentialsFit (.plain []) ∧ ¬ OrderGiven halfLots ∧
    ∃ o, orders (CTraderSpi.reqOrderInsert (.plain []) .up halfLots credentialed).log = [o] ∧
      o.instrumentID = "" ∧ o.volumeTotalOriginal = 2 ∧ ¬ OrderAsked halfLots o := by
  refine ⟨⟨⟨_, rfl, by decide⟩, _, rfl, by decide⟩, fun given => ?_, _, rfl, rfl, rfl, fun asked => ?_⟩
  · obtain ⟨s, text, _⟩ := given.instrumentID
    cases text
  · cases asked.instrumentID

end MFutures
