import MFutures.OrderKey
import MFutures.MissingSession
import MFutures.LoginAtomicity

namespace MFutures
open Handler Bridge

/-- The arguments that the handler of a message converts to texts. -/
@[simp] def ReqType.texts : ReqType → List String
  | .reqUserLogin => ["URL", "BROKER_ID", "INVESTOR_ID", "PASSWORD"]
  | .mdReqUserLogin => ["MarketUrl", "BROKER_ID", "INVESTOR_ID", "PASSWORD"]
  | .reqOrderInsert => ["OrderRef", "InstrumentID", "Direction", "CombOffsetFlag"]
  | .reqOrderAction => ["OrderRef", "InstrumentID"]
  | .mdSubscribeMarketData => ["InstrumentID"]
  | .reqQryInvestorPosition => ["InstrumentID"]
  | _ => []

/-- The arguments that it converts to ints. -/
@[simp] def ReqType.ints : ReqType → List String
  | .reqOrderInsert => ["VolumeTotalOriginal"]
  | .reqOrderAction => ["FrontID", "SessionID"]
  | _ => []

/-- The arguments that it converts to doubles. -/
@[simp] def ReqType.numbers : ReqType → List String
  | .reqOrderInsert => ["LimitPrice"]
  | _ => []

/-- Whether it converts the UniqueID. -/
@[simp] def ReqType.identified : ReqType → Bool
  | .reqUserLogin => true
  | .mdReqUserLogin => true
  | .reqSettlementInfoConfirm => true
  | .reqOrderInsert => true
  | .reqQryTradingAccount => true
  | .reqQryInvestorPosition => true
  | _ => false

/-- The arguments it copies to an array, with the array. -/
@[simp] def ReqType.copied (root : Value) : ReqType → List (String × CtpArray)
  | .reqOrderInsert => [("OrderRef", .orderRef), ("InstrumentID", .instrumentID)]
  | .reqOrderAction => [("OrderRef", .orderRef), ("InstrumentID", .instrumentID)]
  | .reqQryInvestorPosition => if (root.arg "InstrumentID").isNull then [] else [("InstrumentID", .instrumentID)]
  | _ => []

/-- Whether it copies the stored credentials to arrays. -/
@[simp] def ReqType.credentialed : ReqType → Bool
  | .reqSettlementInfoConfirm => true
  | .reqOrderInsert => true
  | .reqOrderAction => true
  | .reqQryTradingAccount => true
  | .reqQryInvestorPosition => true
  | _ => false

/-- All that the handler converts can be converted. -/
structure ReqType.Convertible (type : ReqType) (root : Value) : Prop where
  texts : ∀ key ∈ type.texts, root.hasText key = true
  ints : ∀ key ∈ type.ints, root.hasInt key = true
  numbers : ∀ key ∈ type.numbers, root.hasNumber key = true
  id : type.identified = true → root.hasID = true

/-- All that the handler copies fits. -/
structure ReqType.Fits (lib : Lib) (type : ReqType) (root : Value) (s : CTraderSpi) : Prop where
  copied : ∀ e ∈ type.copied root, lib.TextFits root e.1 e.2
  credentials : type.credentialed = true → s.CredentialsFit lib

/-- What the handler of a message takes in a session. -/
def ReqType.Accepts (lib : Lib) (type : ReqType) (root : Value) (s : CTraderSpi) : Prop :=
  type.Convertible root ∧ type.Fits lib root s

theorem ReqType.accepts_iff {lib : Lib} {type : ReqType} {root : Value} {s : CTraderSpi} :
    type.Accepts lib root s ↔
      (type.credentialed = true → s.CredentialsFit lib) ∧ (∀ key ∈ type.texts, root.hasText key = true) ∧
      (∀ e ∈ type.copied root, lib.TextFits root e.1 e.2) ∧ (∀ key ∈ type.numbers, root.hasNumber key = true) ∧
      (∀ key ∈ type.ints, root.hasInt key = true) ∧ (type.identified = true → root.hasID = true) := by
  constructor
  · rintro ⟨⟨texts, ints, numbers, id⟩, copied, credentials⟩
    exact ⟨credentials, texts, copied, numbers, ints, id⟩
  · rintro ⟨credentials, texts, copied, numbers, ints, id⟩
    exact ⟨⟨texts, ints, numbers, id⟩, copied, credentials⟩

section handlers
variable {lib : Lib} {env : Env} {root : Value}

theorem strcpy_succeeds {key : String} {s : String} (value : lib.argString root key = .ok s) (array : CtpArray) :
    Succeeds (lib.TextFits root key array) (lib.strcpy array (cStr s)) := by
  have fits : lib.TextFits root key array ↔ (cStr s).length < lib.sizeof array := by
    constructor
    · exact fun fits => fits s value
    · intro short t other
      cases Except.ok.inj (value.symm.trans other)
      exact short
  rw [fits]
  unfold Lib.strcpy
  split
  · rename_i short
    exact ⟨fun _ => short, fun _ => ⟨_, rfl⟩⟩
  · rename_i long
    exact ⟨fun ⟨_, copy⟩ => (by cases copy), fun short => absurd short long⟩

theorem ofExcept_ends {α σ : Type} {p : Prop} {x : Except Fault α} (succeeds : Succeeds p x) (s : σ) :
    Ends p (ofExcept x : Handler Effect Fault σ α) s := succeeds

namespace CTraderSpi

theorem credentials_ends (x : TraderCtx) : Ends (x.self.CredentialsFit lib) (credentials lib) x := by
  constructor
  · rintro ⟨r, done⟩
    exact credentials_ok done
  · intro fit
    obtain ⟨brokerID, investorID, run⟩ := credentials_fit fit
    exact ⟨_, by rw [run]⟩

theorem request_ends (req : Request) (line : String) (x : TraderCtx) : Ends True (request env req line) x :=
  .total (a := ()) (by simp [request, bind_run, cout])

theorem nextRequestID_ends (x : TraderCtx) : Ends True nextRequestID x :=
  .total (a := increment x.iRequestID) (by simp [nextRequestID, bind_run])

/-- An argument that is converted to a text and copied. -/
theorem copy_succeeds {α : Type} {q : Prop} {key : String} {array : CtpArray} {f : String → Except Fault α}
    (next : ∀ t, Succeeds q (f t)) :
    Succeeds (root.hasText key = true ∧ lib.TextFits root key array ∧ q)
      (lib.argString root key >>= fun s => lib.strcpy array (cStr s) >>= f) :=
  (argString_converts lib root key).ok.bind fun _ value => (strcpy_succeeds value array).bind fun t _ => next t

theorem inputOrder_succeeds (brokerID investorID : String) :
    Succeeds (root.hasText "OrderRef" = true ∧ lib.TextFits root "OrderRef" .orderRef ∧
      root.hasText "InstrumentID" = true ∧ lib.TextFits root "InstrumentID" .instrumentID ∧
      root.hasText "Direction" = true ∧ root.hasText "CombOffsetFlag" = true ∧
      root.hasNumber "LimitPrice" = true ∧ root.hasInt "VolumeTotalOriginal" = true ∧ True)
      (inputOrder lib root brokerID investorID) :=
  copy_succeeds fun _ => copy_succeeds fun _ => (argString_converts lib root _).ok.bind fun _ _ =>
    (argString_converts lib root _).ok.bind fun _ _ => arg_succeeds root Value.asDouble_converts fun _ _ =>
    arg_succeeds root Value.asInt_converts fun _ _ => .pure _

theorem orderAction_succeeds (brokerID investorID : String) :
    Succeeds (root.hasText "OrderRef" = true ∧ lib.TextFits root "OrderRef" .orderRef ∧
      root.hasText "InstrumentID" = true ∧ lib.TextFits root "InstrumentID" .instrumentID ∧
      root.hasInt "FrontID" = true ∧ root.hasInt "SessionID" = true ∧ True)
      (orderAction lib root brokerID investorID) :=
  copy_succeeds fun _ => copy_succeeds fun _ => arg_succeeds root Value.asInt_converts fun _ _ =>
    arg_succeeds root Value.asInt_converts fun _ _ => .pure _

theorem positionInstrument_succeeds : Succeeds (root.hasArgs = true ∧ ((root.arg "InstrumentID").isNull = false →
    root.hasText "InstrumentID" = true ∧ lib.TextFits root "InstrumentID" .instrumentID))
    (positionInstrument lib root) := by
  refine (reqArg_converts root _).ok.bind fun v value => ?_
  rw [reqArg_value value]
  cases null : (root.arg "InstrumentID").isNull with
  | true =>
    rw [if_pos rfl]
    exact ⟨fun _ named => (by cases named), fun _ => ⟨"", rfl⟩⟩
  | false =>
    rw [if_neg Bool.false_ne_true]
    have copied := (argString_converts lib root "InstrumentID").ok.bind fun _ value => strcpy_succeeds value .instrumentID
    exact copied.trans ⟨fun both _ => both, fun both => both rfl⟩

/-- Credentials that are not copied are too long or were never stored. -/
theorem credentials_fault {x : TraderCtx} {e : Fault} (fault : (credentials lib x).val = .error e) :
    ¬x.self.CredentialsFit lib ∧
      (e = .overflow ∨ e = .wildPointer ∧ (x.self.brokerID = none ∨ x.self.investorID = none)) := by
  refine ⟨fun fit => ?_, ?_⟩
  · obtain ⟨brokerID, investorID, run⟩ := credentials_fit fit
    rw [run] at fault
    cases fault
  · cases broker : x.self.brokerID with
    | none =>
      simp [credentials, bind_run, known, broker] at fault
      exact Or.inr ⟨fault.symm, Or.inl rfl⟩
    | some brokerID =>
      cases copy : lib.strcpy .brokerID brokerID with
      | error e' =>
        simp [credentials, bind_run, known, broker, copy] at fault
        exact Or.inl (fault ▸ (Lib.strcpy_error copy).1)
      | ok brokerID' =>
        cases investor : x.self.investorID with
        | none =>
          simp [credentials, bind_run, known, broker, copy, investor] at fault
          exact Or.inr ⟨fault.symm, Or.inr rfl⟩
        | some investorID =>
          cases copy' : lib.strcpy .investorID investorID with
          | error e' =>
            simp [credentials, bind_run, known, broker, copy, investor, copy'] at fault
            exact Or.inl (fault ▸ (Lib.strcpy_error copy').1)
          | ok investorID' => simp [credentials, bind_run, known, broker, copy, investor, copy'] at fault

variable (env)

theorem reqSettlementInfoConfirm_ends (x : TraderCtx) :
    Ends (ReqType.reqSettlementInfoConfirm.Accepts lib root x.self) (reqSettlementInfoConfirm lib env root) x := by
  have ends : Ends _ (reqSettlementInfoConfirm lib env root) x := (credentials_ends x).bind fun _ _ =>
    (ofExcept_ends (uniqueID_converts root).ok _).bind fun _ _ => request_ends _ _ _
  refine ends.trans ?_
  simp [ReqType.accepts_iff]

theorem reqQryTradingAccount_ends (x : TraderCtx) :
    Ends (ReqType.reqQryTradingAccount.Accepts lib root x.self) (reqQryTradingAccount lib env root) x := by
  have ends : Ends _ (reqQryTradingAccount lib env root) x := (credentials_ends x).bind fun _ _ =>
    (ofExcept_ends (uniqueID_converts root).ok _).bind fun _ _ => request_ends _ _ _
  refine ends.trans ?_
  simp [ReqType.accepts_iff]

theorem reqQryInvestorPosition_ends (x : TraderCtx) :
    Ends (ReqType.reqQryInvestorPosition.Accepts lib root x.self) (reqQryInvestorPosition lib env root) x := by
  have ends : Ends _ (reqQryInvestorPosition lib env root) x := (credentials_ends x).bind fun _ _ =>
    (ofExcept_ends positionInstrument_succeeds _).bind fun _ _ =>
    (ofExcept_ends (uniqueID_converts root).ok _).bind fun _ _ => request_ends _ _ _
  refine ends.trans ?_
  cases null : (root.arg "InstrumentID").isNull with
  | true => simp [ReqType.accepts_iff, null, Value.hasText_of_null null]
  | false =>
    have args : root.hasText "InstrumentID" = true → root.hasArgs = true := fun text => (Bool.and_eq_true_iff.mp text).1
    simp [ReqType.accepts_iff, null]
    grind

theorem reqOrderInsert_ends (x : TraderCtx) :
    Ends (ReqType.reqOrderInsert.Accepts lib root x.self) (reqOrderInsert lib env root) x := by
  have ends : Ends _ (reqOrderInsert lib env root) x := (credentials_ends x).bind fun _ _ =>
    (ofExcept_ends (inputOrder_succeeds _ _) _).bind fun _ _ =>
    (ofExcept_ends (uniqueID_converts root).ok _).bind fun _ _ => request_ends _ _ _
  refine ends.trans ?_
  simp [ReqType.accepts_iff]
  grind

theorem reqOrderAction_ends (x : TraderCtx) :
    Ends (ReqType.reqOrderAction.Accepts lib root x.self) (reqOrderAction lib env root) x := by
  have ends : Ends _ (reqOrderAction lib env root) x := (credentials_ends x).bind fun _ _ =>
    (ofExcept_ends (orderAction_succeeds _ _) _).bind fun _ _ => (nextRequestID_ends _).bind fun _ _ =>
    request_ends _ _ _
  refine ends.trans ?_
  simp [ReqType.accepts_iff]
  grind

end CTraderSpi

theorem mdSubscribeMarketData_ends (x : CMdSpi) (s : CTraderSpi) :
    Ends (ReqType.mdSubscribeMarketData.Accepts lib root s) (CMdSpi.mdSubscribeMarketData lib env root) x := by
  have rest : Ends True (do emit (.call (← get).mpUserApi (.request (.subscribeMarketData env.dangling))) : MdM Unit) x :=
    .total (a := ()) (by simp [bind_run])
  have ends : Ends _ (CMdSpi.mdSubscribeMarketData lib env root) x :=
    (ofExcept_ends (argString_converts lib root "InstrumentID").ok x).bind fun _ _ => rest
  refine ends.trans ?_
  simp [ReqType.accepts_iff]

end handlers

section messages
variable {lib : Lib} {env : Env} {root : Value} {b : Bridge}

theorem TraderHalf.login_ends (c hdl : Nat) (t : TraderHalf) (s : CTraderSpi) :
    Ends (ReqType.reqUserLogin.Accepts lib root s) (login lib c hdl root) t := by
  have accepts : ReqType.reqUserLogin.Accepts lib root s ↔ EarlyArgs root ∧ root.hasText "PASSWORD" = true := by
    simp only [ReqType.accepts_iff]
    constructor
    · rintro ⟨_, texts, _, _, _, id⟩
      exact ⟨⟨texts _ (by decide), id rfl, texts _ (by decide), texts _ (by decide)⟩, texts _ (by decide)⟩
    · rintro ⟨⟨url, id, broker, investor⟩, pass⟩
      simp [url, id, broker, investor, pass]
  rw [accepts]
  constructor
  · rintro ⟨_, done⟩
    obtain ⟨loginID, addr, brokerID, investorID, password, args⟩ := login_args done
    exact args.converted
  · rintro ⟨early, pass⟩
    obtain ⟨loginID, addr, brokerID, investorID, password, args⟩ := early.all lib pass
    obtain ⟨log, run⟩ := login_run c hdl t args
    exact ⟨(), by rw [run]⟩

theorem MdHalf.login_ends (c hdl : Nat) (t : Half CMdSpi) (s : CTraderSpi) :
    Ends (ReqType.mdReqUserLogin.Accepts lib root s) (login lib env c hdl root) t := by
  have accepts : ReqType.mdReqUserLogin.Accepts lib root s ↔ Args root := by
    simp only [ReqType.accepts_iff]
    constructor
    · rintro ⟨_, texts, _, _, _, id⟩
      exact ⟨texts _ (by decide), id rfl, texts _ (by decide), texts _ (by decide), texts _ (by decide)⟩
    · rintro ⟨url, id, broker, investor, pass⟩
      simp [url, id, broker, investor, pass]
  rw [accepts]
  constructor
  · rintro ⟨_, done⟩
    obtain ⟨loginID, addr, brokerID, investorID, password, args⟩ := login_args done
    exact args.converted
  · intro args
    obtain ⟨loginID, addr, brokerID, investorID, password, converted⟩ := args.all lib
    obtain ⟨log, run⟩ := login_run env c hdl t converted
    exact ⟨(), by rw [run]⟩

/-- A branch of `on_message` ends exactly if its handler accepts the message. -/
theorem dispatch_ends {api p mapi mp : Nat} {s : CTraderSpi} {ms : CMdSpi} (trader : TraderSession b api p s)
    (md : MdSession b mapi mp ms) (c hdl : Nat) (type : ReqType) :
    Ends (type.Accepts lib root s) (dispatch lib env c hdl root type) b := by
  have called {x : TraderM Unit} {p : Prop} (ends : Ends p x ⟨s, b.trader.iRequestID⟩) :
      Ends p (onTrader (TraderHalf.call x)) b := by
    unfold Ends
    rw [trader.call]
    exact ends
  cases type with
  | onConnect =>
    obtain ⟨k, l, run⟩ := CTraderSpi.onRspConnect_run lib env (x := ⟨s, b.trader.iRequestID⟩) trader.linked
    refine called ?_
    simp [Ends, run, ReqType.accepts_iff]
  | unknown => simp [Ends, dispatch, ReqType.accepts_iff]
  | reqUserLogin => exact TraderHalf.login_ends c hdl b.trader s
  | mdReqUserLogin => exact MdHalf.login_ends c hdl b.md s
  | mdSubscribeMarketData =>
    unfold Ends
    rw [dispatch, md.call]
    exact mdSubscribeMarketData_ends ms s
  | reqSettlementInfoConfirm => exact called (CTraderSpi.reqSettlementInfoConfirm_ends env _)
  | reqOrderInsert => exact called (CTraderSpi.reqOrderInsert_ends env _)
  | reqOrderAction => exact called (CTraderSpi.reqOrderAction_ends env _)
  | reqQryTradingAccount => exact called (CTraderSpi.reqQryTradingAccount_ends env _)
  | reqQryInvestorPosition => exact called (CTraderSpi.reqQryInvestorPosition_ends env _)
  | reqQryInstrument =>
    refine called ?_
    have ends : Ends _ (CTraderSpi.reqQryInstrument env) ⟨s, b.trader.iRequestID⟩ :=
      (CTraderSpi.nextRequestID_ends _).bind fun _ _ => CTraderSpi.request_ends _ _ _
    exact ends.trans (by simp [ReqType.accepts_iff])

end messages

/-- A call of a CTP API. -/
def Output.isCall : Output → Bool
  | .trader (.call _ _) => true
  | .md (.call _ _) => true
  | _ => false

/-- The payload is an object with one of the dispatched types, and what its
handler converts can be converted. -/
def Dispatchable (lib : Lib) (payload : String) : Prop :=
  ∃ members type, lib.parse payload = some (.objectValue members) ∧
    reqType lib (.objectValue members) = .ok type ∧ type ≠ .unknown ∧ type.Convertible (.objectValue members)

/-- What is asked of the handling of a payload: `readStrJson` has a value,
`on_message` returns, and what is no dispatchable message has no effect. -/
structure HandledTotally (lib : Lib) (b : Bridge) (payload : String) (r : Outcome Output Fault Bridge Unit) : Prop where
  defined : ∃ root, readStrJson lib payload = .ok root
  returns : r.val = .ok ()
  inert : ¬ Dispatchable lib payload → (∀ o ∈ r.log, o.isCall = false) ∧ r.state = b

/-- The SPI of the trader session. -/
def Bridge.traderSpi (b : Bridge) : Option CTraderSpi := b.spi.bind b.trader.object

/-- The payload is a text that the reader takes, with a type that converts, and
the handler of the type accepts it. -/
def Acceptable (lib : Lib) (b : Bridge) (payload : String) : Prop :=
  ∃ root type s, lib.tooDeep payload = false ∧ lib.parse payload = some root ∧ reqType lib root = .ok type ∧
    b.traderSpi = some s ∧ type.Accepts lib root s

theorem readStrJson_ok {lib : Lib} {payload : String} {root : Value} :
    readStrJson lib payload = .ok root ↔ lib.tooDeep payload = false ∧ lib.parse payload = some root := by
  unfold readStrJson
  cases lib.tooDeep payload <;> cases lib.parse payload <;> simp

/-- A message that is handled without being dispatchable has an unknown type. -/
theorem undispatchable {lib : Lib} {payload : String} {root : Value} {type : ReqType}
    (parsed : lib.parse payload = some root) (ofType : reqType lib root = .ok type) (convertible : type.Convertible root)
    (other : ¬ Dispatchable lib payload) : type = .unknown := by
  by_contra known
  obtain ⟨v, value, _⟩ := except_bind_ok ofType
  cases root with
  | objectValue members => exact other ⟨members, type, parsed, ofType, known, convertible⟩
  | nullValue => exact known (Except.ok.inj ofType).symm
  | _ => cases value

/-- In a state with both sessions a payload is handled totally exactly if it is
acceptable. -/
theorem handled_totally_iff (lib : Lib) {b : Bridge} (reach : Reachable lib b) {env : Env} {payload : String}
    (able : Enabled b (env, .message payload)) (trader : b.spi.isSome = true) (md : b.mdspi.isSome = true) :
    HandledTotally lib b payload (handle lib (env, .message payload) b) ↔ Acceptable lib b payload := by
  have traderApi : b.trader.api ≠ none := fun none => by
    simp [Bridge.spi, reach.inv.trader.paired.mp none] at trader
  have mdApi : b.md.api ≠ none := fun none => by simp [Bridge.mdspi, reach.inv.md.paired.mp none] at md
  obtain ⟨api, atApi⟩ := Option.ne_none_iff_exists'.mp traderApi
  obtain ⟨mapi, atApi'⟩ := Option.ne_none_iff_exists'.mp mdApi
  obtain ⟨p, s, traderSession⟩ := reach.inv.trader_session atApi
  obtain ⟨mp, ms, mdSession⟩ := reach.inv.md_session atApi'
  obtain ⟨l, ls, loops, opened⟩ := Net.opened_of_conn able
  have current : b.traderSpi = some s := by simp [Bridge.traderSpi, Bridge.spi, traderSession.atSpi, traderSession.object]
  constructor
  · rintro ⟨_, returns, _⟩
    rcases message_cases lib able with ⟨e, stops, _⟩ | ⟨c, root, type, _, read, ofType, run⟩
    · rw [stops] at returns
      cases returns
    · rw [run] at returns
      obtain ⟨shallow, parsed⟩ := readStrJson_ok.mp read
      exact ⟨root, type, s, shallow, parsed, ofType, current,
        (dispatch_ends traderSession mdSession c c type).mp ⟨(), returns⟩⟩
  · rintro ⟨root, type, s', shallow, parsed, ofType, current', accepts⟩
    cases Option.some.inj (current.symm.trans current')
    have read := readStrJson_ok.mpr ⟨shallow, parsed⟩
    obtain ⟨_, done⟩ := (dispatch_ends traderSession mdSession l.client l.client type).mpr accepts
    rw [handle_message opened read ofType]
    refine ⟨⟨root, read⟩, done, fun other => ?_⟩
    cases undispatchable parsed ofType accepts.1 other
    refine ⟨fun o member => ?_, rfl⟩
    simp only [dispatch, pure_run, List.append_nil, echoed] at member
    split at member
    · cases List.mem_singleton.mp member
      rfl
    · cases member

/-- A library that also reads an empty array. -/
def arrayLib : Lib := loginLib [.arrayValue []]

set_option maxRecDepth 4000 in
/-- With both sessions up, a text that is cut short gives `readStrJson` no value
to return, and an array throws out of the event loop. -/
theorem not_handled_totally :
    Reachable arrayLib (.frontUp [.arrayValue []]) ∧ (Bridge.frontUp [.arrayValue []]).spi.isSome = true ∧
    (Bridge.frontUp [.arrayValue []]).mdspi.isSome = true ∧
    ¬ HandledTotally arrayLib (.frontUp [.arrayValue []]) "["
      (handle arrayLib (.up, .message "[") (.frontUp [.arrayValue []])) ∧
    ¬ HandledTotally arrayLib (.frontUp [.arrayValue []]) "[]"
      (handle arrayLib (.up, .message "[]") (.frontUp [.arrayValue []])) := by
  refine ⟨frontUp_reachable _, rfl, rfl, fun total => ?_, fun total => ?_⟩
  · obtain ⟨root, read⟩ := total.defined
    cases read
  · have returns := total.returns
    cases returns

set_option maxRecDepth 4000 in
theorem handled_totally_iff_array :
    HandledTotally arrayLib (.frontUp [.arrayValue []]) "[]"
      (handle arrayLib (.up, .message "[]") (.frontUp [.arrayValue []])) ↔
    Acceptable arrayLib (.frontUp [.arrayValue []]) "[]" :=
  handled_totally_iff arrayLib (frontUp_reachable _) rfl rfl rfl

end MFutures
