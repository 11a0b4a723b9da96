import MFutures.Json.Canonical
import MFutures.Json.Layout
import MFutures.Outgoing

namespace MFutures
open Handler Bridge

/-- The libraries, with the JSON reader and writer that the bridge is built with. -/
def Lib.jsoncpp (lib : Lib) : Lib where
  parse := fun text => (Json.parse text.toList).toOption
  tooDeep := fun text => match Json.parse text.toList with
    | .error .exceededStackLimit => true
    | _ => false
  writeString := fun v => String.ofList ((Json.writeString Json.plainBuilder v).getD [])
  valueToString := fun d => String.ofList (Json.doubleToString d)
  gbktoutf8 := lib.gbktoutf8
  sizeof := lib.sizeof
  accepts := lib.accepts

theorem Lib.jsoncpp_writeString (lib : Lib) (v : Value) : (lib.jsoncpp.writeString v).toList = Json.writeValue v := by
  simp [Lib.jsoncpp, Json.writeString_plain]

section reading
variable {lib : Lib} {text : String} {v : Value}

theorem readStrJson_parsed (read : Json.parse text.toList = .ok v) : readStrJson lib.jsoncpp text = .ok v := by
  simp [readStrJson, Lib.jsoncpp, read, Except.toOption]

/-- The exception of the reader goes through. -/
theorem readStrJson_deep (read : Json.parse text.toList = .error .exceededStackLimit) :
    readStrJson lib.jsoncpp text = .error .jsonError := by
  simp [readStrJson, Lib.jsoncpp, read]

end reading

section requests
open Json
variable {lib : Lib} {env : Env} {v w : Value}

theorem reqArg_eq (v : Value) (key : String) : reqArg v key = follow v ["ReqArgs", key] := by
  simp [reqArg, follow]

theorem arg_same {β : Type} (same : SameReading v w) (key : String) {f : Value → Except Fault β}
    (alike : ∀ {x y}, Alike x y → f x = f y) : reqArg v key >>= f = reqArg w key >>= f := by
  rw [reqArg_eq, reqArg_eq]
  exact same.convert _ alike

theorem argString_same (same : SameReading v w) (key : String) : lib.argString v key = lib.argString w key :=
  arg_same same key fun alike => alike.asString _

theorem argInt_same {β : Type} (same : SameReading v w) (key : String) (f : Int → Except Fault β) :
    (reqArg v key >>= fun x => x.asInt >>= f) = reqArg w key >>= fun x => x.asInt >>= f :=
  arg_same same key fun alike => by rw [alike.asInt]

theorem argDouble_same {β : Type} (same : SameReading v w) (key : String) (f : Double → Except Fault β) :
    (reqArg v key >>= fun x => x.asDouble >>= f) = reqArg w key >>= fun x => x.asDouble >>= f :=
  arg_same same key fun alike => by rw [alike.asDouble]

theorem uniqueID_same (same : SameReading v w) : uniqueID v = uniqueID w := by
  have path (v : Value) : uniqueID v = (follow v ["UniqueID"]).bind Value.asInt := by
    simp [uniqueID, follow]
    rfl
  rw [path, path]
  exact same.convert _ fun alike => alike.asInt

theorem reqType_same (same : SameReading v w) : reqType lib v = reqType lib w := by
  have path (v : Value) : reqType lib v =
      (follow v ["ReqType"]).bind fun x => (x.asString lib.valueToString).map ReqType.ofString := by
    simp [reqType, follow]
    rfl
  rw [path, path]
  exact same.convert _ fun alike => by rw [alike.asString]

theorem positionInstrument_same (same : SameReading v w) :
    CTraderSpi.positionInstrument lib v = CTraderSpi.positionInstrument lib w := by
  unfold CTraderSpi.positionInstrument
  rw [argString_same same]
  exact arg_same same _ fun alike => by rw [alike.isNull]

theorem inputOrder_same (same : SameReading v w) (brokerID investorID : String) :
    CTraderSpi.inputOrder lib v brokerID investorID = CTraderSpi.inputOrder lib w brokerID investorID := by
  unfold CTraderSpi.inputOrder
  simp only [argString_same same, argDouble_same same, argInt_same same]

theorem orderAction_same (same : SameReading v w) (brokerID investorID : String) :
    CTraderSpi.orderAction lib v brokerID investorID = CTraderSpi.orderAction lib w brokerID investorID := by
  unfold CTraderSpi.orderAction
  simp only [argString_same same, argInt_same same]

/-- A request does what its message asks for, and the message is nothing but what is read of it. -/
theorem dispatch_same (same : SameReading v w) (c hdl : Nat) (type : ReqType) :
    dispatch lib env c hdl v type = dispatch lib env c hdl w type := by
  cases type with
  | reqUserLogin => simp only [dispatch, TraderHalf.login, argString_same same, uniqueID_same same]
  | mdReqUserLogin => simp only [dispatch, MdHalf.login, argString_same same, uniqueID_same same]
  | reqSettlementInfoConfirm => simp only [dispatch, CTraderSpi.reqSettlementInfoConfirm, uniqueID_same same]
  | reqOrderInsert => simp only [dispatch, CTraderSpi.reqOrderInsert, inputOrder_same same, uniqueID_same same]
  | reqOrderAction => simp only [dispatch, CTraderSpi.reqOrderAction, orderAction_same same]
  | mdSubscribeMarketData => simp only [dispatch, CMdSpi.mdSubscribeMarketData, argString_same same]
  | reqQryTradingAccount => simp only [dispatch, CTraderSpi.reqQryTradingAccount, uniqueID_same same]
  | reqQryInvestorPosition =>
    simp only [dispatch, CTraderSpi.reqQryInvestorPosition, positionInstrument_same same, uniqueID_same same]
  | onConnect => rfl
  | reqQryInstrument => rfl
  | unknown => rfl

/-- What `on_message` does with a text that stands for a command. -/
def command (lib : Lib) (env : Env) (c hdl : Nat) (text : String) (root : Value) : BridgeM Unit := do
  let type ← ofExcept (reqType lib root)
  echo env type text
  dispatch lib env c hdl root type

theorem onMessage_read {text : String} (read : readStrJson lib text = .ok v) (same : SameReading v w) (c hdl : Nat) :
    onMessage lib env c hdl text = command lib env c hdl text w := by
  funext b
  unfold onMessage command
  rw [read]
  simp only [bind_run, ofExcept_run, andThen_ok, List.nil_append, reqType_same same, dispatch_same same]

/-- A message that is read and written again means the same. -/
theorem onMessage_rewritten {text : String} (read : parse text.toList = .ok v) (portable : v.All Portable) (c hdl : Nat) :
    onMessage lib.jsoncpp env c hdl text = command lib.jsoncpp env c hdl text v ∧
      onMessage lib.jsoncpp env c hdl (lib.jsoncpp.writeString v) =
        command lib.jsoncpp env c hdl (lib.jsoncpp.writeString v) v := by
  refine ⟨onMessage_read (readStrJson_parsed read) (.refl v) c hdl, ?_⟩
  refine onMessage_read (readStrJson_parsed ?_) (normal_sameReading portable) c hdl
  rw [lib.jsoncpp_writeString]
  exact parse_rewritten read

theorem connect_portable : connectValue.All Portable := by
  have ascii {s : String} (all : s.toList.all fun c => c.toNat < 0x80) : Storable s.toList :=
    storable_ascii fun c mem => of_decide_eq_true (List.all_eq_true.mp all c mem)
  exact .objectValue (List.forall_mem_singleton.mpr (ascii rfl)) (List.forall_mem_singleton.mpr (.stringValue (ascii rfl)))

theorem onMessage_rewritten_connect :
    onMessage (Lib.plain []).jsoncpp default 0 0 connectText =
        command (Lib.plain []).jsoncpp default 0 0 connectText connectValue ∧
      onMessage (Lib.plain []).jsoncpp default 0 0 ((Lib.plain []).jsoncpp.writeString connectValue) =
        command (Lib.plain []).jsoncpp default 0 0 ((Lib.plain []).jsoncpp.writeString connectValue) connectValue :=
  onMessage_rewritten connect_read connect_portable 0 0

end requests

section messages
open Json
variable {lib : Lib} {env : Env} {b : Bridge}

/-- An object of values without parts, as the bridge sends it. -/
def Value.isFlat : Value → Bool
  | .objectValue members => members.all fun m => height m.2 = 1
  | _ => false

theorem Value.isFlat_map {A : Type} {p : Option A} {f : A → RspMessage} {m : RspMessage} (has : p.map f = some m)
    (all : ∀ a, (f a).rspArgs.isFlat) : m.rspArgs.isFlat := by
  obtain ⟨a, -, rfl⟩ := Option.map_eq_some_iff.mp has
  exact all a

theorem relayed_flat {s : CTraderSpi} {cb : TraderCallback} {m : RspMessage}
    (has : CTraderSpi.relayed lib s cb = some m) : m.rspArgs.isFlat := by
  cases cb with
  | onFrontDisconnected nReason => exact Value.isFlat_map has fun _ => rfl
  | onRspUserLogin p info n last =>
    simp only [CTraderSpi.relayed] at has
    split at has
    · exact Value.isFlat_map has fun _ => rfl
    · cases has
  | onRspSettlementInfoConfirm p info n last =>
    simp only [CTraderSpi.relayed] at has
    split at has
    · exact Value.isFlat_map has fun _ => rfl
    · cases has
  | onRspQryInstrument p info n last => exact Value.isFlat_map has fun _ => rfl
  | onRspQryTradingAccount p info n last =>
    simp only [CTraderSpi.relayed] at has
    split at has
    · cases has
    · exact Value.isFlat_map has fun _ => rfl
  | onRspQryInvestorPosition p info n last => exact Value.isFlat_map has fun _ => rfl
  | onRspOrderInsert info n last =>
    simp only [CTraderSpi.relayed] at has
    split at has
    · exact Value.isFlat_map has fun _ => rfl
    · cases has
  | onRspError info n last =>
    simp only [CTraderSpi.relayed] at has
    split at has
    · exact Value.isFlat_map has fun _ => rfl
    · cases has
  | onRtnOrder p => exact Value.isFlat_map has fun _ => rfl
  | onRtnTrade p => exact Value.isFlat_map has fun _ => rfl
  | onFrontConnected => cases has
  | onHeartBeatWarning nTimeLapse => cases has
  | onRspOrderAction info n last => cases has

theorem outgoing_flat {event : Event} {m : RspMessage} (has : outgoing lib b event = some m) : m.rspArgs.isFlat := by
  cases event with
  | trader api cb =>
    obtain ⟨s, -, relayed⟩ := Option.bind_eq_some_iff.mp has
    exact relayed_flat relayed
  | md api cb =>
    obtain ⟨s, -, has⟩ := Option.bind_eq_some_iff.mp has
    cases cb with
    | onRtnDepthMarketData p =>
      obtain ⟨p, -, has⟩ := Option.bind_eq_some_iff.mp has
      exact Value.isFlat_map has fun _ => rfl
    | onRspUserLogin p info n last => exact Value.isFlat_map has fun _ => rfl
    | _ => cases has
  | message payload =>
    simp only [outgoing] at has
    split at has
    · split at has
      · exact Value.isFlat_map has fun _ => rfl
      · cases has
    · cases has
  | _ => cases has

theorem height_root {m : RspMessage} (flat : m.rspArgs.isFlat) : height m.root ≤ stackLimit := by
  have inner : height m.rspArgs ≤ 2 := by
    revert flat
    cases m.rspArgs with
    | objectValue members =>
      intro flat
      refine height_objectValue_le.mpr fun m mem => ?_
      exact (of_decide_eq_true (List.all_eq_true.mp flat m (mem_sortMembers mem))).le
    | _ => exact fun none => nomatch none
  have outer : height m.root ≤ 3 := by
    refine height_objectValue_le.mpr fun member mem => ?_
    have mem := mem_sortMembers mem
    simp only [List.mem_cons, List.not_mem_nil, or_false] at mem
    rcases mem with rfl | rfl | rfl | rfl
    · exact inner
    · exact Nat.le_succ 1
    · exact Nat.le_succ 1
    · exact Nat.le_succ 1
  exact outer.trans (by decide)

/-- A message as the server reads it: the four members and no other, whatever the
strings of the message hold. -/
def RspMessage.received (m : RspMessage) : Value :=
  .objectValue [("IsError", .stringValue (recodeString m.isError)), ("RspArgs", normal m.rspArgs),
    ("RspType", .stringValue (recodeString m.rspType)),
    ("UniqueID", integerValue (decide (m.uniqueID < 0)) m.uniqueID.natAbs)]

theorem normal_root (m : RspMessage) : normal m.root = m.received := by
  have sorted : sortMembers (normalMembers [("RspArgs", m.rspArgs), ("UniqueID", .intValue m.uniqueID),
      ("RspType", .stringValue m.rspType), ("IsError", .stringValue m.isError)]) =
      [("IsError", normal (.stringValue m.isError)), ("RspArgs", normal m.rspArgs),
        ("RspType", normal (.stringValue m.rspType)), ("UniqueID", normal (.intValue m.uniqueID))] := by
    simp +decide only [normalMembers, sortMembers_cons, sortMembers_nil, insertMember, if_true, if_false]
  rw [RspMessage.root, normal, sorted]
  simp only [List.map_cons, List.map_nil, recodeString_ascii (s := "IsError") rfl,
    recodeString_ascii (s := "RspArgs") rfl, recodeString_ascii (s := "RspType") rfl, recodeString_ascii (s := "UniqueID") rfl]
  rfl

theorem root_read {m : RspMessage} (flat : m.rspArgs.isFlat) (fits : m.root.All Fits) :
    parse (lib.jsoncpp.writeString m.root).toList = .ok m.received := by
  rw [lib.jsoncpp_writeString, parse_writeValue fits, limited_ok (height_root flat), normal_root]

/-- The message of a front that is gone. -/
def disconnectedMessage : RspMessage :=
  ⟨.objectValue [("InvestorID", .stringValue "110623"), ("Reason", .intValue 4097)], 0, "OnFrontDisconnected", "false"⟩

theorem disconnected_fits : disconnectedMessage.root.All Fits := by
  have number {n : Int} (small : minLargestInt ≤ n ∧ n ≤ maxLargestInt) : (Value.intValue n).All Fits := .intValue small
  have text (s : String) : (Value.stringValue s).All Fits := .stringValue trivial
  refine .objectValue trivial ?_
  simp only [List.forall_mem_cons]
  refine ⟨.objectValue trivial ?_, number (by decide), text _, text _, List.forall_mem_nil _⟩
  simp only [List.forall_mem_cons]
  exact ⟨text _, number (by decide), List.forall_mem_nil _⟩

/-- The front is lost twice, the second time without a usable websocket. -/
def lostTwice : List (Env × Event) :=
  [(.up, .trader 0 (.onFrontDisconnected 4097)), ({ Env.up with sendOk := false }, .trader 0 (.onFrontDisconnected 8193))]

end messages

end MFutures
