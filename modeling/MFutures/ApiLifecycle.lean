import MFutures.ApiProtocol

namespace MFutures
open Handler Bridge

/-- The API objects of both halves. -/
def Bridge.phase (b : Bridge) : Side × Nat → ApiPhase
  | (.trader, h) => phaseIn b.trader.apis h
  | (.md, h) => phaseIn b.md.apis h

/-- The current API of a half. -/
def Bridge.api (b : Bridge) : Side → Option Nat
  | .trader => b.trader.api
  | .md => b.md.api

def Output.callOn : Side × Nat → Output → Option ApiCall
  | (.trader, h), .trader e => e.callOn h
  | (.md, h), .md e => e.callOn h
  | _, _ => none

/-- Every API object of the bridge is used by the protocol. -/
def bridgeCalls : Guarantee Output Bridge := apiProtocol.guarantee Bridge.phase Output.callOn

section bridge
variable {lib : Lib} {env : Env} {α : Type} {b : Bridge}

theorem onTrader_allowed {x : TraderHalfM α}
    (allowed : (calling TraderHalf.handles).allows b.trader (x b.trader).log (x b.trader).state) :
    bridgeCalls.allows b (onTrader x b).log (onTrader x b).state := by
  rintro ⟨side, h⟩
  cases side with
  | trader =>
    have calls : ((x b.trader).log.map Output.trader).filterMap (Output.callOn (.trader, h)) =
        (x b.trader).log.filterMap (Effect.callOn h) := List.filterMap_map
    exact (congrArg _ calls).trans (allowed h)
  | md =>
    have none : ((x b.trader).log.map Output.trader).filterMap (Output.callOn (.md, h)) = [] := by
      rw [List.filterMap_map]
      exact List.filterMap_eq_nil_iff.mpr fun _ _ => rfl
    exact congrArg _ none

theorem onMd_allowed {x : HalfM CMdSpi α} (allowed : (calling Half.apis).allows b.md (x b.md).log (x b.md).state) :
    bridgeCalls.allows b (onMd x b).log (onMd x b).state := by
  rintro ⟨side, h⟩
  cases side with
  | trader =>
    have none : ((x b.md).log.map Output.md).filterMap (Output.callOn (.trader, h)) = [] := by
      rw [List.filterMap_map]
      exact List.filterMap_eq_nil_iff.mpr fun _ _ => rfl
    exact congrArg _ none
  | md =>
    have calls : ((x b.md).log.map Output.md).filterMap (Output.callOn (.md, h)) =
        (x b.md).log.filterMap (Effect.callOn h) := List.filterMap_map
    exact (congrArg _ calls).trans (allowed h)

/-- The effect is no call on an API. -/
def Output.Plain (o : Output) : Prop := ∀ k, o.callOn k = none

theorem plain_main (line : String) : (Output.main line).Plain := by
  rintro ⟨_ | _, h⟩ <;> rfl

/-- The bridge can use the current API of each half. -/
def Bridge.Usable (b : Bridge) : Prop := b.md.Usable ∧ b.trader.Usable

theorem onMd_triple {x : HalfM CMdSpi α} {pre : Half CMdSpi → Prop} {post : α → Half CMdSpi → Prop}
    (triple : Triple (calling Half.apis) pre x post) (other : TraderHalf → Prop) :
    Triple bridgeCalls (fun b => pre b.md ∧ other b.trader) (onMd x) fun a b => post a b.md ∧ other b.trader := by
  rintro b ⟨before, rest⟩
  exact ⟨onMd_allowed (triple b.md before).1, fun a done => ⟨(triple b.md before).2 a done, rest⟩⟩

theorem onTrader_triple {x : TraderHalfM α} {pre : TraderHalf → Prop} {post : α → TraderHalf → Prop}
    (triple : Triple (calling TraderHalf.handles) pre x post) :
    Triple bridgeCalls (fun b => pre b.trader) (onTrader x) fun a b => post a b.trader :=
  fun b before => ⟨onTrader_allowed (triple b.trader before).1, (triple b.trader before).2⟩

theorem releaseTrader_triple : Triple bridgeCalls Bridge.Usable releaseTrader fun _ _ => True := by
  refine .bind (onMd_triple Half.teardown_triple fun t => t.Usable) fun _ => ?_
  refine (onTrader_triple (TraderHalf.onHalf_triple Half.teardown_triple)).consequence ?_ fun _ _ held => held
  exact fun b usable => usable.2

theorem onNet_triple {x : NetM α} (plain : Emits Output.Plain x) {pre : Bridge → Prop} (holds : Keeps pre (onNet x)) :
    Triple bridgeCalls pre (onNet x) fun _ => pre :=
  Protocol.silent (fun _ => rfl) holds (onNet_emits plain)

theorem printMain_plain (line : String) : Emits Output.Plain (printMain line) := .emit (plain_main line)

theorem retry_plain : Emits Output.Plain (retry lib env) := by
  refine .bind .get fun net => .bind (printMain_plain _) fun _ => .bind (printMain_plain _) fun _ => ?_
  split
  · exact .modify _
  · exact .bind (printMain_plain _) fun _ => .abort _

theorem afterRun_plain (ls : List Loop) : Emits Output.Plain (afterRun lib env ls) := by
  induction ls with
  | nil => exact .modify _
  | cons l ls ih =>
    refine .bind (printMain_plain _) fun _ => .bind (.modify _) fun _ => .bind .get fun net => ?_
    split
    · exact ih
    · exact retry_plain

theorem onClose_triple : Triple bridgeCalls Bridge.Usable (onClose lib env) fun _ _ => True :=
  .bind (onNet_triple (printMain_plain _) fun _ => rfl) fun _ => .bind releaseTrader_triple fun _ =>
    .bind (onNet_triple (.modify _) fun _ => rfl) fun _ => onNet_triple retry_plain fun _ => rfl

theorem attemptFailed_triple : Triple bridgeCalls Bridge.Usable (attemptFailed lib env) fun _ _ => True := by
  refine .bind .get fun b => ?_
  have usable {c : Bridge} (held : b = c ∧ c.Usable) : c.Usable := held.2
  match b.net.loops with
  | [] => exact .pure fun _ _ => trivial
  | [_] => exact onClose_triple.consequence (fun _ => usable) fun _ _ held => held
  | _ :: l :: ls =>
    have printed (line : String) : Triple bridgeCalls Bridge.Usable (onNet (printMain line)) fun _ => Bridge.Usable :=
      onNet_triple (printMain_plain line) fun _ => rfl
    have failed : Triple bridgeCalls Bridge.Usable (onFail env) fun _ _ => True :=
      .bind (printed _) fun _ => .bind (printed _) fun _ => releaseTrader_triple
    refine Triple.consequence (failed.bind fun _ => ?_) (fun _ => usable) fun _ _ held => held
    exact onNet_triple (afterRun_plain _) fun _ => rfl

theorem Half.Inv.usable {S : Type} {ident : S → Identity} {opened : Option Nat} {x : Half S} (inv : x.Inv ident opened) :
    x.Usable := by
  intro h atApi
  have paired : x.spi ≠ none := fun none => by simp [inv.paired.mpr none] at atApi
  obtain ⟨p, atSpi⟩ := Option.ne_none_iff_exists'.mp paired
  obtain ⟨_, a, _, atA, _, registered, inited, fresh, _⟩ := inv.current h p atApi atSpi
  exact ⟨a, atA, inited, fresh, by simp [registered]⟩

/-- The current SPI belongs to the current API. -/
theorem Half.Inv.serves {S : Type} {ident : S → Identity} {opened : Option Nat} {x : Half S} (inv : x.Inv ident opened)
    {q : Nat} {s : S} (atSpi : x.spi = some q) (found : x.object q = some s) : x.Live (ident s).api := by
  have session : x.api ≠ none := fun none => by simp [inv.paired.mp none] at atSpi
  obtain ⟨h, atApi⟩ := Option.ne_none_iff_exists'.mp session
  obtain ⟨s', _, found', _, own, _⟩ := inv.current h q atApi atSpi
  cases Option.some.inj (found.symm.trans found')
  exact own ▸ inv.usable h atApi

/-- Between two handlers the current API runs, and the others are released. -/
theorem Half.Inv.phase {S : Type} {ident : S → Identity} {opened : Option Nat} {x : Half S}
    (inv : x.Inv ident opened) (h : Nat) :
    phaseIn x.apis h = .running ∧ x.api = some h ∨
    (phaseIn x.apis h = .released ∨ phaseIn x.apis h = .absent) ∧ x.api ≠ some h := by
  by_cases session : x.api = some h
  · exact .inl ⟨(inv.usable h session).phase, session⟩
  · refine .inr ⟨?_, session⟩
    cases found : x.apis[h]? with
    | none => exact .inr (by simp [phaseIn, found])
    | some a => exact .inl (by simp [phaseIn, found, Api.phase, inv.ended h a found session])

theorem Bridge.Inv.phase (inv : b.Inv lib) (side : Side) (h : Nat) :
    b.phase (side, h) = .running ∧ b.api side = some h ∨
    (b.phase (side, h) = .released ∨ b.phase (side, h) = .absent) ∧ b.api side ≠ some h := by
  cases side with
  | trader => exact inv.trader.phase h
  | md => exact inv.md.phase h

theorem Bridge.Inv.usable (inv : b.Inv lib) : b.Usable := ⟨inv.md.usable, inv.trader.usable⟩

theorem traderCall_allowed (inv : b.Inv lib) {x : TraderM Unit} (owned : Owned CTraderSpi.own x) :
    bridgeCalls.allows b (onTrader (TraderHalf.call x) b).log (onTrader (TraderHalf.call x) b).state :=
  onTrader_allowed (TraderHalf.call_triple owned b.trader fun _ _ => inv.trader.serves).1

theorem mdCall_allowed (inv : b.Inv lib) {x : MdM Unit} (owned : Owned CMdSpi.mpUserApi x) :
    bridgeCalls.allows b (onMd (MdHalf.call x) b).log (onMd (MdHalf.call x) b).state :=
  onMd_allowed (MdHalf.call_triple owned b.md fun _ _ => inv.md.serves).1

theorem dispatch_allowed (inv : b.Inv lib) (c : Nat) (root : Value) (type : ReqType) :
    bridgeCalls.allows b (dispatch lib env c c root type b).log (dispatch lib env c c root type b).state := by
  cases type with
  | onConnect =>
    exact traderCall_allowed inv (.plain ((CTraderSpi.onRspConnect_keeps lib env).map Identity.api)
      (CTraderSpi.onRspConnect_emits plain_reports))
  | reqUserLogin => exact onTrader_allowed (TraderHalf.login_triple c c root b.trader inv.trader.usable).1
  | mdReqUserLogin => exact onMd_allowed (MdHalf.login_triple c c root b.md inv.md.usable).1
  | reqSettlementInfoConfirm => exact traderCall_allowed inv (CTraderSpi.reqSettlementInfoConfirm_owned root)
  | reqOrderInsert => exact traderCall_allowed inv (CTraderSpi.reqOrderInsert_owned root)
  | reqOrderAction => exact traderCall_allowed inv (CTraderSpi.reqOrderAction_owned root)
  | mdSubscribeMarketData => exact mdCall_allowed inv (CMdSpi.mdSubscribeMarketData_owned root)
  | reqQryTradingAccount => exact traderCall_allowed inv (CTraderSpi.reqQryTradingAccount_owned root)
  | reqQryInvestorPosition => exact traderCall_allowed inv (CTraderSpi.reqQryInvestorPosition_owned root)
  | reqQryInstrument => exact traderCall_allowed inv CTraderSpi.reqQryInstrument_owned
  | unknown => exact bridgeCalls.refl b

/-- Every handler uses the APIs by the protocol, whether it ends or faults. -/
theorem handle_allowed (inv : b.Inv lib) {event : Event} (able : Enabled b (env, event)) :
    bridgeCalls.allows b (handle lib (env, event) b).log (handle lib (env, event) b).state := by
  have setConn (conn : Conn) : Triple bridgeCalls Bridge.Usable (onNet (modify (Net.setConn conn))) fun _ => Bridge.Usable :=
    onNet_triple (.modify _) fun _ => rfl
  cases event with
  | opened =>
    have opened : Emits Output.Plain onOpen := .bind (.modify _) fun _ => printMain_plain _
    exact ((setConn _).bind fun _ => onNet_triple opened fun _ => rfl) b inv.usable |>.1
  | closed => exact ((setConn _).bind fun _ => onClose_triple) b inv.usable |>.1
  | failed => exact ((setConn _).bind fun _ => attemptFailed_triple) b inv.usable |>.1
  | message payload =>
    rcases message_cases lib able with ⟨e, stops, _⟩ | ⟨c, root, type, _, _, _, run⟩
    · rw [stops]
      exact bridgeCalls.refl b
    · rw [run]
      have printed : bridgeCalls.allows b (echoed env type payload) b := by
        refine Protocol.guarantee_stay rfl fun e member k call made => ?_
        unfold echoed at member
        split at member
        · rw [List.mem_singleton.mp member, plain_main _ k] at made
          cases made
        · cases member
      exact bridgeCalls.trans printed (dispatch_allowed inv c root type)
  | trader api cb =>
    obtain ⟨p, s, session⟩ := inv.trader_session (inv.trader.live able)
    refine onTrader_allowed (TraderHalf.invoke_triple (CTraderSpi.callback_owned cb) _ b.trader ?_).1
    rw [session.registered]
    exact fun q s same => inv.trader.serves (session.atSpi.trans same)
  | md api cb =>
    obtain ⟨p, s, session⟩ := inv.md_session (inv.md.live able)
    refine onMd_allowed (MdHalf.invoke_triple (CMdSpi.callback_owned cb) _ b.md ?_).1
    rw [session.registered]
    exact fun q s same => inv.md.serves (session.atSpi.trans same)

end bridge

/-- The calls among the effects that are made on one API object. -/
def callsOn (side : Side) (h : Nat) (log : List Output) : List ApiCall := log.filterMap (Output.callOn (side, h))

theorem follow_callsOn {lib : Lib} {b : Bridge} {es : List (Env × Event)} (start : Started lib b)
    (runs : (bridge lib).IsRun b es) (side : Side) (h : Nat) :
    apiProtocol.follow .absent (callsOn side h ((bridge lib).run es b).log) =
      some (((bridge lib).run es b).state.phase (side, h)) := by
  have absent : b.phase (side, h) = .absent := by
    obtain ⟨_, state⟩ := started_state start
    rw [state]
    cases side <;> rfl
  have allowed := EventSystem.run_allows (G := bridgeCalls) (Bridge.Inv lib)
    (fun _ _ inv able => handle_allowed inv able) (fun _ _ inv able done => handle_bridge_inv inv able done)
    (started_bridge_inv start) runs
  rw [← absent]
  exact allowed (side, h)

end MFutures
