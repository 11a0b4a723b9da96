import MFutures.Agreement
import MFutures.Outgoing
import MFutures.Lib.Components

namespace MFutures
open Handler Bridge

/-- The messages of the market-data half. -/
def ReqType.isMarket : ReqType → Bool
  | .mdReqUserLogin => true
  | .mdSubscribeMarketData => true
  | _ => false

/-- The trading half has no part in market-data messages and callbacks. -/
def tradingEvent (lib : Lib) : Env × Event → Bool
  | (_, .message payload) => (messageType lib payload).all fun type => !type.isMarket
  | (_, .md _ _) => false
  | _ => true

/-- The market-data half has no part in trading messages and callbacks. -/
def marketEvent (lib : Lib) : Env × Event → Bool
  | (_, .message payload) => (messageType lib payload).all fun type => type.isMarket || type == .unknown
  | (_, .trader _ _) => false
  | _ => true

def Output.trading : Output → Option Effect
  | .trader e => some e
  | _ => none

def Output.market : Output → Option Effect
  | .md e => some e
  | _ => none

/-- A half together with the websocket side. -/
def Bridge.tradingView (b : Bridge) : TraderHalf × Net := (b.trader, b.net)

def Bridge.marketView (b : Bridge) : Half CMdSpi × Net := (b.md, b.net)

section messages
variable {lib : Lib} {env : Env} {payload : String} {κ : Type} {part : Bridge → κ} {P : Output → Prop}

theorem message_keeps (branch : ∀ c root type, readStrJson lib payload = .ok root → reqType lib root = .ok type →
    Keeps part (dispatch lib env c c root type)) : Keeps part (handle lib (env, .message payload)) := by
  refine .bind .get fun b => ?_
  cases b.net.loops with
  | nil => exact .pure _
  | cons l ls =>
    refine .ofExcept_bind fun root read => .ofExcept_bind fun type ofType => .bind ?_ fun _ =>
      branch l.client root type read ofType
    unfold echo
    split
    · exact .emit _
    · exact .pure _

theorem message_emits (line : ∀ line, P (.main line))
    (branch : ∀ c root type, readStrJson lib payload = .ok root → reqType lib root = .ok type →
      Emits P (dispatch lib env c c root type)) : Emits P (handle lib (env, .message payload)) := by
  refine .bind .get fun b => ?_
  cases b.net.loops with
  | nil => exact .pure _
  | cons l ls =>
    refine .ofExcept_bind fun root read => .ofExcept_bind fun type ofType => .bind ?_ fun _ =>
      branch l.client root type read ofType
    unfold echo
    split
    · exact .emit (line _)
    · exact .pure _

theorem dispatch_trading (lib : Lib) (env : Env) (c : Nat) (root : Value) {type : ReqType} (trading : type.isMarket = false) :
    ∃ x : TraderHalfM Unit, dispatch lib env c c root type = onTrader x := by
  cases type with
  | mdReqUserLogin => cases trading
  | mdSubscribeMarketData => cases trading
  | unknown => exact ⟨pure (), rfl⟩
  | _ => exact ⟨_, rfl⟩

theorem dispatch_market (lib : Lib) (env : Env) (c : Nat) (root : Value) {type : ReqType}
    (market : (type.isMarket || type == .unknown) = true) :
    ∃ x : HalfM CMdSpi Unit, dispatch lib env c c root type = onMd x := by
  cases type with
  | mdReqUserLogin => exact ⟨_, rfl⟩
  | mdSubscribeMarketData => exact ⟨_, rfl⟩
  | unknown => exact ⟨pure (), rfl⟩
  | _ => cases market

end messages

theorem teardown_ends {S : Type} (x : Half S) : (Half.teardown x).val = .ok () := by
  obtain ⟨log, run⟩ := Half.teardown_run x
  rw [run]

section trading
variable {α : Type}

theorem tradingView_eq {b b' : Bridge} (same : b.tradingView = b'.tradingView) :
    b.trader = b'.trader ∧ b.net = b'.net := Prod.mk.inj same

theorem onTrader_trading (x : TraderHalfM α) :
    Agrees (fun b b' => b.tradingView = b'.tradingView) (.through Output.trading) (onTrader x) (onTrader x) := by
  refine .zoom_same Bridge.tradingView ?_ ?_ x
  · exact fun _ _ same => (tradingView_eq same).1
  · exact fun _ _ _ same => Prod.ext rfl (tradingView_eq same).2

theorem onMd_keeps_trading (x : HalfM CMdSpi α) : Keeps Bridge.tradingView (onMd x) := fun _ => rfl

theorem onMd_not_trading (x : HalfM CMdSpi α) : Emits (fun o => o.trading = none) (onMd x) := by
  intro b o member
  obtain ⟨e, _, rfl⟩ := List.mem_map.mp member
  rfl

theorem trading_watches :
    Watches (fun b b' => b.tradingView = b'.tradingView) (.through Output.trading) where
  net := fun same => (tradingView_eq same).2
  main := fun _ => rfl
  onNet := by
    intro α x
    refine .zoom_same Bridge.tradingView ?_ ?_ x
    · exact fun _ _ same => (tradingView_eq same).2
    · exact fun _ _ _ same => Prod.ext (tradingView_eq same).1 rfl
  teardown := .bind (.unseen (onMd_keeps_trading _) (onMd_not_trading _) fun b => teardown_ends b.md) fun _ =>
    onTrader_trading _

/-- A message that the trading half has no part in is one of the other half. -/
theorem market_of_not_trading {lib : Lib} {env : Env} {payload : String} {root : Value} {type : ReqType}
    (unseen : tradingEvent lib (env, .message payload) = false) (read : readStrJson lib payload = .ok root)
    (ofType : reqType lib root = .ok type) : (type.isMarket || type == .unknown) = true := by
  have market : type.isMarket = true := by simpa [tradingEvent, messageType_read read ofType] using unseen
  rw [market]
  rfl

/-- The trading half as a component of the bridge. -/
def tradingHalf (lib : Lib) : EventSystem.Component (bridge lib) (TraderHalf × Net) Effect where
  sees := tradingEvent lib
  view := Bridge.tradingView
  see := Output.trading
  enabled := by
    rintro ⟨env, event⟩ ⟨trader, md, net⟩ ⟨trader', md', net'⟩ sees same able
    obtain ⟨rfl, rfl⟩ := tradingView_eq same
    cases event with
    | md api cb => cases sees
    | _ => exact able
  agrees := by
    rintro ⟨env, event⟩ sees
    cases event with
    | opened => exact connection_agrees lib env trading_watches (.inl rfl)
    | closed => exact connection_agrees lib env trading_watches (.inr (.inl rfl))
    | failed => exact connection_agrees lib env trading_watches (.inr (.inr rfl))
    | message payload =>
      refine message_agrees trading_watches fun c root type read ofType => ?_
      have trading : type.isMarket = false := by
        simpa [tradingEvent, messageType_read read ofType] using sees
      obtain ⟨x, run⟩ := dispatch_trading lib env c root trading
      rw [run]
      exact onTrader_trading x
    | trader api cb => exact onTrader_trading _
    | md api cb => cases sees
  keeps := by
    rintro ⟨env, event⟩ unseen
    cases event with
    | message payload =>
      refine message_keeps fun c root type read ofType => ?_
      obtain ⟨x, run⟩ := dispatch_market lib env c root (market_of_not_trading unseen read ofType)
      rw [run]
      exact onMd_keeps_trading x
    | md api cb => exact onMd_keeps_trading _
    | _ => cases unseen
  silent := by
    rintro ⟨env, event⟩ unseen
    cases event with
    | message payload =>
      refine message_emits (fun _ => rfl) fun c root type read ofType => ?_
      obtain ⟨x, run⟩ := dispatch_market lib env c root (market_of_not_trading unseen read ofType)
      rw [run]
      exact onMd_not_trading x
    | md api cb => exact onMd_not_trading _
    | _ => cases unseen

end trading

section market
variable {α : Type}

theorem marketView_eq {b b' : Bridge} (same : b.marketView = b'.marketView) :
    b.md = b'.md ∧ b.net = b'.net := Prod.mk.inj same

theorem onMd_market (x : HalfM CMdSpi α) :
    Agrees (fun b b' => b.marketView = b'.marketView) (.through Output.market) (onMd x) (onMd x) := by
  refine .zoom_same Bridge.marketView ?_ ?_ x
  · exact fun _ _ same => (marketView_eq same).1
  · exact fun _ _ _ same => Prod.ext rfl (marketView_eq same).2

theorem onTrader_keeps_market (x : TraderHalfM α) : Keeps Bridge.marketView (onTrader x) := fun _ => rfl

theorem onTrader_not_market (x : TraderHalfM α) : Emits (fun o => o.market = none) (onTrader x) := by
  intro b o member
  obtain ⟨e, _, rfl⟩ := List.mem_map.mp member
  rfl

theorem market_watches : Watches (fun b b' => b.marketView = b'.marketView) (.through Output.market) where
  net := fun same => (marketView_eq same).2
  main := fun _ => rfl
  onNet := by
    intro α x
    refine .zoom_same Bridge.marketView ?_ ?_ x
    · exact fun _ _ same => (marketView_eq same).2
    · exact fun _ _ _ same => Prod.ext (marketView_eq same).1 rfl
  teardown := .bind (onMd_market _) fun _ => .unseen (onTrader_keeps_market _) (onTrader_not_market _)
    fun b => teardown_ends b.trader.toHalf

/-- A message that the market-data half has no part in is one of the other half. -/
theorem trading_of_not_market {lib : Lib} {env : Env} {payload : String} {root : Value} {type : ReqType}
    (unseen : marketEvent lib (env, .message payload) = false) (read : readStrJson lib payload = .ok root)
    (ofType : reqType lib root = .ok type) : type.isMarket = false := by
  have neither : type.isMarket = false ∧ ¬ type = .unknown := by
    simpa [marketEvent, messageType_read read ofType] using unseen
  exact neither.1

/-- The market-data half as a component of the bridge. -/
def marketHalf (lib : Lib) : EventSystem.Component (bridge lib) (Half CMdSpi × Net) Effect where
  sees := marketEvent lib
  view := Bridge.marketView
  see := Output.market
  enabled := by
    rintro ⟨env, event⟩ ⟨trader, md, net⟩ ⟨trader', md', net'⟩ sees same able
    obtain ⟨rfl, rfl⟩ := marketView_eq same
    cases event with
    | trader api cb => cases sees
    | _ => exact able
  agrees := by
    rintro ⟨env, event⟩ sees
    cases event with
    | opened => exact connection_agrees lib env market_watches (.inl rfl)
    | closed => exact connection_agrees lib env market_watches (.inr (.inl rfl))
    | failed => exact connection_agrees lib env market_watches (.inr (.inr rfl))
    | message payload =>
      refine message_agrees market_watches fun c root type read ofType => ?_
      have market : (type.isMarket || type == .unknown) = true := by
        simpa [marketEvent, messageType_read read ofType] using sees
      obtain ⟨x, run⟩ := dispatch_market lib env c root market
      rw [run]
      exact onMd_market x
    | trader api cb => cases sees
    | md api cb => exact onMd_market _
  keeps := by
    rintro ⟨env, event⟩ unseen
    cases event with
    | message payload =>
      refine message_keeps fun c root type read ofType => ?_
      obtain ⟨x, run⟩ := dispatch_trading lib env c root (trading_of_not_market unseen read ofType)
      rw [run]
      exact onTrader_keeps_market x
    | trader api cb => exact onTrader_keeps_market _
    | _ => cases unseen
  silent := by
    rintro ⟨env, event⟩ unseen
    cases event with
    | message payload =>
      refine message_emits (fun _ => rfl) fun c root type read ofType => ?_
      obtain ⟨x, run⟩ := dispatch_trading lib env c root (trading_of_not_market unseen read ofType)
      rw [run]
      exact onTrader_not_market x
    | trader api cb => exact onTrader_not_market _
    | _ => cases unseen

end market

/-- Every event is one of a half or of both. -/
theorem halves_cover (lib : Lib) : EventSystem.Cover (tradingHalf lib) (marketHalf lib) := by
  rintro ⟨env, event⟩
  cases event with
  | message payload =>
    cases type : messageType lib payload with
    | none => simp [tradingHalf, tradingEvent, type]
    | some type' =>
      cases market : type'.isMarket with
      | false => simp [tradingHalf, tradingEvent, type, market]
      | true => simp [marketHalf, marketEvent, type, market]
  | md api cb => exact .inr rfl
  | _ => exact .inl rfl

/-- What the trading half and the market-data half do, among the effects of the bridge. -/
def tradingEffects (log : List Output) : List Effect := log.filterMap Output.trading

def marketEffects (log : List Output) : List Effect := log.filterMap Output.market

/-- The same events, each half finding its own and those of the connection in the same order. -/
structure Reinterleaved (lib : Lib) (es es' : List (Env × Event)) : Prop where
  trading : es.filter (tradingEvent lib) = es'.filter (tradingEvent lib)
  market : es.filter (marketEvent lib) = es'.filter (marketEvent lib)

/-- The halves do not interfere: another interleaving of the events of a run
that completes is a run that completes, and leaves both halves, what each did,
and the connection the same. A fault in one interleaving is a fault in all, and
up to it neither half does anything else. -/
theorem halves_independent (lib : Lib) (b : Bridge) {es es' : List (Env × Event)}
    (same : Reinterleaved lib es es') :
    (((bridge lib).run es b).val = .ok () ↔ ((bridge lib).run es' b).val = .ok ()) ∧
    (((bridge lib).run es b).val = .ok () →
      ((bridge lib).IsRun b es → (bridge lib).IsRun b es') ∧
      ((bridge lib).run es' b).state = ((bridge lib).run es b).state ∧
      tradingEffects ((bridge lib).run es' b).log = tradingEffects ((bridge lib).run es b).log ∧
      marketEffects ((bridge lib).run es' b).log = marketEffects ((bridge lib).run es b).log) ∧
    (tradingEffects ((bridge lib).run es b).log <+: tradingEffects ((bridge lib).run es' b).log ∨
      tradingEffects ((bridge lib).run es' b).log <+: tradingEffects ((bridge lib).run es b).log) ∧
    (marketEffects ((bridge lib).run es b).log <+: marketEffects ((bridge lib).run es' b).log ∨
      marketEffects ((bridge lib).run es' b).log <+: marketEffects ((bridge lib).run es b).log) := by
  have cover := halves_cover lib
  have order : EventSystem.Reordered (tradingHalf lib) (marketHalf lib) es es' := ⟨same.trading, same.market⟩
  have swapped : EventSystem.Reordered (marketHalf lib) (tradingHalf lib) es es' := ⟨same.market, same.trading⟩
  refine ⟨⟨order.completes cover, order.symm.completes cover⟩, fun done => ?_, order.comparable b,
    swapped.comparable b⟩
  obtain ⟨trading, tradingLog⟩ := order.alike cover done
  obtain ⟨market, marketLog⟩ := swapped.alike (fun e => (cover e).symm) done
  obtain ⟨trader, net⟩ := tradingView_eq trading
  obtain ⟨md, _⟩ := marketView_eq market
  refine ⟨fun runs => order.isRun cover runs done, ?_, tradingLog, marketLog⟩
  rw [Bridge.mk.injEq]
  exact ⟨trader, md, net⟩

/-- Two orders of the logins of both halves and of their fronts. -/
def tradingFirst : List (Env × Event) :=
  bothLoggedIn ++ [(.up, .trader 0 .onFrontConnected), (.up, .md 0 .onFrontConnected)]

def marketFirst : List (Env × Event) :=
  [(.up, .opened), (.up, .message (serverMessage "MdReqUserLogin" 2 (mdLoginArgs "secret")).text),
    (.up, .md 0 .onFrontConnected), (.up, .message (serverMessage "ReqUserLogin" 1 (loginArgs "secret")).text),
    (.up, .trader 0 .onFrontConnected)]

set_option maxRecDepth 4000 in
theorem login_orders : Reinterleaved (loginLib []) tradingFirst marketFirst := by
  have login : messageType (loginLib []) (serverMessage "ReqUserLogin" 1 (loginArgs "secret")).text =
      some .reqUserLogin := rfl
  have mdLogin : messageType (loginLib []) (serverMessage "MdReqUserLogin" 2 (mdLoginArgs "secret")).text =
      some .mdReqUserLogin := rfl
  constructor
  · simp [tradingFirst, bothLoggedIn, bothLogins, marketFirst, List.filter_cons, tradingEvent, login, mdLogin,
      ReqType.isMarket]
  · simp [tradingFirst, bothLoggedIn, bothLogins, marketFirst, List.filter_cons, marketEvent, login, mdLogin,
      ReqType.isMarket]

theorem halves_independent_logins :
    let lib := loginLib []
    let first := (bridge lib).run tradingFirst (.listening lib)
    let second := (bridge lib).run marketFirst (.listening lib)
    (first.val = .ok () ↔ second.val = .ok ()) ∧
    (first.val = .ok () →
      ((bridge lib).IsRun (.listening lib) tradingFirst → (bridge lib).IsRun (.listening lib) marketFirst) ∧
      second.state = first.state ∧ tradingEffects second.log = tradingEffects first.log ∧
      marketEffects second.log = marketEffects first.log) ∧
    (tradingEffects first.log <+: tradingEffects second.log ∨ tradingEffects second.log <+: tradingEffects first.log) ∧
    (marketEffects first.log <+: marketEffects second.log ∨ marketEffects second.log <+: marketEffects first.log) :=
  halves_independent (loginLib []) (.listening (loginLib [])) login_orders

end MFutures
