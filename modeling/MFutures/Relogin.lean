import Mathlib.Data.Set.Card
import MFutures.MissingSession

namespace MFutures
open Handler Bridge

namespace Half
variable {S : Type}

/-- The addresses of the SPI objects that have not been deleted. -/
def live (x : Half S) : Set Nat := { p | (x.object p).isSome = true }

/-- What an API object is as a resource: its SPI, whether it was initialised and
how often it was released. -/
def resource (rename : Nat → Nat) (a : Api S) : Option Nat × Bool × Nat :=
  (a.registered.map rename, a.inited, a.released)

/-- Two halves hold the same resources, up to a renaming of APIs and of SPI objects. -/
structure Renamed (x y : Half S) (apis spis : Equiv.Perm Nat) : Prop where
  api : y.api = x.api.map apis
  spi : y.spi = x.spi.map spis
  resources : ∀ h, y.apis[apis h]?.map (resource id) = x.apis[h]?.map (resource spis)
  objects : ∀ p, (y.object (spis p)).isSome = (x.object p).isSome

def SameResources (x y : Half S) : Prop := ∃ apis spis, x.Renamed y apis spis

/-- At most one SPI object exists. -/
def AtMostOneSpi (x : Half S) : Prop := ∀ p q, p ∈ x.live → q ∈ x.live → p = q

/-- The current SPI is the one SPI object that exists. -/
def Single (x : Half S) : Prop := ∀ p, p ∈ x.live ↔ x.spi = some p

variable {ident : S → Identity} {opened : Option Nat} {x y : Half S}

theorem SameResources.refl (x : Half S) : x.SameResources x := by
  refine ⟨1, 1, by simp, by simp, fun h => ?_, fun p => rfl⟩
  have same : resource (S := S) id = resource (1 : Equiv.Perm Nat) := by
    funext a
    simp [resource]
  simp [same]

theorem live_finite (x : Half S) : x.live.Finite := by
  refine (Set.finite_lt_nat x.spis.length).subset fun p alive => ?_
  obtain ⟨s, found⟩ := Option.isSome_iff_exists.mp alive
  exact object_lt found

/-- A renaming keeps the number of SPI objects. -/
theorem SameResources.live_ncard (same : x.SameResources y) : y.live.ncard = x.live.ncard := by
  obtain ⟨apis, spis, _, _, _, objects⟩ := same
  have image : y.live = spis '' x.live := by
    ext p
    constructor
    · intro alive
      refine ⟨spis.symm p, ?_, spis.apply_symm_apply p⟩
      have here := objects (spis.symm p)
      rw [spis.apply_symm_apply] at here
      exact here.symm.trans alive
    · rintro ⟨q, alive, rfl⟩
      exact (objects q).trans alive
  rw [image, Set.ncard_image_of_injective _ spis.injective]

theorem live_installed (x : Half S) (s : S) (addr : String) :
    (x.installed s addr).live = insert x.spis.length x.live := by
  ext p
  simp only [live, Set.mem_ofPred_eq, Set.mem_insert_iff, object, installed]
  rcases Nat.lt_trichotomy p x.spis.length with before | here | beyond
  · simp [List.getElem?_append_left before, Nat.ne_of_lt before]
  · simp [here]
  · rw [List.getElem?_eq_none (by simpa using beyond), List.getElem?_eq_none (Nat.le_of_lt beyond)]
    simp [Nat.ne_of_gt beyond]

theorem torn_apis_length (x : Half S) : x.torn.apis.length = x.apis.length := retire_length x _

theorem torn_spis_length (x : Half S) : x.torn.spis.length = x.spis.length := by
  unfold torn
  cases x.spi <;> simp

theorem live_torn {p : Nat} (session : x.spi = some p) : x.torn.live = x.live \ {p} := by
  ext q
  simp only [live, Set.mem_ofPred_eq, Set.mem_sdiff, Set.mem_singleton_iff, object, torn, session, List.getElem?_set]
  by_cases here : p = q
  · subst here
    by_cases bound : p < x.spis.length <;> simp [bound]
  · simp [here, Ne.symm here]

/-- Without a session there is nothing to tear down. -/
theorem torn_idle (api : x.api = none) (spi : x.spi = none) : x.torn = x := by
  obtain ⟨_, _, apis, spis⟩ := x
  cases api
  cases spi
  rfl

theorem Inv.current_object (inv : x.Inv ident opened) (session : x.spi ≠ none) :
    ∃ p s, x.spi = some p ∧ x.object p = some s := by
  obtain ⟨p, atSpi⟩ := Option.ne_none_iff_exists'.mp session
  have paired : x.api ≠ none := fun none => session (inv.paired.mp none)
  obtain ⟨h, atApi⟩ := Option.ne_none_iff_exists'.mp paired
  obtain ⟨s, _, found, _⟩ := inv.current h p atApi atSpi
  exact ⟨p, s, atSpi, found⟩

/-- A login message leaves what a teardown followed by it leaves, exactly if the
half has no session. -/
theorem Inv.installed_same_iff (inv : x.Inv ident opened) (s : S) (addr : String) :
    (x.installed s addr).SameResources (x.torn.installed s addr) ↔ x.spi = none := by
  constructor
  · intro same
    by_contra session
    obtain ⟨p, t, atSpi, found⟩ := inv.current_object session
    have count := same.live_ncard
    -- the old SPI is the object too many
    have fewer : (x.torn.installed s addr).live ⊂ (x.installed s addr).live := by
      rw [live_installed, live_installed, live_torn atSpi, torn_spis_length]
      refine ⟨Set.insert_subset_insert Set.sdiff_subset, fun all => ?_⟩
      rcases all (Set.mem_insert_of_mem _ (Option.isSome_iff_exists.mpr ⟨t, found⟩ : p ∈ x.live)) with new | ⟨_, other⟩
      · exact absurd new (Nat.ne_of_lt (object_lt found))
      · exact other rfl
    exact absurd count (Nat.ne_of_lt (Set.ncard_lt_ncard fewer (live_finite _)))
  · intro idle
    rw [torn_idle (inv.paired.mpr idle) idle]
    exact .refl _

/-- What an event other than a login makes of a half: nothing, a teardown, or
another value of one SPI object. -/
inductive Moved (x : Half S) : Half S → Prop
  | kept : Moved x x
  | torn : Moved x x.torn
  | stored {p s s'} : x.object p = some s → Moved x (x.store p s')

theorem live_store {p : Nat} {s : S} (found : x.object p = some s) (s' : S) : (x.store p s').live = x.live := by
  ext q
  simp only [live, Set.mem_ofPred_eq]
  by_cases here : p = q
  · subst here
    simp [object_store_self found, found]
  · simp [object_store_ne here]

theorem Single.moved (single : x.Single) (moved : x.Moved y) : y.Single := by
  intro q
  cases moved with
  | kept => exact single q
  | stored found =>
    rw [live_store found]
    exact single q
  | torn =>
    cases session : x.spi with
    | none =>
      have same : x.torn.spis = x.spis := by simp [Half.torn, session]
      have alive : q ∈ x.torn.live ↔ q ∈ x.live := by simp only [live, object, same, Set.mem_ofPred_eq]
      rw [alive, single q, session]
      rfl
    | some p =>
      rw [live_torn session, Set.mem_sdiff, single q, session, Set.mem_singleton_iff]
      simp [Half.torn, eq_comm]

/-- The first session of a half is its only object. -/
theorem Single.installed (single : x.Single) (idle : x.spi = none) (s : S) (addr : String) :
    (x.installed s addr).Single := by
  intro q
  rw [live_installed, Set.mem_insert_iff, single q, idle]
  simp [Half.installed, eq_comm]

theorem Single.atMostOne (single : x.Single) : x.AtMostOneSpi := by
  intro p q alive alive'
  exact Option.some.inj (((single p).mp alive).symm.trans ((single q).mp alive'))

/-- A second session leaves the SPI of the first behind. -/
theorem Inv.installed_two (inv : x.Inv ident opened) (session : x.spi ≠ none) (s : S) (addr : String) :
    ¬ (x.installed s addr).AtMostOneSpi := by
  intro one
  obtain ⟨p, t, atSpi, found⟩ := inv.current_object session
  have old : p ∈ (x.installed s addr).live := by
    rw [live_installed]
    exact Set.mem_insert_of_mem _ (Option.isSome_iff_exists.mpr ⟨t, found⟩)
  have new : x.spis.length ∈ (x.installed s addr).live := by
    rw [live_installed]
    exact Set.mem_insert _ _
  exact absurd (one _ _ old new) (Nat.ne_of_lt (object_lt found))

end Half

/-- The part of `ReleaseTrader` for one half. -/
def releaseHalf : Side → BridgeM Unit
  | .trader => onTrader (TraderHalf.onHalf Half.teardown)
  | .md => onMd Half.teardown

/-- The half that a login message logs in. -/
def Event.login (lib : Lib) : Event → Option Side
  | .message payload =>
    match messageType lib payload with
    | some .reqUserLogin => some .trader
    | some .mdReqUserLogin => some .md
    | _ => none
  | _ => none

def Bridge.SameResources (b b' : Bridge) : Side → Prop
  | .trader => b.trader.toHalf.SameResources b'.trader.toHalf
  | .md => b.md.SameResources b'.md

/-- An event leaves the half as a teardown of the half leaves it that the event follows. -/
def LikeRelease (lib : Lib) (b : Bridge) (e : Env × Event) (side : Side) : Prop :=
  (handle lib e b).state.SameResources (handle lib e (releaseHalf side b).state).state side

def Bridge.AtMostOneSpi (b : Bridge) : Prop := b.trader.toHalf.AtMostOneSpi ∧ b.md.AtMostOneSpi

/-- No half logs in that has logged in before on the same connection. -/
def NoRelogin (lib : Lib) : LoggedIn → List (Env × Event) → Prop
  | _, [] => True
  | h, (_, event) :: es =>
    (∀ side, event.login lib = some side → h.on side = false) ∧ NoRelogin lib (h.after lib event) es

section steps
variable {lib : Lib} {env : Env} {b : Bridge}

theorem login_message {event : Event} {side : Side} (login : event.login lib = some side) :
    ∃ payload, event = .message payload ∧ messageType lib payload =
      some (match side with | .trader => .reqUserLogin | .md => .mdReqUserLogin) := by
  cases event with
  | message payload =>
    refine ⟨payload, rfl, ?_⟩
    cases typed : messageType lib payload with
    | none => simp [Event.login, typed] at login
    | some type => cases type <;> simp [Event.login, typed] at login <;> subst login <;> rfl
  | _ => cases login

/-- A login message that ends installs a session in its half. -/
theorem trader_login {event : Event} (able : Enabled b (env, event)) (login : event.login lib = some .trader)
    (done : (handle lib (env, event) b).val = .ok ()) :
    ∃ c loginID addr brokerID investorID password, ∀ t : TraderHalf,
      (handle lib (env, event) { b with trader := t }).state.trader.toHalf = t.toHalf.installed
        (TraderHalf.sessionSpi t.apis.length c c loginID brokerID investorID password) addr := by
  obtain ⟨payload, rfl, typed⟩ := login_message login
  obtain ⟨root, read, ofType⟩ := messageType_some typed
  obtain ⟨l, ls, loops, opened⟩ := Net.opened_of_conn able
  rw [handle_message opened read ofType] at done
  obtain ⟨loginID, addr, brokerID, investorID, password, args⟩ := TraderHalf.login_args done
  refine ⟨l.client, loginID, cStr addr, cStr brokerID, cStr investorID, cStr password, fun t => ?_⟩
  obtain ⟨log, run⟩ := TraderHalf.login_run l.client l.client t args
  have opened' : (Bridge.mk t b.md b.net).net.opened = some l.client := opened
  rw [handle_message opened' read ofType]
  change (TraderHalf.login lib l.client l.client root t).state.toHalf = _
  rw [run]

theorem md_login {event : Event} (able : Enabled b (env, event)) (login : event.login lib = some .md)
    (done : (handle lib (env, event) b).val = .ok ()) :
    ∃ c addr brokerID investorID password, ∀ t : Half CMdSpi,
      (handle lib (env, event) { b with md := t }).state.md = t.installed
        (MdHalf.sessionSpi env t.apis.length c c brokerID investorID password) addr := by
  obtain ⟨payload, rfl, typed⟩ := login_message login
  obtain ⟨root, read, ofType⟩ := messageType_some typed
  obtain ⟨l, ls, loops, opened⟩ := Net.opened_of_conn able
  rw [handle_message opened read ofType] at done
  obtain ⟨loginID, addr, brokerID, investorID, password, args⟩ := MdHalf.login_args done
  refine ⟨l.client, cStr addr, cStr brokerID, cStr investorID, cStr password, fun t => ?_⟩
  obtain ⟨log, run⟩ := MdHalf.login_run env l.client l.client t args
  have opened' : (Bridge.mk b.trader t b.net).net.opened = some l.client := opened
  rw [handle_message opened' read ofType]
  change (MdHalf.login lib env l.client l.client root t).state = _
  rw [run]

/-- A login message replaces a session as a teardown does, exactly if there is none. -/
theorem likeRelease_iff (inv : b.Inv lib) {event : Event} {side : Side} (able : Enabled b (env, event))
    (login : event.login lib = some side) (done : (handle lib (env, event) b).val = .ok ()) :
    LikeRelease lib b (env, event) side ↔ b.spiOf side = none := by
  cases side with
  | trader =>
    obtain ⟨c, loginID, addr, brokerID, investorID, password, run⟩ := trader_login able login done
    obtain ⟨log, torn⟩ := Half.teardown_run b.trader.toHalf
    have released : (releaseHalf .trader b).state = { b with trader := { b.trader with toHalf := b.trader.toHalf.torn } } := by
      simp [releaseHalf, onTrader, TraderHalf.onHalf, torn]
    have same := inv.trader.installed_same_iff
      (TraderHalf.sessionSpi b.trader.apis.length c c loginID brokerID investorID password) addr
    rw [LikeRelease, released, Bridge.SameResources, run b.trader, run]
    simp only [Half.torn_apis_length]
    exact same
  | md =>
    obtain ⟨c, addr, brokerID, investorID, password, run⟩ := md_login able login done
    obtain ⟨log, torn⟩ := Half.teardown_run b.md
    have released : (releaseHalf .md b).state = { b with md := b.md.torn } := by
      simp [releaseHalf, onMd, torn]
    have same := inv.md.installed_same_iff
      (MdHalf.sessionSpi env b.md.apis.length c c brokerID investorID password) addr
    rw [LikeRelease, released, Bridge.SameResources, run b.md, run]
    simp only [Half.torn_apis_length]
    exact same

theorem TraderHalf.invoke_moved (p : Option Nat) (x : TraderM Unit) (t : TraderHalf) :
    t.toHalf.Moved (invoke p x t).state.toHalf := by
  cases p with
  | none => exact .kept
  | some q =>
    cases found : t.object q with
    | none =>
      have same : (invoke (some q) x t).state = t := by simp [invoke, focus, ctx?, found]
      rw [same]
      exact .kept
    | some s =>
      have view : ctx? q t = some ⟨s, t.iRequestID⟩ := by simp [ctx?, found]
      rw [invoke, focus_run view]
      exact .stored found

theorem MdHalf.invoke_moved (p : Option Nat) (x : MdM Unit) (t : Half CMdSpi) : t.Moved (invoke p x t).state := by
  cases p with
  | none => exact .kept
  | some q =>
    cases found : t.object q with
    | none =>
      have same : (invoke (some q) x t).state = t := by simp [invoke, focus, found]
      rw [same]
      exact .kept
    | some s =>
      have ran : (invoke (some q) x t).state = t.store q (x s).state := by simp [invoke, focus, found]
      rw [ran]
      exact .stored found

theorem dispatch_moved {type : ReqType} (c hdl : Nat) (root : Value) :
    (type ≠ .reqUserLogin → b.trader.toHalf.Moved (dispatch lib env c hdl root type b).state.trader.toHalf) ∧
    (type ≠ .mdReqUserLogin → b.md.Moved (dispatch lib env c hdl root type b).state.md) := by
  have trader (x : TraderM Unit) : b.trader.toHalf.Moved (onTrader (TraderHalf.call x) b).state.trader.toHalf :=
    TraderHalf.invoke_moved _ x b.trader
  cases type with
  | reqUserLogin => exact ⟨fun other => absurd rfl other, fun _ => .kept⟩
  | mdReqUserLogin => exact ⟨fun _ => .kept, fun other => absurd rfl other⟩
  | mdSubscribeMarketData => exact ⟨fun _ => .kept, fun _ => MdHalf.invoke_moved _ _ b.md⟩
  | unknown => exact ⟨fun _ => .kept, fun _ => .kept⟩
  | _ => exact ⟨fun _ => trader _, fun _ => .kept⟩

/-- An event that does not log a half in moves it. -/
theorem handle_moved (inv : b.Inv lib) {event : Event} (able : Enabled b (env, event)) :
    (event.login lib ≠ some .trader → b.trader.toHalf.Moved (handle lib (env, event) b).state.trader.toHalf) ∧
    (event.login lib ≠ some .md → b.md.Moved (handle lib (env, event) b).state.md) := by
  cases event with
  | opened => exact ⟨fun _ => .kept, fun _ => .kept⟩
  | closed | failed =>
    obtain ⟨log, net, _, run⟩ := handle_ended inv.net able (by simp)
    rw [run]
    exact ⟨fun _ => .torn, fun _ => .torn⟩
  | message payload =>
    rcases message_cases lib able with ⟨e, stops, _⟩ | ⟨c, root, type, _, read, ofType, run⟩
    · rw [stops]
      exact ⟨fun _ => .kept, fun _ => .kept⟩
    · rw [run]
      have typed := messageType_read read ofType
      refine ⟨fun other => (dispatch_moved c c root).1 ?_, fun other => (dispatch_moved c c root).2 ?_⟩
      · rintro rfl
        exact other (by simp [Event.login, typed])
      · rintro rfl
        exact other (by simp [Event.login, typed])
  | trader api cb => exact ⟨fun _ => TraderHalf.invoke_moved _ _ b.trader, fun _ => .kept⟩
  | md api cb => exact ⟨fun _ => .kept, fun _ => MdHalf.invoke_moved _ _ b.md⟩

/-- In both halves the current SPI is the one object. -/
def Bridge.Single (b : Bridge) : Prop := b.trader.toHalf.Single ∧ b.md.Single

/-- An event that logs in no half with a session leaves no second object. -/
theorem single_step (inv : b.Inv lib) {event : Event} (able : Enabled b (env, event))
    (done : (handle lib (env, event) b).val = .ok ()) (fresh : ∀ side, event.login lib = some side → b.spiOf side = none)
    (single : b.Single) : (handle lib (env, event) b).state.Single := by
  obtain ⟨trader, md⟩ := handle_moved inv able
  constructor
  · by_cases login : event.login lib = some .trader
    · obtain ⟨c, loginID, addr, brokerID, investorID, password, run⟩ := trader_login able login done
      rw [run b.trader]
      exact single.1.installed (fresh .trader login) _ _
    · exact single.1.moved (trader login)
  · by_cases login : event.login lib = some .md
    · obtain ⟨c, addr, brokerID, investorID, password, run⟩ := md_login able login done
      rw [run b.md]
      exact single.2.installed (fresh .md login) _ _
    · exact single.2.moved (md login)

/-- A login of a half that has a session leaves two objects. -/
theorem relogin_two (inv : b.Inv lib) {event : Event} {side : Side} (able : Enabled b (env, event))
    (done : (handle lib (env, event) b).val = .ok ()) (login : event.login lib = some side)
    (session : b.spiOf side ≠ none) : ¬ (handle lib (env, event) b).state.AtMostOneSpi := by
  rintro ⟨trader, md⟩
  cases side with
  | trader =>
    obtain ⟨c, loginID, addr, brokerID, investorID, password, run⟩ := trader_login able login done
    rw [run b.trader] at trader
    exact inv.trader.installed_two session _ _ trader
  | md =>
    obtain ⟨c, addr, brokerID, investorID, password, run⟩ := md_login able login done
    rw [run b.md] at md
    exact inv.md.installed_two session _ _ md

theorem LoggedIn.Tells.fresh_iff {h : LoggedIn} (tells : h.Tells b) (side : Side) : h.on side = false ↔ b.spiOf side = none := by
  rw [tells side]
  cases b.spiOf side <;> simp

/-- From a state with one object a half, a run never has a second one exactly if
no half logs in again. -/
theorem run_one_iff {h : LoggedIn} {es : List (Env × Event)} (inv : b.Inv lib) (tells : h.Tells b) (single : b.Single)
    (runs : (bridge lib).IsRun b es) (done : ((bridge lib).run es b).val = .ok ()) :
    (∀ before, before <+: es → ((bridge lib).run before b).state.AtMostOneSpi) ↔ NoRelogin lib h es := by
  have one : b.AtMostOneSpi := ⟨single.1.atMostOne, single.2.atMostOne⟩
  induction es generalizing b h with
  | nil =>
    refine ⟨fun _ => trivial, fun _ before early => ?_⟩
    rw [List.prefix_nil.mp early]
    exact one
  | cons e es ih =>
    obtain ⟨env, event⟩ := e
    obtain ⟨able, rest⟩ := runs
    obtain ⟨_, now, later⟩ := bind_ok (x := handle lib (env, event)) done
    have after (before : List (Env × Event)) : ((bridge lib).run ((env, event) :: before) b).state =
        ((bridge lib).run before (handle lib (env, event) b).state).state := by rw [EventSystem.run_cons now]; rfl
    have inv' := handle_bridge_inv inv able now
    have tells' := handle_tells inv tells able now
    simp only [NoRelogin, tells.fresh_iff]
    constructor
    · intro all
      have fresh : ∀ side, event.login lib = some side → b.spiOf side = none := by
        intro side login
        by_contra session
        have one' := all [(env, event)] (List.prefix_append [(env, event)] es)
        rw [after] at one'
        exact relogin_two inv able now login session one'
      have single' := single_step inv able now fresh single
      refine ⟨fresh, (ih inv' tells' single' (rest now) later ⟨single'.1.atMostOne, single'.2.atMostOne⟩).mp ?_⟩
      intro before early
      rw [← after]
      exact all _ (List.cons_prefix_cons.mpr ⟨rfl, early⟩)
    · rintro ⟨fresh, clean⟩
      have single' := single_step inv able now fresh single
      have one' := (ih inv' tells' single' (rest now) later ⟨single'.1.atMostOne, single'.2.atMostOne⟩).mpr clean
      intro before early
      cases before with
      | nil => exact one
      | cons e' before =>
        obtain ⟨same, early'⟩ := List.cons_prefix_cons.mp early
        rw [same, after]
        exact one' before early'

end steps

/-- A login message replaces a session the way `ReleaseTrader` ends one exactly
if there is none; and a half never has more than one SPI object exactly if it
never logs in twice on one connection. -/
theorem relogin_iff (lib : Lib) (x : (bridge lib).Execution (Started lib)) :
    (∀ at_ ∈ (bridge lib).served x.events x.start, ∀ side, at_.2.2.login lib = some side →
      (LikeRelease lib at_.1 at_.2 side ↔ at_.1.spiOf side = none)) ∧
    ((∀ b, x.Visits b → b.AtMostOneSpi) ↔ NoRelogin lib {} x.events) := by
  constructor
  · intro at_ member side login
    obtain ⟨reach, able⟩ := EventSystem.served_reach (.start x.started) x.runs at_ member
    exact likeRelease_iff (Reachable.inv reach) able login (EventSystem.served_ok x.done at_ member)
  · obtain ⟨_, state⟩ := started_state x.started
    have idle : x.start.Single := by
      rw [state]
      constructor <;> intro p <;> simp [Half.live, Half.object, Bridge.boot]
    have tells : LoggedIn.Tells {} x.start := by
      rw [state]
      exact fun side => by cases side <;> rfl
    rw [← run_one_iff (started_bridge_inv x.started) tells idle x.runs x.done]
    constructor
    · exact fun all before early => all _ ⟨before, early, rfl⟩
    · rintro all b ⟨before, early, rfl⟩
      exact all before early

/-- The server logs the trader in once more. -/
def secondLogin : Env × Event := (.up, .message (serverMessage "ReqUserLogin" 1 (loginArgs "secret")).text)

set_option maxRecDepth 4000 in
/-- The trader logs in, its front comes up, and it logs in again. -/
def reloggedIn : (bridge (loginLib [])).Execution (Started (loginLib [])) where
  start := .listening (loginLib [])
  events := frontUp ++ [secondLogin]
  started := started_listening rfl
  runs := ⟨rfl, fun _ => ⟨rfl, fun _ => ⟨rfl, fun _ => ⟨⟨_, rfl, rfl, rfl, rfl⟩, fun _ =>
    ⟨⟨_, rfl, rfl, rfl, rfl⟩, fun _ => ⟨rfl, fun _ => trivial⟩⟩⟩⟩⟩⟩
  done := rfl

theorem relogin_iff_relogged :
    (∀ at_ ∈ (bridge (loginLib [])).served reloggedIn.events reloggedIn.start, ∀ side,
      at_.2.2.login (loginLib []) = some side →
      (LikeRelease (loginLib []) at_.1 at_.2 side ↔ at_.1.spiOf side = none)) ∧
    ((∀ b, reloggedIn.Visits b → b.AtMostOneSpi) ↔ NoRelogin (loginLib []) {} reloggedIn.events) :=
  relogin_iff (loginLib []) reloggedIn

set_option maxRecDepth 4000 in
/-- The second login leaves the first SPI behind, which a teardown would have deleted. -/
theorem relogin_leaks :
    Reachable (loginLib []) (.frontUp []) ∧ (Bridge.frontUp []).spi = some 0 ∧
    secondLogin.2.login (loginLib []) = some .trader ∧
    ¬ LikeRelease (loginLib []) (.frontUp []) secondLogin .trader ∧
    ¬ (handle (loginLib []) secondLogin (.frontUp [])).state.AtMostOneSpi := by
  have inv := (frontUp_reachable []).inv
  have able : Enabled (Bridge.frontUp []) secondLogin := rfl
  have login : secondLogin.2.login (loginLib []) = some .trader := rfl
  have done : (handle (loginLib []) secondLogin (.frontUp [])).val = .ok () := rfl
  have session : (Bridge.frontUp []).spiOf .trader = some 0 := rfl
  refine ⟨frontUp_reachable _, session, login, fun like => ?_, relogin_two inv able done login (by rw [session]; simp)⟩
  have none := (likeRelease_iff inv able login done).mp like
  cases session.symm.trans none

end MFutures
