import MFutures.Lib.Protocol
import MFutures.Requests

namespace MFutures
open Handler Bridge

/-- How far a CTP API object has come. -/
inductive ApiPhase
  | absent
  | created
  | registered
  | fronted
  | running
  | withdrawn
  | released
  deriving DecidableEq

/-- An API is set up, started and asked, and released once, with its SPI
withdrawn before that or not. -/
def apiProtocol : Protocol ApiCall ApiPhase where
  next
    | .absent, .create => some .created
    | .created, .registerSpi (some _) => some .registered
    | .registered, .registerFront _ => some .fronted
    | .fronted, .init => some .running
    | .running, .request _ => some .running
    | .running, .registerSpi none => some .withdrawn
    | .running, .release => some .released
    | .withdrawn, .release => some .released
    | _, _ => none

/-- The calls that start an API. -/
def setUp (spi : Nat) (addr : String) : List ApiCall :=
  [.create, .registerSpi (some spi), .registerFront addr, .init]

/-- The calls that end the use of an API. -/
def Ending (calls : List ApiCall) : Prop := calls = [.release] ∨ calls = [.registerSpi none, .release]

/-- All the calls on an API, from its creation to its release. -/
def Lifecycle (calls : List ApiCall) : Prop :=
  ∃ spi addr requests ending, calls = setUp spi addr ++ List.map .request requests ++ ending ∧ Ending ending

section protocol
variable {phase : ApiPhase} {calls : List ApiCall}

theorem follow_released (path : apiProtocol.follow .released calls = some phase) : calls = [] ∧ phase = .released := by
  cases calls with
  | nil => exact ⟨rfl, (Option.some.inj path).symm⟩
  | cons call calls => cases call <;> cases path

theorem follow_withdrawn (path : apiProtocol.follow .withdrawn calls = some phase) :
    phase ≠ .running ∧ (phase = .released → calls = [.release]) := by
  cases calls with
  | nil => cases path; exact ⟨by decide, fun other => by cases other⟩
  | cons call calls =>
    cases call with
    | release =>
      obtain ⟨rfl, rfl⟩ := follow_released path
      exact ⟨by decide, fun _ => rfl⟩
    | _ => cases path

theorem next_ne_absent (phase : ApiPhase) (call : ApiCall) : apiProtocol.next phase call ≠ some .absent := by
  unfold apiProtocol
  dsimp only
  split <;> simp

/-- An API that does not exist has not been called. -/
theorem follow_back (path : apiProtocol.follow phase calls = some .absent) : calls = [] := by
  induction calls generalizing phase with
  | nil => rfl
  | cons call calls ih =>
    obtain ⟨next, allowed, path⟩ := Option.bind_eq_some_iff.mp path
    cases ih path
    cases path
    exact absurd allowed (next_ne_absent phase call)

/-- From its start on, an API is asked and then given up. -/
theorem follow_running (path : apiProtocol.follow .running calls = some phase) :
    ∃ requests ending, calls = List.map .request requests ++ ending ∧
      (phase = .running → ending = []) ∧ (phase = .released → Ending ending) := by
  induction calls with
  | nil =>
    cases path
    exact ⟨[], [], rfl, fun _ => rfl, fun other => by cases other⟩
  | cons call calls ih =>
    cases call with
    | request r =>
      obtain ⟨requests, ending, rfl, asked, given⟩ := ih path
      exact ⟨r :: requests, ending, rfl, asked, given⟩
    | registerSpi spi =>
      cases spi with
      | some p => cases path
      | none =>
        obtain ⟨still, last⟩ := follow_withdrawn path
        refine ⟨[], .registerSpi none :: calls, rfl, fun here => absurd here still, fun released => .inr ?_⟩
        rw [last released]
    | release =>
      obtain ⟨rfl, rfl⟩ := follow_released path
      exact ⟨[], [.release], rfl, fun other => (by cases other), fun _ => .inl rfl⟩
    | _ => cases path

/-- The way to a started API leads through its set-up. -/
theorem follow_absent (path : apiProtocol.follow .absent calls = some phase)
    (started : phase = .running ∨ phase = .released) :
    ∃ spi addr rest, calls = setUp spi addr ++ rest ∧ apiProtocol.follow .running rest = some phase := by
  have later : ∀ early : ApiPhase, early ≠ .running → early ≠ .released → early ≠ phase := by
    rintro early other other' rfl
    exact started.elim other other'
  obtain ⟨call, calls, next, rfl, allowed, path⟩ := apiProtocol.follow_ne path (later _ (by decide) (by decide))
  cases call with
  | create =>
    cases allowed
    obtain ⟨call, calls, next, rfl, allowed, path⟩ := apiProtocol.follow_ne path (later _ (by decide) (by decide))
    cases call with
    | registerSpi spi =>
      cases spi with
      | none => cases allowed
      | some p =>
        cases allowed
        obtain ⟨call, calls, next, rfl, allowed, path⟩ := apiProtocol.follow_ne path (later _ (by decide) (by decide))
        cases call with
        | registerFront addr =>
          cases allowed
          obtain ⟨call, calls, next, rfl, allowed, path⟩ := apiProtocol.follow_ne path (later _ (by decide) (by decide))
          cases call with
          | init =>
            cases allowed
            exact ⟨p, addr, calls, rfl, path⟩
          | _ => cases allowed
        | _ => cases allowed
    | _ => cases allowed
  | _ => cases allowed

theorem lifecycle_of_follow (path : apiProtocol.follow .absent calls = some .released) : Lifecycle calls := by
  obtain ⟨spi, addr, rest, rfl, path⟩ := follow_absent path (.inr rfl)
  obtain ⟨requests, ending, rfl, _, given⟩ := follow_running path
  exact ⟨spi, addr, requests, ending, (List.append_assoc _ _ _).symm, given rfl⟩

/-- Wherever an API stands in the protocol, it can be brought to its release. -/
theorem follow_completes (phase : ApiPhase) : ∃ rest, apiProtocol.follow phase rest = some .released := by
  cases phase with
  | absent => exact ⟨setUp 0 "" ++ [.release], rfl⟩
  | created => exact ⟨[.registerSpi (some 0), .registerFront "", .init, .release], rfl⟩
  | registered => exact ⟨[.registerFront "", .init, .release], rfl⟩
  | fronted => exact ⟨[.init, .release], rfl⟩
  | running => exact ⟨[.release], rfl⟩
  | withdrawn => exact ⟨[.release], rfl⟩
  | released => exact ⟨[], rfl⟩

theorem lifecycle_continues (path : apiProtocol.follow .absent calls = some phase) : ∃ rest, Lifecycle (calls ++ rest) := by
  obtain ⟨rest, completes⟩ := follow_completes phase
  refine ⟨rest, lifecycle_of_follow ?_⟩
  rw [Protocol.follow_append, path]
  exact completes

end protocol

/-- What an API object says of its own phase. -/
def Api.phase {S : Type} (a : Api S) : ApiPhase :=
  if a.released ≠ 0 then .released
  else if a.inited then if a.registered.isSome then .running else .withdrawn
  else if a.front.isSome then .fronted
  else if a.registered.isSome then .registered
  else .created

def phaseIn {S : Type} (apis : List (Api S)) (h : Nat) : ApiPhase := (apis[h]?.map Api.phase).getD .absent

def Effect.callOn (h : Nat) : Effect → Option ApiCall
  | .call k c => if k = h then some c else none
  | _ => none

/-- The API objects of a state are used by the protocol. -/
def calling {S σ : Type} (apis : σ → List (Api S)) : Guarantee Effect σ :=
  apiProtocol.guarantee (fun s => phaseIn (apis s)) Effect.callOn

/-- The effect is no call on an API. -/
def Effect.Plain (e : Effect) : Prop := ∀ h, e.callOn h = none

theorem plain_reports : Reports Effect.Plain := ⟨fun _ _ => rfl, fun _ _ => rfl, fun _ _ _ _ => rfl⟩

namespace Half
variable {S : Type} {x : Half S} {h : Nat}

theorem Live.phase (live : x.Live h) : phaseIn x.apis h = .running := by
  obtain ⟨a, atA, inited, fresh, spi⟩ := live
  simp [phaseIn, atA, Api.phase, inited, fresh, spi]

/-- A call on an existing API, with what it makes of that API. -/
theorem call_allowed {a : Api S} {call : ApiCall} {f : Api S → Api S} (found : x.apis[h]? = some a)
    (next : apiProtocol.next a.phase call = some (f a).phase) :
    (calling Half.apis).allows x [.call h call] (x.updateApi h f) := by
  refine Protocol.guarantee_one (o := h) (fun _ => rfl) ?_ fun k other => ?_
  · simpa [phaseIn, updateApi, found] using next
  · simp [phaseIn, updateApi, List.getElem?_modify_ne _ _ other]

/-- A new API leaves the existing ones as they are. -/
theorem phaseIn_concat {apis : List (Api S)} {k : Nat} (other : apis.length ≠ k) (a : Api S) :
    phaseIn (apis ++ [a]) k = phaseIn apis k := by
  rcases Nat.lt_or_gt_of_ne other with beyond | inside
  · rw [phaseIn, phaseIn, List.getElem?_eq_none (by simpa using Nat.succ_le_of_lt beyond), List.getElem?_eq_none (by omega)]
  · rw [phaseIn, phaseIn, List.getElem?_append_left inside]

theorem create_triple : Triple (calling Half.apis) (fun _ => True) (create : HalfM S Nat)
    fun h x => x.apis[h]? = some {} := by
  intro x _
  refine ⟨Protocol.guarantee_one (o := x.apis.length) (fun _ => rfl) ?_ fun k other => phaseIn_concat other _, ?_⟩
  · simp [create, bind_run, phaseIn, Api.phase]
    rfl
  · intro h done
    have same : x.apis.length = h := Except.ok.inj done
    subst same
    simp [create, bind_run]

theorem registerSpi_triple (p : Nat) : Triple (calling Half.apis) (fun x => x.apis[h]? = some {})
    (registerSpi h (some p) : HalfM S Unit) fun _ x => x.apis[h]? = some { registered := some p } :=
  fun x found => ⟨call_allowed found rfl, fun _ _ => by simp [registerSpi, bind_run, updateApi, found]⟩

theorem registerFront_triple {p : Nat} (addr : String) :
    Triple (calling Half.apis) (fun x => x.apis[h]? = some { registered := some p })
      (registerFront h addr : HalfM S Unit) fun _ x => x.apis[h]? = some { registered := some p, front := some addr } :=
  fun x found => ⟨call_allowed found rfl, fun _ _ => by simp [registerFront, bind_run, updateApi, found]⟩

theorem init_triple {p : Nat} {addr : String} :
    Triple (calling Half.apis) (fun x => x.apis[h]? = some { registered := some p, front := some addr })
      (init h : HalfM S Unit) fun _ _ => True :=
  fun _ found => ⟨call_allowed found rfl, fun _ _ => trivial⟩

/-- The API is started and not released, whether its SPI is withdrawn or not. -/
def Unreleased (x : Half S) (h : Nat) : Prop := ∃ a, x.apis[h]? = some a ∧ a.inited = true ∧ a.released = 0

theorem withdraw_triple : Triple (calling Half.apis) (fun x => x.Live h)
    (registerSpi h none : HalfM S Unit) fun _ x => x.Unreleased h := by
  rintro x ⟨a, found, inited, fresh, spi⟩
  refine ⟨call_allowed found ?_, fun _ _ => ⟨{ a with registered := none }, ?_, inited, fresh⟩⟩
  · simp [Api.phase, inited, fresh, spi, apiProtocol]
  · simp [registerSpi, bind_run, updateApi, found]

theorem release_triple : Triple (calling Half.apis) (fun x => x.Unreleased h)
    (release h : HalfM S Unit) fun _ _ => True := by
  rintro x ⟨a, found, inited, fresh⟩
  refine ⟨call_allowed found ?_, fun _ _ => trivial⟩
  cases spi : a.registered <;> simp [Api.phase, inited, fresh, spi, apiProtocol]

/-- The current API of a half can be used. -/
def Usable (x : Half S) : Prop := ∀ h, x.api = some h → x.Live h

theorem newSpi_triple (s : S) (pre : List (Api S) → Prop) :
    Triple (calling Half.apis) (fun x => pre x.apis) (newSpi s) fun _ x => pre x.apis :=
  Protocol.silent (fun _ => rfl) (fun _ => rfl) (newSpi_emits s)

theorem releaseOld_triple : Triple (calling Half.apis) Usable (releaseOld : HalfM S Unit) fun _ _ => True := by
  refine .bind .get fun x => ?_
  cases atApi : x.api with
  | none => exact .pure fun _ _ => trivial
  | some h =>
    refine release_triple.consequence ?_ fun _ _ _ => trivial
    rintro y ⟨rfl, usable⟩
    obtain ⟨a, found, inited, fresh, _⟩ := usable h atApi
    exact ⟨a, found, inited, fresh⟩

theorem dropApi_triple : Triple (calling Half.apis) Usable (dropApi : HalfM S Unit) fun _ _ => True := by
  refine .bind .get fun x => ?_
  cases atApi : x.api with
  | none => exact .pure fun _ _ => trivial
  | some h =>
    refine .bind (withdraw_triple.consequence ?_ fun _ _ held => ?_) fun _ => .bind release_triple fun _ => ?_
    · rintro y ⟨rfl, usable⟩
      exact usable h atApi
    · exact held
    · exact Protocol.silent (fun _ => rfl) (fun _ => rfl) (.modify _)

theorem dropSpi_triple : Triple (calling Half.apis) (fun _ => True) (dropSpi : HalfM S Unit) fun _ _ => True := by
  have keeps : Keeps Half.apis (dropSpi : HalfM S Unit) := by
    refine .bind .get fun x => ?_
    cases x.spi with
    | none => exact .pure _
    | some p => exact fun _ => rfl
  have plain : Emits Effect.Plain (dropSpi : HalfM S Unit) := by
    refine .bind .get fun x => ?_
    cases x.spi with
    | none => exact .pure _
    | some p => exact .modify _
  exact Protocol.silent (keeps.map phaseIn) (fun _ => rfl) plain

theorem teardown_triple : Triple (calling Half.apis) Usable (teardown : HalfM S Unit) fun _ _ => True :=
  dropApi_triple.bind fun _ => dropSpi_triple

end Half

/-- The effect is at most a request, made of this API. -/
def Effect.RequestTo (own : Nat) (e : Effect) : Prop :=
  ∀ h call, e.callOn h = some call → own = h ∧ call.isRequest = true

/-- What a method of an SPI may do: make requests of its API. -/
def requesting {σ : Type} (own : σ → Nat) : Guarantee Effect σ where
  allows s log t := own t = own s ∧ ∀ e ∈ log, e.RequestTo (own s)
  refl _ := ⟨rfl, List.forall_mem_nil _⟩
  trans first second := by
    refine ⟨second.1.trans first.1, fun e member => ?_⟩
    rcases List.mem_append.mp member with old | new
    · exact first.2 e old
    · exact first.1 ▸ second.2 e new

def Owned {σ α : Type} (own : σ → Nat) (x : Handler Effect Fault σ α) : Prop :=
  Triple (requesting own) (fun _ => True) x fun _ _ => True

section owned
variable {σ α β : Type} {own : σ → Nat}

theorem Owned.bind {x : Handler Effect Fault σ α} {f : α → Handler Effect Fault σ β} (first : Owned own x)
    (next : ∀ a, Owned own (f a)) : Owned own (x >>= f) := Triple.bind first next

theorem Owned.plain {x : Handler Effect Fault σ α} (keeps : Keeps own x) (emits : Emits Effect.Plain x) : Owned own x := by
  refine fun s _ => ⟨⟨keeps s, fun e member h call made => ?_⟩, fun _ _ => trivial⟩
  rw [emits s e member h] at made
  cases made

theorem Owned.get : Owned own (get : Handler Effect Fault σ σ) := .plain .get .get

theorem Owned.known (p : Option α) : Owned own (known p : Handler Effect Fault σ α) :=
  .plain (known_keeps p).weaken (known_emits p)

theorem Owned.ofExcept (x : Except Fault α) : Owned own (Handler.ofExcept x : Handler Effect Fault σ α) :=
  .plain (.ofExcept x) (.ofExcept x)

theorem Owned.cout (line : String) : Owned own (cout line : Handler Effect Fault σ Unit) :=
  .plain (.emit _) (.emit fun _ => rfl)

/-- A request is made of the API that the object belongs to. -/
theorem Owned.request {s : σ} (req : Request) : ∀ e ∈ [Effect.call (own s) (.request req)], e.RequestTo (own s) := by
  intro e member h call made
  rw [List.mem_singleton.mp member] at made
  simp only [Effect.callOn, Option.ite_none_right_eq_some, Option.some.injEq] at made
  obtain ⟨here, rfl⟩ := made
  exact ⟨here, rfl⟩

end owned

namespace CTraderSpi
variable {lib : Lib} {env : Env}

def own (x : TraderCtx) : Nat := x.self.tpUserApi

theorem request_owned (req : Request) (line : String) : Owned own (request env req line) := by
  have asked : Owned own (do emit (.call (own (← get)) (.request req)) : TraderM Unit) :=
    fun x _ => ⟨⟨rfl, Owned.request req⟩, fun _ _ => trivial⟩
  exact fun x _ => asked.bind (fun _ => .cout _) x trivial

theorem credentials_owned : Owned own (credentials lib) := .plain (credentials_keeps lib).weaken credentials_emits

theorem reqUserLogin_owned (loginID : Int) : Owned own (reqUserLogin lib env loginID) :=
  .bind .get fun _ => .bind (.known _) fun _ => .bind (.ofExcept _) fun _ => .bind (.known _) fun _ =>
    .bind (.ofExcept _) fun _ => .bind (.known _) fun _ => .bind (.ofExcept _) fun _ => request_owned _ _

theorem reqSettlementInfoConfirm_owned (root : Value) : Owned own (reqSettlementInfoConfirm lib env root) :=
  .bind credentials_owned fun _ => .bind (.ofExcept _) fun _ => request_owned _ _

theorem reqQryTradingAccount_owned (root : Value) : Owned own (reqQryTradingAccount lib env root) :=
  .bind credentials_owned fun _ => .bind (.ofExcept _) fun _ => request_owned _ _

theorem reqQryInvestorPosition_owned (root : Value) : Owned own (reqQryInvestorPosition lib env root) :=
  .bind credentials_owned fun _ => .bind (.ofExcept _) fun _ => .bind (.ofExcept _) fun _ => request_owned _ _

theorem reqOrderInsert_owned (root : Value) : Owned own (reqOrderInsert lib env root) :=
  .bind credentials_owned fun _ => .bind (.ofExcept _) fun _ => .bind (.ofExcept _) fun _ => request_owned _ _

theorem nextRequestID_owned : Owned own nextRequestID :=
  .plain (nextRequestID_keeps.map CTraderSpi.tpUserApi) (.bind (.modify _) fun _ => .bind .get fun _ => .pure _)

theorem reqQryInstrument_owned : Owned own (reqQryInstrument env) :=
  .bind nextRequestID_owned fun _ => request_owned _ _

theorem reqOrderAction_owned (root : Value) : Owned own (reqOrderAction lib env root) :=
  .bind credentials_owned fun _ => .bind (.ofExcept _) fun _ => .bind nextRequestID_owned fun _ => request_owned _ _

/-- Of the callbacks only `OnFrontConnected` makes a request. -/
theorem callback_owned (cb : TraderCallback) : Owned own (callback lib env cb) := by
  by_cases front : cb = .onFrontConnected
  · subst front
    exact .bind (.cout _) fun _ => .bind (.plain ((newStatus_keeps _).map Identity.api) (.modify _)) fun _ =>
      .bind .get fun _ => .bind (.known _) fun _ => reqUserLogin_owned _
  · exact .plain ((callback_keeps lib env cb).map Identity.api) (callback_emits plain_reports front)

end CTraderSpi

namespace CMdSpi
variable {lib : Lib} {env : Env}

theorem mdSubscribeMarketData_owned (root : Value) : Owned mpUserApi (mdSubscribeMarketData lib env root) :=
  .bind (.ofExcept _) fun _ _ _ => ⟨⟨rfl, Owned.request _⟩, fun _ _ => trivial⟩

theorem callback_owned (cb : MdCallback) : Owned mpUserApi (callback lib env cb) := by
  by_cases front : cb = .onFrontConnected
  · subst front
    refine .bind .get fun _ => .bind (.known _) fun _ => .bind (.ofExcept _) fun _ => .bind (.known _) fun _ =>
      .bind (.ofExcept _) fun _ => .bind (.known _) fun _ => .bind (.ofExcept _) fun _ => .bind (.cout _) fun _ =>
      .bind (.plain (fun _ => rfl) (.modify _)) fun _ _ _ => ?_
    exact ⟨⟨rfl, Owned.request _⟩, fun _ _ => trivial⟩
  · exact .plain ((callback_keeps lib env cb).map Identity.api) (callback_emits plain_reports front)

end CMdSpi

/-- Requests keep a running API running. -/
theorem requests_allowed {S σ : Type} {apis : σ → List (Api S)} {s t : σ} {own : Nat} {log : List Effect}
    (same : apis t = apis s) (running : phaseIn (apis s) own = .running) (requests : ∀ e ∈ log, e.RequestTo own) :
    (calling apis).allows s log t := by
  refine Protocol.guarantee_stay (congrArg phaseIn same) fun e member h call made => ?_
  obtain ⟨rfl, request⟩ := requests e member h call made
  rw [running]
  cases call with
  | request r => rfl
  | _ => cases request

/-- A method runs where the API of its object does. -/
theorem focus_triple {S σ τ α : Type} {apis : σ → List (Api S)} {own : τ → Nat} {view : σ → Option τ}
    {put : τ → σ → σ} {missing : Fault} {x : Handler Effect Fault τ α}
    (kept : ∀ t s, apis (put t s) = apis s) (owned : Owned own x) :
    Triple (calling apis) (fun s => ∀ t, view s = some t → phaseIn (apis s) (own t) = .running)
      (focus view put missing x) fun _ _ => True := by
  intro s running
  refine ⟨?_, fun _ _ => trivial⟩
  cases found : view s with
  | none =>
    have run : focus view put missing x s = ⟨[], s, .error missing⟩ := by simp [focus, found]
    rw [run]
    exact (calling apis).refl s
  | some t =>
    rw [focus_run found]
    exact requests_allowed (kept _ _) (running t found) (owned t trivial).1.2

namespace TraderHalf
variable {lib : Lib} {env : Env} {α : Type}

/-- The SPI at the address belongs to a live API. -/
def Serves (t : TraderHalf) (p : Option Nat) : Prop :=
  ∀ q s, p = some q → t.object q = some s → t.Live s.tpUserApi

def handles (t : TraderHalf) : List (Api CTraderSpi) := t.apis

theorem onHalf_triple {x : HalfM CTraderSpi α} {pre : Half CTraderSpi → Prop} {post : α → Half CTraderSpi → Prop}
    (triple : Triple (calling Half.apis) pre x post) :
    Triple (calling handles) (fun t => pre t.toHalf) (onHalf x) fun a t => post a t.toHalf := by
  intro t before
  have allowed := (triple t.toHalf before).1
  rw [← List.map_id (x t.toHalf).log] at allowed
  exact ⟨allowed, (triple t.toHalf before).2⟩

theorem invoke_triple {x : TraderM Unit} (owned : Owned CTraderSpi.own x) (p : Option Nat) :
    Triple (calling handles) (fun t => t.Serves p) (invoke p x) fun _ _ => True := by
  cases p with
  | none => exact .abort _
  | some q =>
    have kept : ∀ c t, handles (putCtx q c t) = handles t := fun _ _ => rfl
    refine (focus_triple kept owned).consequence ?_ fun _ _ held => held
    intro t serves c view
    obtain ⟨s, found, rfl⟩ := Option.map_eq_some_iff.mp view
    exact (serves q s rfl found).phase

theorem call_triple {x : TraderM Unit} (owned : Owned CTraderSpi.own x) :
    Triple (calling handles) (fun t => t.Serves t.spi) (call x) fun _ _ => True :=
  fun t serves => invoke_triple owned t.spi t serves

/-- A method that makes no request does not touch the APIs. -/
theorem invoke_silent {x : TraderM Unit} (plain : Emits Effect.Plain x) (p : Option Nat)
    (pre : List (Api CTraderSpi) → Prop) :
    Triple (calling handles) (fun t => pre t.apis) (invoke p x) fun _ t => pre t.apis := by
  have keeps : Keeps handles (invoke p x) := by
    cases p with
    | none => exact .abort _
    | some q => exact .focus fun _ _ => rfl
  exact Protocol.silent (keeps.map phaseIn) (keeps.map pre) (invoke_emits plain p)

theorem login_triple (c hdl : Nat) (root : Value) :
    Triple (calling handles) (fun t => t.Usable) (login lib c hdl root) fun _ _ => True := by
  have printed (line : String) : Triple (calling handles) (fun t => t.Usable) (cout line) fun _ t => t.Usable :=
    Protocol.silent (fun _ => rfl) (fun _ => rfl) (.emit fun _ => rfl)
  refine .bind (.ofExcept _) fun addr => .bind (.ofExcept _) fun loginID => .bind (printed _) fun _ =>
    .bind (.ofExcept _) fun brokerID => .bind (printed _) fun _ => .bind (.ofExcept _) fun investorID =>
    .bind (printed _) fun _ => .bind (onHalf_triple Half.releaseOld_triple) fun _ =>
    .bind (onHalf_triple Half.create_triple) fun api => ?_
  refine .bind (onHalf_triple (Half.newSpi_triple _ fun apis => apis[api]? = some {})) fun p =>
    .bind (onHalf_triple (Half.registerSpi_triple p)) fun _ => ?_
  have set {x : TraderM Unit} (plain : Emits Effect.Plain x) :=
    invoke_silent plain (some p) fun apis => apis[api]? = some { registered := some p }
  exact .bind (set (.modify _)) fun _ => .bind (.ofExcept _) fun password => .bind (set (.modify _)) fun _ =>
    .bind (onHalf_triple (Half.registerFront_triple _)) fun _ => onHalf_triple Half.init_triple

end TraderHalf

namespace MdHalf
variable {lib : Lib} {env : Env}

/-- The SPI at the address belongs to a live API. -/
def Serves (t : Half CMdSpi) (p : Option Nat) : Prop :=
  ∀ q s, p = some q → t.object q = some s → t.Live s.mpUserApi

theorem invoke_triple {x : MdM Unit} (owned : Owned CMdSpi.mpUserApi x) (p : Option Nat) :
    Triple (calling Half.apis) (fun t => Serves t p) (invoke p x) fun _ _ => True := by
  cases p with
  | none => exact .abort _
  | some q =>
    have kept : ∀ s (t : Half CMdSpi), (t.store q s).apis = t.apis := fun _ _ => rfl
    refine (focus_triple kept owned).consequence ?_ fun _ _ held => held
    exact fun t serves s found => (serves q s rfl found).phase

theorem call_triple {x : MdM Unit} (owned : Owned CMdSpi.mpUserApi x) :
    Triple (calling Half.apis) (fun t => Serves t t.spi) (call x) fun _ _ => True :=
  fun t serves => invoke_triple owned t.spi t serves

/-- A method that makes no request does not touch the APIs. -/
theorem invoke_silent {x : MdM Unit} (plain : Emits Effect.Plain x) (p : Option Nat)
    (pre : List (Api CMdSpi) → Prop) :
    Triple (calling Half.apis) (fun t => pre t.apis) (invoke p x) fun _ t => pre t.apis := by
  have keeps : Keeps Half.apis (invoke p x) := by
    cases p with
    | none => exact .abort _
    | some q => exact .focus fun _ _ => rfl
  exact Protocol.silent (keeps.map phaseIn) (keeps.map pre) (invoke_emits plain p)

theorem login_triple (c hdl : Nat) (root : Value) :
    Triple (calling Half.apis) Half.Usable (login lib env c hdl root) fun _ _ => True := by
  refine .bind Half.releaseOld_triple fun _ => .bind Half.create_triple fun api => ?_
  refine .bind (Half.newSpi_triple _ fun apis => apis[api]? = some {}) fun p =>
    .bind (Half.registerSpi_triple p) fun _ => ?_
  have printed (line : String) : Triple (calling Half.apis)
      (fun t : Half CMdSpi => t.apis[api]? = some { registered := some p }) (cout line)
      fun _ t => t.apis[api]? = some { registered := some p } :=
    Protocol.silent (fun _ => rfl) (fun _ => rfl) (.emit fun _ => rfl)
  have set {x : MdM Unit} (plain : Emits Effect.Plain x) :=
    invoke_silent plain (some p) fun apis => apis[api]? = some { registered := some p }
  exact .bind (.ofExcept _) fun addr => .bind (printed _) fun _ => .bind (.ofExcept _) fun loginID =>
    .bind (set (.modify _)) fun _ => .bind (.ofExcept _) fun brokerID => .bind (.ofExcept _) fun investorID =>
    .bind (.ofExcept _) fun password => .bind (set (.modify _)) fun _ => .bind (Half.registerFront_triple _) fun _ =>
    Half.init_triple

end MdHalf

end MFutures
