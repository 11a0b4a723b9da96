import MFutures.Veil
import MFutures.Delivery

namespace MFutures
open Handler Bridge

namespace Value

/-- An object with another value of a member. -/
def onMember (key : String) (f : Value → Value) : Value → Value
  | .objectValue members => .objectValue (members.map fun m => if m.1 = key then (m.1, f m.2) else m)
  | v => v

/-- A login message with another password. -/
def setPassword (password : String) (root : Value) : Value :=
  root.onMember "ReqArgs" (onMember "PASSWORD" fun _ => .stringValue password)

theorem lookup_onMember_ne {key k : String} (other : k ≠ key) (f : Value → Value)
    (members : List (String × Value)) :
    (members.map fun m => if m.1 = key then (m.1, f m.2) else m).lookup k = members.lookup k := by
  induction members with
  | nil => rfl
  | cons m members ih =>
    obtain ⟨name, v⟩ := m
    by_cases here : name = key
    · have absent : (k == name) = false := by simp [here, other]
      simp only [List.map_cons, if_pos here, List.lookup_cons, absent, ih]
    · simp only [List.map_cons, if_neg here, List.lookup_cons, ih]

theorem lookup_onMember (key : String) (f : Value → Value) (members : List (String × Value)) :
    (members.map fun m => if m.1 = key then (m.1, f m.2) else m).lookup key = (members.lookup key).map f := by
  induction members with
  | nil => rfl
  | cons m members ih =>
    obtain ⟨name, v⟩ := m
    by_cases here : name = key
    · subst here
      simp
    · have absent : (key == name) = false := by simpa using fun same => here same.symm
      simp only [List.map_cons, if_neg here, List.lookup_cons, absent, ih]

theorem index_onMember_ne {key k : String} (other : k ≠ key) (f : Value → Value) (v : Value) :
    (v.onMember key f).index k = v.index k := by
  cases v with
  | objectValue members => simp only [onMember, index, lookup_onMember_ne other]
  | _ => rfl

theorem index_onMember {key : String} (f : Value → Value) {v w : Value} (has : v.index key = .ok w)
    (present : w ≠ .nullValue) : (v.onMember key f).index key = .ok (f w) := by
  cases v with
  | objectValue members =>
    have found : (members.lookup key).getD .nullValue = w := Except.ok.inj has
    cases value : members.lookup key with
    | none =>
      rw [value] at found
      exact absurd found.symm present
    | some u =>
      rw [value] at found
      have same : u = w := found
      simp only [onMember, index, lookup_onMember, value, same, Option.map_some, Option.getD_some]
  | nullValue => exact absurd (Except.ok.inj has).symm present
  | _ => cases has

end Value

section variants
variable {lib : Lib} {root : Value} {password : String}

/-- What the bridge reads of a login message with another password. -/
theorem setPassword_args (has : reqArg root "PASSWORD" = .ok (.stringValue password)) (password' : String) :
    (∀ key, key ≠ "PASSWORD" → reqArg (root.setPassword password') key = reqArg root key) ∧
      reqArg (root.setPassword password') "PASSWORD" = .ok (.stringValue password') := by
  obtain ⟨args, found, value⟩ := except_bind_ok has
  have object : args ≠ .nullValue := by
    rintro rfl
    cases value
  have outer : (root.setPassword password').index "ReqArgs" =
      .ok (args.onMember "PASSWORD" fun _ => .stringValue password') := Value.index_onMember _ found object
  refine ⟨fun key other => ?_, ?_⟩
  · simp only [reqArg, outer, found]
    exact Value.index_onMember_ne other _ args
  · simp only [reqArg, outer]
    exact Value.index_onMember _ value (by simp)

theorem setPassword_reqType (root : Value) (password : String) :
    reqType lib (root.setPassword password) = reqType lib root := by
  unfold reqType Value.setPassword
  rw [Value.index_onMember_ne (by decide)]

theorem setPassword_uniqueID (root : Value) (password : String) :
    uniqueID (root.setPassword password) = uniqueID root := by
  unfold uniqueID Value.setPassword
  rw [Value.index_onMember_ne (by decide)]

/-- Messages with passwords that fit alike are the same login. -/
theorem setPassword_sameLogin (has : reqArg root "PASSWORD" = .ok (.stringValue password)) {password' : String}
    (fits : lib.passwordFits (cStr password) = lib.passwordFits (cStr password')) :
    SameLogin lib root (root.setPassword password') := by
  obtain ⟨others, own⟩ := setPassword_args has password'
  refine ⟨fun key other => ?_, (setPassword_uniqueID root password').symm, .inr ⟨password, password', ?_, ?_, fits⟩⟩
  · simp only [Lib.argString, others key other]
  · simp only [Lib.argString, has]
    rfl
  · simp only [Lib.argString, own]
    rfl

end variants

/-- Two events that are the same, or login messages whose passwords, both of
them strings, differ. -/
inductive PasswordVariant (lib : Lib) : Env × Event → Env × Event → Prop
  | same (e) : PasswordVariant lib e e
  | login {env payload payload' root type password password'} :
      readStrJson lib payload = .ok root → readStrJson lib payload' = .ok (root.setPassword password') →
      reqType lib root = .ok type → type = .reqUserLogin ∨ type = .mdReqUserLogin →
      reqArg root "PASSWORD" = .ok (.stringValue password) → password ≠ password' →
      PasswordVariant lib (env, .message payload) (env, .message payload')

/-- The password of a message fits the array of the login request. -/
def Fitting (lib : Lib) (e : Env × Event) : Prop :=
  ∀ payload root password, e.2 = .message payload → readStrJson lib payload = .ok root →
    reqArg root "PASSWORD" = .ok (.stringValue password) → lib.passwordFits (cStr password) = true

/-- Two effects of the bridge that differ in the password of a login request, or
in that of a login message that is printed, at most. -/
inductive Output.Veiled (lib : Lib) : Output → Output → Prop
  | main (line) : Output.Veiled lib (.main line) (.main line)
  | echo {env payload payload'} : PasswordVariant lib (env, .message payload) (env, .message payload') →
      Output.Veiled lib (.main (env.now ++ "on_message:" ++ payload)) (.main (env.now ++ "on_message:" ++ payload'))
  | trader {e e'} : e.Veiled e' → Output.Veiled lib (.trader e) (.trader e')
  | md {e e'} : e.Veiled e' → Output.Veiled lib (.md e) (.md e')

theorem Output.Veiled.refl (lib : Lib) (o : Output) : o.Veiled lib o := by
  cases o with
  | main line => exact .main line
  | trader e => exact .trader (.same e)
  | md e => exact .md (.same e)

/-- Bridges that differ in passwords at most, and not in whether they fit. -/
structure Bridge.Same (lib : Lib) (b b' : Bridge) : Prop where
  trader : TraderHalf.Same lib b.trader b'.trader
  md : MdHalf.Same lib b.md b'.md
  net : b.net = b'.net

def outputs (lib : Lib) : Comparison Output := .pointwise (Output.Veiled lib)

section bridges
variable {lib : Lib} {env : Env} {α : Type}

theorem onTrader_agrees {x y : TraderHalfM α} (agrees : Agrees (TraderHalf.Same lib) veiled x y) :
    Agrees (Bridge.Same lib) (outputs lib) (onTrader x) (onTrader y) := by
  refine agrees.zoom (fun _ _ same => same.trader) (fun _ _ _ _ same half => ⟨half, same.md, same.net⟩) ?_
  intro a b logs
  induction logs with
  | nil => exact .nil
  | cons first _ rest => exact .cons (.trader first) rest

theorem onMd_agrees {x y : HalfM CMdSpi α} (agrees : Agrees (MdHalf.Same lib) veiled x y) :
    Agrees (Bridge.Same lib) (outputs lib) (onMd x) (onMd y) := by
  refine agrees.zoom (fun _ _ same => same.md) (fun _ _ _ _ same half => ⟨same.trader, half, same.net⟩) ?_
  intro a b logs
  induction logs with
  | nil => exact .nil
  | cons first _ rest => exact .cons (.md first) rest

theorem secret_watches (lib : Lib) : Watches (Bridge.Same lib) (outputs lib) where
  net := fun same => same.net
  main := fun line => .cons (.main line) .nil
  onNet := by
    intro α x b b' same
    have here := same.net
    simp only [onNet, zoom_run, here]
    exact ⟨⟨same.trader, same.md, rfl⟩, List.forall₂_same.mpr fun o _ => .refl lib o, rfl⟩
  teardown := .bind (onMd_agrees (Half.follows_agrees (Half.teardown_follows _) (Half.teardown_follows _))) fun _ =>
    onTrader_agrees TraderHalf.teardown_agrees

theorem login_dispatch_agrees {c : Nat} {root root' : Value} {type : ReqType} (same : SameLogin lib root root')
    (login : type = .reqUserLogin ∨ type = .mdReqUserLogin) :
    Agrees (Bridge.Same lib) (outputs lib) (dispatch lib env c c root type) (dispatch lib env c c root' type) := by
  rcases login with rfl | rfl
  · exact onTrader_agrees (TraderHalf.login_agrees c c same)
  · exact onMd_agrees (MdHalf.login_agrees c c same)

theorem dispatch_agrees (c : Nat) (root : Value) (type : ReqType) :
    Agrees (Bridge.Same lib) (outputs lib) (dispatch lib env c c root type) (dispatch lib env c c root type) := by
  cases type with
  | onConnect => exact onTrader_agrees (TraderHalf.call_agrees CTraderSpi.onRspConnect_agrees)
  | reqUserLogin => exact login_dispatch_agrees (.refl lib root) (.inl rfl)
  | mdReqUserLogin => exact login_dispatch_agrees (.refl lib root) (.inr rfl)
  | reqSettlementInfoConfirm =>
    exact onTrader_agrees (TraderHalf.call_agrees (CTraderSpi.reqSettlementInfoConfirm_agrees root))
  | reqOrderInsert => exact onTrader_agrees (TraderHalf.call_agrees (CTraderSpi.reqOrderInsert_agrees root))
  | reqOrderAction => exact onTrader_agrees (TraderHalf.call_agrees (CTraderSpi.reqOrderAction_agrees root))
  | mdSubscribeMarketData => exact onMd_agrees (MdHalf.call_agrees (CMdSpi.mdSubscribeMarketData_agrees root))
  | reqQryTradingAccount =>
    exact onTrader_agrees (TraderHalf.call_agrees (CTraderSpi.reqQryTradingAccount_agrees root))
  | reqQryInvestorPosition =>
    exact onTrader_agrees (TraderHalf.call_agrees (CTraderSpi.reqQryInvestorPosition_agrees root))
  | reqQryInstrument => exact onTrader_agrees (TraderHalf.call_agrees CTraderSpi.reqQryInstrument_agrees)
  | unknown => exact .pure _

theorem same_agrees (event : Event) :
    Agrees (Bridge.Same lib) (outputs lib) (handle lib (env, event)) (handle lib (env, event)) := by
  cases event with
  | opened => exact connection_agrees lib env (secret_watches lib) (.inl rfl)
  | closed => exact connection_agrees lib env (secret_watches lib) (.inr (.inl rfl))
  | failed => exact connection_agrees lib env (secret_watches lib) (.inr (.inr rfl))
  | message payload => exact message_agrees (secret_watches lib) fun c root type _ _ => dispatch_agrees c root type
  | trader api cb => exact onTrader_agrees (TraderHalf.deliver_agrees api cb)
  | md api cb => exact onMd_agrees (MdHalf.deliver_agrees api cb)

/-- Login messages with passwords that fit leave the bridge the same but for the
passwords, and print nothing else of them than the message itself. -/
theorem variant_agrees {e e' : Env × Event} (variant : PasswordVariant lib e e') (fits : Fitting lib e)
    (fits' : Fitting lib e') :
    Agrees (Bridge.Same lib) (outputs lib) (handle lib e) (handle lib e') := by
  have kept := variant
  cases variant with
  | same e => exact same_agrees e.2
  | @login env payload payload' root type password password' read read' ofType login has other =>
    have own := (setPassword_args has password').2
    have both : lib.passwordFits (cStr password) = lib.passwordFits (cStr password') :=
      (fits payload root password rfl read has).trans (fits' payload' _ password' rfl read' own).symm
    refine .get_bind fun b b' same => ?_
    rw [same.net]
    cases b'.net.loops with
    | nil => exact .pure _
    | cons l ls =>
      have ofType' : reqType lib (root.setPassword password') = .ok type :=
        (setPassword_reqType root password').trans ofType
      refine .ofExcept_ok read read' (.ofExcept_ok ofType ofType' (.bind (.ite Iff.rfl ?_ (.pure _)) fun _ => ?_))
      · exact .emit (.cons (.echo kept) .nil)
      · exact login_dispatch_agrees (setPassword_sameLogin has both) login

end bridges

inductive Stream
  | stdout
  | stderr

/-- The line an effect prints. -/
def Effect.line : Effect → Option (Stream × String)
  | .out line => some (.stdout, line)
  | .err line => some (.stderr, line)
  | _ => none

def Output.line : Output → Option (Stream × String)
  | .main line => some (.stdout, line)
  | .trader e => e.line
  | .md e => e.line

/-- The lines among the effects of the bridge, in the order they were printed. -/
def printed (log : List Output) : List (Stream × String) := log.filterMap Output.line

theorem printed_append (a b : List Output) : printed (a ++ b) = printed a ++ printed b := List.filterMap_append

/-- A call of CTP, without the password of a login request. -/
def Effect.hiddenCall : Effect → Option (Nat × ApiCall)
  | .call h (.request (.reqUserLogin req n)) => some (h, .request (.reqUserLogin { req with password := "" } n))
  | .call h c => some (h, c)
  | _ => none

def Output.hiddenCall : Output → Option (Bool × Nat × ApiCall)
  | .main _ => none
  | .trader e => e.hiddenCall.map fun c => (true, c)
  | .md e => e.hiddenCall.map fun c => (false, c)

/-- Nothing that the bridge sends, prints or asks of CTP differs, but for the
password of a login request. -/
structure Indistinguishable (r r' : Outcome Output Fault Bridge Unit) : Prop where
  sent : sent r.log = sent r'.log
  printed : printed r.log = printed r'.log
  calls : r.log.filterMap Output.hiddenCall = r'.log.filterMap Output.hiddenCall

section runs
variable {lib : Lib}

/-- A login message is printed before anything else. -/
theorem login_printed {env : Env} {payload : String} {root : Value} {type : ReqType} {b : Bridge}
    (able : Enabled b (env, .message payload)) (read : readStrJson lib payload = .ok root)
    (ofType : reqType lib root = .ok type) (login : type = .reqUserLogin ∨ type = .mdReqUserLogin)
    (es : List (Env × Event)) : ∃ rest, printed ((bridge lib).run ((env, .message payload) :: es) b).log =
      (.stdout, env.now ++ "on_message:" ++ payload) :: rest := by
  obtain ⟨l, ls, loops, opened⟩ := Net.opened_of_conn able
  obtain ⟨later, log⟩ := EventSystem.run_log_cons (M := bridge lib) (env, .message payload) es b
  have handled : (bridge lib).handle (env, .message payload) b = handle lib (env, .message payload) b := rfl
  have echo : echoed env type payload = [.main (env.now ++ "on_message:" ++ payload)] := by
    rcases login with rfl | rfl <;> rfl
  rw [log, handled, handle_message opened read ofType, echo]
  exact ⟨_, rfl⟩

/-- Runs that print the same have handled the same login messages. -/
theorem printed_handledAlike {es es' : List (Env × Event)} (variants : List.Forall₂ (PasswordVariant lib) es es')
    {b : Bridge} (runs : (bridge lib).IsRun b es)
    (same : printed ((bridge lib).run es b).log = printed ((bridge lib).run es' b).log) :
    (bridge lib).HandledAlike b es es' := by
  induction variants generalizing b with
  | nil => trivial
  | @cons e e' es es' first _ ih =>
    obtain ⟨able, rest⟩ := runs
    cases first with
    | same =>
      refine ⟨rfl, fun done => ih (rest done) ?_⟩
      rw [EventSystem.run_cons done, EventSystem.run_cons done, printed_append, printed_append] at same
      exact List.append_cancel_left same
    | @login env payload payload' root type password password' read read' ofType login has other =>
      have ofType' : reqType lib (root.setPassword password') = .ok type :=
        (setPassword_reqType root password').trans ofType
      obtain ⟨_, here⟩ := login_printed able read ofType login es
      have able' : Enabled b (env, .message payload') := able
      obtain ⟨_, there⟩ := login_printed able' read' ofType' login es'
      rw [here, there] at same
      have lines : env.now ++ "on_message:" ++ payload = env.now ++ "on_message:" ++ payload' :=
        congrArg Prod.snd (List.cons.inj same).1
      have payloads : payload = payload' := (String.append_right_inj _).mp lines
      have roots : root = root.setPassword password' := by
        rw [payloads] at read
        exact Except.ok.inj (read.symm.trans read')
      have own := (setPassword_args has password').2
      rw [← roots] at own
      have passwords := Except.ok.inj (has.symm.trans own)
      exact absurd (Value.stringValue.inj passwords) other

end runs

/-- Two runs that differ in passwords cannot be told apart exactly if no login
message that differs is handled in them. With passwords that fit they differ in
the print of such messages and in the login requests, and in nothing else. -/
theorem password_secrecy (lib : Lib) {b : Bridge} {es es' : List (Env × Event)}
    (variants : List.Forall₂ (PasswordVariant lib) es es') (runs : (bridge lib).IsRun b es) :
    (Indistinguishable ((bridge lib).run es b) ((bridge lib).run es' b) ↔ (bridge lib).HandledAlike b es es') ∧
    ((∀ e ∈ es, Fitting lib e) → (∀ e ∈ es', Fitting lib e) →
      List.Forall₂ (Output.Veiled lib) ((bridge lib).run es b).log ((bridge lib).run es' b).log ∧
      ((bridge lib).run es b).val = ((bridge lib).run es' b).val) := by
  refine ⟨⟨fun same => printed_handledAlike variants runs same.printed, fun alike => ?_⟩, fun fits fits' => ?_⟩
  · rw [alike.run_eq variants.length_eq]
    exact ⟨rfl, rfl, rfl⟩
  · have each : List.Forall₂ (fun e e' => Agrees (Bridge.Same lib) (outputs lib) (handle lib e) (handle lib e'))
        es es' := by
      clear runs
      induction variants with
      | nil => exact .nil
      | cons first _ ih =>
        refine .cons (variant_agrees first (fits _ List.mem_cons_self) (fits' _ List.mem_cons_self)) (ih ?_ ?_)
        · exact fun e member => fits e (List.mem_cons_of_mem _ member)
        · exact fun e member => fits' e (List.mem_cons_of_mem _ member)
    have start : Bridge.Same lib b b := ⟨⟨rfl, rfl⟩, rfl, rfl⟩
    have alike := EventSystem.run_agrees (M := bridge lib) (N := bridge lib) each b b start
    exact ⟨alike.log, alike.val⟩

/-- The login of a user with one password or another. -/
def loginRun (password : String) : List (Env × Event) :=
  [(.up, .opened), (.up, .message (serverMessage "ReqUserLogin" 1 (loginArgs password)).text)]

def twoPasswords : Lib := loginLib [serverMessage "ReqUserLogin" 1 (loginArgs "hunter2")]

set_option maxRecDepth 4000 in
theorem loginRun_variants : List.Forall₂ (PasswordVariant twoPasswords) (loginRun "secret") (loginRun "hunter2") := by
  have read : readStrJson twoPasswords (serverMessage "ReqUserLogin" 1 (loginArgs "secret")).text =
      .ok (serverMessage "ReqUserLogin" 1 (loginArgs "secret")) := rfl
  exact .cons (.same _) (.cons (.login read rfl rfl (.inl rfl) rfl (by decide)) .nil)

set_option maxRecDepth 4000 in
/-- The password is printed with the login message. -/
theorem password_printed :
    (bridge twoPasswords).IsRun (.listening twoPasswords) (loginRun "secret") ∧
    (bridge twoPasswords).IsRun (.listening twoPasswords) (loginRun "hunter2") ∧
    List.Forall₂ (PasswordVariant twoPasswords) (loginRun "secret") (loginRun "hunter2") ∧
    ¬ Indistinguishable ((bridge twoPasswords).run (loginRun "secret") (.listening twoPasswords))
      ((bridge twoPasswords).run (loginRun "hunter2") (.listening twoPasswords)) := by
  have runs : (bridge twoPasswords).IsRun (.listening twoPasswords) (loginRun "secret") :=
    ⟨rfl, fun _ => ⟨rfl, fun _ => trivial⟩⟩
  refine ⟨runs, ⟨rfl, fun _ => ⟨rfl, fun _ => trivial⟩⟩, loginRun_variants, fun same => ?_⟩
  have alike := printed_handledAlike loginRun_variants runs same.printed
  have texts : (serverMessage "ReqUserLogin" 1 (loginArgs "secret")).text =
      (serverMessage "ReqUserLogin" 1 (loginArgs "hunter2")).text :=
    Event.message.inj (Prod.mk.inj (alike.2 rfl).1).2
  have read : readStrJson twoPasswords (serverMessage "ReqUserLogin" 1 (loginArgs "secret")).text =
      .ok (serverMessage "ReqUserLogin" 1 (loginArgs "secret")) := rfl
  rw [texts] at read
  have roots := Except.ok.inj read
  simp [serverMessage, loginArgs] at roots

theorem password_secrecy_login :
    (Indistinguishable ((bridge twoPasswords).run (loginRun "secret") (.listening twoPasswords))
      ((bridge twoPasswords).run (loginRun "hunter2") (.listening twoPasswords)) ↔
      (bridge twoPasswords).HandledAlike (.listening twoPasswords) (loginRun "secret") (loginRun "hunter2")) ∧
    ((∀ e ∈ loginRun "secret", Fitting twoPasswords e) → (∀ e ∈ loginRun "hunter2", Fitting twoPasswords e) →
      List.Forall₂ (Output.Veiled twoPasswords)
        ((bridge twoPasswords).run (loginRun "secret") (.listening twoPasswords)).log
        ((bridge twoPasswords).run (loginRun "hunter2") (.listening twoPasswords)).log ∧
      ((bridge twoPasswords).run (loginRun "secret") (.listening twoPasswords)).val =
        ((bridge twoPasswords).run (loginRun "hunter2") (.listening twoPasswords)).val) :=
  password_secrecy twoPasswords loginRun_variants ⟨rfl, fun _ => ⟨rfl, fun _ => trivial⟩⟩

end MFutures
