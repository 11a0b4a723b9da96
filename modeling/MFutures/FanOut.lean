import MFutures.Endpoint

namespace MFutures.Endpoint
open Handler

section fanOut
variable {α σ : Type}

/-- The recipients that the first loop of an execution still has before it. -/
def Call.pending (c : Call α) : List α :=
  match c.phase with
  | .broadCast rest => rest
  | _ => []

def Call.withMessage (c : Call α) (es : List α) : List (α × String) := es.map fun e => (e, c.message)

/-- The endpoint and the text of a `sendText` of the execution `i`. -/
def Effect.sentBy (i : Nat) : Effect α σ → Option (α × String)
  | .sendText k chat _ message _ => if k = i then some (chat, message) else none
  | _ => none

/-- What an execution of `broadCast` has handed to `sendText`. -/
def sends (i : Nat) (log : List (Effect α σ)) : List (α × String) := log.filterMap (Effect.sentBy i)

/-- A `sendText` on the endpoint has thrown. -/
def Failed (e : α) (log : List (Effect α σ)) : Prop :=
  ∃ i session message, .sendText i e session message false ∈ log

/-- What holds of an execution of `broadCast` at any time: each recipient of its
snapshot has been sent the message once, or is still to come. -/
structure Call.Served (log : List (Effect α σ)) (s : Server α σ) (i : Nat) (c : Call α) : Prop where
  distinct : c.snapshot.Nodup
  opened : ∀ e ∈ c.snapshot, (s.session e).isSome
  sent : sends i log ++ c.withMessage c.pending = c.withMessage c.snapshot
  assistant : ∀ rest, c.phase = .assistantBroadCast rest → rest = []

/-- The invariant of the server, with the events so far and their effects. -/
structure Inv (es : List (Event α σ)) (log : List (Effect α σ)) (s : Server α σ) : Prop where
  assistant : s.connectionsOfAssistant.elements = []
  opened : ∀ e, (s.session e).isSome ↔ ∃ session, .onOpen e session ∈ es
  members : ∀ e ∈ s.connections.elements, (s.session e).isSome
  calls : ∀ i (c : Call α), s.calls[i]? = some c → c.Served log s i
  later : ∀ i, s.calls.length ≤ i → sends i log = []
  failed : ∀ e, Failed e log → e ∉ s.connections.elements ∧ (s.session e).isSome
  present : ∀ e, (s.session e).isSome → .onClose e ∉ es → ¬ Failed e log → e ∈ s.connections.elements

theorem sends_append (i : Nat) (log log' : List (Effect α σ)) :
    sends i (log ++ log') = sends i log ++ sends i log' := List.filterMap_append

theorem failed_append {e : α} {log log' : List (Effect α σ)} :
    Failed e (log ++ log') ↔ Failed e log ∨ Failed e log' := by
  constructor
  · rintro ⟨i, session, message, member⟩
    rcases List.mem_append.mp member with old | new
    · exact .inl ⟨i, session, message, old⟩
    · exact .inr ⟨i, session, message, new⟩
  · rintro (⟨i, session, message, member⟩ | ⟨i, session, message, member⟩)
    · exact ⟨i, session, message, List.mem_append_left _ member⟩
    · exact ⟨i, session, message, List.mem_append_right _ member⟩

/-- An execution is not affected by what the others do. -/
theorem Call.Served.other {log log' : List (Effect α σ)} {s t : Server α σ} {i : Nat} {c : Call α}
    (served : c.Served log s i) (none : sends i log' = []) (grows : ∀ e, (s.session e).isSome → (t.session e).isSome) :
    c.Served (log ++ log') t i where
  distinct := served.distinct
  opened := fun e member => grows e (served.opened e member)
  sent := by rw [sends_append, none, List.append_nil, served.sent]
  assistant := served.assistant

/-- The next recipient of an execution is an opened endpoint. -/
theorem Call.Served.recipient {log : List (Effect α σ)} {s : Server α σ} {i : Nat} {c : Call α} {chat : α}
    {rest : List α} (served : c.Served log s i) (pending : c.pending = chat :: rest) :
    ∃ session, s.session chat = some session := by
  have among : (chat, c.message) ∈ c.withMessage c.snapshot := by
    rw [← served.sent, pending]
    exact List.mem_append_right _ List.mem_cons_self
  obtain ⟨e, member, same⟩ := List.mem_map.mp among
  cases same
  exact Option.isSome_iff_exists.mp (served.opened chat member)

theorem inv_start : Inv ([] : List (Event α σ)) [] Server.start where
  assistant := rfl
  opened := fun e => by simp [Server.start]
  members := fun e member => by cases member
  calls := fun i c atI => by cases atI
  later := fun i _ => rfl
  failed := by
    rintro e ⟨i, session, message, member⟩
    cases member
  present := fun e opened => by cases opened

/-- A change of the sets and of the opened endpoints alone. -/
theorem Inv.rooms {es : List (Event α σ)} {log : List (Effect α σ)} {s t : Server α σ} {e : Event α σ}
    (inv : Inv es log s) (same : t.calls = s.calls) (assistant : t.connectionsOfAssistant.elements = [])
    (opened : ∀ x, (t.session x).isSome ↔ (s.session x).isSome ∨ ∃ session, e = .onOpen x session)
    (members : ∀ x, x ∈ t.connections.elements ↔
      e ≠ .onClose x ∧ (x ∈ s.connections.elements ∨ ∃ session, e = .onOpen x session))
    (new : ∀ x session, e = .onOpen x session → s.session x = none) : Inv (es ++ [e]) (log ++ []) t := by
  rw [List.append_nil]
  refine ⟨assistant, fun x => ?_, fun x member => ?_, fun i c atI => ?_, fun i bound => ?_, fun x failed => ?_,
    fun x isOpen unclosed good => ?_⟩
  · rw [opened, inv.opened]
    constructor
    · rintro (⟨session, old⟩ | ⟨session, rfl⟩)
      · exact ⟨session, List.mem_append_left _ old⟩
      · exact ⟨session, List.mem_append_right _ List.mem_cons_self⟩
    · rintro ⟨session, member⟩
      rcases List.mem_append.mp member with old | now
      · exact .inl ⟨session, old⟩
      · exact .inr ⟨session, (List.mem_singleton.mp now).symm⟩
  · rw [opened]
    rcases ((members x).mp member).2 with old | now
    · exact .inl (inv.members x old)
    · exact .inr now
  · rw [same] at atI
    have served : c.Served (log ++ []) t i :=
      (inv.calls i c atI).other rfl fun x isOpen => (opened x).mpr (.inl isOpen)
    rwa [List.append_nil] at served
  · rw [same] at bound
    exact inv.later i bound
  · obtain ⟨absent, isOpen⟩ := inv.failed x failed
    refine ⟨fun member => ?_, (opened x).mpr (.inl isOpen)⟩
    rcases ((members x).mp member).2 with old | ⟨session, now⟩
    · exact absent old
    · rw [new x session now] at isOpen
      cases isOpen
  · have other : e ≠ .onClose x := fun now => unclosed (List.mem_append_right _ (List.mem_singleton.mpr now.symm))
    refine (members x).mpr ⟨other, ?_⟩
    rcases (opened x).mp isOpen with old | now
    · exact .inl (inv.present x old (fun closed => unclosed (List.mem_append_left _ closed)) good)
    · exact .inr now

/-- A step of an execution of `broadCast`, or its start. -/
theorem Inv.acts {es : List (Event α σ)} {log log' : List (Effect α σ)} {s t : Server α σ} {e : Event α σ}
    (inv : Inv es log s) (noOpen : ∀ x session, e ≠ .onOpen x session)
    (session : t.session = s.session) (assistant : t.connectionsOfAssistant.elements = [])
    (members : ∀ x, x ∈ t.connections.elements ↔ x ∈ s.connections.elements ∧ ¬ Failed x log')
    (calls : ∀ i (c : Call α), t.calls[i]? = some c → c.Served (log ++ log') t i)
    (length : s.calls.length ≤ t.calls.length) (later : ∀ i, t.calls.length ≤ i → sends i log' = [])
    (known : ∀ x, Failed x log' → (s.session x).isSome) : Inv (es ++ [e]) (log ++ log') t := by
  refine ⟨assistant, fun x => ?_, fun x member => ?_, calls, fun i bound => ?_, fun x failed => ?_,
    fun x isOpen unclosed good => ?_⟩
  · rw [session, inv.opened]
    constructor
    · rintro ⟨se, old⟩
      exact ⟨se, List.mem_append_left _ old⟩
    · rintro ⟨se, member⟩
      rcases List.mem_append.mp member with old | now
      · exact ⟨se, old⟩
      · exact absurd (List.mem_singleton.mp now).symm (noOpen x se)
  · rw [session]
    exact inv.members x ((members x).mp member).1
  · rw [sends_append, inv.later i (Nat.le_trans length bound), later i bound, List.append_nil]
  · rw [members, session]
    rcases failed_append.mp failed with old | now
    · exact ⟨fun both => (inv.failed x old).1 both.1, (inv.failed x old).2⟩
    · exact ⟨fun both => both.2 now, known x now⟩
  · rw [session] at isOpen
    rw [failed_append, not_or] at good
    refine (members x).mpr ⟨inv.present x isOpen (fun closed => unclosed ?_) good.1, good.2⟩
    exact List.mem_append_left _ closed

/-- The executions after a step of one of them, which goes on in `phase`. -/
theorem Inv.turned {es : List (Event α σ)} {log log' : List (Effect α σ)} {s t : Server α σ} {i : Nat}
    {c : Call α} {phase : Phase α} (inv : Inv es log s) (atI : s.calls[i]? = some c) (session : t.session = s.session)
    (calls : t.calls = s.calls.modify i fun c => { c with phase }) (others : ∀ k, k ≠ i → sends k log' = [])
    (sent : sends i log' ++ c.withMessage { c with phase }.pending = c.withMessage c.pending)
    (assistant : ∀ rest, phase = .assistantBroadCast rest → rest = []) :
    ∀ k (d : Call α), t.calls[k]? = some d → d.Served (log ++ log') t k := by
  intro k d atK
  rw [calls, List.getElem?_modify] at atK
  by_cases same : i = k
  · subst same
    have served := inv.calls i c atI
    simp only [atI, if_true, Option.map_eq_map, Option.map_some, Option.some.injEq] at atK
    subst atK
    refine ⟨served.distinct, fun e member => ?_, ?_, assistant⟩
    · rw [session]
      exact served.opened e member
    · have all := served.sent
      rw [← sent, ← List.append_assoc, ← sends_append] at all
      exact all
  · simp only [same, if_false, id_map'] at atK
    refine (inv.calls k d atK).other (others k (Ne.symm same)) fun e isOpen => ?_
    rw [session]
    exact isOpen

theorem startLoop_inv {es : List (Event α σ)} {log : List (Effect α σ)} {s : Server α σ} {e : Event α σ}
    {message : String} {byOnMessage : Bool} (inv : Inv es log s) (noOpen : ∀ x session, e ≠ .onOpen x session) :
    Inv (es ++ [e]) (log ++ []) (startLoop message byOnMessage s : Outcome _ Thrown _ _).state := by
  have none : ∀ x : α, ¬ Failed x ([] : List (Effect α σ)) := by
    rintro x ⟨i, session, m, member⟩
    cases member
  refine inv.acts noOpen rfl inv.assistant (fun x => ?_) (fun i c atI => ?_) ?_ (fun i _ => rfl)
    fun x failed => absurd failed (none x)
  · simp [startLoop, none]
  · rw [startLoop, modify_run, List.getElem?_append] at atI
    split at atI
    · exact (inv.calls i c atI).other rfl fun x isOpen => isOpen
    · rename_i new
      rw [List.getElem?_singleton] at atI
      split at atI
      · cases atI
        refine ⟨s.connections.nodup, inv.members, ?_, fun rest phase => by cases phase⟩
        rw [List.append_nil, inv.later i (Nat.le_of_not_lt new)]
        rfl
      · cases atI
  · simp [startLoop]

/-- What the sends of a recipient mean for the others. -/
theorem recipient_sends {i k : Nat} {chat : α} {session : σ} {message : String} {sendOk closeOk : Bool} :
    sends k (.sendText i chat session message sendOk :: (if sendOk then [] else [.close session closeOk])) =
      if i = k then [(chat, message)] else [] := by
  cases sendOk <;> by_cases same : i = k <;> simp [sends, Effect.sentBy, same]

theorem recipient_failed {i : Nat} {x chat : α} {session : σ} {message : String} {sendOk closeOk : Bool} :
    Failed x (.sendText i chat session message sendOk :: (if sendOk then [] else [.close session closeOk])) ↔
      x = chat ∧ sendOk = false := by
  constructor
  · rintro ⟨k, se, m, member⟩
    cases sendOk with
    | true => simp at member
    | false =>
      simp at member
      exact ⟨member.2.1, rfl⟩
  · rintro ⟨rfl, rfl⟩
    exact ⟨i, session, message, List.mem_cons_self⟩

/-- A turn of an execution, which goes on in `phase`. -/
theorem Inv.goes_on {es : List (Event α σ)} {log log' : List (Effect α σ)} {s t : Server α σ} {i : Nat} {c : Call α}
    {phase : Phase α} {sendOk closeOk : Bool} (inv : Inv es log s) (atI : s.calls[i]? = some c)
    (session : t.session = s.session) (assistant : t.connectionsOfAssistant.elements = [])
    (calls : t.calls = s.calls.modify i fun c => { c with phase })
    (members : ∀ x, x ∈ t.connections.elements ↔ x ∈ s.connections.elements ∧ ¬ Failed x log')
    (others : ∀ k, k ≠ i → sends k log' = []) (known : ∀ x, Failed x log' → (s.session x).isSome)
    (sent : sends i log' ++ c.withMessage { c with phase }.pending = c.withMessage c.pending)
    (ends : ∀ rest, phase = .assistantBroadCast rest → rest = []) :
    Inv (es ++ [.turn i sendOk closeOk]) (log ++ log') t := by
  have length : t.calls.length = s.calls.length := by rw [calls, List.length_modify]
  refine inv.acts (fun x se same => by cases same) session assistant members
    (inv.turned atI session calls others sent ends) (Nat.le_of_eq length.symm) (fun k bound => ?_) known
  refine others k fun same => ?_
  have inside : i < s.calls.length := (List.getElem?_eq_some_iff.mp atI).1
  omega

/-- A turn past the end of a loop. -/
theorem Inv.passes {es : List (Event α σ)} {log log' : List (Effect α σ)} {s : Server α σ} {i : Nat} {c : Call α}
    {phase : Phase α} {sendOk closeOk : Bool} (inv : Inv es log s) (atI : s.calls[i]? = some c)
    (before : c.pending = []) (after : { c with phase }.pending = []) (quiet : ∀ o ∈ log', ∃ line, o = .println line)
    (ends : ∀ rest, phase = .assistantBroadCast rest → rest = []) : Inv (es ++ [.turn i sendOk closeOk])
      (log ++ log') { s with calls := s.calls.modify i fun c => { c with phase } } := by
  have silent : ∀ k, sends k log' = [] := by
    intro k
    refine List.filterMap_eq_nil_iff.mpr fun o member => ?_
    obtain ⟨line, rfl⟩ := quiet o member
    rfl
  have good : ∀ x, ¬ Failed x log' := by
    rintro x ⟨k, session, message, member⟩
    obtain ⟨line, other⟩ := quiet _ member
    cases other
  refine inv.goes_on atI rfl inv.assistant rfl (fun x => ?_) (fun k _ => silent k)
    (fun x failed => absurd failed (good x)) ?_ ends
  · simp [good x]
  · rw [silent, before, after]
    rfl

/-- The messages and the snapshots of the executions, in the order they started. -/
def Server.outline (s : Server α σ) : List (String × List α) := s.calls.map fun c => (c.message, c.snapshot)

theorem setPhase_keeps (i : Nat) (phase : Phase α) :
    Keeps Server.outline (setPhase i phase : ServerM α σ Unit) := by
  intro s
  refine List.ext_getElem? fun k => ?_
  by_cases here : i = k <;> cases atK : s.calls[k]? <;> simp [Server.outline, setPhase, here, atK]

/-- The fan-out at the end of a run with these events and effects. -/
structure FannedOut (es : List (Event α σ)) (log : List (Effect α σ)) (s : Server α σ) : Prop where
  /-- Each recipient of a snapshot has been sent the message once, in order, or is still to come. -/
  sent : ∀ i (c : Call α), s.calls[i]? = some c →
    c.snapshot.Nodup ∧ sends i log ++ c.withMessage c.pending = c.withMessage c.snapshot
  returned : ∀ i (c : Call α), s.calls[i]? = some c → c.phase = .returned → sends i log = c.withMessage c.snapshot
  failed : ∀ e, Failed e log → e ∉ s.connections.elements
  present : ∀ e session, .onOpen e session ∈ es → .onClose e ∉ es → ¬ Failed e log → e ∈ s.connections.elements
  assistant : s.connectionsOfAssistant.elements = []

theorem Inv.fannedOut {es : List (Event α σ)} {log : List (Effect α σ)} {s : Server α σ} (inv : Inv es log s) :
    FannedOut es log s where
  sent := fun i c atI => ⟨(inv.calls i c atI).distinct, (inv.calls i c atI).sent⟩
  returned := fun i c atI ended => by
    have pending : c.pending = [] := by rw [Call.pending, ended]
    have all := (inv.calls i c atI).sent
    rwa [pending, Call.withMessage, List.map_nil, List.append_nil] at all
  failed := fun e failed => (inv.failed e failed).1
  present := fun e session isOpen => inv.present e ((inv.opened e).mpr ⟨session, isOpen⟩)
  assistant := inv.assistant

variable [DecidableEq α]

/-- What one recipient sees of an execution, whether `sendText` throws or not. -/
theorem recipient_run {room : Room} {i : Nat} {message : String} {chat : α} {session : σ} {s : Server α σ}
    (isOpen : s.session chat = some session) (sendOk closeOk : Bool) :
    recipient room i message chat sendOk closeOk s =
      ⟨.sendText i chat session message sendOk :: (if sendOk then [] else [.close session closeOk]),
        if sendOk then s else s.remove room chat, .ok ()⟩ := by
  cases sendOk <;> simp [recipient, bind_run, isOpen]

theorem turn_recipient {i : Nat} {c : Call α} {chat : α} {rest : List α} {session : σ} {s : Server α σ}
    (phase : c.phase = .broadCast (chat :: rest)) (isOpen : s.session chat = some session) (sendOk closeOk : Bool) :
    turn i c sendOk closeOk s =
      ⟨.sendText i chat session c.message sendOk :: (if sendOk then [] else [.close session closeOk]),
        { (if sendOk then s else s.remove .connections chat) with
          calls := s.calls.modify i fun c => { c with phase := .broadCast rest } }, .ok ()⟩ := by
  cases sendOk <;> simp [turn, phase, bind_run, recipient_run isOpen, setPhase, Server.remove]

theorem turn_loopEnd {i : Nat} {c : Call α} {s : Server α σ} (phase : c.phase = .broadCast [])
    (assistant : s.connectionsOfAssistant.elements = []) (sendOk closeOk : Bool) : turn i c sendOk closeOk s =
      ⟨[], { s with calls := s.calls.modify i fun c => { c with phase := .assistantBroadCast [] } }, .ok ()⟩ := by
  simp [turn, phase, bind_run, setPhase, assistant]

theorem turn_return {i : Nat} {c : Call α} {s : Server α σ} (phase : c.phase = .assistantBroadCast [])
    (sendOk closeOk : Bool) : turn i c sendOk closeOk s =
      ⟨if c.byOnMessage then [.println ("::" ++ c.message)] else [],
        { s with calls := s.calls.modify i fun c => { c with phase := .returned } }, .ok ()⟩ := by
  cases by_ : c.byOnMessage <;> simp [turn, phase, bind_run, setPhase, by_]

theorem onOpen_inv {es : List (Event α σ)} {log : List (Effect α σ)} {s : Server α σ} {e : α} {session : σ}
    (inv : Inv es log s) (new : s.session e = none) :
    Inv (es ++ [.onOpen e session]) (log ++ []) (onOpen e session s).state := by
  refine inv.rooms rfl inv.assistant (fun x => ?_) (fun x => ?_) fun x se same => ?_
  · by_cases here : x = e
    · subst here
      simp [onOpen]
    · have other : ¬ e = x := fun same => here same.symm
      simp [onOpen, Function.update_of_ne here, other]
  · simp [onOpen, eq_comm]
  · cases same
    exact new

/-- Whether or not it is among `connections`, a closed endpoint is not there afterwards. -/
theorem onClose_inv {es : List (Event α σ)} {log : List (Effect α σ)} {s : Server α σ} {e : α}
    (inv : Inv es log s) : Inv (es ++ [.onClose e]) (log ++ []) (onClose e s : Outcome _ Thrown _ _).state := by
  by_cases member : e ∈ s.connections.elements
  · have state : (onClose e s : Outcome _ Thrown _ _).state = s.remove .connections e := by
      simp [onClose, CopyOnWriteArraySet.contains, member]
    rw [state]
    refine inv.rooms rfl inv.assistant (fun x => by simp [Server.remove]) (fun x => ?_) fun x se same => by cases same
    simp [Server.remove, eq_comm]
  · have state : (onClose e s : Outcome _ Thrown _ _).state = s.remove .connectionsOfAssistant e := by
      simp [onClose, CopyOnWriteArraySet.contains, member]
    rw [state]
    refine inv.rooms rfl ?_ (fun x => by simp [Server.remove]) (fun x => ?_) fun x se same => by cases same
    · simp [Server.remove, CopyOnWriteArraySet.remove, inv.assistant]
    · have here : x ∈ s.connections.elements → e ≠ x := fun among same => member (same ▸ among)
      simpa [Server.remove] using here

/-- A turn of an execution never throws, whatever `sendText` and `close` do. -/
theorem turn_inv {es : List (Event α σ)} {log : List (Effect α σ)} {s : Server α σ} {i : Nat} {c : Call α}
    (inv : Inv es log s) (atI : s.calls[i]? = some c) (active : c.phase ≠ .returned) (sendOk closeOk : Bool) :
    (turn i c sendOk closeOk s).val = .ok () ∧ Inv (es ++ [.turn i sendOk closeOk])
      (log ++ (turn i c sendOk closeOk s).log) (turn i c sendOk closeOk s).state := by
  have served := inv.calls i c atI
  cases phase : c.phase with
  | broadCast rest =>
    cases rest with
    | nil =>
      rw [turn_loopEnd phase inv.assistant]
      refine ⟨rfl, inv.passes atI ?_ rfl (fun o member => by cases member) fun rest same => ?_⟩
      · simp [Call.pending, phase]
      · cases same
        rfl
    | cons chat rest =>
      have pending : c.pending = chat :: rest := by simp [Call.pending, phase]
      obtain ⟨session, isOpen⟩ := served.recipient pending
      rw [turn_recipient phase isOpen]
      refine ⟨rfl, inv.goes_on atI ?_ ?_ rfl (fun x => ?_) (fun k other => ?_) (fun x failed => ?_) ?_
        fun rest same => by cases same⟩
      · cases sendOk <;> rfl
      · cases sendOk <;> exact inv.assistant
      · rw [recipient_failed]
        cases sendOk with
        | true => simp
        | false => simp [Server.remove, and_comm]
      · rw [recipient_sends, if_neg (Ne.symm other)]
      · rw [(recipient_failed.mp failed).1, isOpen]
        rfl
      · rw [recipient_sends, if_pos rfl, pending]
        rfl
  | assistantBroadCast rest =>
    have none := served.assistant rest phase
    subst none
    rw [turn_return phase]
    refine ⟨rfl, inv.passes atI ?_ rfl (fun o member => ?_) fun rest same => by cases same⟩
    · simp [Call.pending, phase]
    · cases by_ : c.byOnMessage with
      | true => exact ⟨_, by simpa [by_] using member⟩
      | false => simp [by_] at member
  | returned => exact absurd phase active

theorem server_inv {es : List (Event α σ)} {log : List (Effect α σ)} {s : Server α σ} {e : Event α σ}
    (inv : Inv es log s) (able : Enabled s e) : (handle e s).val = .ok () ∧
      Inv (es ++ [e]) (log ++ (handle e s).log) (handle e s).state := by
  cases e with
  | onOpen e session => exact ⟨rfl, onOpen_inv inv able⟩
  | onMessage e message => exact ⟨rfl, startLoop_inv inv fun x se same => by cases same⟩
  | onError e =>
    refine ⟨rfl, inv.rooms rfl inv.assistant (fun x => ?_) (fun x => ?_) fun x se same => by cases same⟩
    · simp [handle]
    · simp [handle]
  | onClose e => exact ⟨rfl, onClose_inv inv⟩
  | broadCast message => exact ⟨rfl, startLoop_inv inv fun x se same => by cases same⟩
  | turn i sendOk closeOk =>
    obtain ⟨c, atI, active⟩ := able
    have run : handle (.turn i sendOk closeOk) s = turn i c sendOk closeOk s := by
      simp [handle, bind_run, atI]
    rw [run]
    exact turn_inv inv atI active sendOk closeOk

/-- The turns until an execution returns. -/
def Phase.turnsLeft : Phase α → Nat
  | .broadCast rest => rest.length + 2
  | .assistantBroadCast rest => rest.length + 1
  | .returned => 0

/-- Each turn brings an execution closer to its return. -/
theorem turn_advances {es : List (Event α σ)} {log : List (Effect α σ)} {s : Server α σ} {i : Nat} {c : Call α}
    (inv : Inv es log s) (atI : s.calls[i]? = some c) (active : c.phase ≠ .returned) (sendOk closeOk : Bool) :
    ∃ d, (turn i c sendOk closeOk s).state.calls[i]? = some d ∧ d.phase.turnsLeft + 1 = c.phase.turnsLeft := by
  have served := inv.calls i c atI
  cases phase : c.phase with
  | broadCast rest =>
    cases rest with
    | nil =>
      rw [turn_loopEnd phase inv.assistant]
      exact ⟨{ c with phase := .assistantBroadCast [] }, by simp [atI], rfl⟩
    | cons chat rest =>
      obtain ⟨session, isOpen⟩ := served.recipient (by rw [Call.pending, phase])
      rw [turn_recipient phase isOpen]
      exact ⟨{ c with phase := .broadCast rest }, by simp [atI], rfl⟩
  | assistantBroadCast rest =>
    have none := served.assistant rest phase
    subst none
    rw [turn_return phase]
    exact ⟨{ c with phase := .returned }, by simp [atI], rfl⟩
  | returned => exact absurd phase active

/-- The message of the execution of `broadCast` that an event starts. -/
def Event.starts : Event α σ → Option String
  | .onMessage _ message => some message
  | .broadCast message => some message
  | _ => none

theorem recipient_keeps (room : Room) (i : Nat) (message : String) (chat : α) (sendOk closeOk : Bool) :
    Keeps Server.outline (recipient room i message chat sendOk closeOk : ServerM α σ Unit) := by
  intro s
  cases isOpen : s.session chat with
  | none => simp [recipient, bind_run, isOpen]
  | some session =>
    rw [recipient_run isOpen]
    cases sendOk <;> cases room <;> rfl

theorem turn_keeps (i : Nat) (c : Call α) (sendOk closeOk : Bool) :
    Keeps Server.outline (turn i c sendOk closeOk : ServerM α σ Unit) := by
  unfold turn
  split
  · exact .bind (recipient_keeps _ _ _ _ _ _) fun _ => setPhase_keeps _ _
  · exact .bind .get fun _ => setPhase_keeps _ _
  · exact .bind (recipient_keeps _ _ _ _ _ _) fun _ => setPhase_keeps _ _
  · split
    · exact .bind (.emit _) fun _ => setPhase_keeps _ _
    · exact setPhase_keeps _ _
  · exact .pure _

/-- What an event does to the outline: it starts an execution or leaves it alone. -/
theorem handle_outline (e : Event α σ) (s : Server α σ) : (handle e s).state.outline =
    s.outline ++ (e.starts.map fun message => (message, s.connections.elements)).toList := by
  cases e with
  | onOpen e session => simp [handle, onOpen, Server.outline, Event.starts]
  | onMessage e message => simp [handle, startLoop, Server.outline, Event.starts]
  | onError e => simp [handle, Event.starts]
  | onClose e =>
    simp only [handle, onClose, modify_run, Event.starts, Option.map_none, Option.toList_none, List.append_nil]
    split <;> rfl
  | broadCast message => simp [handle, startLoop, Server.outline, Event.starts]
  | turn i sendOk closeOk =>
    simp only [Event.starts, Option.map_none, Option.toList_none, List.append_nil]
    cases atI : s.calls[i]? with
    | none => simp [handle, bind_run, atI]
    | some c =>
      have run : handle (.turn i sendOk closeOk) s = turn i c sendOk closeOk s := by
        simp [handle, bind_run, atI]
      rw [run]
      exact turn_keeps i c sendOk closeOk s

theorem run_outline {es : List (Event α σ)} {s : Server α σ} (runs : (server α σ).IsRun s es)
    (done : ((server α σ).run es s).val = .ok ()) : s.outline <+: ((server α σ).run es s).state.outline := by
  have start : (server α σ).Reach (fun t => t = s) s := .start rfl
  refine EventSystem.Reach.run_relates (R := fun s t : Server α σ => s.outline <+: t.outline) (fun _ => List.prefix_refl _)
    (fun _ _ _ first next => first.trans next) (fun t e _ _ _ => ?_) start runs done
  have outline : ((server α σ).handle e t).state.outline = _ := handle_outline e t
  rw [outline]
  exact List.prefix_append _ _

theorem server_run {es : List (Event α σ)} (runs : (server α σ).IsRun Server.start es) :
    ((server α σ).run es Server.start).val = .ok () ∧
    Inv es ((server α σ).run es Server.start).log ((server α σ).run es Server.start).state :=
  EventSystem.run_induct (P := Inv) (fun _ _ _ _ inv able => server_inv inv able) inv_start runs

/-- The execution that an event of a run starts keeps the message and the array
of `connections` it is started with. -/
theorem run_started {before after : List (Event α σ)} {e : Event α σ} {message : String}
    (runs : (server α σ).IsRun Server.start (before ++ e :: after)) (starts : e.starts = some message) :
    ∃ c, ((server α σ).run (before ++ e :: after) Server.start).state.calls[((server α σ).run before
        Server.start).state.calls.length]? = some c ∧ c.message = message ∧
      c.snapshot = ((server α σ).run before Server.start).state.connections.elements := by
  obtain ⟨first, inv⟩ := server_run runs.left
  obtain ⟨able, rest⟩ := runs.right first
  obtain ⟨now, _⟩ := server_inv inv able
  have through := (server_run runs).1
  rw [EventSystem.run_append first, EventSystem.run_cons (M := server α σ) now] at through ⊢
  generalize ((server α σ).run before Server.start).state = s at *
  obtain ⟨more, outline⟩ := run_outline (rest now) through
  have started : ((server α σ).handle e s).state.outline = _ := handle_outline e s
  rw [started, starts] at outline
  have atEnd : s.calls.length = s.outline.length := (List.length_map _).symm
  have found : ((server α σ).run after ((server α σ).handle e s).state).state.outline[s.calls.length]? =
      some (message, s.connections.elements) := by
    rw [← outline, atEnd]
    simp
  obtain ⟨c, atCall, same⟩ := Option.map_eq_some_iff.mp ((List.getElem?_map ..).symm.trans found)
  obtain ⟨text, array⟩ := Prod.mk.inj same
  exact ⟨c, atCall, text, array⟩

/-- In every interleaving nothing throws; each execution of `broadCast` sends its
message once to each endpoint of the array of `connections` it starts with and
to no other, and is brought closer to its return by each of its turns. -/
theorem fan_out {es : List (Event α σ)} (runs : (server α σ).IsRun Server.start es) :
    ((server α σ).run es Server.start).val = .ok () ∧
    FannedOut es ((server α σ).run es Server.start).log ((server α σ).run es Server.start).state ∧
    (∀ before e after message, es = before ++ e :: after → e.starts = some message →
      ∃ c, ((server α σ).run es Server.start).state.calls[((server α σ).run before
          Server.start).state.calls.length]? = some c ∧ c.message = message ∧
        c.snapshot = ((server α σ).run before Server.start).state.connections.elements) ∧
    ∀ i c sendOk closeOk, ((server α σ).run es Server.start).state.calls[i]? = some c → c.phase ≠ .returned →
      ∃ d, (handle (.turn i sendOk closeOk) ((server α σ).run es Server.start).state).state.calls[i]? = some d ∧
        d.phase.turnsLeft + 1 = c.phase.turnsLeft := by
  obtain ⟨done, inv⟩ := server_run runs
  refine ⟨done, inv.fannedOut, ?_, ?_⟩
  · rintro before e after message rfl starts
    exact run_started runs starts
  · intro i c sendOk closeOk atI active
    have run : handle (.turn i sendOk closeOk) ((server α σ).run es Server.start).state =
        turn i c sendOk closeOk ((server α σ).run es Server.start).state := by
      simp [handle, bind_run, atI]
    rw [run]
    exact turn_advances inv atI active sendOk closeOk

end fanOut

/-- Two endpoints, and a message to both of which the first loses its connection. -/
def sampleRun : List (Event Nat Nat) :=
  [.onOpen 1 10, .onOpen 2 20, .onMessage 1 "hello", .turn 0 false false, .turn 0 true true]

theorem fan_out_sampleRun :
    ((server Nat Nat).run sampleRun Server.start).val = .ok () ∧
    FannedOut sampleRun ((server Nat Nat).run sampleRun Server.start).log
      ((server Nat Nat).run sampleRun Server.start).state ∧
    (∀ before e after message, sampleRun = before ++ e :: after → e.starts = some message →
      ∃ c, ((server Nat Nat).run sampleRun Server.start).state.calls[((server Nat Nat).run before
          Server.start).state.calls.length]? = some c ∧ c.message = message ∧
        c.snapshot = ((server Nat Nat).run before Server.start).state.connections.elements) ∧
    ∀ i c sendOk closeOk, ((server Nat Nat).run sampleRun Server.start).state.calls[i]? = some c →
      c.phase ≠ .returned → ∃ d, (handle (.turn i sendOk closeOk)
        ((server Nat Nat).run sampleRun Server.start).state).state.calls[i]? = some d ∧
        d.phase.turnsLeft + 1 = c.phase.turnsLeft :=
  fan_out ⟨rfl, fun _ => ⟨rfl, fun _ => ⟨rfl, fun _ => ⟨⟨_, rfl, by decide⟩, fun _ => ⟨⟨_, rfl, by decide⟩,
    fun _ => trivial⟩⟩⟩⟩⟩

end MFutures.Endpoint
