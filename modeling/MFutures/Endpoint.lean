import MFutures.Lib.EventSystem
import MFutures.Lib.CopyOnWriteArraySet

namespace MFutures.Endpoint
open Handler

/-- The two static sets of `WebSocketsMain`. -/
inductive Room
  | connections
  | connectionsOfAssistant
  deriving DecidableEq

/-- Where an execution of `broadCast` stands: the recipients its first loop or
the loop of `assistantBroadCast` still has before it. -/
inductive Phase (α : Type)
  | broadCast (rest : List α)
  | assistantBroadCast (rest : List α)
  | returned
  deriving DecidableEq

/-- An execution of `broadCast`. `snapshot` is the array its first loop goes
through; `onMessage` prints the message after the execution it called. -/
structure Call (α : Type) where
  message : String
  byOnMessage : Bool
  snapshot : List α
  phase : Phase α
  deriving DecidableEq

/-- The server, over a type of endpoint objects, one for each session. -/
structure Server (α σ : Type) where
  /-- The field `session` of the endpoint objects. -/
  session : α → Option σ
  connections : CopyOnWriteArraySet α
  connectionsOfAssistant : CopyOnWriteArraySet α
  calls : List (Call α)

inductive Effect (α σ : Type)
  /-- `sendText` of the execution `call` on an endpoint; `ok` unless it threw. -/
  | sendText (call : Nat) (chat : α) (session : σ) (message : String) (ok : Bool)
  | close (session : σ) (ok : Bool)
  | println (line : String)

inductive Thrown
  | nullPointerException
  deriving DecidableEq

abbrev ServerM (α σ : Type) := Handler (Effect α σ) Thrown (Server α σ)

inductive Event (α σ : Type)
  | onOpen (this : α) (session : σ)
  | onMessage (this : α) (message : String)
  | onError (this : α)
  | onClose (this : α)
  /-- A call of `broadCast` from elsewhere. -/
  | broadCast (message : String)
  /-- An execution of `broadCast` goes on: with the next recipient, whose
  `sendText` and `close` throw or not, or past the end of a loop. -/
  | turn (call : Nat) (sendOk closeOk : Bool)

section server
variable {α σ : Type} [DecidableEq α]

def Server.start : Server α σ := ⟨fun _ => none, .empty, .empty, []⟩

def Server.remove (room : Room) (chat : α) (s : Server α σ) : Server α σ :=
  match room with
  | .connections => { s with connections := s.connections.remove chat }
  | .connectionsOfAssistant => { s with connectionsOfAssistant := s.connectionsOfAssistant.remove chat }

def onOpen (this : α) (session : σ) : ServerM α σ Unit :=
  modify fun s => { s with
    session := Function.update s.session this (some session), connections := s.connections.add this }

def onClose (this : α) : ServerM α σ Unit :=
  modify fun s =>
    if s.connections.contains this then s.remove .connections this else s.remove .connectionsOfAssistant this

/-- The body of both loops, for one recipient. An exception of `close` is dropped. -/
def recipient (room : Room) (call : Nat) (message : String) (chat : α) (sendOk closeOk : Bool) :
    ServerM α σ Unit := do
  match (← get).session chat with
  | none => abort .nullPointerException
  | some session =>
    emit (.sendText call chat session message sendOk)
    if sendOk then pure () else
      modify (Server.remove room chat)
      emit (.close session closeOk)

/-- `broadCast` starts: its loop takes the elements of `connections`. -/
def startLoop (message : String) (byOnMessage : Bool) : ServerM α σ Unit :=
  modify fun s => { s with
    calls := s.calls ++ [⟨message, byOnMessage, s.connections.elements, .broadCast s.connections.elements⟩] }

def setPhase (call : Nat) (phase : Phase α) : ServerM α σ Unit :=
  modify fun s => { s with calls := s.calls.modify call fun c => { c with phase } }

/-- The next step of an execution of `broadCast`, and of `assistantBroadCast` at
the end of it. -/
def turn (call : Nat) (c : Call α) (sendOk closeOk : Bool) : ServerM α σ Unit :=
  match c.phase with
  | .broadCast (chat :: rest) => do
    recipient .connections call c.message chat sendOk closeOk
    setPhase call (.broadCast rest)
  | .broadCast [] => do
    setPhase call (.assistantBroadCast (← get).connectionsOfAssistant.elements)
  | .assistantBroadCast (chat :: rest) => do
    recipient .connectionsOfAssistant call c.message chat sendOk closeOk
    setPhase call (.assistantBroadCast rest)
  | .assistantBroadCast [] => do
    if c.byOnMessage then emit (.println ("::" ++ c.message)) else pure ()
    setPhase call .returned
  | .returned => pure ()

/-- The container calls `onOpen` of an endpoint once, and before anything else of it. -/
def Enabled (s : Server α σ) : Event α σ → Prop
  | .onOpen this _ => s.session this = none
  | .onMessage this _ => (s.session this).isSome
  | .onError this => (s.session this).isSome
  | .onClose this => (s.session this).isSome
  | .broadCast _ => True
  | .turn call _ _ => ∃ c, s.calls[call]? = some c ∧ c.phase ≠ .returned

def handle : Event α σ → ServerM α σ Unit
  | .onOpen this session => onOpen this session
  | .onMessage _ message => startLoop message true
  | .onError _ => pure ()
  | .onClose this => onClose this
  | .broadCast message => startLoop message false
  | .turn call sendOk closeOk => do
    match (← get).calls[call]? with
    | some c => turn call c sendOk closeOk
    | none => pure ()

end server

/-- The server as a system of events. -/
def server (α σ : Type) [DecidableEq α] : EventSystem (Effect α σ) Thrown (Server α σ) (Event α σ) where
  enabled := Enabled
  handle := handle

end MFutures.Endpoint
