import MFutures.Lib.Handler
import MFutures.Lib.CString

namespace MFutures.EchoClient
open Handler CString

/-- `sizeof(buffer)` -/
def bufferSize : Nat := 1024

/-- `char buffer[1024]`, with whatever it holds. -/
structure Buffer where
  bytes : List UInt8
  size : bytes.length = bufferSize

/-- A result of `receiveFrame`: the payload, whose length it returns. An empty
frame and a closed connection have none. The flags decide an empty branch only. -/
structure Frame where
  payload : List UInt8
  fits : payload.length ≤ bufferSize

/-- What `receiveFrame` stores in the buffer. -/
def Buffer.receive (b : Buffer) (f : Frame) : Buffer where
  bytes := overwrite f.payload b.bytes
  size := by
    have fits := f.fits
    rw [← b.size] at fits
    rw [overwrite_length fits, b.size]

def Buffer.set (b : Buffer) (index : Nat) (byte : UInt8) : Buffer where
  bytes := b.bytes.set index byte
  size := by rw [List.length_set, b.size]

inductive Effect
  | out (line : String)
  /-- A frame sent to the server. -/
  | sendFrame (payload : String)
  /-- An assignment to an element of the buffer. -/
  | store (index : Nat)
  /-- The line "Received: " with the text of the buffer. -/
  | received (text : List UInt8)
  deriving DecidableEq

/-- Uses of the buffer that the language leaves undefined. -/
inductive Fault
  | storeOutside
  | readOutside
  deriving DecidableEq

abbrev ClientM := Handler Effect Fault Buffer

/-- `buffer[index] = '\0'` -/
def terminate (index : Nat) : ClientM Unit := do
  emit (.store index)
  if index < bufferSize then modify fun b => b.set index 0 else abort .storeOutside

/-- `cout << "Received: " << buffer << endl` -/
def printBuffer : ClientM Unit := do
  let b ← get
  if Terminated b.bytes then emit (.received (text b.bytes)) else abort .readOutside

/-- The body of the loop. Only the store stands under the test. -/
def frameBody (f : Frame) : ClientM Unit := do
  modify fun b => b.receive f
  if 0 < f.payload.length then terminate f.payload.length else pure ()
  printBuffer

/-- The loop, for as long as frames arrive. It has no exit. -/
def frameLoop : List Frame → ClientM Unit
  | [] => pure ()
  | f :: fs => do
    frameBody f
    frameLoop fs

/-- `CTraderSpi::OnFrontConnected` on the frames that `receiveFrame` returns one
after the other. -/
def onFrontConnected (frames : List Frame) : ClientM Unit := do
  emit (.out "OnFrontConnected:called.")
  emit (.out "Send: SGClient: Hello World!")
  emit (.sendFrame "SGClient: Hello World!")
  match frames with
  | [] => pure ()
  | f :: fs =>
    modify fun b => b.receive f
    terminate f.payload.length
    printBuffer
    frameLoop fs

def Effect.index : Effect → Option Nat
  | .store i => some i
  | _ => none

def Effect.line : Effect → Option (List UInt8)
  | .received t => some t
  | _ => none

/-- The code stays inside the buffer and prints each frame's own payload. -/
structure Faithful (frames : List Frame) (log : List Effect) : Prop where
  inBounds : ∀ i ∈ log.filterMap Effect.index, i < bufferSize
  printed : log.filterMap Effect.line = frames.map fun f => text f.payload

section faithful
variable {frames : List Frame} {log : List Effect}

theorem faithful_nil : Faithful [] [] := ⟨fun _ member => (List.not_mem_nil member).elim, rfl⟩

theorem faithful_out (line : String) : Faithful frames (.out line :: log) ↔ Faithful frames log :=
  ⟨fun h => ⟨h.inBounds, h.printed⟩, fun h => ⟨h.inBounds, h.printed⟩⟩

theorem faithful_sendFrame (payload : String) : Faithful frames (.sendFrame payload :: log) ↔ Faithful frames log :=
  ⟨fun h => ⟨h.inBounds, h.printed⟩, fun h => ⟨h.inBounds, h.printed⟩⟩

theorem faithful_store (i : Nat) : Faithful frames (.store i :: log) ↔ i < bufferSize ∧ Faithful frames log := by
  constructor
  · rintro ⟨inBounds, printed⟩
    exact ⟨inBounds i List.mem_cons_self, fun k member => inBounds k (List.mem_cons_of_mem _ member), printed⟩
  · rintro ⟨inside, inBounds, printed⟩
    exact ⟨List.forall_mem_cons.mpr ⟨inside, inBounds⟩, printed⟩

theorem faithful_received {f : Frame} (t : List UInt8) :
    Faithful (f :: frames) (.received t :: log) ↔ t = text f.payload ∧ Faithful frames log := by
  constructor
  · rintro ⟨inBounds, printed⟩
    obtain ⟨first, rest⟩ := List.cons.inj printed
    exact ⟨first, inBounds, rest⟩
  · rintro ⟨first, inBounds, rest⟩
    exact ⟨inBounds, List.cons_eq_cons.mpr ⟨first, rest⟩⟩

end faithful

/-- A frame leaves room for the NUL. -/
def Frame.Short (f : Frame) : Prop := f.payload.length < bufferSize

/-- An empty frame follows none with a text. -/
def Fresh (f g : Frame) : Prop := g.payload = [] → text f.payload = []

/-- The buffer holds the text of the frame. -/
structure Buffer.Holds (b : Buffer) (f : Frame) : Prop where
  terminated : Terminated b.bytes
  shown : text b.bytes = text f.payload

section steps
variable {b : Buffer} {f g : Frame}

theorem Buffer.Holds.print (holds : b.Holds f) : printBuffer b = ⟨[.received (text f.payload)], b, .ok ()⟩ := by
  simp [printBuffer, bind_run, holds.terminated, holds.shown]

/-- The NUL is stored right after a short payload. -/
theorem terminate_short (short : f.Short) :
    ∃ c : Buffer, c.Holds f ∧ terminate f.payload.length (b.receive f) = ⟨[.store f.payload.length], c, .ok ()⟩ := by
  have room : f.payload.length < b.bytes.length := by
    rw [b.size]
    exact short
  refine ⟨(b.receive f).set f.payload.length 0, ⟨terminated_overwrite_set room, text_overwrite_set room⟩, ?_⟩
  have inside : f.payload.length < bufferSize := short
  simp [terminate, bind_run, inside]

/-- A payload that fills the buffer has its NUL stored behind the end. -/
theorem terminate_full (full : ¬ f.Short) : terminate f.payload.length (b.receive f) =
    ⟨[.store bufferSize], b.receive f, .error .storeOutside⟩ := by
  have fits := f.fits
  have size : f.payload.length = bufferSize := by
    unfold Frame.Short at full
    omega
  simp [terminate, bind_run, size]

theorem frameBody_short (short : f.Short) (some : f.payload ≠ []) : ∃ c : Buffer, c.Holds f ∧
    frameBody f b = ⟨[.store f.payload.length, .received (text f.payload)], c, .ok ()⟩ := by
  obtain ⟨c, holds, run⟩ := terminate_short (b := b) short
  have positive : 0 < f.payload.length := List.length_pos_iff.mpr some
  refine ⟨c, holds, ?_⟩
  simp [frameBody, bind_run, positive, run, holds.print]

theorem frameBody_full (full : ¬ f.Short) :
    frameBody f b = ⟨[.store bufferSize], b.receive f, .error .storeOutside⟩ := by
  have positive : 0 < f.payload.length := by
    have size : ¬ f.payload.length < bufferSize := full
    have room : 0 < bufferSize := by decide
    omega
  simp [frameBody, bind_run, positive, terminate_full full]

/-- After an empty frame the buffer is what it was, and is printed again. -/
theorem frameBody_empty (holds : b.Holds f) (empty : g.payload = []) :
    frameBody g b = ⟨[.received (text f.payload)], b, .ok ()⟩ := by
  have same : b.receive g = b := by
    unfold Buffer.receive
    congr 1
    rw [empty, overwrite_nil]
  simp [frameBody, bind_run, empty, same, holds.print]

end steps

/-- The frames of the loop, after a frame whose text the buffer holds. -/
theorem frameLoop_faithful {b : Buffer} {f : Frame} (holds : b.Holds f) (fs : List Frame) :
    Faithful fs (frameLoop fs b).log ↔ (∀ g ∈ fs, g.Short) ∧ (f :: fs).IsChain Fresh := by
  induction fs generalizing b f with
  | nil => simp [frameLoop, faithful_nil]
  | cons g fs ih =>
    rw [List.forall_mem_cons, List.isChain_cons_cons]
    by_cases short : g.Short
    · by_cases empty : g.payload = []
      · -- the text of `f` is printed once more, now for `g`
        have none : text g.payload = [] := by
          rw [empty]
          rfl
        have fresh : Fresh f g ↔ text f.payload = [] := ⟨fun h => h empty, fun h _ => h⟩
        rw [frameLoop, bind_run, frameBody_empty holds empty, andThen_ok, List.singleton_append, faithful_received,
          none, fresh]
        by_cases silent : text f.payload = []
        · have held : b.Holds g := ⟨holds.terminated, by rw [holds.shown, silent, none]⟩
          rw [ih held]
          simp only [short, silent, true_and]
        · simp only [silent, false_and, and_false]
      · obtain ⟨c, held, run⟩ := frameBody_short (b := b) short empty
        have fresh : Fresh f g := fun none => absurd none empty
        have inside : g.payload.length < bufferSize := short
        rw [frameLoop, bind_run, run, andThen_ok, List.cons_append, List.singleton_append, faithful_store,
          faithful_received, ih held]
        simp only [short, fresh, inside, true_and]
    · rw [frameLoop, bind_run, frameBody_full short, andThen_error, faithful_store]
      simp only [short, Nat.lt_irrefl, false_and]

/-- Whatever the buffer holds at first, the client stays inside it and prints
the frames it receives exactly if every frame leaves room for the NUL and no
empty frame follows one with a text. -/
theorem frames_faithful (b : Buffer) (frames : List Frame) :
    Faithful frames (onFrontConnected frames b).log ↔ (∀ f ∈ frames, f.Short) ∧ frames.IsChain Fresh := by
  cases frames with
  | nil => simp [onFrontConnected, bind_run, faithful_out, faithful_sendFrame, faithful_nil]
  | cons f fs =>
    rw [List.forall_mem_cons]
    by_cases short : f.Short
    · obtain ⟨c, holds, run⟩ := terminate_short (b := b) short
      have inside : f.payload.length < bufferSize := short
      simp only [onFrontConnected, bind_run, emit_run, modify_run, run, holds.print, andThen_ok, List.cons_append,
        List.nil_append, faithful_out, faithful_sendFrame, faithful_store, faithful_received,
        frameLoop_faithful holds, short, inside, true_and]
    · simp only [onFrontConnected, bind_run, emit_run, modify_run, terminate_full short, andThen_ok, andThen_error,
        List.cons_append, List.nil_append, faithful_out, faithful_sendFrame, faithful_store, short,
        Nat.lt_irrefl, false_and]

/-- A frame with the text "AB", an empty frame, and one that fills the buffer. -/
def textFrame : Frame := ⟨[65, 66], by decide⟩

def emptyFrame : Frame := ⟨[], by decide⟩

def fullFrame : Frame := ⟨List.replicate bufferSize 65, by rw [List.length_replicate]⟩

def Buffer.zero : Buffer := ⟨List.replicate bufferSize 0, List.length_replicate⟩

/-- The text of a frame is printed again for the empty frame after it, and the
NUL of a full frame is stored behind the buffer. -/
theorem frames_stale :
    ¬ Faithful [textFrame, emptyFrame] (onFrontConnected [textFrame, emptyFrame] .zero).log ∧
    ¬ Faithful [fullFrame] (onFrontConnected [fullFrame] .zero).log := by
  refine ⟨fun faithful => ?_, fun faithful => ?_⟩
  · have short : textFrame.payload.length < bufferSize := by decide
    obtain ⟨c, holds, run⟩ := terminate_short (b := .zero) short
    have second := frameBody_empty (g := emptyFrame) holds rfl
    have printed := faithful.printed
    simp only [onFrontConnected, bind_run, emit_run, modify_run, run, holds.print, frameLoop, second, andThen_ok,
      pure_run] at printed
    obtain ⟨again, _⟩ := List.cons.inj (List.cons.inj printed).2
    exact absurd again (by decide)
  · have full : ¬ fullFrame.Short := by simp [Frame.Short, fullFrame]
    have stored : bufferSize < bufferSize := by
      refine faithful.inBounds _ ?_
      simp [onFrontConnected, bind_run, terminate_full full, Effect.index]
    exact absurd stored (Nat.lt_irrefl _)

end MFutures.EchoClient
