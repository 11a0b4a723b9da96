import MFutures.Bridge
import MFutures.Lib.Relational

namespace MFutures
open Handler Bridge

section agreement
variable {lib : Lib} {env : Env} {R : Bridge → Bridge → Prop} {L : Comparison Output}

/-- Related states of the bridge have the same websocket side, and neither it nor
a teardown can tell them apart. -/
structure Watches (R : Bridge → Bridge → Prop) (L : Comparison Output) : Prop where
  net : ∀ {b b'}, R b b' → b.net = b'.net
  main : ∀ line, L.rel [.main line] [.main line]
  onNet : ∀ {α} (x : NetM α), Agrees R L (onNet x) (onNet x)
  teardown : Agrees R L releaseTrader releaseTrader

theorem attemptFailed_agrees (lib : Lib) (env : Env) (watches : Watches R L) :
    Agrees R L (attemptFailed lib env) (attemptFailed lib env) := by
  refine .get_bind fun b b' related => ?_
  rw [watches.net related]
  match b'.net.loops with
  | [] => exact .pure _
  | [_] =>
    exact .bind (watches.onNet _) fun _ => .bind watches.teardown fun _ => .bind (watches.onNet _) fun _ =>
      watches.onNet _
  | _ :: l :: ls =>
    exact .bind (.bind (watches.onNet _) fun _ => .bind (watches.onNet _) fun _ => watches.teardown) fun _ =>
      watches.onNet _

theorem connection_agrees (lib : Lib) (env : Env) (watches : Watches R L) {event : Event}
    (connection : event = .opened ∨ event = .closed ∨ event = .failed) :
    Agrees R L (handle lib (env, event)) (handle lib (env, event)) := by
  rcases connection with rfl | rfl | rfl
  · exact .bind (watches.onNet _) fun _ => watches.onNet _
  · exact .bind (watches.onNet _) fun _ => .bind (watches.onNet _) fun _ => .bind watches.teardown fun _ =>
      .bind (watches.onNet _) fun _ => watches.onNet _
  · exact .bind (watches.onNet _) fun _ => attemptFailed_agrees lib env watches

/-- A message is read the same from related states. -/
theorem message_agrees (watches : Watches R L) {payload : String}
    (branch : ∀ c root type, readStrJson lib payload = .ok root → reqType lib root = .ok type →
      Agrees R L (dispatch lib env c c root type) (dispatch lib env c c root type)) :
    Agrees R L (handle lib (env, .message payload)) (handle lib (env, .message payload)) := by
  refine .get_bind fun b b' related => ?_
  rw [watches.net related]
  cases b'.net.loops with
  | nil => exact .pure _
  | cons l ls =>
    refine .ofExcept_bind fun root read => .ofExcept_bind fun type ofType => .bind ?_ fun _ =>
      branch l.client root type read ofType
    unfold echo
    split
    · exact .emit (watches.main _)
    · exact .pure _

end agreement

end MFutures
