import CoroutineServer.LogicQueue
import CoroutineServer.SendQueue

/-!
# The bounded queues

The logic queue and the send queues of all sessions. They have no lock in common, so each step is a step of
one of them, and a run is any interleaving.
-/

namespace CoroutineServer

structure Queues where
  logic : LogicQueue.Queue
  channels : Sid → SendQueue.Channel

namespace Queues

def initial : Queues := { logic := .initial, channels := fun _ => .initial }

inductive Label where
  | logic (label : LogicQueue.Label)
  | channel (session : Sid) (label : SendQueue.Label)

def setChannel (queues : Queues) (session : Sid) (channel : SendQueue.Channel) : Queues :=
  { queues with channels := Function.update queues.channels session channel }

def step : Label → Queues → Option Queues
  | .logic label, queues => (LogicQueue.step label queues.logic).map fun logic => { queues with logic }
  | .channel session label, queues =>
      (SendQueue.step label (queues.channels session)).map (queues.setChannel session)

abbrev Reaches (ok : Label → Queues → Prop) : Queues → Prop :=
  Reach.Reaches step (fun queues => queues = .initial) ok

/-! ### The limits -/

/-- The logic queue is within its limit, and the send queues are within a given one. -/
structure Within (limit : Nat) (queues : Queues) : Prop where
  msgQue : queues.logic.msgQue.length ≤ MAX_RECVQUE
  sendQue : ∀ session, (queues.channels session).sendQue.length ≤ limit

/-- A post, or a section of `Send`, that does not add its message to the queue. -/
def Dropped : Label → Queues → Queues → Prop
  | .logic (.post _ _), queues, queues' => queues'.logic.accepted = queues.logic.accepted
  | .channel session (.push _), queues, queues' =>
      (queues'.channels session).accepted = (queues.channels session).accepted
  | _, _, _ => False

/-- The queue of the label holds exactly its limit, which is a given one for the send queues. -/
def Full (limit : Nat) : Label → Queues → Prop
  | .logic _, queues => queues.logic.msgQue.length = MAX_RECVQUE
  | .channel session _, queues => (queues.channels session).sendQue.length = limit

/-- The condition: no section of `Send` finds the queue at its limit. -/
def Roomy : Label → Queues → Prop
  | .channel session (.push _), queues => (queues.channels session).sendQue.length ≠ MAX_SENDQUE
  | _, _ => True

end Queues

end CoroutineServer
