import CoroutineServer.ClientLoop

/-!
# One call of `WaitForResponse`

The call beside the receive thread, from any content of `g_recv_queue`. Each round searches the queue under
the mutex, and frames are pushed between the rounds. `g_connected` is read behind the search, which does not
depend on it, so a round is one step.
-/

namespace CoroutineServer.TestClient.WaitForResponse

/-- Where the call stands. -/
inductive Pos where
  /-- Before the first round. -/
  | checking
  /-- In `wait_for`, without a notification. -/
  | waiting
  /-- In `wait_for`, notified. -/
  | woken
  | returned (rsp : Option ReceivedMsg)

/-- The call; `arrived` is what the receive thread has pushed since it began. -/
structure Wait where
  recvQueue : List ReceivedMsg
  connected : Bool
  pos : Pos
  arrived : List ReceivedMsg

inductive Label where
  /-- `push` and `notify_one` of the receive thread. -/
  | arrive (msg : ReceivedMsg)
  /-- `g_connected` becomes false; the notification comes behind it. -/
  | disconnect
  /-- `notify_all`, or a spurious wake-up. -/
  | wake
  | check
  | timeout

namespace Wait

def initial (recvQueue : List ReceivedMsg) (connected : Bool) : Wait :=
  { recvQueue, connected, pos := .checking, arrived := [] }

def notify (wait : Wait) : Wait := match wait.pos with
  | .waiting => { wait with pos := .woken }
  | _ => wait

def push (wait : Wait) (msg : ReceivedMsg) : Wait :=
  { wait with recvQueue := wait.recvQueue ++ [msg], arrived := wait.arrived ++ [msg] }

/-- One round. -/
def search (expected : Int) (wait : Wait) : Wait :=
  let (result, temp) := drain expected wait.recvQueue none []
  let wait := { wait with recvQueue := temp }
  match result with
  | some msg => { wait with pos := .returned (some msg) }
  | none => if wait.connected then { wait with pos := .waiting } else { wait with pos := .returned none }

end Wait

def step (expected : Int) : Label → Wait → Option Wait
  | .arrive msg, wait => match wait.pos with
      | .returned _ => none
      | _ => some (wait.push msg).notify
  | .disconnect, wait => match wait.pos with
      | .returned _ => none
      | _ => some { wait with connected := false }
  | .wake, wait => match wait.pos with
      | .waiting => some wait.notify
      | _ => none
  | .check, wait => match wait.pos with
      | .checking => some (wait.search expected)
      | .woken => some (wait.search expected)
      | _ => none
  | .timeout, wait => match wait.pos with
      -- the status of `wait_for` tells the time, also when the thread was notified
      | .waiting => some { wait with pos := .returned none }
      | .woken => some { wait with pos := .returned none }
      | _ => none

/-- The calls for an id on a queue, by steps that all meet a condition. -/
abbrev Reaches (expected : Int) (recvQueue : List ReceivedMsg) (connected : Bool)
    (ok : Label → Wait → Prop) : Wait → Prop :=
  Reach.Reaches (step expected) (fun wait => wait = .initial recvQueue connected) ok

/-! ### What is to hold -/

/-- `msg` is the earliest message with the id, and `rest` is the queue without it. -/
structure Earliest (expected : Int) (recvQueue : List ReceivedMsg) (msg : ReceivedMsg)
    (rest : List ReceivedMsg) : Prop where
  own : msg.msgId = expected
  split : ∃ earlier later, recvQueue = earlier ++ msg :: later ∧ rest = earlier ++ later ∧
    ∀ other ∈ earlier, other.msgId ≠ expected

/-- A call that has returned has taken the earliest response and nothing else, or nothing at all. -/
def Consumes (expected : Int) (recvQueue : List ReceivedMsg) (wait : Wait) : Prop := match wait.pos with
  | .returned (some msg) => Earliest expected (recvQueue ++ wait.arrived) msg wait.recvQueue
  | .returned none => wait.recvQueue = recvQueue ++ wait.arrived
  | _ => True

/-- The condition: a round does not find two messages with the id. -/
def Single (expected : Int) : Label → Wait → Prop
  | .check, wait => (wait.recvQueue.filter fun msg => decide (msg.msgId = expected)).length ≤ 1
  | _, _ => True

end CoroutineServer.TestClient.WaitForResponse
