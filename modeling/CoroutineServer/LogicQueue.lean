import CoroutineServer.Server
import CoroutineServer.Library.Reach

/-!
# The logic queue

`PostMsgToQue` on any number of threads, `DealMsg` on the worker thread and the destructor, with their
mutex, condition variable and stop flag. A step is one section under the mutex, except that `DealMsg`
reads the flag twice in one section while the destructor sets it without the mutex.
-/

namespace CoroutineServer

namespace LogicQueue

/-- Where `DealMsg` stands. -/
inductive WorkerPos where
  /-- About to take the mutex and test the predicate of `wait`: at the head of the loop, or woken up. -/
  | testing
  /-- In `wait`, without a notification. -/
  | blocked
  /-- Behind `wait`, holding the mutex. -/
  | passed
  /-- Past the section, with a message taken. -/
  | running (msg : LogicNode)
  | exited
  /-- `front` was called on an empty queue, which is undefined. -/
  | undefinedFront
  deriving DecidableEq

/-- How the loop body ends for a message. -/
inductive Outcome where
  | unregistered
  | returned
  | threw (what : Exn)

/-- The shared state, with the messages accepted and taken so far. -/
structure Queue where
  msgQue : List LogicNode
  bStop : Bool
  worker : WorkerPos
  accepted : List LogicNode
  taken : List LogicNode

def Queue.initial : Queue :=
  { msgQue := [], bStop := false, worker := .testing, accepted := [], taken := [] }

inductive Label where
  | post (thread : Nat) (msg : LogicNode)
  | test
  | take
  | finish (outcome : Outcome)
  | spurious
  /-- The destructor sets the flag, and then notifies. -/
  | stop
  | stopNotify

/-- `_consume.notify_one()`; nobody but the worker waits. -/
def notifyOne (queue : Queue) : Queue :=
  if queue.worker = .blocked then { queue with worker := .testing } else queue

def postMsgToQue (msg : LogicNode) (queue : Queue) : Queue :=
  if queue.msgQue.length ≥ MAX_RECVQUE then queue
  else
    let pushed := { queue with
      msgQue := queue.msgQue ++ [msg]
      accepted := queue.accepted ++ [msg] }
    if pushed.msgQue.length = 1 then notifyOne pushed else pushed

/-- The predicate of `wait`. -/
def ready (queue : Queue) : Bool := !queue.msgQue.isEmpty || queue.bStop

/-- The rest of the section: the loop is left, or the front message is taken. -/
def takeFront (queue : Queue) : Queue :=
  match queue.msgQue with
  | [] => { queue with worker := if queue.bStop then .exited else .undefinedFront }
  | msg :: rest => { queue with
      msgQue := rest
      worker := .running msg
      taken := queue.taken ++ [msg] }

def step : Label → Queue → Option Queue
  | .post _ msg, queue => if queue.worker = .passed then none else some (postMsgToQue msg queue)
  | .test, queue =>
      if queue.worker = .testing then
        some { queue with worker := if ready queue then .passed else .blocked }
      else none
  | .take, queue => if queue.worker = .passed then some (takeFront queue) else none
  | .finish _, queue => match queue.worker with
      | .running _ => some { queue with worker := .testing }
      | _ => none
  | .spurious, queue =>
      if queue.worker = .blocked then some { queue with worker := .testing } else none
  | .stop, queue => some { queue with bStop := true }
  | .stopNotify, queue => if queue.bStop then some (notifyOne queue) else none

abbrev Reaches : Queue → Prop := Reach.Reaches step (fun queue => queue = .initial) fun _ _ => True

end LogicQueue

end CoroutineServer
