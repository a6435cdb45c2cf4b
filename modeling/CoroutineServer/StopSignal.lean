import CoroutineServer.LogicQueue

/-!
# The stop signal

The destructor of `LogicSystem` against `wait(lock, predicate)` on the worker. The worker evaluates the
predicate under the mutex, and releases the mutex and blocks in one step of its own; the destructor writes
the flag and notifies without the mutex, so it can run between the two.
-/

namespace CoroutineServer

namespace StopSignal

open LogicQueue

/-- Where `~LogicSystem` stands. -/
inductive DestructorPos where
  | notCalled
  /-- Past `_b_stop = true`. -/
  | flagSet
  /-- Past `notify_one`, in `join`. -/
  | joining
  | joined
  deriving DecidableEq

/-- The queue with its worker, and the destructor. `parking` says that the worker has found the predicate
false, and still holds the mutex; its position is `testing` meanwhile. -/
structure Signal where
  queue : Queue
  parking : Bool
  destructor : DestructorPos

def Signal.initial : Signal := { queue := .initial, parking := false, destructor := .notCalled }

inductive Label where
  | post (thread : Nat) (msg : LogicNode)
  /-- The predicate of `wait` is evaluated. -/
  | evaluate
  /-- The mutex is released and the worker blocks. -/
  | block
  | take
  | finish (outcome : Outcome)
  | spurious
  | setFlag
  | notify
  /-- `join` returns. -/
  | join

/-- The worker holds the mutex. -/
def Signal.locked (signal : Signal) : Bool :=
  signal.parking || decide (signal.queue.worker = .passed)

def step : Label → Signal → Option Signal
  | .post _ msg, signal =>
      if signal.locked then none
      else some { signal with queue := postMsgToQue msg signal.queue }
  | .evaluate, signal =>
      if signal.queue.worker = .testing ∧ signal.parking = false then
        if ready signal.queue then
          some { signal with queue := { signal.queue with worker := .passed } }
        else some { signal with parking := true }
      else none
  | .block, signal =>
      if signal.parking then some { signal with
        queue := { signal.queue with worker := .blocked }
        parking := false }
      else none
  | .take, signal =>
      if signal.queue.worker = .passed then some { signal with queue := takeFront signal.queue }
      else none
  | .finish _, signal => match signal.queue.worker with
      | .running _ => some { signal with queue := { signal.queue with worker := .testing } }
      | _ => none
  | .spurious, signal =>
      if signal.queue.worker = .blocked then
        some { signal with queue := { signal.queue with worker := .testing } }
      else none
  | .setFlag, signal =>
      if signal.destructor = .notCalled then some { signal with
        queue := { signal.queue with bStop := true }
        destructor := .flagSet }
      else none
  | .notify, signal =>
      if signal.destructor = .flagSet then some { signal with
        queue := notifyOne signal.queue
        destructor := .joining }
      else none
  | .join, signal =>
      if signal.destructor = .joining ∧ signal.queue.worker = .exited then
        some { signal with destructor := .joined }
      else none

/-- The runs whose steps all meet a condition. -/
abbrev Reaches (ok : Label → Signal → Prop) : Signal → Prop :=
  Reach.Reaches step (fun signal => signal = .initial) ok

/-- The destructor waits for a worker that sleeps on a signal which has been given already. -/
def Lost (signal : Signal) : Prop :=
  signal.destructor = .joining ∧ signal.queue.worker = .blocked ∧ signal.queue.bStop = true

instance (signal : Signal) : Decidable (Lost signal) := inferInstanceAs (Decidable (_ ∧ _))

end StopSignal

end CoroutineServer
