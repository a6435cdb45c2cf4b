import CoroutineServer.System

/-!
# Runs with a log

What an observer writes down of a run: the messages that have arrived on each connection, which of them
wait in the logic queue, which have been dispatched, under which ids they were saved, and the frames that
`async_write` was given for each session. The log is kept from the label and the state before a step, and
no step reads it.
-/

namespace CoroutineServer

open Program

/-- A message by its session and its place among the messages that arrived there. -/
abbrev Arrival := Sid × Nat

/-- The dispatched and the saved messages come newest first, all else oldest first. -/
structure Log where
  arrived : Sid → List (Int × Bytes)
  waiting : List Arrival
  served : List Arrival
  saved : List (Arrival × Int)
  wire : Sid → List Queued

namespace Log

def empty : Log :=
  { arrived := fun _ => [], waiting := [], served := [], saved := [], wire := fun _ => [] }

def write (log : Log) (session : Sid) (frames : List Queued) : Log :=
  { log with wire := Function.update log.wire session (log.wire session ++ frames) }

/-- A message arrives; the logic queue drops it when it is full. -/
def arrive (log : Log) (node : LogicNode) (dropped : Bool) : Log :=
  { log with
    arrived := Function.update log.arrived node.session
      (log.arrived node.session ++ [(node.msgId, node.data)])
    waiting := if dropped then log.waiting
      else log.waiting ++ [(node.session, (log.arrived node.session).length)] }

def dispatch (log : Log) : Log :=
  match log.waiting with
  | [] => log
  | arrival :: rest => { log with waiting := rest, served := arrival :: log.served }

/-- The handler of the message that was dispatched last has made a call. `Send` starts a write when the
queue was empty. -/
def did (log : Log) (world : World) : Call Op Op.Ret → Log
  | ⟨.saveMessage _ _ _ _, (msgId : Int)⟩ =>
      if 0 ≤ msgId then { log with saved := (log.served.take 1).map (·, msgId) ++ log.saved } else log
  | ⟨.push session payload node, (accepted : Bool)⟩ =>
      if accepted = true ∧ (world.sessions session).sendQue.isEmpty then
        log.write session [⟨node, payload⟩]
      else log
  | _ => log

/-- What is written down of a step. When a write completes, that of the next frame is started. -/
def record (platform : Platform) (log : Log) (state : State) : Label → Log
  | .post node => log.arrive node (decide (state.msgQue.length ≥ MAX_RECVQUE))
  | .dispatch => log.dispatch
  | .work input => match state.worker with
      | some (.perform op _) => log.did state.world ⟨op, (perform platform input op state.world).1⟩
      | _ => log
  | .written session => log.write session ((state.world.sessions session).sendQue.tail.take 1)
  | _ => log

end Log

structure Observed where
  state : State
  log : Log

def observe (platform : Platform) (label : Label) (observed : Observed) : Option Observed :=
  (step platform label observed.state).map fun state =>
    { state, log := observed.log.record platform observed.state label }

/-- The states of the runs, each with its log. -/
abbrev Observes (platform : Platform) : Observed → Prop :=
  Reach.Reaches (observe platform) (fun observed => Initial observed.state ∧ observed.log = .empty)
    fun _ _ => True

/-! ### The ids that a frame shows -/

namespace Queued

/-- The frame is the answer to an echo request, with an id and fields of the client's choice. -/
def isEcho (frame : Queued) : Bool :=
  match frame.payload with
  | .echo _ => true
  | _ => false

def idOf (object : Json) : Option Int :=
  match object.index "msg_id" with
  | .ok (.number msgId) => some msgId
  | _ => none

/-- The id in a frame that pushes a message. -/
def pushedId (frame : Queued) : Option Int :=
  if frame.node.msgId = MSG_CHAT_MSG_PUSH then idOf frame.payload.json else none

def batchIds (frame : Queued) : List Int :=
  if frame.node.msgId = MSG_OFFLINE_MSG_RSP then
    match frame.payload.json.index "messages" with
    | .ok (.array items) => items.filterMap idOf
    | _ => []
  else []

end Queued

end CoroutineServer
