import CoroutineServer.LogicSystem
import CoroutineServer.ReadLoop
import CoroutineServer.Library.Reach

/-!
# The running server

One worker thread takes messages off the logic queue and runs their handlers, while IO threads accept
connections, post messages, complete writes and close sessions. A step is one operation of one thread, so
a run is any interleaving of them.
-/

namespace CoroutineServer

open Program CSession

/-- The server between two steps. `worker` is what is left of the running handler, and `closers` the
calls of `Close` in progress on IO threads. -/
structure State where
  world : World
  msgQue : List LogicNode
  worker : Option (Handler Unit)
  closers : Nat → Option (Sid × ClosePos)

namespace State

/-- The server when it starts on a database: no connections, no work. -/
def initial (db : Db) : State where
  world := { db, sessions := fun _ => .fresh, onlineUsers := fun _ => none, history := [] }
  msgQue := []
  worker := none
  closers := fun _ => none

end State

/-- What the read loop posts: an id and a body length it has checked. -/
def Postable (node : LogicNode) : Prop :=
  MSG_HELLO_WORLD ≤ node.msgId ∧ node.msgId ≤ MAX_MSG_ID ∧ 1 ≤ node.data.length ∧
    node.data.length ≤ MAX_LENGTH

instance (node : LogicNode) : Decidable (Postable node) := inferInstanceAs (Decidable (_ ∧ _))

inductive Label where
  /-- `HandleAccept` starts a session. -/
  | accept (session : Sid)
  /-- `PostMsgToQue` for a message the session's read loop has completed. -/
  | post (node : LogicNode)
  /-- `DealMsg` takes the front message and looks up its callback. -/
  | dispatch
  /-- The running handler performs its next operation. -/
  | work (input : Input)
  /-- The running handler returns, or its exception is caught in `DealMsg`. -/
  | finish
  /-- An IO thread calls `Close`, from the read coroutine or from `HandleWrite`. -/
  | closeCall (thread : Nat) (session : Sid)
  /-- An IO thread performs the next operation of its `Close`. -/
  | io (thread : Nat)
  /-- A write completes and its frame is popped. -/
  | written (session : Sid)
  /-- The last owner of a stopped session lets go of it. The model does not count the owners, so this
  can happen at any time after the stop. -/
  | expire (session : Sid)

/-- `Close` asks nothing of the environment. -/
def Input.idle : Input := ⟨.fine, ⟨0, 0, 0, 0, 0, 0⟩⟩

section Step

variable (platform : Platform)

/-- The worker performs an operation and goes on with its result. -/
def workStep (input : Input) (op : Op) (next : op.Ret → Handler Unit) (state : State) : State :=
  let performed := perform platform input op state.world
  { state with
    world := performed.2.record (.did ⟨op, performed.1⟩)
    worker := some (next performed.1) }

/-- An IO thread performs the operation its `Close` stands before. -/
def ioStep (thread : Nat) (session : Sid) (pos : ClosePos) (state : State) : State :=
  let performed := perform platform .idle (pos.op session) state.world
  { state with
    world := performed.2
    closers := Function.update state.closers thread
      ((pos.next session performed.1).map (session, ·)) }

def step : Label → State → Option State
  | .accept session, state =>
      if (state.world.sessions session).started then none
      else some { state with
        world := state.world.updateSession session fun s => { s with started := true } }
  | .post node, state =>
      if (state.world.sessions node.session).started = true ∧ Postable node then
        if state.msgQue.length ≥ MAX_RECVQUE then some state
        else some { state with msgQue := state.msgQue ++ [node] }
      else none
  | .dispatch, state =>
      match state.worker, state.msgQue with
      | none, node :: rest => some { state with
          world := state.world.record (.dispatched node)
          msgQue := rest
          worker := LogicSystem.callback platform node }
      | _, _ => none
  | .work input, state =>
      match state.worker with
      | some (.perform op next) => some (workStep platform input op next state)
      | _ => none
  | .finish, state =>
      match state.worker with
      | some (.ret _) => some { state with worker := none }
      | some (.throw _) => some { state with worker := none }
      | _ => none
  | .closeCall thread session, state =>
      if (state.world.sessions session).started = true ∧ state.closers thread = none then
        some { state with closers := Function.update state.closers thread (some (session, .exchange)) }
      else none
  | .io thread, state =>
      match state.closers thread with
      | some (session, pos) => some (ioStep platform thread session pos state)
      | none => none
  | .written session, state =>
      match (state.world.sessions session).sendQue with
      | [] => none
      | _ :: rest => some { state with
          world := state.world.updateSession session fun s => { s with sendQue := rest } }
  | .expire session, state =>
      if (state.world.sessions session).bStop then some { state with
        world := state.world.updateSession session fun s => { s with expired := true } }
      else none

/-- The server starts on any database that an earlier run can have left. -/
def Initial (state : State) : Prop := ∃ db : Db, db.WellFormed ∧ state = .initial db

/-- The states of the runs whose steps all meet a condition. -/
abbrev Reaches (ok : Label → State → Prop) : State → Prop :=
  Reach.Reaches (step platform) Initial ok

/-- The runs that start on a given database. -/
abbrev ReachesFrom (db : Db) (ok : Label → State → Prop) : State → Prop :=
  Reach.Reaches (step platform) (fun state => state = .initial db) ok

/-- A condition on the operations of the worker and on those of `Close` on IO threads. -/
def OpsMeet (onWorker : Input → Op → State → Prop) (onIo : Sid → Op → State → Prop) :
    Label → State → Prop
  | .work input, state => ∀ op next, state.worker = some (.perform op next) → onWorker input op state
  | .io thread, state => ∀ session pos, state.closers thread = some (session, pos) →
      onIo session (pos.op session) state
  | _, _ => True

/-- The runs in which no SQLite call of the worker fails. -/
abbrev sqliteFine : Label → State → Prop :=
  OpsMeet (fun input _ _ => input.sqlite = .fine) fun _ _ _ => True

end Step

/-! ### What the history says -/

/-- The calls of the handler that runs, or ran last, newest first. -/
def handlerTrace : List Event → CallTrace
  | [] => []
  | .dispatched _ :: _ => []
  | .did call :: earlier => call :: handlerTrace earlier

/-- The message whose handler runs, or ran last. -/
def served : List Event → Option LogicNode
  | [] => none
  | .dispatched node :: _ => some node
  | .did _ :: earlier => served earlier

/-- The user of the last successful login on a session. -/
def lastLogin (session : Sid) : List Event → Option Int
  | [] => none
  | .dispatched _ :: earlier => lastLogin session earlier
  | .did ⟨.loginUser _ _, (true, uid)⟩ :: earlier =>
      if (served earlier).map LogicNode.session = some session then some uid
      else lastLogin session earlier
  | .did _ :: earlier => lastLogin session earlier

/-- A property of an event and the events before it holds all along the history. -/
def Throughout (P : Event → List Event → Prop) : List Event → Prop
  | [] => True
  | event :: earlier => P event earlier ∧ Throughout P earlier

theorem Throughout.mono {P Q : Event → List Event → Prop} {history : List Event}
    (h : Throughout P history) (himp : ∀ event earlier, P event earlier → Q event earlier) :
    Throughout Q history := by
  induction history with
  | nil => trivial
  | cons event earlier ih => exact ⟨himp _ _ h.1, ih h.2⟩

theorem throughout_iff {P : Event → List Event → Prop} {history : List Event} :
    Throughout P history ↔
      ∀ later event earlier, history = later ++ event :: earlier → P event earlier := by
  induction history with
  | nil => simp [Throughout]
  | cons event earlier ih =>
    unfold Throughout
    rw [ih]
    constructor
    · rintro ⟨hhead, htail⟩ later other before heq
      cases later with
      | nil =>
        obtain ⟨rfl, rfl⟩ := List.cons.inj heq
        exact hhead
      | cons first later => exact htail later other before (List.cons.inj heq).2
    · intro h
      exact ⟨h [] event earlier rfl, fun later other before heq =>
        h (event :: later) other before (by rw [heq]; rfl)⟩

end CoroutineServer
