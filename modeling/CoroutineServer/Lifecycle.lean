import Mathlib.Logic.Function.Basic
import CoroutineServer.ReadLoop
import CoroutineServer.Server
import CoroutineServer.Library.Reach

/-!
# The life of a session

`HandleAccept`, the read coroutine, `HandleWrite` and the calls of `Close` from the worker thread, for
any number of sessions. The handlers of a session run on the one thread of its `io_context`; the worker
interleaves with them. A read and a write can end in any way at any time, so the socket itself has no
state here, and neither has the login.
-/

namespace CoroutineServer

namespace Lifecycle

/-- Between two steps of `Close(); _server->ClearSession(_uuid);`. Behind the exchange of the stop flag
the rest of `Close` closes the socket and logs the user out. -/
inductive LeavePos where
  | exchange
  | shutdown
  | clear
  deriving DecidableEq

/-- Where the coroutine of `Start` stands. -/
inductive CoroPos where
  | notStarted
  /-- `co_spawn` has been called, and the coroutine has not run. -/
  | spawned
  /-- Before the test of the loop condition. -/
  | loopTest
  /-- Suspended in the read of a header, or of a body. -/
  | readHead
  | readBody (node : RecvNode)
  /-- Before `PostMsgToQue`. -/
  | posting (node : RecvNode)
  | leaving (pos : LeavePos)
  | finished
  deriving DecidableEq

/-- The other handler that runs on the thread of the session: `HandleAccept` between `Start` and the
insertion, or `HandleWrite` after an error. -/
inductive HandlerPos where
  | idle
  | inserting
  | leaving (pos : LeavePos)
  deriving DecidableEq

/-- A session. `registered` says that its uuid is a key of `CServer::_sessions`, `kick` where a `Close`
called from the worker stands, and `sending` that the worker stands before `async_write` in `Send`. -/
structure Conn where
  coroutine : CoroPos
  handler : HandlerPos
  kick : Option LeavePos
  bStop : Bool
  registered : Bool
  sendQue : Nat
  sending : Bool
  writing : Bool
  deriving DecidableEq

def Conn.initial : Conn where
  coroutine := .notStarted
  handler := .idle
  kick := none
  bStop := false
  registered := false
  sendQue := 0
  sending := false
  writing := false

/-- A write has been started and its handler has not returned. -/
def Conn.outstanding (conn : Conn) : Bool := conn.writing || !decide (conn.handler = .idle)

/-- The coroutine holds the thread, rather than being suspended. -/
def CoroPos.running : CoroPos → Bool
  | .loopTest => true
  | .posting _ => true
  | .leaving _ => true
  | _ => false

inductive Act where
  /-- `HandleAccept` calls `Start`, and then inserts the session. -/
  | start
  | insert
  /-- The coroutine takes its next step. -/
  | run
  /-- The pending read completes, `none` for an exception. -/
  | readDone (data : Option Bytes)
  /-- The coroutine throws while it posts. -/
  | throw
  /-- `Send` on the worker pushes a frame, and starts the write if there was none. -/
  | push
  | startWrite
  /-- A write completes, and `HandleWrite` runs; after an error it goes on step by step. -/
  | writeDone (ok : Bool)
  | handle
  /-- The worker calls `Close`, and performs its next step. -/
  | kick
  | kickStep

def LeavePos.step (conn : Conn) : LeavePos → Conn × Option LeavePos
  | .exchange => if conn.bStop then (conn, some .clear) else ({ conn with bStop := true }, some .shutdown)
  | .shutdown => (conn, some .clear)
  | .clear => ({ conn with registered := false }, none)

/-- What follows the read of a header. -/
def afterHead : Option Bytes → CoroPos
  | none => .leaving .exchange
  | some header =>
      if header.length = 0 then .leaving .exchange
      else match headerOutcome header with
        | .reject => .leaving .exchange
        | .throws => .leaving .exchange
        | .readBody node => .readBody node

/-- What follows the read of a body. -/
def afterBody (node : RecvNode) : Option Bytes → CoroPos
  | none => .leaving .exchange
  | some body => if body.length = 0 then .leaving .exchange else .posting (node.complete body)

def runCoroutine (conn : Conn) : Option Conn :=
  match conn.coroutine with
  | .spawned => some { conn with coroutine := .loopTest }
  | .loopTest => some { conn with coroutine := if conn.bStop then .finished else .readHead }
  | .posting _ => some { conn with coroutine := .loopTest }
  | .leaving pos =>
      let (conn, next) := pos.step conn
      some { conn with coroutine := match next with
        | some next => .leaving next
        | none => .finished }
  | _ => none

/-- `HandleWrite` without an error: the frame is popped, and the next one written. -/
def popWritten (conn : Conn) : Conn :=
  match conn.sendQue with
  | n + 2 => { conn with sendQue := n + 1 }
  | _ => { conn with sendQue := 0, writing := false }

def step : Act → Conn → Option Conn
  | .start, conn =>
      if conn.coroutine = .notStarted then some { conn with coroutine := .spawned, handler := .inserting }
      else none
  | .insert, conn =>
      if conn.handler = .inserting then some { conn with registered := true, handler := .idle } else none
  | .run, conn => if conn.handler = .idle then runCoroutine conn else none
  | .readDone data, conn =>
      if conn.handler = .idle then match conn.coroutine with
        | .readHead => some { conn with coroutine := afterHead data }
        | .readBody node => some { conn with coroutine := afterBody node data }
        | _ => none
      else none
  | .throw, conn => match conn.coroutine with
      | .posting _ => some { conn with coroutine := .leaving .exchange }
      | _ => none
  | .push, conn =>
      if conn.coroutine ≠ .notStarted ∧ conn.sending = false then
        some { conn with sendQue := conn.sendQue + 1, sending := decide (conn.sendQue = 0) }
      else none
  | .startWrite, conn =>
      if conn.sending then some { conn with sending := false, writing := true } else none
  | .writeDone ok, conn =>
      if conn.writing = true ∧ conn.handler = .idle ∧ conn.coroutine.running = false then
        if ok then some (popWritten conn)
        else some { conn with writing := false, handler := .leaving .exchange }
      else none
  | .handle, conn => match conn.handler with
      | .leaving pos =>
          let (conn, next) := pos.step conn
          some { conn with handler := match next with
            | some next => .leaving next
            | none => .idle }
      | _ => none
  | .kick, conn =>
      if conn.coroutine ≠ .notStarted ∧ conn.kick = none then some { conn with kick := some .exchange }
      else none
  | .kickStep, conn => match conn.kick with
      | some pos =>
          let (conn, next) := pos.step conn
          some { conn with kick := if next = some .clear then none else next }
      | none => none

/-- The sessions of a server. -/
abbrev Sessions := Sid → Conn

def serverStep : Sid × Act → Sessions → Option Sessions
  | (session, act), sessions =>
      (step act (sessions session)).map (Function.update sessions session)

abbrev Reaches (ok : Sid × Act → Sessions → Prop) : Sessions → Prop :=
  Reach.Reaches serverStep (fun sessions => sessions = fun _ => .initial) ok

end Lifecycle

end CoroutineServer
