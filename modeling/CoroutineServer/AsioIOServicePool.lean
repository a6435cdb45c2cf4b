import CoroutineServer.Lifecycle

/-!
# The pool of io_contexts

`AsioIOServicePool`, `CServer` and the sessions of the server, with the operations that are outstanding on
each context and the threads that run them. `run` of a context returns only when its work guard is gone
and nothing is outstanding. An outstanding accept is work for the context of the acceptor and for the one
its handler is bound to.
-/

namespace CoroutineServer

namespace AsioIOServicePool

open Lifecycle

/-- The size of the pool; `hardware_concurrency` is not zero, or `GetIOService` would divide by it. -/
structure PoolSize where
  size : Nat
  pos : 0 < size

/-- Where the one accept of the server stands, with the session made for it. -/
inductive AcceptPos where
  /-- `async_accept` is outstanding. -/
  | pending (session : Sid)
  /-- It has completed, and `HandleAccept` is ready to run. -/
  | completed (session : Sid) (ok : Bool)
  /-- `HandleAccept` stands before `StartAccept`. -/
  | rearming (session : Sid)
  deriving DecidableEq

/-- Where `Stop` stands: before it resets a guard, or joins a thread. -/
inductive StopPos where
  | notCalled
  | resetting (context : Nat)
  | joining (context : Nat)
  | returned
  deriving DecidableEq

structure Host where
  sessions : Sessions
  /-- The context a session was created on. -/
  contextOf : Sid → Nat
  created : Nat
  nextIOService : Nat
  accept : AcceptPos
  guarded : Nat → Bool
  exited : Nat → Bool
  stop : StopPos

inductive Label where
  | acceptDone (ok : Bool)
  /-- `HandleAccept` runs up to its insertion, and ends with `StartAccept`. -/
  | handleAccept
  | startAccept
  | conn (session : Sid) (act : Act)
  /-- The signal handler calls `Stop`. -/
  | stop
  | resetGuard
  | join
  /-- `run` returns, and the thread of the context ends. -/
  | exit (context : Nat)

/-- The acceptor is the first to ask for a context. -/
def acceptorContext : Nat := 0

variable (pool : PoolSize)

def getIOService (nextIOService : Nat) : Nat := nextIOService % pool.size

/-- `StartAccept` makes a session on the next context and arms an accept for it. -/
def startAccept (host : Host) : Host :=
  { host with
    contextOf := Function.update host.contextOf host.created (getIOService pool host.nextIOService)
    created := host.created + 1
    nextIOService := toSizeT (host.nextIOService + 1)
    accept := .pending host.created }

/-- The server behind the constructor of `CServer`. -/
def Host.initial : Host :=
  startAccept pool
    { sessions := fun _ => .initial
      contextOf := fun _ => 0
      created := 0
      nextIOService := 1
      accept := .rearming 0
      guarded := fun _ => true
      exited := fun _ => false
      stop := .notCalled }

/-! ### What a context still has to do -/

/-- A handler of the session is ready, or runs. -/
def ready (conn : Conn) : Bool :=
  decide (conn.handler ≠ .idle) || decide (conn.coroutine = .spawned) || conn.coroutine.running

/-- A read or a write of the session is outstanding. -/
def outstanding (conn : Conn) : Bool :=
  conn.writing || match conn.coroutine with
    | .readHead => true
    | .readBody _ => true
    | _ => false

/-- `HandleAccept` is ready on a context, or runs there. -/
def Host.acceptReady (host : Host) (context : Nat) : Bool := match host.accept with
  | .pending _ => false
  | .completed session _ => decide (host.contextOf session = context)
  | .rearming session => decide (host.contextOf session = context)

/-- An accept is outstanding that keeps a context at work. -/
def Host.acceptOutstanding (host : Host) (context : Nat) : Bool := match host.accept with
  | .pending session => decide (context = acceptorContext) || decide (host.contextOf session = context)
  | _ => false

def Ready (host : Host) (context : Nat) : Prop :=
  host.acceptReady context = true ∨
    ∃ session < host.created, host.contextOf session = context ∧ ready (host.sessions session) = true

def Outstanding (host : Host) (context : Nat) : Prop :=
  host.acceptOutstanding context = true ∨
    ∃ session < host.created, host.contextOf session = context ∧
      outstanding (host.sessions session) = true

instance (host : Host) (context : Nat) : Decidable (Ready host context) :=
  inferInstanceAs (Decidable (_ ∨ _))

instance (host : Host) (context : Nat) : Decidable (Outstanding host context) :=
  inferInstanceAs (Decidable (_ ∨ _))

/-! ### Steps -/

/-- The acts of the thread of a context, rather than of the worker. -/
def onContext : Act → Bool
  | .push => false
  | .startWrite => false
  | .kick => false
  | .kickStep => false
  | _ => true

def Host.setConn (host : Host) (session : Sid) (conn : Conn) : Host :=
  { host with sessions := Function.update host.sessions session conn }

def step : Label → Host → Option Host
  | .acceptDone ok, host => match host.accept with
      | .pending session =>
          if host.exited acceptorContext then none
          else some { host with accept := .completed session ok }
      | _ => none
  | .handleAccept, host => match host.accept with
      | .completed session ok =>
          if host.exited (host.contextOf session) then none
          else if ok then
            (Lifecycle.step .start (host.sessions session)).map fun conn =>
              { host.setConn session conn with accept := .rearming session }
          else some { host with accept := .rearming session }
      | _ => none
  | .startAccept, host => match host.accept with
      | .rearming session =>
          if (host.sessions session).handler = .inserting then none
          else some (startAccept pool host)
      | _ => none
  | .conn _ .start, _ => none
  | .conn session act, host =>
      if onContext act = true ∧ host.exited (host.contextOf session) = true then none
      else (Lifecycle.step act (host.sessions session)).map (host.setConn session)
  | .stop, host =>
      if host.stop = .notCalled then some { host with stop := .resetting 0 } else none
  | .resetGuard, host => match host.stop with
      | .resetting context => some { host with
          guarded := Function.update host.guarded context false
          stop := if context + 1 < pool.size then .resetting (context + 1) else .joining 0 }
      | _ => none
  | .join, host => match host.stop with
      | .joining context =>
          if host.exited context then some { host with
            stop := if context + 1 < pool.size then .joining (context + 1) else .returned }
          else none
      | _ => none
  | .exit context, host =>
      if host.guarded context = false ∧ ¬ Ready host context ∧ ¬ Outstanding host context then
        some { host with exited := Function.update host.exited context true }
      else none

abbrev Reaches : Host → Prop :=
  Reach.Reaches (step pool) (fun host => host = .initial pool) fun _ _ => True

/-- The states reached later on by steps that meet a condition. -/
abbrev ReachesFrom (ok : Label → Prop) (start : Host) : Host → Prop :=
  Reach.Reaches (step pool) (fun host => host = start) fun label _ => ok label

/-- `Stop` waits for the thread of a context. -/
def Blocked (host : Host) (context : Nat) : Prop :=
  host.stop = .joining context ∧ host.exited context = false

instance (host : Host) (context : Nat) : Decidable (Blocked host context) :=
  inferInstanceAs (Decidable (_ ∧ _))

/-- Steps in which no remote peer has a part. -/
def Local : Label → Prop
  | .acceptDone _ => False
  | .conn _ (.readDone _) => False
  | .conn _ (.writeDone _) => False
  | _ => True

end AsioIOServicePool

end CoroutineServer
