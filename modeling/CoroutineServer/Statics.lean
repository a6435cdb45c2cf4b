import CoroutineServer.System

/-!
# The singletons and the exit of the process

`LogicSystem`, `DBManager` and `UserManager` are function-local statics: constructed by the first
`GetInstance`, and destroyed behind `main` in the reverse order. `Stop` has joined the IO threads by then,
while the worker goes on until `~LogicSystem` has joined it.
-/

namespace CoroutineServer

open Program

namespace Statics

inductive Singleton where
  | logicSystem
  | dbManager
  | userManager
  deriving DecidableEq

/-- The singleton an operation is called on, besides `LogicSystem`. -/
def singleton : Op → Option Singleton
  | .addOnlineUser _ _ => some .userManager
  | .removeOnlineUser _ => some .userManager
  | .getSessionByUid _ => some .userManager
  | .registerUser _ _ => some .dbManager
  | .loginUser _ _ => some .dbManager
  | .addFriend _ _ => some .dbManager
  | .getFriendList _ => some .dbManager
  | .saveMessage _ _ _ _ => some .dbManager
  | .getOfflineMessages _ => some .dbManager
  | .getLoginUid _ => none
  | .setLoginUid _ _ => none
  | .takeLoginUid _ => none
  | .casStop _ => none
  | .loadStop _ _ _ => none
  | .push _ _ _ => none
  | .now => none

inductive Phase where
  | running
  /-- `main` has returned, and the destructors run one by one. -/
  | exiting
  /-- `~LogicSystem` waits for the worker, which drains the queue. -/
  | draining
  deriving DecidableEq

/-- The server with its singletons: those whose construction has completed, the last one first, and those
that have been destroyed. -/
structure Process where
  server : State
  built : List Singleton
  destroyed : List Singleton
  phase : Phase

def Process.initial (db : Db) : Process :=
  { server := .initial db, built := [], destroyed := [], phase := .running }

inductive Label where
  | server (label : CoroutineServer.Label)
  | mainReturns
  /-- The next destructor in the reverse order of construction. -/
  | destroy
  | join

/-- `GetInstance`. A static that has been destroyed is not constructed again. -/
def Process.getInstance (process : Process) (single : Singleton) : Process :=
  if single ∈ process.built ∨ single ∈ process.destroyed then process
  else { process with built := single :: process.built }

/-- The `GetInstance` in front of what a step of the server does. -/
def usedBy (state : State) : CoroutineServer.Label → Option Singleton
  | .post _ => some .logicSystem
  | .work _ => match state.worker with
      | some (.perform op _) => singleton op
      | _ => none
  | .io thread => match state.closers thread with
      | some (session, pos) => singleton (pos.op session)
      | none => none
  | _ => none

/-- The steps that are left when the IO threads have been joined: those of the worker, and of the sessions
that it lets go of. -/
def afterMain : CoroutineServer.Label → Bool
  | .accept _ => false
  | .post _ => false
  | .written _ => false
  | _ => true

def Process.use (process : Process) : Option Singleton → Process
  | none => process
  | some single => process.getInstance single

section Step

variable (platform : Platform)

def step : Label → Process → Option Process
  | .server label, process =>
      if process.phase ≠ .running ∧ afterMain label = false then none
      else (CoroutineServer.step platform label process.server).map fun server =>
        { process.use (usedBy process.server label) with server }
  | .mainReturns, process =>
      if process.phase = .running then some { process with phase := .exiting } else none
  | .destroy, process =>
      if process.phase = .exiting then match process.built with
        | [] => none
        | .logicSystem :: rest => some { process with built := rest, phase := .draining }
        | single :: rest =>
            some { process with built := rest, destroyed := single :: process.destroyed }
      else none
  | .join, process =>
      if process.phase = .draining ∧ process.server.worker.isNone = true ∧
          process.server.msgQue = [] then
        some { process with phase := .exiting, destroyed := .logicSystem :: process.destroyed }
      else none

/-- The process starts on any database that an earlier run can have left. -/
def Initial (process : Process) : Prop := ∃ db : Db, db.WellFormed ∧ process = .initial db

/-- The states of the runs whose steps all meet a condition. -/
abbrev Reaches (ok : Label → Process → Prop) : Process → Prop :=
  Reach.Reaches (step platform) Initial ok

end Step

/-- The handler that runs does not call a singleton that has been destroyed. -/
def CallsAlive (process : Process) : Prop :=
  ∀ op next single, process.server.worker = some (.perform op next) → singleton op = some single →
    single ∉ process.destroyed

/-- Some results of its calls lead a handler to call a singleton. -/
def MayCall (single : Singleton) : Handler Unit → Prop
  | .ret _ => False
  | .throw _ => False
  | .perform op next => singleton op = some single ∨ ∃ result, MayCall single (next result)

end Statics

end CoroutineServer
