import CoroutineServer.Server

/-!
# Sending and closing

`CSession::Send` and `CSession::Close` as programs over the shared steps. The worker calls both; an IO
thread calls `Close` when a read or a write ends a connection, one step at a time, so the places where
`Close` can stand between two steps have names.
-/

namespace CoroutineServer

open Program

namespace CSession

/-- `Send(rsp.dump(), msgid)`. The node is built before the queue is looked at, which makes no
difference as its constructor does not throw for a length in range. -/
def send (platform : Platform) (session : Sid) (payload : Payload) (msgid : Int) : Handler Unit := do
  let msg ← Prog.ofExcept (platform.dump payload.json)
  let stopped ← call (.loadStop session payload msgid)
  if stopped = true then return ()
  match sendNode msg msgid with
  | none => return ()
  | some (.error _) => .throw (ascii "vector too long")
  | some (.ok node) => do
      let _ ← call (.push session payload node)
      return ()

/-- Between two steps of `Close`: before the exchange of the stop flag, before the login uid is taken
(the socket is closed on the way there), and before the uid that was taken is removed. -/
inductive ClosePos where
  | exchange
  | take
  | remove (uid : Int)
  deriving DecidableEq, Repr

namespace ClosePos

def op (session : Sid) : ClosePos → Op
  | .exchange => .casStop session
  | .take => .takeLoginUid session
  | .remove uid => .removeOnlineUser uid

/-- Where `Close` stands after its next step, `none` when it returns. -/
def next (session : Sid) : (pos : ClosePos) → (pos.op session).Ret → Option ClosePos
  | .exchange, (exchanged : Bool) => if exchanged then some .take else none
  | .take, (uid : Int) => if uid = 0 then none else some (.remove uid)
  | .remove _, _ => none

end ClosePos

def close (session : Sid) : Handler Unit := do
  let exchanged ← call (.casStop session)
  if exchanged = false then return ()
  let uid ← call (.takeLoginUid session)
  if uid = 0 then return ()
  call (.removeOnlineUser uid)

/-- What is left of `close` at a position. -/
def closeFrom (session : Sid) : ClosePos → Handler Unit
  | .exchange => close session
  | .take => do
      let uid ← call (.takeLoginUid session)
      if uid = 0 then return ()
      call (.removeOnlineUser uid)
  | .remove uid => call (.removeOnlineUser uid)

/-- The positions are those of the program: one step of it is the operation at the position, and the
rest is what is left at the next one. -/
theorem closeFrom_eq (session : Sid) (pos : ClosePos) :
    closeFrom session pos = .perform (pos.op session) fun result =>
      match pos.next session result with
      | none => .ret ()
      | some pos => closeFrom session pos := by
  cases pos with
  | exchange =>
    refine congrArg (@Prog.perform Op Op.Ret Exn Unit (.casStop session)) (funext fun exchanged => ?_)
    cases exchanged <;> rfl
  | take =>
    refine congrArg (@Prog.perform Op Op.Ret Exn Unit (.takeLoginUid session)) (funext fun uid => ?_)
    unfold ClosePos.next
    by_cases huid : uid = 0
    · simp only [huid, if_true]
      rfl
    · simp only [huid, if_false]
      exact if_neg huid
  | remove uid => rfl

end CSession

end CoroutineServer
