import Mathlib.Logic.Function.Basic
import CoroutineServer.MsgNode
import CoroutineServer.Payload
import CoroutineServer.Library.Program

/-!
# The shared state and the steps on it

What the worker thread and the IO threads share: the database, the sessions and the map of online users.
Each operation is what one thread does under one lock, or to one atomic flag, and so takes effect in one
step. The history of the worker's dispatches and operations is kept for the statements about runs; no
operation reads it.
-/

namespace CoroutineServer

open Program

/-- A session object, by the order of acceptance. -/
abbrev Sid := Nat

/-- A frame of the send queue, with the body it was built from. -/
structure Queued where
  node : SendNode
  payload : Payload

/-- What other threads see of a `CSession`. A session is `started` once `HandleAccept` has run, and
`expired` once its last owner has gone. -/
structure Session where
  started : Bool
  bStop : Bool
  loginUid : Int
  sendQue : List Queued
  expired : Bool

def Session.fresh : Session :=
  { started := false, bStop := false, loginUid := 0, sendQue := [], expired := false }

/-- A received message with its session. -/
structure LogicNode where
  session : Sid
  msgId : Int
  data : Bytes
  deriving DecidableEq, Repr

/-! ### The clock -/

/-- The fields of `struct tm` that the time stamp shows. -/
structure Tm where
  year : Nat
  month : Nat
  day : Nat
  hour : Nat
  minute : Nat
  second : Nat
  deriving DecidableEq, Repr

def digit (n : Nat) : UInt8 := UInt8.ofNat (48 + n % 10)

def twoDigits (n : Nat) : Bytes := [digit (n / 10), digit n]

/-- `strftime` with `%Y-%m-%d %H:%M:%S`; the year has four digits. -/
def strftime (tm : Tm) : Bytes :=
  twoDigits (tm.year / 100) ++ twoDigits tm.year ++ ascii "-" ++ twoDigits tm.month ++ ascii "-"
    ++ twoDigits tm.day ++ ascii " " ++ twoDigits tm.hour ++ ascii ":" ++ twoDigits tm.minute
    ++ ascii ":" ++ twoDigits tm.second

theorem digit_lt (n : Nat) : digit n < 0x80 := by
  rw [UInt8.lt_iff_toNat_lt, digit, UInt8.toNat_ofNat']
  have : (0x80 : UInt8).toNat = 128 := rfl
  omega

theorem strftime_valid (tm : Tm) : Utf8.Valid (strftime tm) := by
  have htwo : ∀ n, ∀ byte ∈ twoDigits n, byte < 0x80 := by
    intro n byte hbyte
    rcases List.mem_cons.mp hbyte with rfl | hbyte
    · exact digit_lt _
    · obtain rfl := List.mem_singleton.mp hbyte
      exact digit_lt _
  have hpart : ∀ n, Utf8.Valid (twoDigits n) := fun n => .of_ascii (htwo n)
  have hseparator : ∀ {text : String}, (∀ byte ∈ ascii text, byte < 0x80) →
      Utf8.Valid (ascii text) := fun h => .of_ascii h
  unfold strftime
  refine Utf8.Valid.append ?_ (hpart _)
  refine Utf8.Valid.append ?_ (hseparator (by decide))
  refine Utf8.Valid.append ?_ (hpart _)
  refine Utf8.Valid.append ?_ (hseparator (by decide))
  refine Utf8.Valid.append ?_ (hpart _)
  refine Utf8.Valid.append ?_ (hseparator (by decide))
  refine Utf8.Valid.append ?_ (hpart _)
  refine Utf8.Valid.append ?_ (hseparator (by decide))
  refine Utf8.Valid.append ?_ (hpart _)
  exact ((hpart _).append (hpart _)).append (hseparator (by decide))

/-! ### Operations -/

inductive Op where
  | getLoginUid (session : Sid)
  | setLoginUid (session : Sid) (uid : Int)
  /-- `Close` under `_login_mutex`: the uid is copied out and reset. -/
  | takeLoginUid (session : Sid)
  /-- `_b_stop.compare_exchange_strong(expected, true)`. -/
  | casStop (session : Sid)
  /-- `_b_stop.load` at the head of `Send`, with what is to be sent. -/
  | loadStop (session : Sid) (payload : Payload) (msgid : Int)
  /-- The rest of `Send` under `_mutex`: the size check and the push. -/
  | push (session : Sid) (payload : Payload) (node : SendNode)
  | addOnlineUser (uid : Int) (session : Sid)
  | removeOnlineUser (uid : Int)
  | getSessionByUid (uid : Int)
  | registerUser (username password : Bytes)
  | loginUser (username password : Bytes)
  | addFriend (uid friendUid : Int)
  | getFriendList (uid : Int)
  | saveMessage (fromUid toUid : Int) (content timestamp : Bytes)
  | getOfflineMessages (uid : Int)
  | now

abbrev Op.Ret : Op → Type
  | .getLoginUid _ => Int
  | .setLoginUid _ _ => Unit
  | .takeLoginUid _ => Int
  | .casStop _ => Bool
  | .loadStop _ _ _ => Bool
  | .push _ _ _ => Bool
  | .addOnlineUser _ _ => Unit
  | .removeOnlineUser _ => Unit
  | .getSessionByUid _ => Option Sid
  | .registerUser _ _ => Bool
  | .loginUser _ _ => Bool × Int
  | .addFriend _ _ => Bool
  | .getFriendList _ => List Int
  | .saveMessage _ _ _ _ => Int
  | .getOfflineMessages _ => List MessageRow
  | .now => Tm

abbrev Handler := Prog Op Op.Ret Exn

abbrev call (op : Op) : Handler op.Ret := Prog.call op

abbrev CallTrace := Trace Op Op.Ret

/-- An event of the worker thread: it takes a message off the queue, or performs an operation. -/
inductive Event where
  | dispatched (node : LogicNode)
  | did (call : Call Op Op.Ret)

/-- The shared state. The history is the worker's, newest event first. -/
structure World where
  db : Db
  sessions : Sid → Session
  onlineUsers : Int → Option Sid
  history : List Event

namespace World

def updateSession (world : World) (session : Sid) (change : Session → Session) : World :=
  { world with sessions := Function.update world.sessions session (change (world.sessions session)) }

def record (world : World) (event : Event) : World :=
  { world with history := event :: world.history }

end World

/-- What the environment decides in one step: the outcome of the SQLite calls, and the time. -/
structure Input where
  sqlite : Sqlite
  tm : Tm

namespace UserManager

/-- `_online_users[uid] = session`, refused for a uid that is not positive. -/
def addOnlineUser (uid : Int) (session : Sid) (world : World) : World :=
  if uid ≤ 0 then world
  else { world with onlineUsers := Function.update world.onlineUsers uid (some session) }

def removeOnlineUser (uid : Int) (world : World) : World :=
  if uid ≤ 0 then world
  else { world with onlineUsers := Function.update world.onlineUsers uid none }

/-- An expired entry is erased on the way. -/
def getSessionByUid (uid : Int) (world : World) : Option Sid × World :=
  if uid ≤ 0 then (none, world)
  else match world.onlineUsers uid with
    | none => (none, world)
    | some session =>
        if (world.sessions session).expired then
          (none, { world with onlineUsers := Function.update world.onlineUsers uid none })
        else (some session, world)

end UserManager

/-- The locked part of `Send`: a full queue drops the frame. -/
def pushFrame (session : Sid) (frame : Queued) (world : World) : Bool × World :=
  if (world.sessions session).sendQue.length > MAX_SENDQUE then (false, world)
  else (true, world.updateSession session fun s => { s with sendQue := s.sendQue ++ [frame] })

/-- **One step of a thread on the shared state.** -/
def perform (platform : Platform) (input : Input) : (op : Op) → World → op.Ret × World
  | .getLoginUid session, world => ((world.sessions session).loginUid, world)
  | .setLoginUid session uid, world =>
      ((), world.updateSession session fun s => { s with loginUid := uid })
  | .takeLoginUid session, world =>
      ((world.sessions session).loginUid, world.updateSession session fun s => { s with loginUid := 0 })
  | .casStop session, world =>
      (!(world.sessions session).bStop, world.updateSession session fun s => { s with bStop := true })
  | .loadStop session _ _, world => ((world.sessions session).bStop, world)
  | .push session payload node, world => pushFrame session ⟨node, payload⟩ world
  | .addOnlineUser uid session, world => ((), UserManager.addOnlineUser uid session world)
  | .removeOnlineUser uid, world => ((), UserManager.removeOnlineUser uid world)
  | .getSessionByUid uid, world => UserManager.getSessionByUid uid world
  | .registerUser username password, world =>
      let (ok, db) := DBManager.registerUser platform input.sqlite username password world.db
      (ok, { world with db })
  | .loginUser username password, world =>
      (DBManager.loginUser platform input.sqlite username password world.db, world)
  | .addFriend uid friendUid, world =>
      let (ok, db) := DBManager.addFriend input.sqlite uid friendUid world.db
      (ok, { world with db })
  | .getFriendList uid, world => (DBManager.getFriendList input.sqlite uid world.db, world)
  | .saveMessage fromUid toUid content timestamp, world =>
      let (msgId, db) :=
        DBManager.saveMessage input.sqlite fromUid toUid content timestamp world.db
      (msgId, { world with db })
  | .getOfflineMessages uid, world =>
      let (rows, db) := DBManager.getOfflineMessages input.sqlite uid world.db
      (rows, { world with db })
  | .now, world => (input.tm, world)

end CoroutineServer
