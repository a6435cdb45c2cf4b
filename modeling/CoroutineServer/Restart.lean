import CoroutineServer.Calls
import CoroutineServer.Service

/-!
# The lives of the server

The process can end wherever its threads stand, in the middle of a handler too, and be started again on the
same file. What is in memory is gone; the tables are as the last statement left them, as each statement is
a transaction of its own. The calls on the database are written down across all lives.
-/

namespace CoroutineServer

open Program

/-- `CreateTables` on the file that `sqlite3_open` has opened, `none` for one without tables. Tables that
exist are left alone. -/
def DBManager.createTables (file : Option Db) : Db := file.getD .empty

/-- The server in one of its lives, and the calls of the lives before. -/
structure Chronicle where
  state : State
  past : DbTrace

namespace Chronicle

def db (chronicle : Chronicle) : Db := chronicle.state.world.db

/-- All calls on the database so far, newest first. -/
def calls (chronicle : Chronicle) : DbTrace :=
  dbTrace chronicle.state.world.history ++ chronicle.past

/-- The first start, on a file without tables. -/
def first : Chronicle where
  state := .initial (DBManager.createTables none)
  past := []

def restarted (chronicle : Chronicle) : Chronicle where
  state := .initial (DBManager.createTables (some chronicle.db))
  past := chronicle.calls

end Chronicle

inductive LifeLabel where
  | server (label : Label)
  | restart

def lifeStep (platform : Platform) : LifeLabel → Chronicle → Option Chronicle
  | .server label, chronicle =>
      (step platform label chronicle.state).map fun state => { chronicle with state }
  | .restart, chronicle => some chronicle.restarted

/-- The chronicles of a server that is first started on a new file. -/
abbrev Chronicles (platform : Platform) : Chronicle → Prop :=
  Reach.Reaches (lifeStep platform) (fun chronicle => chronicle = .first) fun _ _ => True

/-- What can follow on a chronicle, in this life or a later one, by steps that meet a condition. -/
abbrev ChroniclesFrom (platform : Platform) (ok : LifeLabel → Chronicle → Prop) (chronicle : Chronicle) :
    Chronicle → Prop :=
  Reach.Reaches (lifeStep platform) (fun other => other = chronicle) ok

/-! ### The tables as a service -/

def MessageRow.letter (row : MessageRow) : Service.Letter (Bytes × Bytes) :=
  ⟨row.msgId, row.fromUid, row.content, row.timestamp⟩

/-- Accounts by name, friendships in both directions, and what waits for each user. -/
def Db.service (db : Db) : Service Bytes Bytes (Bytes × Bytes) where
  account name := (db.users.find? fun user => user.username = name).map fun user =>
    (user.uid, user.passwordHash)
  friends uid friendUid := ∃ row ∈ db.friends, DBManager.areFriends uid friendUid row = true
  mailbox uid := (db.messages.filter (DBManager.undelivered uid)).map MessageRow.letter
  lastUser := db.lastUid
  lastLetter := db.lastMsgId

section Requests

variable (platform : Platform)

/-- A method of `DBManager` as a request. Texts are bound up to their first NUL. -/
def DbOp.request : DbOp → Service.Request Bytes Bytes (Bytes × Bytes)
  | .registerUser username password =>
      .register (cstr username) (DBManager.simpleHash platform password)
  | .loginUser username password => .signIn (cstr username) (DBManager.simpleHash platform password)
  | .addFriend uid friendUid => .befriend uid friendUid
  | .getFriendList uid => .listFriends uid
  | .saveMessage fromUid toUid content timestamp =>
      .post fromUid toUid (cstr content, cstr timestamp)
  | .getOfflineMessages uid => .collect uid

def DbOp.reply : (op : DbOp) → op.Ret → Service.Reply (op.request platform)
  | .registerUser _ _, ok => ok
  | .loginUser _ _, (ok, uid) => if ok then some uid else none
  | .addFriend _ _, ok => ok
  | .getFriendList _, friends => friends
  | .saveMessage _ _ _ _, (msgId : Int) => if 0 ≤ msgId then some msgId else none
  | .getOfflineMessages _, rows => rows.map MessageRow.letter

def requestOf (call : DbCall) : Call (Service.Request Bytes Bytes (Bytes × Bytes)) Service.Reply :=
  ⟨call.1.request platform, call.1.reply platform call.2⟩

end Requests

end CoroutineServer
