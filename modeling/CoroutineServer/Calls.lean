import CoroutineServer.System

/-!
# Sequences of calls on the database

The methods of `DBManager` as operations, and the sequences of calls that the threads of the server can
make on a database, newest call first. The history of a run without SQLite failures contains one.
-/

namespace CoroutineServer

open Program

inductive DbOp where
  | registerUser (username password : Bytes)
  | loginUser (username password : Bytes)
  | addFriend (uid friendUid : Int)
  | getFriendList (uid : Int)
  | saveMessage (fromUid toUid : Int) (content timestamp : Bytes)
  | getOfflineMessages (uid : Int)

abbrev DbOp.Ret : DbOp → Type
  | .registerUser _ _ => Bool
  | .loginUser _ _ => Bool × Int
  | .addFriend _ _ => Bool
  | .getFriendList _ => List Int
  | .saveMessage _ _ _ _ => Int
  | .getOfflineMessages _ => List MessageRow

def DbOp.credentials : DbOp → Option (Bytes × Bytes)
  | .registerUser username password => some (username, password)
  | .loginUser username password => some (username, password)
  | _ => none

abbrev DbTrace := Trace DbOp DbOp.Ret

abbrev DbCall := Call DbOp DbOp.Ret

/-- The tables that `CreateTables` leaves in a new database. -/
def Db.empty : Db :=
  { users := [], friends := [], messages := [], lastUid := 0, lastFriendId := 0, lastMsgId := 0 }

theorem Db.empty_wellFormed : Db.empty.WellFormed where
  uid_pos := fun user huser => by cases huser
  lastUid_nonneg := by decide
  lastMsgId_nonneg := by decide
  msgId_le := fun row hrow => by cases hrow
  msgId_ascending := .nil
  content_valid := fun row hrow => by cases hrow
  timestamp_valid := fun row hrow => by cases hrow

section Calls

variable (platform : Platform)

/-- One call, none of whose SQLite calls fails. -/
def DbOp.perform : (op : DbOp) → Db → op.Ret × Db
  | .registerUser username password, db =>
      DBManager.registerUser platform .fine username password db
  | .loginUser username password, db =>
      (DBManager.loginUser platform .fine username password db, db)
  | .addFriend uid friendUid, db => DBManager.addFriend .fine uid friendUid db
  | .getFriendList uid, db => (DBManager.getFriendList .fine uid db, db)
  | .saveMessage fromUid toUid content timestamp, db =>
      DBManager.saveMessage .fine fromUid toUid content timestamp db
  | .getOfflineMessages uid, db => DBManager.getOfflineMessages .fine uid db

def Answers (op : DbOp) (db : Db) (result : op.Ret) (db' : Db) : Prop :=
  op.perform platform db = (result, db')

/-- The database after a sequence of calls, with the results they returned. -/
abbrev Called (start : Db) : DbTrace → Db → Prop := Performed (Answers platform) start

/-- A list of operations, performed from its end on, as a trace is ordered. -/
def runCalls (start : Db) : List DbOp → DbTrace × Db
  | [] => ([], start)
  | op :: earlier =>
      let before := runCalls start earlier
      let performed := op.perform platform before.2
      (⟨op, performed.1⟩ :: before.1, performed.2)

end Calls

variable {platform : Platform}

theorem called_runCalls (platform : Platform) (start : Db) (ops : List DbOp) :
    Called platform start (runCalls platform start ops).1 (runCalls platform start ops).2 := by
  induction ops with
  | nil => exact .nil
  | cons op earlier ih => exact .cons ih rfl

theorem called_unique {start db db' : Db} {trace : DbTrace}
    (hcalled : Called platform start trace db) (hcalled' : Called platform start trace db') :
    db = db' := by
  induction hcalled generalizing db' with
  | nil =>
    cases hcalled'
    rfl
  | cons _ hanswers ih =>
    cases hcalled' with
    | cons hcalled' hanswers' =>
      obtain rfl := ih hcalled'
      exact (Prod.mk.inj (hanswers.symm.trans hanswers')).2

theorem called_at {start db : Db} {later earlier : DbTrace} {op : DbOp} {result : op.Ret}
    (hcalled : Called platform start (later ++ ⟨op, result⟩ :: earlier) db) :
    ∃ before after, Called platform start earlier before ∧ Answers platform op before result after := by
  obtain ⟨after, hafter, -⟩ := hcalled.split
  cases hafter with
  | cons hbefore hanswers => exact ⟨_, after, hbefore, hanswers⟩

/-- A part of the tables that a method keeps is the same after the call. -/
theorem kept_of_answers {α : Type} (part : Db → α) {op : DbOp} {result : op.Ret} {db db' : Db}
    (hanswers : Answers platform op db result db')
    (hkept : part (op.perform platform db).2 = part db) : part db' = part db := by
  unfold Answers at hanswers
  rwa [hanswers] at hkept

/-- A part of the tables that does not see the messages is kept by all methods but the two that insert a
user or a friendship. -/
theorem kept_by_perform {α : Type} (part : Db → α)
    (hmessages : ∀ (db : Db) messages lastMsgId, part { db with messages, lastMsgId } = part db) (op : DbOp)
    (db : Db) (hregister : ∀ username password, op ≠ .registerUser username password)
    (hfriend : ∀ uid friendUid, op ≠ .addFriend uid friendUid) :
    part (op.perform platform db).2 = part db := by
  cases op with
  | registerUser username password => exact absurd rfl (hregister username password)
  | addFriend uid friendUid => exact absurd rfl (hfriend uid friendUid)
  | loginUser | getFriendList => rfl
  | saveMessage fromUid toUid content timestamp =>
    rw [DbOp.perform]
    rcases DBManager.saveMessage_cases .fine db fromUid toUid content timestamp with h | h <;> rw [h]
    exact hmessages db _ _
  | getOfflineMessages uid =>
    rw [DbOp.perform]
    rcases DBManager.getOfflineMessages_cases .fine db uid with h | ⟨-, h⟩ <;> rw [h]
    exact hmessages db _ _

theorem mem_of_mem_runCalls {start : Db} {ops : List DbOp} {call : DbCall}
    (h : call ∈ (runCalls platform start ops).1) : call.1 ∈ ops := by
  induction ops with
  | nil => cases h
  | cons op earlier ih =>
    rcases List.mem_cons.mp h with rfl | h
    · exact List.mem_cons_self
    · exact List.mem_cons_of_mem _ (ih h)

/-! ### The methods when nothing fails -/

namespace DBManager

variable {db : Db}

theorem registerUser_fine {username password : Bytes} (husername : username ≠ [])
    (hpassword : password ≠ []) :
    registerUser platform .fine username password db
      = if cstr username ∈ db.users.map UserRow.username then (false, db)
        else (true, { db with
          users := db.users ++ [⟨db.lastUid + 1, cstr username, simpleHash platform password⟩]
          lastUid := db.lastUid + 1 }) := by
  unfold registerUser insertUser
  rw [if_neg (by simp [husername, hpassword]), if_neg (by simp [Sqlite.fine])]
  by_cases hknown : cstr username ∈ db.users.map UserRow.username
  · rw [if_pos ⟨rfl, hknown⟩, if_pos hknown]
  · rw [if_neg (fun h => hknown h.2), if_neg (by simp [Sqlite.fine]), if_neg, if_neg hknown]
    rintro (h | h)
    · cases h
    · exact hknown h

theorem loginUser_fine {username password : Bytes} (husername : username ≠ [])
    (hpassword : password ≠ []) :
    loginUser platform .fine username password db
      = match db.users.find? fun user => user.username = cstr username with
        | none => (false, 0)
        | some user =>
            if simpleHash platform password = user.passwordHash then (true, user.uid)
            else (false, 0) := by
  unfold loginUser
  rw [if_neg (by simp [husername, hpassword])]
  exact if_neg (by simp [Sqlite.fine])

end DBManager

/-! ### The calls of a run -/

/-- The call on the database that an operation of the worker is. -/
def dbCall : Call Op Op.Ret → Option DbCall
  | ⟨.registerUser username password, ok⟩ => some ⟨.registerUser username password, ok⟩
  | ⟨.loginUser username password, result⟩ => some ⟨.loginUser username password, result⟩
  | ⟨.addFriend uid friendUid, ok⟩ => some ⟨.addFriend uid friendUid, ok⟩
  | ⟨.getFriendList uid, friends⟩ => some ⟨.getFriendList uid, friends⟩
  | ⟨.saveMessage fromUid toUid content timestamp, msgId⟩ =>
      some ⟨.saveMessage fromUid toUid content timestamp, msgId⟩
  | ⟨.getOfflineMessages uid, rows⟩ => some ⟨.getOfflineMessages uid, rows⟩
  | _ => none

def dbTrace : List Event → DbTrace
  | [] => []
  | .dispatched _ :: earlier => dbTrace earlier
  | .did call :: earlier => match dbCall call with
      | none => dbTrace earlier
      | some call => call :: dbTrace earlier

end CoroutineServer
