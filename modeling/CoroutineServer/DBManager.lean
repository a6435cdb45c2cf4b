import CoroutineServer.Json

/-!
# The database

The three tables and the methods of `DBManager` on them. A table is a list in the order of its integer
primary key, which is the order SQLite scans it in. Each method runs under one mutex and so is one step;
which of its SQLite calls fail is an input, and a failed call changes nothing. A row has the columns the
server reads: the `created_at` columns and `msg_type`, which is always zero, are left out.
-/

namespace CoroutineServer

structure UserRow where
  uid : Int
  username : Bytes
  passwordHash : Bytes
  deriving DecidableEq, Repr

structure FriendRow where
  id : Int
  uid : Int
  friendUid : Int
  deriving DecidableEq, Repr

structure MessageRow where
  msgId : Int
  fromUid : Int
  toUid : Int
  content : Bytes
  timestamp : Bytes
  delivered : Bool
  deriving DecidableEq, Repr

/-- The tables, and the last key `AUTOINCREMENT` gave out in each. -/
structure Db where
  users : List UserRow
  friends : List FriendRow
  messages : List MessageRow
  lastUid : Int
  lastFriendId : Int
  lastMsgId : Int
  deriving DecidableEq, Repr

/-- The outcome of the SQLite calls of one method, by the position of the statement in it. A select
that is stepped in a loop may also fail after some rows. -/
structure Sqlite where
  prepareFails : Nat → Bool
  stepFails : Nat → Bool
  failsAfter : Option Nat

namespace Sqlite

def fine : Sqlite := ⟨fun _ => false, fun _ => false, none⟩

/-- The rows a loop of `sqlite3_step` collects. -/
def rows {α : Type} (sqlite : Sqlite) (selected : List α) : List α :=
  match sqlite.failsAfter with
  | none => selected
  | some n => selected.take n

@[simp]
theorem rows_fine {α : Type} (selected : List α) : fine.rows selected = selected := rfl

theorem mem_of_mem_rows {α : Type} {sqlite : Sqlite} {selected : List α} {row : α}
    (h : row ∈ sqlite.rows selected) : row ∈ selected := by
  unfold rows at h
  split at h
  · exact h
  · exact List.mem_of_mem_take h

end Sqlite

namespace DBManager

/-! ### Passwords -/

def hexDigit (n : Nat) : UInt8 := if n < 10 then UInt8.ofNat (48 + n) else UInt8.ofNat (87 + n)

/-- `std::hex` with `setw(16)` and `setfill('0')`. -/
def hex16 (value : UInt64) : Bytes :=
  (List.range 16).map fun i => hexDigit (value.toNat / Nat.pow 16 (15 - i) % 16)

def salt : Bytes := ascii "CoroutineServer_IM_SALT_2024"

def simpleHash (platform : Platform) (input : Bytes) : Bytes := hex16 (platform.hash (salt ++ input))

/-! ### Users -/

def insertUser (sqlite : Sqlite) (username passwordHash : Bytes) (db : Db) : Bool × Db :=
  if sqlite.stepFails 1 ∨ username ∈ db.users.map UserRow.username then (false, db)
  else (true, { db with
    users := db.users ++ [⟨db.lastUid + 1, username, passwordHash⟩]
    lastUid := db.lastUid + 1 })

/-- Text is bound up to its first NUL. -/
def registerUser (platform : Platform) (sqlite : Sqlite) (username password : Bytes) (db : Db) :
    Bool × Db :=
  if username = [] ∨ password = [] then (false, db)
  else if sqlite.prepareFails 0 then (false, db)
  else if sqlite.stepFails 0 = false ∧ cstr username ∈ db.users.map UserRow.username then (false, db)
  else if sqlite.prepareFails 1 then (false, db)
  else insertUser sqlite (cstr username) (simpleHash platform password) db

def loginUser (platform : Platform) (sqlite : Sqlite) (username password : Bytes) (db : Db) :
    Bool × Int :=
  if username = [] ∨ password = [] then (false, 0)
  else if sqlite.prepareFails 0 ∨ sqlite.stepFails 0 then (false, 0)
  else match db.users.find? fun user => user.username = cstr username with
    | none => (false, 0)
    | some user =>
        if simpleHash platform password = user.passwordHash then (true, user.uid) else (false, 0)

/-! ### Friends -/

def areFriends (uid friendUid : Int) (row : FriendRow) : Bool :=
  (row.uid = uid ∧ row.friendUid = friendUid) ∨ (row.uid = friendUid ∧ row.friendUid = uid)

def insertFriend (sqlite : Sqlite) (uid friendUid : Int) (db : Db) : Bool × Db :=
  if sqlite.stepFails 2 ∨ db.friends.any fun row => row.uid = uid ∧ row.friendUid = friendUid then
    (false, db)
  else (true, { db with
    friends := db.friends ++ [⟨db.lastFriendId + 1, uid, friendUid⟩]
    lastFriendId := db.lastFriendId + 1 })

def addFriend (sqlite : Sqlite) (uid friendUid : Int) (db : Db) : Bool × Db :=
  if uid ≤ 0 ∨ friendUid ≤ 0 then (false, db)
  else if uid = friendUid then (false, db)
  else if sqlite.prepareFails 0 then (false, db)
  else
    let count := if sqlite.stepFails 0 then 0
      else (db.users.filter fun user => user.uid = uid ∨ user.uid = friendUid).length
    if count < 2 then (false, db)
    else if sqlite.prepareFails 1 then (false, db)
    else if sqlite.stepFails 1 = false ∧ db.friends.any (areFriends uid friendUid) then (false, db)
    else if sqlite.prepareFails 2 then (false, db)
    else insertFriend sqlite uid friendUid db

/-- A row of a `UNION`: the result is kept sorted and without duplicates. -/
def unionInsert (value : Int) : List Int → List Int
  | [] => [value]
  | first :: rest =>
      if value < first then value :: first :: rest
      else if value = first then first :: rest
      else first :: unionInsert value rest

def getFriendList (sqlite : Sqlite) (uid : Int) (db : Db) : List Int :=
  if uid ≤ 0 then []
  else if sqlite.prepareFails 0 then []
  else
    let forward := (db.friends.filter fun row => row.uid = uid).map FriendRow.friendUid
    let backward := (db.friends.filter fun row => row.friendUid = uid).map FriendRow.uid
    sqlite.rows ((forward ++ backward).foldr unionInsert [])

/-! ### Messages -/

/-- The new message's id, or minus one. -/
def saveMessage (sqlite : Sqlite) (fromUid toUid : Int) (content timestamp : Bytes) (db : Db) :
    Int × Db :=
  if fromUid ≤ 0 ∨ toUid ≤ 0 ∨ content = [] then (-1, db)
  else if sqlite.prepareFails 0 ∨ sqlite.stepFails 0 then (-1, db)
  else (db.lastMsgId + 1, { db with
    messages := db.messages ++
      [⟨db.lastMsgId + 1, fromUid, toUid, cstr content, cstr timestamp, false⟩]
    lastMsgId := db.lastMsgId + 1 })

/-- `to_uid = ? AND delivered = 0`. -/
def undelivered (uid : Int) (row : MessageRow) : Bool := row.toUid = uid ∧ row.delivered = false

def markDelivered (uid : Int) (row : MessageRow) : MessageRow :=
  if undelivered uid row then { row with delivered := true } else row

/-- The undelivered messages of a user, which are marked delivered once there are any. -/
def getOfflineMessages (sqlite : Sqlite) (uid : Int) (db : Db) : List MessageRow × Db :=
  if uid ≤ 0 then ([], db)
  else if sqlite.prepareFails 0 then ([], db)
  else
    let result := sqlite.rows (db.messages.filter (undelivered uid))
    if result = [] ∨ sqlite.prepareFails 1 ∨ sqlite.stepFails 1 then (result, db)
    else (result, { db with messages := db.messages.map (markDelivered uid) })

/-! ### What each method does -/

section Effects

variable (platform : Platform) (sqlite : Sqlite) (db : Db)

theorem registerUser_cases (username password : Bytes) :
    registerUser platform sqlite username password db = (false, db) ∨
      registerUser platform sqlite username password db = (true, { db with
        users := db.users ++ [⟨db.lastUid + 1, cstr username, simpleHash platform password⟩]
        lastUid := db.lastUid + 1 }) := by
  unfold registerUser insertUser
  split_ifs <;> simp

theorem addFriend_cases (uid friendUid : Int) :
    addFriend sqlite uid friendUid db = (false, db) ∨
      addFriend sqlite uid friendUid db = (true, { db with
        friends := db.friends ++ [⟨db.lastFriendId + 1, uid, friendUid⟩]
        lastFriendId := db.lastFriendId + 1 }) := by
  unfold addFriend insertFriend
  dsimp only
  split_ifs <;> simp

theorem saveMessage_cases (fromUid toUid : Int) (content timestamp : Bytes) :
    saveMessage sqlite fromUid toUid content timestamp db = (-1, db) ∨
      saveMessage sqlite fromUid toUid content timestamp db = (db.lastMsgId + 1, { db with
        messages := db.messages ++
          [⟨db.lastMsgId + 1, fromUid, toUid, cstr content, cstr timestamp, false⟩]
        lastMsgId := db.lastMsgId + 1 }) := by
  unfold saveMessage
  split_ifs <;> simp

theorem getOfflineMessages_cases (uid : Int) :
    (getOfflineMessages sqlite uid db).2 = db ∨ 0 < uid ∧
      (getOfflineMessages sqlite uid db).2
        = { db with messages := db.messages.map (markDelivered uid) } := by
  unfold getOfflineMessages
  dsimp only
  split_ifs with huid
  · exact .inl rfl
  · exact .inl rfl
  · exact .inl rfl
  · exact .inr ⟨by omega, rfl⟩

variable {platform sqlite db}

theorem markDelivered_delivered {uid : Int} {row : MessageRow} (h : row.delivered = true) :
    (markDelivered uid row).delivered = true := by
  unfold markDelivered
  split_ifs
  · rfl
  · exact h

theorem mem_getOfflineMessages {uid : Int} {row : MessageRow}
    (h : row ∈ (getOfflineMessages sqlite uid db).1) :
    row ∈ db.messages ∧ row.toUid = uid ∧ row.delivered = false := by
  have hmem : row ∈ sqlite.rows (db.messages.filter (undelivered uid)) := by
    unfold getOfflineMessages at h
    dsimp only at h
    split_ifs at h
    · cases h
    · cases h
    · exact h
    · exact h
  have hfilter := List.mem_filter.mp (Sqlite.mem_of_mem_rows hmem)
  exact ⟨hfilter.1, by simpa [undelivered] using hfilter.2⟩

theorem getOfflineMessages_of_nonpos {uid : Int} (huid : ¬0 < uid) :
    getOfflineMessages sqlite uid db = ([], db) := by
  unfold getOfflineMessages
  rw [if_pos (by omega)]

theorem getOfflineMessages_fine {uid : Int} (huid : 0 < uid) :
    getOfflineMessages .fine uid db = (db.messages.filter (undelivered uid),
      { db with messages := db.messages.map (markDelivered uid) }) := by
  unfold getOfflineMessages
  rw [if_neg (by omega), if_neg (by simp [Sqlite.fine])]
  dsimp only
  split_ifs with hnone
  · have hempty : db.messages.filter (undelivered uid) = [] := by
      rcases hnone with hempty | hfails | hfails
      · exact hempty
      · exact absurd hfails (by decide)
      · exact absurd hfails (by decide)
    have hsame : db.messages.map (markDelivered uid) = db.messages := by
      refine (List.map_congr_left fun row hrow => ?_).trans (List.map_id _)
      have hrow := List.filter_eq_nil_iff.mp hempty row hrow
      unfold markDelivered
      rw [if_neg hrow]
      rfl
    rw [hsame]
    rfl
  · rfl

theorem loginUser_eq_true {username password : Bytes} {uid : Int}
    (h : loginUser platform sqlite username password db = (true, uid)) :
    ∃ user ∈ db.users, user.uid = uid := by
  unfold loginUser at h
  split_ifs at h
  · cases h
  · cases h
  · cases hfind : db.users.find? fun user => user.username = cstr username with
    | none =>
      rw [hfind] at h
      cases h
    | some user =>
      rw [hfind] at h
      dsimp only at h
      split_ifs at h
      · exact ⟨user, List.mem_of_find?_eq_some hfind, (Prod.mk.inj h).2⟩
      · cases h

end Effects

end DBManager

/-! ### Well-formed databases -/

/-- Keys come from their sequences, and stored text can be serialised. -/
structure Db.WellFormed (db : Db) : Prop where
  uid_pos : ∀ user ∈ db.users, 0 < user.uid
  lastUid_nonneg : 0 ≤ db.lastUid
  lastMsgId_nonneg : 0 ≤ db.lastMsgId
  msgId_le : ∀ row ∈ db.messages, row.msgId ≤ db.lastMsgId
  msgId_ascending : db.messages.Pairwise fun row later => row.msgId < later.msgId
  content_valid : ∀ row ∈ db.messages, Utf8.Valid row.content
  timestamp_valid : ∀ row ∈ db.messages, Utf8.Valid row.timestamp

namespace Db.WellFormed

open DBManager

variable {platform : Platform} {sqlite : Sqlite} {db : Db}

theorem eq_of_msgId (hdb : db.WellFormed) {row other : MessageRow} (hrow : row ∈ db.messages)
    (hother : other ∈ db.messages) (hid : row.msgId = other.msgId) : row = other := by
  have hsame : db.messages.Pairwise fun row other => row.msgId = other.msgId → row = other :=
    hdb.msgId_ascending.imp fun hlt heq => absurd heq (Int.ne_of_lt hlt)
  have hflip : db.messages.Pairwise (flip fun row other => row.msgId = other.msgId → row = other) :=
    hsame.imp fun h heq => (h heq.symm).symm
  exact hsame.forall_of_forall_of_flip (fun _ _ _ => rfl) hflip hrow hother hid

theorem registerUser (hdb : db.WellFormed) (username password : Bytes) :
    (DBManager.registerUser platform sqlite username password db).2.WellFormed := by
  rcases registerUser_cases platform sqlite db username password
    with h | h
  · rwa [h]
  · rw [h]
    refine { hdb with uid_pos := fun user huser => ?_, lastUid_nonneg := ?_ }
    · rcases List.mem_append.mp huser with huser | huser
      · exact hdb.uid_pos user huser
      · obtain rfl := List.mem_singleton.mp huser
        have := hdb.lastUid_nonneg
        dsimp only
        omega
    · have := hdb.lastUid_nonneg
      dsimp only
      omega

theorem addFriend (hdb : db.WellFormed) (uid friendUid : Int) :
    (DBManager.addFriend sqlite uid friendUid db).2.WellFormed := by
  rcases addFriend_cases sqlite db uid friendUid with h | h
  · rwa [h]
  · rw [h]
    exact { hdb with }

theorem saveMessage (hdb : db.WellFormed) {fromUid toUid : Int} {content timestamp : Bytes}
    (hcontent : Utf8.Valid content) (htimestamp : Utf8.Valid timestamp) :
    (DBManager.saveMessage sqlite fromUid toUid content timestamp db).2.WellFormed := by
  rcases saveMessage_cases sqlite db fromUid toUid content timestamp with h | h
  · rwa [h]
  · rw [h]
    have hlast := hdb.lastMsgId_nonneg
    have hold : ∀ row ∈ db.messages, row.msgId < db.lastMsgId + 1 := fun row hrow => by
      have := hdb.msgId_le row hrow
      omega
    refine { hdb with
      lastMsgId_nonneg := ?_, msgId_le := ?_, msgId_ascending := ?_, content_valid := ?_,
      timestamp_valid := ?_ }
    · dsimp only
      omega
    · intro row hrow
      rcases List.mem_append.mp hrow with hrow | hrow
      · exact Int.le_of_lt (hold row hrow)
      · obtain rfl := List.mem_singleton.mp hrow
        exact Int.le_refl _
    · refine List.pairwise_append.mpr ⟨hdb.msgId_ascending, List.pairwise_singleton _ _, ?_⟩
      intro row hrow later hlater
      obtain rfl := List.mem_singleton.mp hlater
      exact hold row hrow
    · intro row hrow
      rcases List.mem_append.mp hrow with hrow | hrow
      · exact hdb.content_valid row hrow
      · obtain rfl := List.mem_singleton.mp hrow
        exact hcontent.takeWhile_ne_zero
    · intro row hrow
      rcases List.mem_append.mp hrow with hrow | hrow
      · exact hdb.timestamp_valid row hrow
      · obtain rfl := List.mem_singleton.mp hrow
        exact htimestamp.takeWhile_ne_zero

theorem markDelivered_msgId (uid : Int) (row : MessageRow) :
    (markDelivered uid row).msgId = row.msgId ∧ (markDelivered uid row).content = row.content ∧
      (markDelivered uid row).timestamp = row.timestamp := by
  unfold DBManager.markDelivered
  split_ifs <;> exact ⟨rfl, rfl, rfl⟩

theorem getOfflineMessages (hdb : db.WellFormed) (uid : Int) :
    (DBManager.getOfflineMessages sqlite uid db).2.WellFormed := by
  rcases getOfflineMessages_cases sqlite db uid with h | ⟨-, h⟩
  · rwa [h]
  · rw [h]
    refine { hdb with
      msgId_le := ?_, msgId_ascending := ?_, content_valid := ?_, timestamp_valid := ?_ }
    · intro row hrow
      obtain ⟨old, hold, rfl⟩ := List.mem_map.mp hrow
      rw [(markDelivered_msgId uid old).1]
      exact hdb.msgId_le old hold
    · refine List.pairwise_map.mpr (hdb.msgId_ascending.imp fun hlt => ?_)
      rwa [(markDelivered_msgId uid _).1, (markDelivered_msgId uid _).1]
    · intro row hrow
      obtain ⟨old, hold, rfl⟩ := List.mem_map.mp hrow
      rw [(markDelivered_msgId uid old).2.1]
      exact hdb.content_valid old hold
    · intro row hrow
      obtain ⟨old, hold, rfl⟩ := List.mem_map.mp hrow
      rw [(markDelivered_msgId uid old).2.2]
      exact hdb.timestamp_valid old hold

end Db.WellFormed

end CoroutineServer
