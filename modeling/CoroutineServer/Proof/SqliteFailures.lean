import Mathlib.Data.List.Pairwise
import CoroutineServer.Library.Reach
import CoroutineServer.Proof.Integrity

/-!
# When SQLite calls fail

Two methods go on after a failed call as if it had said that there is nothing more: `GetOfflineMessages`
marks rows its select has not reached, and `AddFriend` takes a failed query for the friendship as the
answer that there is none. The constraint of the friends table backs up one direction of that query only.
-/

namespace CoroutineServer

open DBManager

variable {platform : Platform} {sqlite : Sqlite} {db : Db} {uid friendUid : Int}

/-! ### Reading the offline messages -/

/-- Every row that the call marks delivered is among those it returns. -/
def ReturnsMarked (sqlite : Sqlite) (uid : Int) (db : Db) : Prop :=
  ∀ (i : Nat) (row row' : MessageRow), db.messages[i]? = some row →
    (getOfflineMessages sqlite uid db).2.messages[i]? = some row' → row.delivered = false →
      row'.delivered = true → row ∈ (getOfflineMessages sqlite uid db).1

/-- The condition: the select fails before the first row or behind the last one, if at all, or no update
takes place. -/
def ReadsThrough (sqlite : Sqlite) (uid : Int) (db : Db) : Prop :=
  ∀ n, sqlite.failsAfter = some n → n = 0 ∨ (db.messages.filter (undelivered uid)).length ≤ n ∨
    uid ≤ 0 ∨ sqlite.prepareFails 0 = true ∨ sqlite.prepareFails 1 = true ∨ sqlite.stepFails 1 = true

theorem undelivered_of_marked {row : MessageRow} (hbefore : row.delivered = false)
    (hafter : (markDelivered uid row).delivered = true) : undelivered uid row = true := by
  unfold markDelivered at hafter
  split_ifs at hafter with hundelivered
  · exact hundelivered
  · rw [hbefore] at hafter
    cases hafter

/-- The call marks rows only if the update takes place, and then all that are undelivered. -/
theorem returnsMarked_iff (sqlite : Sqlite) (uid : Int) (db : Db) :
    ReturnsMarked sqlite uid db ↔
      uid ≤ 0 ∨ sqlite.prepareFails 0 = true ∨ sqlite.prepareFails 1 = true ∨
        sqlite.stepFails 1 = true ∨ sqlite.rows (db.messages.filter (undelivered uid)) = [] ∨
          ∀ row ∈ db.messages.filter (undelivered uid),
            row ∈ sqlite.rows (db.messages.filter (undelivered uid)) := by
  have hidle : (getOfflineMessages sqlite uid db).2 = db → ReturnsMarked sqlite uid db := by
    intro hsame i row row' hrow hrow' hbefore hafter
    rw [hsame] at hrow'
    obtain rfl := Option.some.inj (hrow.symm.trans hrow')
    rw [hbefore] at hafter
    cases hafter
  by_cases hnoUpdate : uid ≤ 0 ∨ sqlite.prepareFails 0 = true ∨ sqlite.prepareFails 1 = true ∨
      sqlite.stepFails 1 = true ∨ sqlite.rows (db.messages.filter (undelivered uid)) = []
  · refine iff_of_true (hidle ?_) (by tauto)
    unfold getOfflineMessages
    dsimp only
    split_ifs
    · rfl
    · rfl
    · rfl
    · tauto
  have hresult : getOfflineMessages sqlite uid db
      = (sqlite.rows (db.messages.filter (undelivered uid)),
        { db with messages := db.messages.map (markDelivered uid) }) := by
    unfold getOfflineMessages
    rw [if_neg (by tauto), if_neg (by tauto)]
    exact if_neg (by tauto)
  have hmarked : ReturnsMarked sqlite uid db ↔ ∀ row ∈ db.messages.filter (undelivered uid),
      row ∈ sqlite.rows (db.messages.filter (undelivered uid)) := by
    unfold ReturnsMarked
    rw [hresult]
    constructor
    · intro h row hrow
      obtain ⟨hmem, hundelivered⟩ := List.mem_filter.mp hrow
      obtain ⟨i, hi⟩ := List.getElem?_of_mem hmem
      refine h i row (markDelivered uid row) hi ?_ ?_ ?_
      · dsimp only
        rw [List.getElem?_map, hi]
        rfl
      · have hcolumns : row.toUid = uid ∧ row.delivered = false := by
          simpa [undelivered] using hundelivered
        exact hcolumns.2
      · unfold markDelivered
        rw [if_pos hundelivered]
    · intro h i row row' hrow hrow' hbefore hafter
      dsimp only at hrow'
      rw [List.getElem?_map, hrow] at hrow'
      obtain rfl := Option.some.inj hrow'
      exact h row (List.mem_filter.mpr
        ⟨List.mem_of_getElem? hrow, undelivered_of_marked hbefore hafter⟩)
  rw [hmarked]
  tauto

/-- The loop reads all rows of a table without duplicates exactly when it does not stop before the last. -/
theorem reads_all_iff {α : Type} {rows : List α} (hnodup : rows.Nodup) :
    (∀ row ∈ rows, row ∈ sqlite.rows rows) ↔ ∀ n, sqlite.failsAfter = some n → rows.length ≤ n := by
  unfold Sqlite.rows
  cases hfails : sqlite.failsAfter with
  | none => simp
  | some n =>
    simp only [Option.some.injEq, forall_eq']
    constructor
    · intro h
      have hsub : rows.length ≤ (rows.take n).length :=
        (List.subperm_of_subset hnodup h).length_le
      rw [List.length_take] at hsub
      omega
    · intro hlength row hrow
      rwa [List.take_of_length_le hlength]

/-- **A failing read does not consume the mailbox**: with unique message ids, the rows that the call marks
delivered are among those it returns, exactly under the condition. -/
theorem marked_rows_returned (hkeys : (db.messages.map MessageRow.msgId).Nodup) :
    ReturnsMarked sqlite uid db ↔ ReadsThrough sqlite uid db := by
  have hnodup : (db.messages.filter (undelivered uid)).Nodup := hkeys.of_map.filter _
  rw [returnsMarked_iff, reads_all_iff hnodup]
  unfold ReadsThrough
  have hempty : sqlite.rows (db.messages.filter (undelivered uid)) = [] ↔
      db.messages.filter (undelivered uid) = [] ∨ sqlite.failsAfter = some 0 := by
    unfold Sqlite.rows
    cases sqlite.failsAfter with
    | none => simp
    | some n => simp [or_comm]
  rw [hempty]
  constructor
  · rintro (h | h | h | h | (h | h) | h) n hn
    · tauto
    · tauto
    · tauto
    · tauto
    · exact .inr (.inl (by rw [h]; exact Nat.zero_le _))
    · exact .inl (Option.some.inj (hn.symm.trans h))
    · exact .inr (.inl (h n hn))
  · intro h
    by_contra hnot
    simp only [not_or] at hnot
    obtain ⟨huid, hprepare, hupdate, hstep, ⟨-, hzero⟩, hall⟩ := hnot
    refine hall fun n hn => ?_
    rcases h n hn with rfl | h | h | h | h | h
    · exact absurd hn hzero
    · exact h
    · exact absurd h huid
    · exact absurd h hprepare
    · exact absurd h hupdate
    · exact absurd h hstep

/-- Two messages wait for ann. -/
def waitingDb : Db :=
  { Db.empty with
    messages := [⟨1, 2, 1, ascii "hi", ascii "2024-01-01 00:00:00", false⟩,
      ⟨2, 2, 1, ascii "ann", ascii "2024-01-01 00:00:01", false⟩]
    lastMsgId := 2 }

/-- A select that fails behind the first row. -/
def failingRead : Sqlite := { Sqlite.fine with failsAfter := some 1 }

/-- The select fails behind the first row, and so does the update. -/
theorem marked_rows_returned_no_update :
    ReturnsMarked { failingRead with stepFails := (· == 1) } 1 waitingDb :=
  (marked_rows_returned (by decide)).mpr fun _ _ => by simp

theorem unread_row_marked :
    ¬∀ sqlite uid db, (db.messages.map MessageRow.msgId).Nodup → ReturnsMarked sqlite uid db := by
  intro h
  have hmem := h failingRead 1 waitingDb (by decide) 1 _ _ rfl rfl rfl rfl
  revert hmem
  decide

/-! ### Inserting users and friends -/

/-- A call of one of the two methods that check before they insert, with the outcomes of its SQLite
calls. -/
inductive Insertion where
  | registerUser (sqlite : Sqlite) (username password : Bytes)
  | addFriend (sqlite : Sqlite) (uid friendUid : Int)

def Insertion.perform (platform : Platform) : Insertion → Db → Bool × Db
  | .registerUser sqlite username password, db =>
      DBManager.registerUser platform sqlite username password db
  | .addFriend sqlite uid friendUid, db => DBManager.addFriend sqlite uid friendUid db

/-- The call inserts its one row. -/
def Insertion.Inserts : Insertion → Db → Db → Prop
  | .registerUser _ username _, db, db' => ∃ row, row.username = cstr username ∧
      db' = { db with users := db.users ++ [row], lastUid := row.uid }
  | .addFriend _ uid friendUid, db, db' => ∃ row, row.uid = uid ∧ row.friendUid = friendUid ∧
      db' = { db with friends := db.friends ++ [row], lastFriendId := row.id }

/-- Usernames are unique, a pair of users has one row at most, nobody is his own friend, and both ends of
a friendship are registered. -/
structure Tables (db : Db) : Prop where
  usernames : (db.users.map UserRow.username).Nodup
  pairs : db.friends.Pairwise fun row later => areFriends row.uid row.friendUid later = false
  irreflexive : ∀ row ∈ db.friends, row.uid ≠ row.friendUid
  registered : ∀ row ∈ db.friends, row.uid ∈ db.uids ∧ row.friendUid ∈ db.uids

/-- The condition: when the query for the friendship fails although the other one of the two has asked
for it before, another SQLite call of the method fails as well. -/
def Backed : Insertion → Db → Prop
  | .registerUser _ _ _, _ => True
  | .addFriend sqlite uid friendUid, db => sqlite.stepFails 1 = true →
      (∃ row ∈ db.friends, row.uid = friendUid ∧ row.friendUid = uid) →
        sqlite.prepareFails 0 = true ∨ sqlite.stepFails 0 = true ∨ sqlite.prepareFails 1 = true ∨
          sqlite.prepareFails 2 = true ∨ sqlite.stepFails 2 = true

theorem perform_cases (call : Insertion) (db : Db) :
    call.perform platform db = (false, db) ∨
      ∃ db', call.perform platform db = (true, db') ∧ call.Inserts db db' := by
  cases call with
  | registerUser sqlite username password =>
    rcases registerUser_cases platform sqlite db username password with h | h
    · exact .inl h
    · exact .inr ⟨_, h, ⟨db.lastUid + 1, cstr username, simpleHash platform password⟩, rfl, rfl⟩
  | addFriend sqlite uid friendUid =>
    rcases addFriend_cases sqlite db uid friendUid with h | h
    · exact .inl h
    · exact .inr ⟨_, h, ⟨db.lastFriendId + 1, uid, friendUid⟩, rfl, rfl, rfl⟩

/-- When `AddFriend` returns true: the checks that were made have passed, and the insert worked. -/
theorem addFriend_true_iff (sqlite : Sqlite) (uid friendUid : Int) (db : Db) :
    (addFriend sqlite uid friendUid db).1 = true ↔
      (0 < uid ∧ 0 < friendUid ∧ uid ≠ friendUid ∧
        2 ≤ (db.users.filter fun user => user.uid = uid ∨ user.uid = friendUid).length) ∧
      (sqlite.prepareFails 0 = false ∧ sqlite.stepFails 0 = false ∧ sqlite.prepareFails 1 = false ∧
        sqlite.prepareFails 2 = false ∧ sqlite.stepFails 2 = false) ∧
      (sqlite.stepFails 1 = true ∨ db.friends.any (areFriends uid friendUid) = false) ∧
      (db.friends.any fun row => row.uid = uid ∧ row.friendUid = friendUid) = false := by
  unfold addFriend insertFriend
  dsimp only
  grind

theorem areFriends_iff (row : FriendRow) :
    areFriends uid friendUid row = true ↔
      row.uid = uid ∧ row.friendUid = friendUid ∨ row.uid = friendUid ∧ row.friendUid = uid := by
  simp [areFriends]

theorem areFriends_comm (row later : FriendRow) :
    areFriends row.uid row.friendUid later = areFriends later.uid later.friendUid row := by
  rw [Bool.eq_iff_iff, areFriends_iff, areFriends_iff]
  grind

namespace Tables

theorem eq_of_pair (h : Tables db) {row other : FriendRow} (hrow : row ∈ db.friends)
    (hother : other ∈ db.friends) (hpair : areFriends row.uid row.friendUid other = true) :
    row = other := by
  by_contra hne
  have hsymm : Std.Symm fun row other : FriendRow =>
      areFriends row.uid row.friendUid other = false :=
    ⟨fun row other hfalse => (areFriends_comm other row).trans hfalse⟩
  have hapart := h.pairs.forall hrow hother hne
  rw [hapart] at hpair
  cases hpair

/-- One more friend row keeps the tables consistent exactly when neither of the two has asked before. -/
theorem insert_iff (h : Tables db) (hne : uid ≠ friendUid) (huid : uid ∈ db.uids)
    (hfriend : friendUid ∈ db.uids) (id : Int) :
    Tables { db with friends := db.friends ++ [⟨id, uid, friendUid⟩], lastFriendId := id } ↔
      db.friends.any (areFriends uid friendUid) = false := by
  have hnew : (∀ row ∈ db.friends, areFriends row.uid row.friendUid ⟨id, uid, friendUid⟩ = false) ↔
      db.friends.any (areFriends uid friendUid) = false := by
    rw [List.any_eq_false]
    refine forall₂_congr fun row _ => ?_
    rw [areFriends_comm, Bool.not_eq_true]
  rw [← hnew]
  constructor
  · intro hafter row hrow
    exact (List.pairwise_append.mp hafter.pairs).2.2 row hrow _ List.mem_cons_self
  · intro hpairs
    refine ⟨h.usernames, ?_, fun row hrow => ?_, fun row hrow => ?_⟩
    · refine List.pairwise_append.mpr ⟨h.pairs, List.pairwise_singleton _ _, ?_⟩
      intro row hrow later hlater
      obtain rfl := List.mem_singleton.mp hlater
      exact hpairs row hrow
    · rcases List.mem_append.mp hrow with hrow | hrow
      · exact h.irreflexive row hrow
      · obtain rfl := List.mem_singleton.mp hrow
        exact hne
    · rcases List.mem_append.mp hrow with hrow | hrow
      · exact h.registered row hrow
      · obtain rfl := List.mem_singleton.mp hrow
        exact ⟨huid, hfriend⟩

theorem registerUser (h : Tables db) (hkeyed : Keyed db) (sqlite : Sqlite) (username password : Bytes) :
    Tables (DBManager.registerUser platform sqlite username password db).2 ∧
      Keyed (DBManager.registerUser platform sqlite username password db).2 := by
  rcases registerUser_cases platform sqlite db username password with heq | heq
  · rw [heq]
    exact ⟨h, hkeyed⟩
  · have hunused := registerUser_eq_true (congrArg Prod.fst heq)
    rw [heq]
    have hkeyed' : Keyed { db with
        users := db.users ++ [⟨db.lastUid + 1, cstr username, simpleHash platform password⟩]
        lastUid := db.lastUid + 1 } := hkeyed.insert hunused rfl rfl
    refine ⟨⟨hkeyed'.usernames, h.pairs, h.irreflexive, fun row hrow => ?_⟩, hkeyed'⟩
    obtain ⟨huid, hfriend⟩ := h.registered row hrow
    unfold Db.uids at huid hfriend ⊢
    rw [List.map_append]
    exact ⟨List.mem_append_left _ huid, List.mem_append_left _ hfriend⟩

/-- With a row in the other direction, everything but the query for it lets the insert through. -/
theorem addFriend_of_reverse (h : Tables db) (hkeyed : Keyed db) {row : FriendRow}
    (hrow : row ∈ db.friends) (huid : row.uid = friendUid) (hfriend : row.friendUid = uid) :
    (addFriend sqlite uid friendUid db).1 = true ↔
      (sqlite.prepareFails 0 = false ∧ sqlite.stepFails 0 = false ∧ sqlite.prepareFails 1 = false ∧
        sqlite.prepareFails 2 = false ∧ sqlite.stepFails 2 = false) ∧ sqlite.stepFails 1 = true := by
  subst huid hfriend
  have hne : row.friendUid ≠ row.uid := (h.irreflexive row hrow).symm
  obtain ⟨huid, hfriend⟩ := h.registered row hrow
  have hpos : ∀ {user : Int}, user ∈ db.uids → 0 < user := by
    intro user hmem
    obtain ⟨account, haccount, rfl⟩ := List.mem_map.mp hmem
    exact hkeyed.uid_pos account haccount
  have hcount := (two_le_count_iff hkeyed hne).mpr ⟨hfriend, huid⟩
  have hknown : db.friends.any (areFriends row.friendUid row.uid) = true :=
    List.any_eq_true.mpr ⟨row, hrow, (areFriends_iff row).mpr (.inr ⟨rfl, rfl⟩)⟩
  have hforward : (db.friends.any fun other =>
      other.uid = row.friendUid ∧ other.friendUid = row.uid) = false := by
    rw [List.any_eq_false]
    intro other hother hcolumns
    have hcolumns : other.uid = row.friendUid ∧ other.friendUid = row.uid := by simpa using hcolumns
    obtain rfl := h.eq_of_pair hrow hother ((areFriends_iff other).mpr (.inr hcolumns))
    exact hne hcolumns.1.symm
  rw [addFriend_true_iff, hknown, hforward, and_iff_right ⟨hpos hfriend, hpos huid, hne, hcount⟩]
  simp

theorem addFriend_iff (h : Tables db) (hkeyed : Keyed db) (sqlite : Sqlite) (uid friendUid : Int) :
    Tables (DBManager.addFriend sqlite uid friendUid db).2 ↔
      Backed (.addFriend sqlite uid friendUid) db := by
  rcases addFriend_cases sqlite db uid friendUid with heq | heq
  · -- nothing has been inserted: in the presence of the other row, some call has failed
    rw [heq]
    refine iff_of_true h fun hfails ⟨row, hrow, huid, hfriend⟩ => ?_
    by_contra hnot
    simp only [not_or, Bool.not_eq_true] at hnot
    have hresult := (h.addFriend_of_reverse hkeyed hrow huid hfriend).mpr ⟨hnot, hfails⟩
    rw [heq] at hresult
    cases hresult
  · have hresult := congrArg Prod.fst heq
    obtain ⟨huid, hfriend⟩ := addFriend_eq_true hkeyed hresult
    obtain ⟨⟨-, -, hne, -⟩, ⟨hprepare, hcount, hexist, hinsert, hstep⟩, hchecked, hforward⟩ :=
      (addFriend_true_iff sqlite uid friendUid db).mp hresult
    rw [heq, h.insert_iff hne huid hfriend]
    constructor
    · rintro hnone - ⟨row, hrow, hrowUid, hrowFriend⟩
      have hreverse := List.any_eq_false.mp hnone row hrow
      exact absurd ((areFriends_iff row).mpr (.inr ⟨hrowUid, hrowFriend⟩)) hreverse
    · intro hbacked
      rcases hchecked with hfails | hnone
      · rw [List.any_eq_false]
        intro row hrow hpair
        rcases (areFriends_iff row).mp hpair with hcolumns | hcolumns
        · exact List.any_eq_false.mp hforward row hrow (decide_eq_true hcolumns)
        · have hother := hbacked hfails ⟨row, hrow, hcolumns⟩
          simp [hprepare, hcount, hexist, hinsert, hstep] at hother
      · exact hnone

/-- **One call keeps the tables consistent** exactly when it meets the condition. -/
theorem perform_iff (h : Tables db) (hkeyed : Keyed db) (call : Insertion) :
    Tables (call.perform platform db).2 ↔ Backed call db := by
  cases call with
  | registerUser sqlite username password =>
    exact iff_of_true (h.registerUser hkeyed sqlite username password).1 trivial
  | addFriend sqlite uid friendUid => exact h.addFriend_iff hkeyed sqlite uid friendUid

end Tables

theorem keyed_insertion (hkeyed : Keyed db) (call : Insertion) :
    Keyed (call.perform platform db).2 := by
  cases call with
  | registerUser sqlite username password =>
    rcases registerUser_cases platform sqlite db username password with heq | heq
    · rw [Insertion.perform, heq]
      exact hkeyed
    · rw [Insertion.perform, heq]
      exact hkeyed.insert (registerUser_eq_true (congrArg Prod.fst heq)) rfl rfl
  | addFriend sqlite uid friendUid =>
    rcases addFriend_cases sqlite db uid friendUid with heq | heq
    · rw [Insertion.perform, heq]
      exact hkeyed
    · rw [Insertion.perform, heq]
      exact hkeyed.congr rfl rfl

/-! ### Sequences of calls -/

def Insertion.step (platform : Platform) (call : Insertion) (db : Db) : Option Db :=
  some (call.perform platform db).2

/-- The tables after a sequence of calls on a new database. -/
abbrev Inserted (platform : Platform) : (Insertion → Db → Prop) → Db → Prop :=
  Reach.Reaches (Insertion.step platform) fun db => db = .empty

theorem tables_of_inserted (hinserted : Inserted platform Backed db) : Tables db ∧ Keyed db := by
  induction hinserted with
  | initial h =>
    rw [h]
    exact ⟨⟨.nil, .nil, fun _ h => (by cases h), fun _ h => (by cases h)⟩, .empty⟩
  | @next before after call _ hbacked hstep ih =>
    obtain ⟨htables, hkeyed⟩ := ih
    obtain rfl := Option.some.inj hstep
    exact ⟨(htables.perform_iff hkeyed call).mpr hbacked, keyed_insertion hkeyed call⟩

theorem not_inserts_self (call : Insertion) (db : Db) : ¬call.Inserts db db := by
  cases call with
  | registerUser sqlite username password =>
    rintro ⟨row, -, hdb⟩
    have hlength := congrArg (fun db => db.users.length) hdb
    simp at hlength
  | addFriend sqlite uid friendUid =>
    rintro ⟨row, -, -, hdb⟩
    have hlength := congrArg (fun db => db.friends.length) hdb
    simp at hlength

/-- **Failed checks let no bad insert through** in the sequences whose calls all meet the condition; and
whatever fails in it, a call returns true exactly when it inserts its one row, and else does nothing. -/
theorem failed_checks_harmless (hinserted : Inserted platform Backed db) :
    Tables db ∧ ∀ call : Insertion,
      ((call.perform platform db).1 = true ↔ call.Inserts db (call.perform platform db).2) ∧
      ((call.perform platform db).1 = false → (call.perform platform db).2 = db) := by
  refine ⟨(tables_of_inserted hinserted).1, fun call => ?_⟩
  rcases perform_cases call db with heq | ⟨db', heq, hinserts⟩
  · rw [heq]
    exact ⟨iff_of_false Bool.false_ne_true (not_inserts_self call db), fun _ => rfl⟩
  · rw [heq]
    exact ⟨iff_of_true rfl hinserts, fun hfalse => (by cases hfalse)⟩

/-- The SQLite calls of a method whose second statement cannot be stepped. -/
def failingQuery : Sqlite := { Sqlite.fine with stepFails := (· == 1) }

/-- Ann and bob register, and ann adds bob while the query for the friendship fails. -/
def friendCalls : List Insertion :=
  [.registerUser .fine (ascii "ann") (ascii "secret"), .registerUser .fine (ascii "bob") (ascii "secret"),
    .addFriend failingQuery 1 2]

instance (call : Insertion) (db : Db) : Decidable (Backed call db) := match call with
  | .registerUser _ _ _ => .isTrue trivial
  | .addFriend sqlite uid friendUid => inferInstanceAs (Decidable (sqlite.stepFails 1 = true →
      (∃ row ∈ db.friends, row.uid = friendUid ∧ row.friendUid = uid) →
        sqlite.prepareFails 0 = true ∨ sqlite.stepFails 0 = true ∨ sqlite.prepareFails 1 = true ∨
          sqlite.prepareFails 2 = true ∨ sqlite.stepFails 2 = true))

theorem inserted_of_meets {ok : Insertion → Db → Prop} {test : Insertion → Db → Bool}
    {calls : List Insertion} (hok : ∀ call db, test call db = true → ok call db)
    (hmeets : Reach.meets (Insertion.step reference) test calls .empty = true) :
    Inserted reference ok (Reach.after (Insertion.step reference) calls .empty) :=
  .of_meets rfl (fun call _ db _ => hok call db) hmeets

theorem failed_checks_harmless_first :
    Tables (Reach.after (Insertion.step reference) friendCalls .empty) :=
  (failed_checks_harmless (inserted_of_meets (fun call db => of_decide_eq_true)
    (by decide +kernel : Reach.meets (Insertion.step reference) (fun call db => decide (Backed call db))
      friendCalls .empty = true))).1

/-- Bob adds ann in turn, and the query for the friendship fails again. -/
theorem friendship_twice :
    ¬∀ db, Inserted reference (fun _ _ => True) db → Tables db := by
  intro h
  have htables := h _ (inserted_of_meets (fun _ _ _ => trivial)
    (by decide +kernel : Reach.meets (Insertion.step reference) (fun _ _ => true)
      (friendCalls ++ [.addFriend failingQuery 2 1]) .empty = true))
  have hpairs := htables.pairs
  revert hpairs
  decide +kernel

end CoroutineServer
