import CoroutineServer.Proof.Authenticity
import CoroutineServer.Proof.FriendGraph

/-!
# Referential integrity

No foreign key is declared, so the rows of the friends and messages tables refer to users only as far as
the methods check. `AddFriend` counts the two users; `SaveMessage` checks the sender through the login,
and the recipient not at all.
-/

namespace CoroutineServer

open Program CSession DBManager

variable {platform : Platform}

def Db.uids (db : Db) : List Int := db.users.map UserRow.uid

structure Referential (db : Db) : Prop where
  friend : ∀ row ∈ db.friends, row.uid ∈ db.uids ∧ row.friendUid ∈ db.uids
  message : ∀ row ∈ db.messages, row.fromUid ∈ db.uids ∧ row.toUid ∈ db.uids

/-! ### One operation -/

theorem users_perform (platform : Platform) (input : Input) (op : Op) (world : World) :
    (∃ username passwordHash, username ∉ world.db.users.map UserRow.username ∧
      (perform platform input op world).2.db.users
        = world.db.users ++ [⟨world.db.lastUid + 1, username, passwordHash⟩] ∧
      (perform platform input op world).2.db.lastUid = world.db.lastUid + 1) ∨
    (perform platform input op world).2.db.users = world.db.users ∧
      (perform platform input op world).2.db.lastUid = world.db.lastUid := by
  cases op with
  | registerUser username password =>
    rw [perform]
    rcases registerUser_cases platform input.sqlite world.db username password with h | h
    · rw [h]
      exact .inr ⟨rfl, rfl⟩
    · have hnew := registerUser_eq_true (congrArg Prod.fst h)
      rw [h]
      exact .inl ⟨_, _, hnew, rfl, rfl⟩
  | addFriend uid friendUid =>
    rw [perform]
    rcases addFriend_cases input.sqlite world.db uid friendUid with h | h <;>
    · rw [h]
      exact .inr ⟨rfl, rfl⟩
  | saveMessage fromUid toUid content timestamp =>
    rw [perform]
    rcases saveMessage_cases input.sqlite world.db fromUid toUid content timestamp with h | h <;>
    · rw [h]
      exact .inr ⟨rfl, rfl⟩
  | getOfflineMessages uid =>
    rw [perform]
    rcases getOfflineMessages_cases input.sqlite world.db uid with h | ⟨-, h⟩ <;>
    · dsimp only
      rw [h]
      exact .inr ⟨rfl, rfl⟩
  | _ =>
    rw [db_perform _ _ _ _ (by simp) (by simp) (by simp) (by simp)]
    exact .inr ⟨rfl, rfl⟩

theorem keyed_perform {world : World} (input : Input) (op : Op) (h : Keyed world.db) :
    Keyed (perform platform input op world).2.db := by
  rcases users_perform platform input op world with
    ⟨username, passwordHash, hnew, husers, hlast⟩ | ⟨husers, hlast⟩
  · exact h.insert hnew husers hlast
  · exact h.congr husers hlast

theorem mem_uids_perform {world : World} {uid : Int} (input : Input) (op : Op)
    (huid : uid ∈ world.db.uids) : uid ∈ (perform platform input op world).2.db.uids := by
  unfold Db.uids at huid ⊢
  rcases users_perform platform input op world with ⟨_, _, -, husers, -⟩ | ⟨husers, -⟩
  · rw [husers, List.map_append]
    exact List.mem_append_left _ huid
  · rwa [husers]

theorem addFriend_eq_true {sqlite : Sqlite} {db : Db} {uid friendUid : Int} (hkeyed : Keyed db)
    (h : (addFriend sqlite uid friendUid db).1 = true) : uid ∈ db.uids ∧ friendUid ∈ db.uids := by
  have hne : uid ≠ friendUid := by
    rintro rfl
    unfold addFriend at h
    rw [if_pos rfl, ite_self] at h
    cases h
  refine (two_le_count_iff hkeyed hne).mp (Nat.not_lt.mp fun hfew => ?_)
  have hcount : (if sqlite.stepFails 0 = true then 0
      else (db.users.filter fun user => user.uid = uid ∨ user.uid = friendUid).length) < 2 := by
    split_ifs
    · decide
    · exact hfew
  unfold addFriend at h
  dsimp only at h
  rw [if_pos hcount, ite_self, ite_self, ite_self] at h
  cases h

/-! ### Runs -/

/-- The condition: a message that `SaveMessage` can store is for a user that exists. -/
def RecipientExists (input : Input) (op : Op) (state : State) : Prop :=
  ∀ fromUid toUid content timestamp, op = .saveMessage fromUid toUid content timestamp →
    toUid ∈ state.world.db.uids ∨ input.sqlite.prepareFails 0 = true ∨ input.sqlite.stepFails 0 = true

abbrev recipientsExist : Label → State → Prop := OpsMeet RecipientExists fun _ _ _ => True

/-- The invariant: rows, and the users that sessions act for, are in the users table. -/
structure Rooted (world : World) : Prop where
  keyed : Keyed world.db
  referential : Referential world.db
  login : ∀ session uid, lastLogin session world.history = some uid → uid ∈ world.db.uids

theorem Rooted.congr {world world' : World} (h : Rooted world) (hdb : world'.db = world.db)
    (hlogin : ∀ session, lastLogin session world'.history = lastLogin session world.history) :
    Rooted world' := by
  refine ⟨?_, ?_, fun session uid hlast => ?_⟩
  · rw [hdb]
    exact h.keyed
  · rw [hdb]
    exact h.referential
  · rw [hdb]
    exact h.login session uid ((hlogin session).symm.trans hlast)

theorem lastLogin_perform {world : World} {session : Sid} {uid : Int} {input : Input} {op : Op}
    (h : lastLogin session
      (.did ⟨op, (perform platform input op world).1⟩ :: world.history) = some uid) :
    lastLogin session world.history = some uid ∨ uid ∈ world.db.uids := by
  cases op with
  | loginUser username password =>
    rw [perform] at h
    cases hresult : loginUser platform input.sqlite username password world.db with
    | mk ok user =>
      rw [hresult, lastLogin_loginUser] at h
      split_ifs at h with hlogin
      · obtain rfl := Option.some.inj h
        rw [hlogin.1] at hresult
        obtain ⟨row, hrow, huid⟩ := loginUser_eq_true hresult
        exact .inr (List.mem_map.mpr ⟨row, hrow, huid⟩)
      · exact .inl h
  | _ => exact .inl h

theorem saveMessage_of_fails {sqlite : Sqlite} {db : Db} {fromUid toUid : Int}
    {content timestamp : Bytes} (h : sqlite.prepareFails 0 = true ∨ sqlite.stepFails 0 = true) :
    saveMessage sqlite fromUid toUid content timestamp db = (-1, db) := by
  unfold saveMessage
  rw [if_pos h, ite_self]

theorem referential_perform {world : World} {node : LogicNode} {input : Input} {op : Op}
    (h : Rooted world) (hidentity : Identity world) (hserved : served world.history = some node)
    (hwarrant : Warrants platform node world.trace op)
    (hrecipient : ∀ fromUid toUid content timestamp,
      op = .saveMessage fromUid toUid content timestamp → toUid ∈ world.db.uids ∨
        input.sqlite.prepareFails 0 = true ∨ input.sqlite.stepFails 0 = true) :
    Referential (perform platform input op world).2.db := by
  have hkept : ∀ uid ∈ world.db.uids, uid ∈ (perform platform input op world).2.db.uids :=
    fun uid huid => mem_uids_perform input op huid
  have hactor : ∀ uid, ActsFor op uid → uid ∈ world.db.uids := fun uid hacts =>
    h.login _ uid (actsFor_lastLogin hidentity hserved hwarrant hacts)
  refine ⟨fun row hrow => ?_, fun row hrow => ?_⟩
  · rcases mem_friends_perform hrow with hold | hcall
    · obtain ⟨huid, hfriend⟩ := h.referential.friend row hold
      exact ⟨hkept _ huid, hkept _ hfriend⟩
    · obtain ⟨rfl, hresult⟩ := Sigma.mk.inj hcall
      obtain ⟨huid, hfriend⟩ := addFriend_eq_true h.keyed (eq_of_heq hresult)
      exact ⟨hkept _ huid, hkept _ hfriend⟩
  · have hold : row ∈ world.db.messages → row.fromUid ∈ (perform platform input op world).2.db.uids ∧
        row.toUid ∈ (perform platform input op world).2.db.uids := by
      intro hmem
      obtain ⟨hfrom, hto⟩ := h.referential.message row hmem
      exact ⟨hkept _ hfrom, hkept _ hto⟩
    rcases mem_messages_perform hrow with hmem | ⟨-, content, timestamp, hcall⟩ | ⟨-, uid, -, hmem, -⟩
    · exact hold hmem
    · obtain ⟨rfl, -⟩ := Sigma.mk.inj hcall
      rcases hrecipient _ _ _ _ rfl with hto | hfails
      · exact ⟨hkept _ (hactor _ (.message _ _ _ _)), hkept _ hto⟩
      · rw [perform, saveMessage_of_fails hfails] at hrow
        exact hold hrow
    · obtain ⟨hfrom, hto⟩ := h.referential.message _ hmem
      exact ⟨hkept _ hfrom, hkept _ hto⟩

theorem rooted_of_reaches {state : State}
    (hreach : ReachesFrom platform .empty recipientsExist state) : Rooted state.world := by
  apply invariant_of_moves (fun state => Rooted state.world) hreach
    (initial_of_eq Db.empty_wellFormed)
  · rintro _ rfl
    exact ⟨.empty, ⟨fun row hrow => (by cases hrow), fun row hrow => (by cases hrow)⟩,
      fun session uid hlast => (by cases hlast)⟩
  · intro state state' h hquiet
    exact h.congr hquiet.db fun session => by rw [hquiet.history]
  · intro state node rest _ h _
    exact h.congr rfl fun session => rfl
  · intro state input op next node hreached h hok hworker hserved hwarrant
    refine ⟨keyed_perform input op h.keyed, ?_, fun session uid hlast => ?_⟩
    · exact referential_perform h (identity_of_reaches hreached) hserved hwarrant (hok op next hworker)
    · rw [history_workStep] at hlast
      apply mem_uids_perform input op
      exact (lastLogin_perform hlast).elim (h.login session uid) id
  · intro state thread session pos _ h _ _
    apply h.congr (db_ioStep platform thread session pos state)
    intro other
    rw [history_ioStep]

/-- **Referential integrity**, when no message is stored for a uid that does not exist. In every run
from a new database, the rows of the friends and messages tables name users, and a user who registers
next finds no message. -/
theorem referential_integrity {state : State}
    (hreach : ReachesFrom platform .empty recipientsExist state) :
    Referential state.world.db ∧
      ∀ sqlite username password db',
        registerUser platform sqlite username password state.world.db = (true, db') →
          ∀ row ∈ db'.messages, row.toUid ≠ db'.lastUid := by
  have hrooted := rooted_of_reaches hreach
  refine ⟨hrooted.referential, fun sqlite username password db' hregister row hrow heq => ?_⟩
  rcases registerUser_cases platform sqlite state.world.db username password with h | h
  · cases h.symm.trans hregister
  · obtain ⟨-, rfl⟩ := Prod.mk.inj (h.symm.trans hregister)
    obtain ⟨user, huser, huid⟩ := List.mem_map.mp (hrooted.referential.message row hrow).2
    have hle := hrooted.keyed.uid_le user huser
    dsimp only at heq
    omega

/-! ### A message for nobody -/

/-- Ann and bob register, and ann sends bob a message. -/
def registeredChatScript : List Act :=
  [.accept 0, .accept 1, .post 0 MSG_REGISTER_REQ (credentials "ann"), .serve 3,
    .post 1 MSG_REGISTER_REQ (credentials "bob"), .serve 3,
    .post 0 MSG_LOGIN_REQ (credentials "ann"), .serve 7, .post 0 MSG_SEND_CHAT_REQ (chatBody 2), .serve 6]

def recipientTest : Op → State → Bool
  | .saveMessage _ toUid _ _, state => decide (toUid ∈ state.world.db.uids)
  | _, _ => true

theorem referential_integrity_chat :
    ∃ row ∈ (played .empty registeredChatScript).world.db.messages,
      row.toUid ∈ (played .empty registeredChatScript).world.db.uids := by
  have hplays : plays (testOps recipientTest fun _ _ => true) .empty registeredChatScript = true := by
    decide +kernel
  have hok : ∀ label state, (∀ input, label = .work input → input = .idle) →
      Reaches reference recipientsExist state →
      testOps recipientTest (fun _ _ => true) label state = true → recipientsExist label state := by
    refine fun label state hidle _ => opsMeet_of_test (fun op htest => ?_) (fun _ _ _ => trivial) hidle
    rintro fromUid toUid content timestamp rfl
    exact .inl (of_decide_eq_true htest)
  obtain ⟨visited, hrun⟩ := run_of_plays hok Db.empty_wellFormed hplays
  obtain ⟨row, hrow⟩ := List.exists_mem_of_ne_nil
    (played .empty registeredChatScript).world.db.messages (by decide +kernel)
  exact ⟨row, hrow, ((referential_integrity hrun.reaches).1.message row hrow).2⟩

/-- Ann is the only user, and sends a message to the second. -/
def earlyChatScript : List Act :=
  [.accept 0, .post 0 MSG_REGISTER_REQ (credentials "ann"), .serve 3,
    .post 0 MSG_LOGIN_REQ (credentials "ann"), .serve 7, .post 0 MSG_SEND_CHAT_REQ (chatBody 2), .serve 6]

/-- Without the condition a message for an unknown uid is stored, and whoever registers next finds it. -/
theorem referential_integrity_broken :
    (¬∀ state, ReachesFrom reference .empty (fun _ _ => True) state → Referential state.world.db) ∧
      ¬∀ state, ReachesFrom reference .empty (fun _ _ => True) state →
        ∀ sqlite username password db',
          registerUser reference sqlite username password state.world.db = (true, db') →
            ∀ row ∈ db'.messages, row.toUid ≠ db'.lastUid := by
  obtain ⟨hplays, hrow, hunknown, hbob, hlast⟩ :
      plays (fun _ _ => true) .empty earlyChatScript = true ∧
      (⟨1, 1, 2, ascii "hello", strftime Input.idle.tm, false⟩ : MessageRow)
        ∈ (played .empty earlyChatScript).world.db.messages ∧
      (2 : Int) ∉ (played .empty earlyChatScript).world.db.uids ∧
      (registerUser reference .fine (ascii "bob") (ascii "secret")
        (played .empty earlyChatScript).world.db).1 = true ∧
      (played .empty earlyChatScript).world.db.lastUid = 1 := by decide +kernel
  have hreach : ReachesFrom reference .empty (fun _ _ => True) (played .empty earlyChatScript) :=
    reachesFrom_of_plays Db.empty_wellFormed hplays
  refine ⟨fun h => ?_, fun h => ?_⟩
  · exact absurd ((h _ hreach).message _ hrow).2 hunknown
  · have hnone := h _ hreach .fine (ascii "bob") (ascii "secret")
    generalize (played .empty earlyChatScript).world.db = db at hbob hlast hnone hrow
    rcases registerUser_cases reference .fine db (ascii "bob") (ascii "secret")
      with hregister | hregister
    · rw [hregister] at hbob
      cases hbob
    · exact hnone _ hregister _ hrow (congrArg (· + 1) hlast).symm

end CoroutineServer
