import CoroutineServer.Restart
import CoroutineServer.Proof.Mailbox
import CoroutineServer.Proof.Service
import CoroutineServer.Proof.SqliteFailures

/-!
# The server refines the service

The tables, read as accounts, friendships and mailboxes, go through the states of the service, and every
call on the database gets a reply that the service may give. This holds of every interleaving, whatever
SQLite calls fail and wherever the process ends and is started again.
-/

namespace CoroutineServer

open Program DBManager

variable {platform : Platform} {sqlite : Sqlite} {db : Db}

/-! ### One call -/

theorem service_enroll {username : Bytes} (hnew : username ∉ db.users.map UserRow.username)
    (passwordHash : Bytes) :
    ({ db with
      users := db.users ++ [⟨db.lastUid + 1, username, passwordHash⟩]
      lastUid := db.lastUid + 1 } : Db).service = db.service.enroll username passwordHash := by
  unfold Db.service Service.enroll
  congr 1
  funext name
  rw [Function.update_apply, List.find?_append]
  split_ifs with hname
  · have hnone : db.users.find? (fun user => user.username = name) = none :=
      List.find?_eq_none.mpr fun user huser heq =>
        hnew (List.mem_map.mpr ⟨user, huser, (of_decide_eq_true heq).trans hname⟩)
    rw [hnone, hname]
    simp
  · have hother : ¬username = name := fun h => hname h.symm
    simp [hother]

theorem account_eq_none {username : Bytes} (hnew : username ∉ db.users.map UserRow.username) :
    db.service.account username = none := by
  have hnone : db.users.find? (fun user => user.username = username) = none :=
    List.find?_eq_none.mpr fun user huser heq =>
      hnew (List.mem_map.mpr ⟨user, huser, of_decide_eq_true heq⟩)
  unfold Db.service
  dsimp only
  rw [hnone]
  rfl

theorem registered_of_mem (hkeyed : Keyed db) {uid : Int} (huid : uid ∈ db.uids) :
    db.service.Registered uid := by
  obtain ⟨user, huser, rfl⟩ := List.mem_map.mp huid
  cases hfind : db.users.find? fun other => other.username = user.username with
  | none => exact absurd (decide_eq_true rfl) (List.find?_eq_none.mp hfind user huser)
  | some other =>
    have hname : other.username = user.username := by simpa using List.find?_some hfind
    obtain rfl := hkeyed.eq_of_username (List.mem_of_find?_eq_some hfind) huser hname
    exact ⟨other.username, other.passwordHash, by
      unfold Db.service
      dsimp only
      rw [hfind]
      rfl⟩

theorem service_join (uid friendUid : Int) :
    ({ db with
      friends := db.friends ++ [⟨db.lastFriendId + 1, uid, friendUid⟩]
      lastFriendId := db.lastFriendId + 1 } : Db).service = db.service.join uid friendUid := by
  unfold Db.service Service.join
  congr 1
  funext one other
  simp only [List.mem_append, List.mem_singleton, or_and_right, exists_or, exists_eq_left, areFriends_iff]
  grind

theorem service_deliver {fromUid toUid : Int} {content timestamp : Bytes} :
    ({ db with
      messages := db.messages ++
        [⟨db.lastMsgId + 1, fromUid, toUid, content, timestamp, false⟩]
      lastMsgId := db.lastMsgId + 1 } : Db).service
        = db.service.deliver fromUid toUid (content, timestamp) := by
  unfold Db.service Service.deliver
  congr 1
  funext uid
  rw [Function.update_apply, List.filter_append, List.map_append]
  split_ifs with huid
  · rw [huid]
    simp [undelivered, MessageRow.letter]
  · have hother : ¬toUid = uid := fun h => huid h.symm
    simp [undelivered, hother]

theorem service_clear (uid : Int) :
    ({ db with messages := db.messages.map (markDelivered uid) } : Db).service = db.service.clear uid := by
  unfold Db.service Service.clear
  congr 1
  funext other
  rw [Function.update_apply]
  split_ifs with hother
  · rw [hother, List.map_eq_nil_iff]
    refine List.filter_eq_nil_iff.mpr fun row hrow => ?_
    obtain ⟨old, -, rfl⟩ := List.mem_map.mp hrow
    rw [undelivered_markDelivered]
    exact Bool.false_ne_true
  · rw [filter_markDelivered_of_ne (fun h => hother h.symm)]

/-! ### What each method replies -/

abbrev Acted (platform : Platform) (op : DbOp) (db : Db) (performed : op.Ret × Db) : Prop :=
  Service.Acts (op.request platform) db.service (op.reply platform performed.1) performed.2.service

theorem acts_registerUser (username password : Bytes) :
    Acted platform (.registerUser username password) db
      (registerUser platform sqlite username password db) := by
  unfold Acted
  rcases registerUser_cases platform sqlite db username password with h | h
  · rw [h]
    exact (rfl : db.service = db.service)
  · have hnew := registerUser_eq_true (congrArg Prod.fst h)
    rw [h]
    exact ⟨account_eq_none hnew, service_enroll hnew _⟩

theorem account_of_loginUser {username password : Bytes} {uid : Int}
    (h : loginUser platform sqlite username password db = (true, uid)) :
    db.service.account (cstr username) = some (uid, simpleHash platform password) := by
  unfold loginUser at h
  split_ifs at h
  · cases h
  · cases h
  · unfold Db.service
    dsimp only
    cases hfind : db.users.find? fun user => user.username = cstr username with
    | none =>
      rw [hfind] at h
      cases h
    | some user =>
      rw [hfind] at h
      dsimp only at h
      split_ifs at h with hhash
      · rw [hhash, ← (Prod.mk.inj h).2]
        rfl
      · cases h

theorem acts_loginUser (username password : Bytes) :
    Acted platform (.loginUser username password) db
      (loginUser platform sqlite username password db, db) := by
  refine ⟨rfl, fun user huser => ?_⟩
  cases hresult : loginUser platform sqlite username password db with
  | mk ok uid =>
    rw [hresult] at huser
    cases ok with
    | true =>
      obtain rfl := Option.some.inj huser
      exact account_of_loginUser hresult
    | false => cases huser

theorem acts_addFriend (hkeyed : Keyed db) (uid friendUid : Int) :
    Acted platform (.addFriend uid friendUid) db (addFriend sqlite uid friendUid db) := by
  unfold Acted
  rcases addFriend_cases sqlite db uid friendUid with h | h
  · rw [h]
    exact (rfl : db.service = db.service)
  · have htrue := congrArg Prod.fst h
    obtain ⟨huid, hfriend⟩ := addFriend_eq_true hkeyed htrue
    obtain ⟨⟨-, -, hne, -⟩, -⟩ := (addFriend_true_iff sqlite uid friendUid db).mp htrue
    rw [h]
    exact ⟨hne, registered_of_mem hkeyed huid, registered_of_mem hkeyed hfriend,
      service_join uid friendUid⟩

theorem acts_getFriendList (uid : Int) :
    Acted platform (.getFriendList uid) db (getFriendList sqlite uid db, db) := by
  refine ⟨rfl, fun friendUid hfriend => ?_⟩
  dsimp only [DbOp.reply] at hfriend
  unfold getFriendList at hfriend
  split_ifs at hfriend
  · cases hfriend
  · cases hfriend
  · have hmem := ((union_spec _).2 friendUid).mp (Sqlite.mem_of_mem_rows hfriend)
    rcases List.mem_append.mp hmem with hmem | hmem
    all_goals
      obtain ⟨row, hrow, rfl⟩ := List.mem_map.mp hmem
      obtain ⟨hrow, huid⟩ := List.mem_filter.mp hrow
      refine ⟨row, hrow, (areFriends_iff row).mpr ?_⟩
      rw [of_decide_eq_true huid]
      simp

theorem acts_saveMessage (hdb : db.WellFormed) (fromUid toUid : Int) (content timestamp : Bytes) :
    Acted platform (.saveMessage fromUid toUid content timestamp) db
      (saveMessage sqlite fromUid toUid content timestamp db) := by
  unfold Acted
  rcases saveMessage_cases sqlite db fromUid toUid content timestamp with h | h
  · rw [h]
    exact (rfl : db.service = db.service)
  · have hnonneg := hdb.lastMsgId_nonneg
    have hid : 0 ≤ db.lastMsgId + 1 := by omega
    rw [h]
    change Service.Acts (.post fromUid toUid (cstr content, cstr timestamp)) _
      (if 0 ≤ db.lastMsgId + 1 then some (db.lastMsgId + 1) else none) _
    rw [if_pos hid]
    exact ⟨rfl, service_deliver⟩

theorem acts_getOfflineMessages (uid : Int) :
    Acted platform (.getOfflineMessages uid) db (getOfflineMessages sqlite uid db) := by
  unfold Acted getOfflineMessages
  dsimp only
  have hinitialPart : sqlite.rows (db.messages.filter (undelivered uid))
      <+: db.messages.filter (undelivered uid) := by
    unfold Sqlite.rows
    split
    · exact List.prefix_refl _
    · exact List.take_prefix _ _
  split_ifs with _ _ hkept
  · exact ⟨List.nil_prefix, .inl rfl⟩
  · exact ⟨List.nil_prefix, .inl rfl⟩
  · exact ⟨hinitialPart.map _, .inl rfl⟩
  · refine ⟨hinitialPart.map _, .inr ⟨?_, service_clear uid⟩⟩
    exact fun hnil => hkept (.inl (List.map_eq_nil_iff.mp hnil))

/-! ### All lives -/

/-- The calls of all lives are requests that bring the service to where the tables stand. -/
structure Refining (platform : Platform) (chronicle : Chronicle) : Prop where
  reached : Reaches platform (fun _ _ => True) chronicle.state
  keyed : Keyed chronicle.db
  served : Service.Served (chronicle.calls.map (requestOf platform)) chronicle.db.service

theorem served_perform {world : World} {past : DbTrace} (input : Input) (op : Op)
    (hdb : world.db.WellFormed) (hkeyed : Keyed world.db)
    (h : Service.Served ((dbTrace world.history ++ past).map (requestOf platform)) world.db.service) :
    Service.Served
      ((dbTrace (.did ⟨op, (perform platform input op world).1⟩ :: world.history) ++ past).map
        (requestOf platform))
      (perform platform input op world).2.db.service := by
  cases op with
  | registerUser username password => exact .cons h (acts_registerUser username password)
  | loginUser username password => exact .cons h (acts_loginUser username password)
  | addFriend uid friendUid => exact .cons h (acts_addFriend hkeyed uid friendUid)
  | getFriendList uid => exact .cons h (acts_getFriendList uid)
  | saveMessage fromUid toUid content timestamp =>
    exact .cons h (acts_saveMessage hdb fromUid toUid content timestamp)
  | getOfflineMessages uid => exact .cons h (acts_getOfflineMessages uid)
  | _ =>
    rw [db_perform]
    · exact h
    all_goals intros; simp

namespace Refining

variable {chronicle : Chronicle}

theorem first : Refining platform .first where
  reached := .initial ⟨.empty, Db.empty_wellFormed, rfl⟩
  keyed := .empty
  served := by
    have hempty : Db.empty.service = Service.empty := by
      simp [Db.service, Db.empty, Service.empty]
    change Service.Served _ Db.empty.service
    rw [hempty]
    exact .nil

theorem restarted (h : Refining platform chronicle) : Refining platform chronicle.restarted where
  reached := .initial ⟨chronicle.db, (grounded_of_reaches h.reached).db, rfl⟩
  keyed := h.keyed
  served := h.served

theorem server {label : Label} {state : State} (h : Refining platform chronicle)
    (hstep : step platform label chronicle.state = some state) :
    Refining platform { chronicle with state } := by
  have hdb := (grounded_of_reaches h.reached).db
  have hreached : Reaches platform (fun _ _ => True) state := .next h.reached trivial hstep
  obtain ⟨hkeyed, hserved⟩ : Keyed state.world.db ∧ Service.Served
      ((dbTrace state.world.history ++ chronicle.past).map (requestOf platform)) state.world.db.service := by
    cases moved_of_step hstep with
    | quiet hquiet =>
      rw [hquiet.db, hquiet.history]
      exact ⟨h.keyed, h.served⟩
    | dispatch => exact ⟨h.keyed, h.served⟩
    | @work _ input op _ _ =>
      rw [history_workStep]
      exact ⟨keyed_perform input op h.keyed, served_perform input op hdb h.keyed h.served⟩
    | io =>
      rw [history_ioStep, db_ioStep]
      exact ⟨h.keyed, h.served⟩
  exact ⟨hreached, hkeyed, hserved⟩

end Refining

theorem refining_of_chronicles {chronicle : Chronicle} (hreach : Chronicles platform chronicle) :
    Refining platform chronicle := by
  induction hreach with
  | initial h =>
    rw [h]
    exact .first
  | @next chronicle _ label _ _ hstep ih =>
    cases label with
    | server label =>
      obtain ⟨state, hserver, rfl⟩ := Option.map_eq_some_iff.mp hstep
      exact ih.server hserver
    | restart =>
      obtain rfl := Option.some.inj hstep
      exact ih.restarted

/-- **The server refines the service.** In every chronicle of the server, over any number of lives that end
at any point, any interleaving of its threads and any failures of SQLite, the calls on the database are a
sequence of requests with replies that the service may give, and they bring it to where the tables stand:
accounts with one name each, a symmetric and irreflexive friendship of registered users, and mailboxes with
ascending ids of which no two share one. -/
theorem server_refines_service {chronicle : Chronicle} (hreach : Chronicles platform chronicle) :
    Service.Served (chronicle.calls.map (requestOf platform)) chronicle.db.service ∧
      chronicle.db.service.Sound :=
  have hserved := (refining_of_chronicles hreach).served
  ⟨hserved, Service.sound_of_served hserved⟩

/-! ### Where the answers of the database come from -/

/-- What a call on the database goes back to. -/
def Accountable (platform : Platform) (earlier : DbTrace) : DbCall → Prop
  | ⟨.loginUser username password, (true, _)⟩ => ∃ name secret,
      ⟨.registerUser name secret, true⟩ ∈ earlier ∧ cstr name = cstr username ∧
        simpleHash platform secret = simpleHash platform password
  | ⟨.getFriendList uid, (friends : List Int)⟩ => ∀ friendUid ∈ friends, Befriended earlier uid friendUid
  | ⟨.saveMessage _ _ _ _, (msgId : Int)⟩ => 0 ≤ msgId → ∀ fromUid toUid content timestamp other,
      ⟨.saveMessage fromUid toUid content timestamp, other⟩ ∈ earlier → other < msgId
  | ⟨.getOfflineMessages uid, (rows : List MessageRow)⟩ => ∀ row ∈ rows, ∃ content timestamp,
      ⟨.saveMessage row.fromUid uid content timestamp, row.msgId⟩ ∈ earlier ∧
        row.content = cstr content ∧ row.timestamp = cstr timestamp
  | _ => True

variable {calls : DbTrace}

theorem registered_of_mem_requests {name secret : Bytes}
    (h : ⟨.register name secret, true⟩ ∈ calls.map (requestOf platform)) :
    ∃ username password, ⟨.registerUser username password, true⟩ ∈ calls ∧ cstr username = name ∧
      simpleHash platform password = secret := by
  obtain ⟨⟨op, result⟩, hcall, heq⟩ := List.mem_map.mp h
  cases op with
  | registerUser username password =>
    cases heq
    exact ⟨username, password, hcall, rfl, rfl⟩
  | _ => cases heq

theorem added_of_mem_requests {uid friendUid : Int}
    (h : ⟨.befriend uid friendUid, true⟩ ∈ calls.map (requestOf platform)) :
    ⟨.addFriend uid friendUid, true⟩ ∈ calls := by
  obtain ⟨⟨op, result⟩, hcall, heq⟩ := List.mem_map.mp h
  cases op with
  | addFriend uid friendUid =>
    cases heq
    exact hcall
  | _ => cases heq

theorem saved_of_mem_requests {fromUid toUid msgId : Int} {text : Bytes × Bytes}
    (h : ⟨.post fromUid toUid text, some msgId⟩ ∈ calls.map (requestOf platform)) :
    ∃ content timestamp, ⟨.saveMessage fromUid toUid content timestamp, msgId⟩ ∈ calls ∧
      text = (cstr content, cstr timestamp) := by
  obtain ⟨⟨op, result⟩, hcall, heq⟩ := List.mem_map.mp h
  cases op with
  | saveMessage fromUid' toUid' content timestamp =>
    obtain ⟨hrequest, hreply⟩ := Sigma.mk.inj heq
    cases hrequest
    have hid : (if 0 ≤ (result : Int) then some (result : Int) else none) = some msgId := eq_of_heq hreply
    split_ifs at hid
    obtain rfl := Option.some.inj hid
    exact ⟨content, timestamp, hcall, rfl⟩
  | _ => cases heq

theorem Befriended.of_joined {uid friendUid : Int}
    (h : Service.Joined (calls.map (requestOf platform)) uid friendUid) : Befriended calls uid friendUid :=
  h.imp added_of_mem_requests added_of_mem_requests

theorem accountable_of_backed {call : DbCall}
    (h : Service.Backed (calls.map (requestOf platform)) (requestOf platform call)) :
    Accountable platform calls call := by
  obtain ⟨op, result⟩ := call
  cases op with
  | registerUser | addFriend => trivial
  | loginUser username password =>
    obtain ⟨ok, uid⟩ := result
    cases ok with
    | true => exact registered_of_mem_requests h
    | false => trivial
  | getFriendList uid => exact fun friendUid hfriend => .of_joined (h friendUid hfriend)
  | saveMessage fromUid toUid content timestamp =>
    intro hid fromUid' toUid' content' timestamp' other hother
    by_cases hnew : 0 ≤ other
    · change Service.Backed _ ⟨.post fromUid toUid _, if 0 ≤ (result : Int) then some result else none⟩ at h
      rw [if_pos hid] at h
      refine h fromUid' toUid' (cstr content', cstr timestamp') other (List.mem_map.mpr ⟨_, hother, ?_⟩)
      unfold requestOf
      dsimp only [DbOp.request, DbOp.reply]
      rw [if_pos hnew]
    · exact Int.lt_of_lt_of_le (Int.not_le.mp hnew) hid
  | getOfflineMessages uid =>
    intro row hrow
    obtain ⟨content, timestamp, hsaved, htext⟩ :=
      saved_of_mem_requests (h row.letter (List.mem_map_of_mem hrow))
    exact ⟨content, timestamp, hsaved, (Prod.mk.inj htext).1, (Prod.mk.inj htext).2⟩

/-- **Nothing the database answers is made up.** In every chronicle, over any number of lives and whatever
SQLite calls fail: a login that is accepted goes back to a registration of that name with a password of the
same hash, each friend in a list to a friendship one of the two has added, and each message that is handed
out to a `SaveMessage` of that sender to that user with that id and text. An id of a message is greater
than all ids before it. -/
theorem calls_accountable {chronicle : Chronicle} {call : DbCall} {later earlier : DbTrace}
    (hreach : Chronicles platform chronicle) (hcalls : chronicle.calls = later ++ call :: earlier) :
    Accountable platform earlier call := by
  have hserved := (refining_of_chronicles hreach).served
  rw [hcalls, List.map_append, List.map_cons] at hserved
  exact accountable_of_backed (Service.backed_of_served hserved)

/-! ### Two lives -/

/-- Ann and bob register and ann writes to bob; the server is started again, and bob logs in. -/
def twoLives : List LifeLabel :=
  (registeredChatScript.flatMap Act.labels).map .server ++ .restart ::
    ([.accept 0, .post 0 MSG_LOGIN_REQ (credentials "bob"), .serve 9].flatMap Act.labels).map .server

def secondLife : Chronicle := Reach.after (lifeStep reference) twoLives .first

theorem chronicles_secondLife : Chronicles reference secondLife :=
  .of_enabled rfl (by decide +kernel)

theorem server_refines_service_secondLife :
    Service.Served (secondLife.calls.map (requestOf reference)) secondLife.db.service ∧
      secondLife.db.service.Sound :=
  server_refines_service chronicles_secondLife

/-- The message of the first life is handed out to bob in the second. -/
theorem calls_accountable_secondLife :
    secondLife.db.messages.map (fun row => (row.msgId, row.delivered)) = [(1, true)] ∧
      ∃ call earlier, secondLife.calls = call :: earlier ∧ Accountable reference earlier call := by
  obtain ⟨call, earlier, hcalls⟩ :=
    List.exists_cons_of_length_pos (show 0 < secondLife.calls.length by decide +kernel)
  exact ⟨by decide +kernel, call, earlier, hcalls, calls_accountable chronicles_secondLife
    (show secondLife.calls = [] ++ call :: earlier from hcalls)⟩

end CoroutineServer
