import CoroutineServer.Proof.Ledger
import CoroutineServer.Scenario
import CoroutineServer.Proof.Traces

/-!
# Who acts

The identity a handler works with is the login uid of its session, read once at its start. Over every
run that uid is the user of the session's last successful login, except between `LoginUser` and
`SetLoginUid` of a login, where nobody reads it.
-/

namespace CoroutineServer

open Program CSession

variable {platform : Platform}

/-! ### The last login -/

theorem lastLogin_did {op : Op} {result : op.Ret}
    (hop : ∀ username password, op ≠ .loginUser username password) (session : Sid)
    (history : List Event) :
    lastLogin session (.did ⟨op, result⟩ :: history) = lastLogin session history := by
  cases op with
  | loginUser username password => exact absurd rfl (hop username password)
  | _ => rfl

theorem lastLogin_loginUser (username password : Bytes) (ok : Bool) (uid : Int) (session : Sid)
    (history : List Event) :
    lastLogin session (.did ⟨.loginUser username password, (ok, uid)⟩ :: history)
      = if ok = true ∧ (served history).map LogicNode.session = some session then some uid
        else lastLogin session history := by
  cases ok with
  | true =>
    rw [lastLogin]
    split_ifs with hsession hboth hboth
    · rfl
    · exact absurd ⟨rfl, hsession⟩ hboth
    · exact absurd hboth.2 hsession
    · rfl
  | false =>
    rw [if_neg (fun h => Bool.false_ne_true h.1)]
    rfl

/-- A login has succeeded in this handler, and has not set the login uid yet. -/
def LoginUnderway (trace : CallTrace) : Prop :=
  (∃ uid, LoginIn trace uid) ∧
    ∀ session uid, (⟨.setLoginUid session uid, ()⟩ : Call Op Op.Ret) ∉ trace

/-- The invariant: what the login uids, the identities handlers have read, and the logins of the
running handler say about the last logins. -/
structure Identity (world : World) : Prop where
  uidOf : ∀ session, world.uidOf session ≠ 0 →
    lastLogin session world.history = some (world.uidOf session) ∨
      (served world.history).map LogicNode.session = some session ∧ LoginUnderway world.trace
  captured : ∀ session uid, (⟨.getLoginUid session, uid⟩ : Call Op Op.Ret) ∈ world.trace → uid ≠ 0 →
    lastLogin session world.history = some uid
  login : ∀ uid, LoginIn world.trace uid →
    ∃ node, served world.history = some node ∧ lastLogin node.session world.history = some uid

namespace Identity

variable {world world' : World}

/-- The invariant survives a change that leaves the history alone and at most resets login uids. -/
theorem of_reset (h : Identity world) (hhistory : world'.history = world.history)
    (huid : ∀ session, world'.uidOf session = world.uidOf session ∨ world'.uidOf session = 0) :
    Identity world' := by
  have htrace : world'.trace = world.trace := by
    unfold World.trace
    rw [hhistory]
  refine ⟨fun session hsession => ?_, ?_, ?_⟩
  · rw [hhistory, htrace]
    rcases huid session with hsame | hzero
    · rw [hsame] at hsession ⊢
      exact h.uidOf session hsession
    · exact absurd hzero hsession
  · rw [hhistory, htrace]
    exact h.captured
  · rw [hhistory, htrace]
    exact h.login

theorem dispatched {node : LogicNode} (h : Identity world)
    (hfinished : ∀ node, served world.history = some node → Finished platform node world.trace) :
    Identity (world.record (.dispatched node)) := by
  refine ⟨fun session hsession => .inl ?_, fun session uid hmem => ?_, fun uid hlogin => ?_⟩
  · rcases h.uidOf session hsession with hlast | ⟨hserved, ⟨uid, hlogin⟩, hnoSet⟩
    · exact hlast
    · -- a finished login has set the uid
      obtain ⟨other, hother, -⟩ := Option.map_eq_some_iff.mp hserved
      obtain ⟨user, hset, -⟩ := registered_of_finished (hfinished other hother) hlogin
      exact absurd hset (hnoSet _ _)
  · cases hmem
  · obtain ⟨_, _, hmem⟩ := hlogin
    cases hmem

theorem uidOf_of_nil (h : Identity world) (htrace : world.trace = []) {session : Sid}
    (hsession : world.uidOf session ≠ 0) :
    lastLogin session world.history = some (world.uidOf session) := by
  rcases h.uidOf session hsession with hlast | ⟨-, ⟨uid, _, _, hmem⟩, -⟩
  · exact hlast
  · rw [htrace] at hmem
    cases hmem

theorem loginUser {node : LogicNode} {username password : Bytes} {ok : Bool} {uid : Int}
    (h : Identity world) (hserved : served world.history = some node) (htrace : world.trace = []) :
    Identity (world.record (.did ⟨.loginUser username password, (ok, uid)⟩)) := by
  refine ⟨fun session hsession => ?_, fun session user hmem => ?_, fun user hlogin => ?_⟩
  · rw [World.history_record, lastLogin_loginUser]
    split_ifs with hlogin
    · obtain ⟨rfl, hsame⟩ := hlogin
      refine .inr ⟨hsame, ⟨uid, username, password, List.mem_cons_self⟩, fun other user hmem => ?_⟩
      rw [World.trace_did, htrace] at hmem
      simp at hmem
    · exact .inl (h.uidOf_of_nil htrace hsession)
  · rw [World.trace_did, htrace] at hmem
    simp at hmem
  · refine ⟨node, hserved, ?_⟩
    obtain ⟨_, _, hmem⟩ := hlogin
    rw [World.trace_did, htrace] at hmem
    simp only [List.mem_singleton, Sigma.mk.injEq, Op.loginUser.injEq] at hmem
    obtain ⟨⟨rfl, rfl⟩, heq⟩ := hmem
    obtain ⟨rfl, rfl⟩ := Prod.mk.inj (eq_of_heq heq)
    rw [World.history_record, lastLogin_loginUser, if_pos ⟨rfl, by rw [hserved]; rfl⟩]

/-- An operation other than `LoginUser`, by what it does to the login uids. -/
theorem did {node : LogicNode} {op : Op} {result : op.Ret} (h : Identity world)
    (hserved : served world.history = some node) (hwarrant : Warrants platform node world.trace op)
    (hhistory : world'.history = world.history)
    (hop : ∀ username password, op ≠ .loginUser username password)
    (hset : ∀ session uid, op = .setLoginUid session uid → world'.uidOf session = uid)
    (huid : ∀ session, (∀ uid, op ≠ .setLoginUid session uid) →
      world'.uidOf session = world.uidOf session ∨ world'.uidOf session = 0)
    (hget : ∀ session, op = .getLoginUid session → HEq result (world.uidOf session)) :
    Identity (world'.record (.did ⟨op, result⟩)) := by
  have htrace : world'.trace = world.trace := by
    unfold World.trace
    rw [hhistory]
  refine ⟨fun session hsession => ?_, fun session uid hmem hne => ?_, fun uid hlogin => ?_⟩
  · rw [World.history_record, lastLogin_did hop, hhistory, World.uidOf_record]
    rw [World.uidOf_record] at hsession
    by_cases hthis : ∃ uid, op = .setLoginUid session uid
    · obtain ⟨uid, rfl⟩ := hthis
      obtain ⟨rfl, -, hkicked⟩ := hwarrant
      obtain ⟨other, hother, hlast⟩ := h.login uid (loginIn_of_kicked hkicked)
      obtain rfl := Option.some.inj (hserved.symm.trans hother)
      rw [hset _ _ rfl]
      exact .inl hlast
    · rcases huid session (fun uid heq => hthis ⟨uid, heq⟩) with hsame | hzero
      · rw [hsame] at hsession ⊢
        rcases h.uidOf session hsession with hlast | ⟨hserves, ⟨uid, hlogin⟩, hnoSet⟩
        · exact .inl hlast
        · refine .inr ⟨hserves, ⟨uid, ?_⟩, ?_⟩
          · rw [World.trace_did, htrace]
            exact (loginIn_cons hop).mpr hlogin
          · intro other user hmem
            rw [World.trace_did, htrace] at hmem
            rcases List.mem_cons.mp hmem with heq | hmem
            · obtain rfl := (Sigma.mk.inj heq).1
              obtain ⟨rfl, -⟩ := hwarrant
              rw [hserved] at hserves
              exact hthis ⟨user, by rw [← Option.some.inj hserves]⟩
            · exact hnoSet other user hmem
      · exact absurd hzero hsession
  · rw [World.history_record, lastLogin_did hop, hhistory]
    rw [World.trace_did, htrace] at hmem
    rcases List.mem_cons.mp hmem with heq | hmem
    · obtain ⟨rfl, heq⟩ := Sigma.mk.inj heq
      obtain rfl := eq_of_heq (heq.trans (hget session rfl))
      exact h.uidOf_of_nil hwarrant.2 hne
    · exact h.captured session uid hmem hne
  · rw [World.trace_did, htrace, loginIn_cons hop] at hlogin
    obtain ⟨other, hother, hlast⟩ := h.login uid hlogin
    refine ⟨other, by rw [World.history_record, served, hhistory]; exact hother, ?_⟩
    rw [World.history_record, lastLogin_did hop, hhistory]
    exact hlast

end Identity

theorem identity_perform {world : World} {node : LogicNode} (input : Input) (op : Op)
    (h : Identity world) (hserved : served world.history = some node)
    (hwarrant : Warrants platform node world.trace op) :
    Identity ((perform platform input op world).2.record
      (.did ⟨op, (perform platform input op world).1⟩)) := by
  by_cases hlogin : ∃ username password, op = .loginUser username password
  · obtain ⟨username, password, rfl⟩ := hlogin
    exact h.loginUser hserved hwarrant.2.1
  apply h.did hserved hwarrant (perform_history platform input op world)
    (fun username password heq => hlogin ⟨username, password, heq⟩)
  · rintro session uid rfl
    exact uidOf_setLoginUid platform input world session uid
  · intro session hset
    by_cases htake : op = .takeLoginUid session
    · rw [htake]
      exact .inr (uidOf_takeLoginUid platform input world session)
    · exact .inl (uidOf_perform platform input op world session hset htake)
  · rintro session rfl
    exact HEq.rfl

theorem identity_io {world : World} (session : Sid) (pos : ClosePos) (h : Identity world) :
    Identity (perform platform .idle (pos.op session) world).2 := by
  apply h.of_reset (perform_history platform .idle (pos.op session) world)
  intro other
  by_cases htake : pos.op session = .takeLoginUid other
  · rw [htake]
    exact .inr (uidOf_takeLoginUid platform .idle world other)
  · refine .inl (uidOf_perform platform .idle _ world other (fun uid => ?_) htake)
    cases pos <;> simp [ClosePos.op]

theorem identity_of_reaches {ok : Label → State → Prop} {state : State}
    (hreach : Reaches platform ok state) : Identity state.world := by
  apply invariant_of_moves (fun state => Identity state.world) hreach (fun _ => id)
  · rintro _ ⟨db, -, rfl⟩
    refine ⟨fun session hsession => absurd rfl hsession, fun session uid hmem => ?_, ?_⟩
    · cases hmem
    · rintro uid ⟨_, _, hmem⟩
      cases hmem
  · intro state state' h hquiet
    exact h.of_reset hquiet.history fun session => .inl (hquiet.uidOf session)
  · intro state node rest hreached h hidle
    exact h.dispatched ((grounded_of_reaches hreached).finished hidle)
  · intro state input op next node _ h _ _ hserved hwarrant
    exact identity_perform input op h hserved hwarrant
  · intro state thread session pos _ h _ _
    exact identity_io session pos h

/-! ### Actions -/

/-- The operations that act in the name of a user: to store a message or a friendship, to read or send
a friend list, to fetch the offline messages. -/
inductive ActsFor : Op → Int → Prop where
  | message (fromUid toUid : Int) (content timestamp : Bytes) :
      ActsFor (.saveMessage fromUid toUid content timestamp) fromUid
  | friend (uid friendUid : Int) : ActsFor (.addFriend uid friendUid) uid
  | readFriends (uid : Int) : ActsFor (.getFriendList uid) uid
  | sendFriends (session : Sid) (owner : Int) (friends : List Int) (sent : SendNode) :
      ActsFor (.push session (.friendList owner friends) sent) owner
  | offline (uid : Int) : ActsFor (.getOfflineMessages uid) uid

/-- An event is authentic: it acts for the user of the last successful login on the session it serves,
a friend list that goes out is the one read for its owner, and credentials come from the request. -/
def Authentic (platform : Platform) (event : Event) (earlier : List Event) : Prop :=
  ∀ call, event = .did call →
    (∀ uid, ActsFor call.1 uid →
      ∃ node, served earlier = some node ∧ lastLogin node.session earlier = some uid) ∧
    (∀ session owner friends sent, call.1 = .push session (.friendList owner friends) sent →
      (⟨.getFriendList owner, friends⟩ : Call Op Op.Ret) ∈ handlerTrace earlier) ∧
    ∀ username password, call.1 = .loginUser username password →
      ∃ node, served earlier = some node ∧ node.msgId = MSG_LOGIN_REQ ∧
        Presents platform node.data username password

theorem actsFor_lastLogin {world : World} {node : LogicNode} {op : Op} {uid : Int}
    (h : Identity world) (hserved : served world.history = some node)
    (hwarrant : Warrants platform node world.trace op) (hacts : ActsFor op uid) :
    lastLogin node.session world.history = some uid := by
  have hcaptured : (⟨.getLoginUid node.session, uid⟩ : Call Op Op.Ret) ∈ world.trace → uid ≠ 0 →
      lastLogin node.session world.history = some uid := h.captured node.session uid
  cases hacts with
  | message =>
    obtain ⟨huid, -, tm, -, htrace⟩ := hwarrant
    exact hcaptured (by simp [htrace]) huid
  | friend =>
    obtain ⟨huid, htrace⟩ := hwarrant
    exact hcaptured (by simp [htrace]) huid
  | readFriends =>
    obtain ⟨huid, htrace⟩ := hwarrant
    exact hcaptured (by simp [htrace]) huid
  | sendFriends =>
    obtain ⟨msgid, msg, before, htrace, hsends, -⟩ := hwarrant
    cases hsends with
    | friendList hreq huid => exact hcaptured (by simp [htrace]) huid
  | offline =>
    rcases hwarrant with ⟨-, huid, htrace⟩ | ⟨-, huid, kicked, hkicked, htrace⟩
    · exact hcaptured (by simp [htrace]) huid
    · obtain ⟨username, password, hmem⟩ := loginIn_of_kicked hkicked
      obtain ⟨other, hother, hlast⟩ := h.login uid ⟨username, password, by simp [htrace, hmem]⟩
      obtain rfl := Option.some.inj (hserved.symm.trans hother)
      exact hlast

theorem authentic_did {world : World} {node : LogicNode} {op : Op} {result : op.Ret}
    (h : Identity world) (hserved : served world.history = some node)
    (hwarrant : Warrants platform node world.trace op) :
    Authentic platform (.did ⟨op, result⟩) world.history := by
  intro call hcall
  obtain rfl := Event.did.inj hcall
  refine ⟨fun uid hacts => ⟨node, hserved, actsFor_lastLogin h hserved hwarrant hacts⟩, ?_, ?_⟩
  · rintro session owner friends sent rfl
    obtain ⟨msgid, msg, before, htrace, hsends, -⟩ := hwarrant
    cases hsends with
    | friendList hreq huid =>
      change _ ∈ world.trace
      simp [htrace]
  · rintro username password rfl
    exact ⟨node, hserved, hwarrant.1, hwarrant.2.2⟩

theorem authentic_of_reaches {ok : Label → State → Prop} {state : State}
    (hreach : Reaches platform ok state) :
    Throughout (Authentic platform) state.world.history := by
  apply throughout_of_moves _ hreach
  · intro node earlier call hcall
    cases hcall
  · intro state input op next node hreached _ _ hserved hwarrant
    exact authentic_did (identity_of_reaches hreached) hserved hwarrant

theorem actsFor_of_mem {ok : Label → State → Prop} {state : State} {call : Call Op Op.Ret} {uid : Int}
    (hreach : Reaches platform ok state) (hmem : Event.did call ∈ state.world.history)
    (hacts : ActsFor call.1 uid) :
    ∃ later earlier node, state.world.history = later ++ .did call :: earlier ∧
      served earlier = some node ∧ lastLogin node.session earlier = some uid := by
  obtain ⟨later, earlier, heq⟩ := List.append_of_mem hmem
  obtain ⟨node, hserved, hlast⟩ :=
    (throughout_iff.mp (authentic_of_reaches hreach) later _ earlier heq call rfl).1 uid hacts
  exact ⟨later, earlier, node, heq, hserved, hlast⟩

/-- **Actions are authentic.** In every run, whatever closes happen in between, each message and each
friendship that is inserted, each friend list that is read or sent and each fetch of offline messages is
for the user of the last successful login on the session whose request is served, and every login is
tried with the credentials of a login request. -/
theorem actions_authentic {db : Db} (hdb : db.WellFormed) {state : State}
    (hreach : ReachesFrom platform db (fun _ _ => True) state) :
    (∀ later event earlier, state.world.history = later ++ event :: earlier →
      Authentic platform event earlier) ∧
    (∀ row ∈ state.world.db.messages,
      (∃ old ∈ db.messages, { row with delivered := old.delivered } = old) ∨
        ∃ later content timestamp earlier node, state.world.history
            = later ++ .did ⟨.saveMessage row.fromUid row.toUid content timestamp, row.msgId⟩ :: earlier ∧
          served earlier = some node ∧ lastLogin node.session earlier = some row.fromUid) ∧
    ∀ row ∈ state.world.db.friends, row ∈ db.friends ∨
      ∃ later earlier node, state.world.history
          = later ++ .did ⟨.addFriend row.uid row.friendUid, true⟩ :: earlier ∧
        served earlier = some node ∧ lastLogin node.session earlier = some row.uid := by
  have hreaches : Reaches platform (fun _ _ => True) state :=
    hreach.mono (initial_of_eq hdb) fun _ _ => id
  refine ⟨throughout_iff.mp (authentic_of_reaches hreaches), fun row hrow => ?_, fun row hrow => ?_⟩
  · apply ((recorded_of_reaches hdb hreach).message row hrow).imp_right
    rintro ⟨content, timestamp, hmem⟩
    obtain ⟨later, earlier, node, h⟩ := actsFor_of_mem hreaches hmem (.message ..)
    exact ⟨later, content, timestamp, earlier, node, h⟩
  · apply ((recorded_of_reaches hdb hreach).friend row hrow).imp_right
    intro hmem
    exact actsFor_of_mem hreaches hmem (.friend ..)

theorem actions_authentic_chat :
    ∃ row ∈ (played quietDb chatScript).world.db.messages,
      ∃ later content timestamp earlier node, (played quietDb chatScript).world.history
          = later ++ .did ⟨.saveMessage row.fromUid row.toUid content timestamp, row.msgId⟩ :: earlier ∧
        served earlier = some node ∧ lastLogin node.session earlier = some row.fromUid := by
  have hreach : ReachesFrom reference quietDb (fun _ _ => True) (played quietDb chatScript) :=
    reachesFrom_of_plays quietDb_wellFormed (by decide +kernel)
  have hrow : (⟨1, 2, 1, ascii "hello", ascii "0000-00-00 00:00:00", false⟩ : MessageRow)
      ∈ (played quietDb chatScript).world.db.messages := by decide +kernel
  refine ⟨_, hrow, ((actions_authentic quietDb_wellFormed hreach).2.1 _ hrow).resolve_left ?_⟩
  rintro ⟨old, hold, -⟩
  cases hold

end CoroutineServer
