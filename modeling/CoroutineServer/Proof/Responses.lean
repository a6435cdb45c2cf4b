import CoroutineServer.Proof.Traces
import CoroutineServer.Scenario

/-!
# Responses against the state

What a handler that runs alone has done to the tables, the online map and the login uids when it answers
with a status: nothing for minus one, and exactly the row that was asked for when it registers a user,
adds a friend or stores a message.
-/

namespace CoroutineServer

open Program

variable {platform : Platform}

/-- The worker's operations, recorded as it runs them. -/
def acting (platform : Platform) (inputs : Nat → Input) (n : Nat) (op : Op) (world : World) :
    op.Ret × World :=
  let performed := perform platform (inputs n) op world
  (performed.1, performed.2.record (.did ⟨op, performed.1⟩))

/-- What the world is after the worker has handled a message, with nothing else happening meanwhile. -/
def handled (platform : Platform) (inputs : Nat → Input) (node : LogicNode) (handler : Handler Unit)
    (world : World) : World :=
  handler.exec (acting platform inputs) 0 (world.record (.dispatched node))

/-- One recorded operation, for some outcome of SQLite and some time. -/
def Acts (platform : Platform) (op : Op) (world : World) (result : op.Ret) (world' : World) : Prop :=
  ∃ input, result = (perform platform input op world).1 ∧
    world' = (perform platform input op world).2.record (.did ⟨op, result⟩)

/-- The handling of a message is a run of the worker's steps, to the end of the handler. -/
theorem reaches_exec {inputs : Nat → Input} {handler : Handler Unit} {state : State}
    (hworker : state.worker = some handler) (n : Nat) :
    ∃ state', Reach.Reaches (step platform) (fun start => start = state) (fun _ _ => True) state' ∧
      state'.world = handler.exec (acting platform inputs) n state.world ∧
      ((∃ value, state'.worker = some (.ret value)) ∨ ∃ what, state'.worker = some (.throw what)) := by
  induction handler generalizing state n with
  | ret value => exact ⟨state, .initial rfl, rfl, .inl ⟨value, hworker⟩⟩
  | throw what => exact ⟨state, .initial rfl, rfl, .inr ⟨what, hworker⟩⟩
  | perform op next ih =>
    obtain ⟨state', hreach, hworld, hend⟩ :=
      ih _ (rfl : (workStep platform (inputs n) op next state).worker = some _) (n + 1)
    have hstep : step platform (.work (inputs n)) state
        = some (workStep platform (inputs n) op next state) := by
      rw [step, hworker]
    exact ⟨state', hreach.after trivial hstep, hworld, hend⟩

/-! ### What the calls change -/

/-- Calls that change no table, no entry and no login uid. -/
def Harmless : Call Op Op.Ret → Prop
  | ⟨.registerUser _ _, ok⟩ => ok = false
  | ⟨.addFriend _ _, ok⟩ => ok = false
  | ⟨.saveMessage _ _ _ _, msgId⟩ => msgId < 0
  | ⟨.getLoginUid _, _⟩ => True
  | ⟨.loadStop _ _ _, _⟩ => True
  | ⟨.push _ _ _, _⟩ => True
  | ⟨.loginUser _ _, _⟩ => True
  | ⟨.getFriendList _, _⟩ => True
  | ⟨.now, _⟩ => True
  | _ => False

/-- The lookup of a session, which may remove an expired entry. -/
def IsLookup (call : Call Op Op.Ret) : Prop := ∃ uid, call.1 = .getSessionByUid uid

/-- The call that inserts the row a request asks for. -/
inductive Inserts : Int → Call Op Op.Ret → Prop where
  | user (username password : Bytes) :
      Inserts MSG_REGISTER_REQ ⟨.registerUser username password, true⟩
  | friend (uid friendUid : Int) : Inserts MSG_ADD_FRIEND_REQ ⟨.addFriend uid friendUid, true⟩
  | message (fromUid toUid msgId : Int) (content timestamp : Bytes) (hsaved : 0 ≤ msgId) :
      Inserts MSG_SEND_CHAT_REQ ⟨.saveMessage fromUid toUid content timestamp, msgId⟩

/-- Tables, online map and login uids are exactly the same. -/
structure Unchanged (world world' : World) : Prop where
  db : world'.db = world.db
  onlineUsers : world'.onlineUsers = world.onlineUsers
  uidOf : ∀ session, world'.uidOf session = world.uidOf session

/-- Login uids are the same, and the online map is but for expired entries that have been removed. -/
structure SameUsers (world world' : World) : Prop where
  online : ∀ uid, world'.onlineUsers uid = world.onlineUsers uid ∨
    world'.onlineUsers uid = none ∧ ∃ session, world.onlineUsers uid = some session ∧
      (world.sessions session).expired = true
  uidOf : ∀ session, world'.uidOf session = world.uidOf session
  expired : ∀ session, (world'.sessions session).expired = (world.sessions session).expired

/-- One row has been inserted, under the next key of the table a request is about, and nothing else. -/
def OneRow (msgId : Int) (db db' : Db) : Prop :=
  (msgId = MSG_REGISTER_REQ ∧ ∃ row : UserRow, row.uid = db.lastUid + 1 ∧
    db' = { db with users := db.users ++ [row], lastUid := row.uid }) ∨
  (msgId = MSG_ADD_FRIEND_REQ ∧ ∃ row : FriendRow, row.id = db.lastFriendId + 1 ∧
    db' = { db with friends := db.friends ++ [row], lastFriendId := row.id }) ∨
  (msgId = MSG_SEND_CHAT_REQ ∧ ∃ row : MessageRow, row.msgId = db.lastMsgId + 1 ∧
    db' = { db with messages := db.messages ++ [row], lastMsgId := row.msgId })

theorem OneRow.lastMsgId_nonneg {msgId : Int} {db db' : Db} (h : OneRow msgId db db')
    (hlast : 0 ≤ db.lastMsgId) : 0 ≤ db'.lastMsgId := by
  rcases h with ⟨-, row, -, rfl⟩ | ⟨-, row, -, rfl⟩ | ⟨-, row, hid, rfl⟩
  · exact hlast
  · exact hlast
  · dsimp only
    omega

theorem SameUsers.refl (world : World) : SameUsers world world :=
  ⟨fun _ => .inl rfl, fun _ => rfl, fun _ => rfl⟩

theorem SameUsers.trans {first second third : World} (h : SameUsers first second)
    (h' : SameUsers second third) : SameUsers first third := by
  refine ⟨fun uid => ?_, fun session => (h'.uidOf session).trans (h.uidOf session),
    fun session => (h'.expired session).trans (h.expired session)⟩
  rcases h'.online uid with hsame | ⟨hnone, session, hsession, hexpired⟩
  · rw [hsame]
    exact h.online uid
  · rcases h.online uid with hsame | hremoved
    · rw [h.expired] at hexpired
      exact .inr ⟨hnone, session, hsame.symm.trans hsession, hexpired⟩
    · rw [hremoved.1] at hsession
      cases hsession

theorem harmless_ops {op : Op} {result : op.Ret} (h : Harmless ⟨op, result⟩) :
    (∀ session uid, op ≠ .setLoginUid session uid) ∧ (∀ session, op ≠ .takeLoginUid session) ∧
      (∀ uid session, op ≠ .addOnlineUser uid session) ∧ (∀ uid, op ≠ .removeOnlineUser uid) ∧
      ∀ uid, op ≠ .getSessionByUid uid := by
  cases op <;> first | exact h.elim | simp

theorem sameUsers_of_mild {input : Input} {op : Op} {result : op.Ret} {world : World}
    (hset : ∀ session uid, op ≠ .setLoginUid session uid) (htake : ∀ session, op ≠ .takeLoginUid session)
    (hadd : ∀ uid session, op ≠ .addOnlineUser uid session) (hremove : ∀ uid, op ≠ .removeOnlineUser uid)
    (hget : ∀ uid, op ≠ .getSessionByUid uid) :
    SameUsers world ((perform platform input op world).2.record (.did ⟨op, result⟩)) := by
  refine ⟨fun uid => .inl ?_, fun session => ?_, fun session => ?_⟩
  · rw [World.onlineUsers_record, onlineUsers_perform platform input op world hadd hremove hget]
  · exact uidOf_perform platform input op world session (hset session) (htake session)
  · exact expired_perform platform input op world session

theorem sameUsers_of_lookup {input : Input} {uid : Int} {result : Option Sid} {world : World} :
    SameUsers world ((perform platform input (.getSessionByUid uid) world).2.record
      (.did ⟨.getSessionByUid uid, result⟩)) := by
  refine ⟨fun other => ?_, fun session => ?_, fun session => ?_⟩
  · rw [World.onlineUsers_record, perform]
    by_cases huid : 0 < uid
    · rcases getSessionByUid_cases huid world with ⟨session, -, -, heq⟩ | ⟨_, heq, honline, hexpired⟩
      · rw [heq]
        exact .inl rfl
      · rw [heq, honline, Function.update_apply]
        split_ifs with hsame
        · subst hsame
          cases hentry : world.onlineUsers other with
          | none => exact .inl rfl
          | some session => exact .inr ⟨rfl, session, rfl, hexpired session hentry⟩
        · exact .inl rfl
    · unfold UserManager.getSessionByUid
      rw [if_pos (by omega)]
      exact .inl rfl
  · exact uidOf_perform platform input _ world session (by simp) (by simp)
  · exact expired_perform platform input _ world session

theorem sameUsers_of_acts {op : Op} {result : op.Ret} {world world' : World}
    (hacts : Acts platform op world result world')
    (hcall : Harmless ⟨op, result⟩ ∨ IsLookup ⟨op, result⟩ ∨ ∃ msgId, Inserts msgId ⟨op, result⟩) :
    SameUsers world world' := by
  obtain ⟨input, -, rfl⟩ := hacts
  rcases hcall with hharmless | ⟨uid, rfl⟩ | ⟨msgId, hinserts⟩
  · obtain ⟨hset, htake, hadd, hremove, hget⟩ := harmless_ops hharmless
    exact sameUsers_of_mild hset htake hadd hremove hget
  · exact sameUsers_of_lookup
  · cases hinserts <;>
      exact sameUsers_of_mild (by simp) (by simp) (by simp) (by simp) (by simp)

theorem db_of_acts {op : Op} {result : op.Ret} {world world' : World}
    (hlast : 0 ≤ world.db.lastMsgId) (hacts : Acts platform op world result world')
    (hcall : Harmless ⟨op, result⟩ ∨ IsLookup ⟨op, result⟩) : world'.db = world.db := by
  obtain ⟨input, hresult, rfl⟩ := hacts
  rw [World.db_record]
  rcases hcall with hharmless | ⟨uid, rfl⟩
  · cases op with
    | registerUser username password =>
      rw [perform] at hresult ⊢
      rcases DBManager.registerUser_cases platform input.sqlite world.db username password
        with heq | heq
      · rw [heq]
      · rw [heq] at hresult
        exact absurd (hresult.symm.trans hharmless) (by simp)
    | addFriend uid friendUid =>
      rw [perform] at hresult ⊢
      rcases DBManager.addFriend_cases input.sqlite world.db uid friendUid with heq | heq
      · rw [heq]
      · rw [heq] at hresult
        exact absurd (hresult.symm.trans hharmless) (by simp)
    | saveMessage fromUid toUid content timestamp =>
      rw [perform] at hresult ⊢
      rcases DBManager.saveMessage_cases input.sqlite world.db fromUid toUid content timestamp
        with heq | heq
      · rw [heq]
      · rw [heq] at hresult
        have hnegative : world.db.lastMsgId + 1 < 0 := by
          rw [show world.db.lastMsgId + 1 = result from hresult.symm]
          exact hharmless
        omega
    | getOfflineMessages uid => exact hharmless.elim
    | _ => rw [db_perform] <;> simp
  · rw [db_perform] <;> simp

theorem oneRow_of_acts {op : Op} {result : op.Ret} {world world' : World} {msgId : Int}
    (hacts : Acts platform op world result world') (hinserts : Inserts msgId ⟨op, result⟩) :
    OneRow msgId world.db world'.db := by
  obtain ⟨input, hresult, rfl⟩ := hacts
  rw [World.db_record]
  cases hinserts with
  | user username password =>
    rw [perform] at hresult ⊢
    rcases DBManager.registerUser_cases platform input.sqlite world.db username password
      with heq | heq
    · rw [heq] at hresult
      cases hresult
    · rw [heq]
      exact .inl ⟨rfl, _, rfl, rfl⟩
  | friend uid friendUid =>
    rw [perform] at hresult ⊢
    rcases DBManager.addFriend_cases input.sqlite world.db uid friendUid with heq | heq
    · rw [heq] at hresult
      cases hresult
    · rw [heq]
      exact .inr (.inl ⟨rfl, _, rfl, rfl⟩)
  | message fromUid toUid savedId content timestamp hsaved =>
    rw [perform] at hresult ⊢
    rcases DBManager.saveMessage_cases input.sqlite world.db fromUid toUid content timestamp
      with heq | heq
    · rw [heq] at hresult
      have hid : savedId = -1 := hresult
      omega
    · rw [heq]
      exact .inr (.inr ⟨rfl, _, rfl, rfl⟩)

section Traces

variable {start world : World} {trace : CallTrace}

theorem db_of_performed (h : Performed (Acts platform) start trace world)
    (hlast : 0 ≤ start.db.lastMsgId)
    (hcalls : ∀ call ∈ trace, Harmless call ∨ IsLookup call) : world.db = start.db := by
  refine h.chain (R := fun world world' => 0 ≤ world.db.lastMsgId → world'.db = world.db)
    (fun _ _ => rfl) (fun first second third h h' hlast => ?_)
    (fun call hcall world world' hacts hlast => db_of_acts hlast hacts (hcalls call hcall)) hlast
  have hsame := h hlast
  rw [← hsame] at hlast
  exact (h' hlast).trans hsame

theorem sameUsers_of_performed (h : Performed (Acts platform) start trace world)
    (hcalls : ∀ call ∈ trace, Harmless call ∨ IsLookup call ∨ ∃ msgId, Inserts msgId call) :
    SameUsers start world :=
  h.chain SameUsers.refl (fun _ _ _ h h' => h.trans h')
    fun call hcall _ _ hacts => sameUsers_of_acts hacts (hcalls call hcall)

theorem unchanged_of_performed (h : Performed (Acts platform) start trace world)
    (hlast : 0 ≤ start.db.lastMsgId) (hcalls : ∀ call ∈ trace, Harmless call) :
    Unchanged start world := by
  refine ⟨db_of_performed h hlast fun call hcall => .inl (hcalls call hcall), ?_,
    (sameUsers_of_performed h fun call hcall => .inl (hcalls call hcall)).uidOf⟩
  refine h.chain (R := fun world world' => world'.onlineUsers = world.onlineUsers) (fun _ => rfl)
    ?_ fun call hcall world world' hacts => ?_
  · intro first second third h h'
    exact Eq.trans h' h
  obtain ⟨input, -, rfl⟩ := hacts
  obtain ⟨-, -, hadd, hremove, hget⟩ := harmless_ops (hcalls call hcall)
  rw [World.onlineUsers_record, onlineUsers_perform platform input call.1 world hadd hremove hget]

theorem trace_of_performed (h : Performed (Acts platform) start trace world) :
    world.trace = trace ++ start.trace := by
  induction h with
  | nil => rfl
  | cons _ hacts ih =>
    obtain ⟨input, -, rfl⟩ := hacts
    rw [World.trace_did, trace_perform, ih]
    rfl

theorem oneRow_of_performed {later earlier : CallTrace} {call : Call Op Op.Ret} {msgId : Int}
    (h : Performed (Acts platform) start (later ++ call :: earlier) world)
    (hlast : 0 ≤ start.db.lastMsgId) (hinserts : Inserts msgId call)
    (hlater : ∀ call ∈ later, Harmless call ∨ IsLookup call)
    (hearlier : ∀ call ∈ earlier, Harmless call ∨ IsLookup call) :
    OneRow msgId start.db world.db := by
  obtain ⟨middle, hmiddle, hrest⟩ := h.split
  cases hmiddle with
  | @cons op result _ before _ hbefore hacts =>
    have hsame : before.db = start.db := db_of_performed hbefore hlast hearlier
    have hrow := oneRow_of_acts hacts hinserts
    rw [hsame] at hrow
    rw [db_of_performed hrest (hrow.lastMsgId_nonneg hlast) hlater]
    exact hrow

end Traces

/-! ### What the handlers have called when they answer -/

theorem harmless_of_sent {session : Sid} {payload : Payload} {msgid : Int} {part : CallTrace}
    (hpart : Sent platform session payload msgid part) : ∀ call ∈ part, Harmless call := by
  intro call hcall
  rcases mem_sent hpart hcall with ⟨stopped, rfl⟩ | ⟨sent, accepted, rfl⟩ <;> trivial

theorem status_of_sends {node : LogicNode} {trace : CallTrace} {session target : Sid}
    {payload earlier : Payload} {msgid id : Int} {stopped : Bool}
    (hsends : Sends platform node trace session payload msgid)
    (hmem : (⟨.loadStop target earlier id, stopped⟩ : Call Op Op.Ret) ∈ trace) :
    earlier.status = none ∨ node.msgId = MSG_LOGIN_REQ ∧ earlier.status = some 0 := by
  have hsent : ∀ {other pushed what part}, Sent platform other pushed what part →
      (⟨.loadStop target earlier id, stopped⟩ : Call Op Op.Ret) ∈ part → earlier = pushed := by
    intro other pushed what part hpart hmem
    rcases mem_sent hpart hmem with ⟨_, heq⟩ | ⟨_, _, heq⟩
    · exact (Op.loadStop.inj (Sigma.mk.inj heq).1).2.1
    · cases (Sigma.mk.inj heq).1
  cases hsends with
  | refusal hrsp huntouched => rcases huntouched with rfl | ⟨user, rfl⟩ <;> simp at hmem
  | loginBatch hreq huid hkicked hrows =>
    simp only [loginTrace, List.mem_cons, Sigma.mk.injEq, reduceCtorEq, false_and, false_or] at hmem
    exact (dealsWithOld_of_kicked hkicked hmem).elim
  | loginNoBatch hreq huid hkicked =>
    simp only [loginTrace, List.mem_cons, Sigma.mk.injEq, reduceCtorEq, false_and, false_or] at hmem
    exact (dealsWithOld_of_kicked hkicked hmem).elim
  | loginAfterBatch hreq huid hkicked hrows hpart =>
    rcases List.mem_append.mp hmem with hmem | hmem
    · rw [hsent hpart hmem]
      exact .inr ⟨hreq, rfl⟩
    · simp only [loginTrace, List.mem_cons, Sigma.mk.injEq, reduceCtorEq, false_and, false_or] at hmem
      exact (dealsWithOld_of_kicked hkicked hmem).elim
  | friendAfterPush hreq huid hpart =>
    rcases List.mem_append.mp hmem with hmem | hmem
    · rw [hsent hpart hmem]
      exact .inl rfl
    · simp [friendTrace] at hmem
  | chatAfterPush hreq huid hsaved hpart =>
    rcases List.mem_append.mp hmem with hmem | hmem
    · rw [hsent hpart hmem]
      exact .inl rfl
    · simp [chatTrace] at hmem
  | _ => simp [friendTrace, chatTrace] at hmem

/-- **A handler that answers minus one has changed nothing.** -/
theorem harmless_of_failed {node : LogicNode} {trace : CallTrace} {session : Sid} {payload : Payload}
    {msgid : Int} (hsends : Sends platform node trace session payload msgid)
    (hstatus : payload.status = some (-1)) : ∀ call ∈ trace, Harmless call := by
  cases hsends with
  | refusal hrsp huntouched =>
    rcases huntouched with rfl | ⟨user, rfl⟩ <;> simp [Harmless]
  | @registered username password ok hreq =>
    cases ok with
    | true => simp [Payload.status] at hstatus
    | false => simp [Harmless]
  | loginFailed => simp [Harmless]
  | friendFailed => simp [friendTrace, Harmless]
  | chatFailed hreq huid hfailed => simp [chatTrace, Harmless, hfailed]
  | chatOffline hreq huid hsaved => simp [Payload.status, hsaved] at hstatus
  | chatAfterPush hreq huid hsaved => simp [Payload.status, hsaved] at hstatus
  | _ => simp [Payload.status] at hstatus

/-- **A handler that inserts and answers zero has inserted once.** -/
theorem inserts_of_ok {node : LogicNode} {trace : CallTrace} {session : Sid} {payload : Payload}
    {msgid : Int} (hsends : Sends platform node trace session payload msgid)
    (hstatus : payload.status = some 0) (hreq : node.msgId = MSG_REGISTER_REQ ∨
      node.msgId = MSG_ADD_FRIEND_REQ ∨ node.msgId = MSG_SEND_CHAT_REQ) :
    ∃ later call earlier, trace = later ++ call :: earlier ∧ Inserts node.msgId call ∧
      (∀ call ∈ later, Harmless call ∨ IsLookup call) ∧
      ∀ call ∈ earlier, Harmless call ∨ IsLookup call := by
  have hlogin : node.msgId ≠ MSG_LOGIN_REQ := by
    rcases hreq with h | h | h <;> rw [h] <;> decide
  have hlist : node.msgId ≠ MSG_GET_FRIEND_LIST_REQ := by
    rcases hreq with h | h | h <;> rw [h] <;> decide
  have hoffline : node.msgId ≠ MSG_OFFLINE_MSG_REQ := by
    rcases hreq with h | h | h <;> rw [h] <;> decide
  have hsent : ∀ {session payload msgid part}, Sent platform session payload msgid part →
      ∀ call ∈ part, Harmless call ∨ IsLookup call :=
    fun hpart call hcall => .inl (harmless_of_sent hpart call hcall)
  cases hsends with
  | refusal hrsp huntouched => simp [LogicSystem.errorResponse, Payload.status] at hstatus
  | @registered username password ok hmsg =>
    cases ok with
    | false => simp [Payload.status] at hstatus
    | true =>
      refine ⟨[], _, [], rfl, ?_, by simp, by simp⟩
      rw [hmsg]
      exact .user username password
  | loginFailed hmsg => exact absurd hmsg hlogin
  | loginBatch hmsg => exact absurd hmsg hlogin
  | loginNoBatch hmsg => exact absurd hmsg hlogin
  | loginAfterBatch hmsg => exact absurd hmsg hlogin
  | friendList hmsg => exact absurd hmsg hlist
  | offlineBatch hmsg => exact absurd hmsg hoffline
  | @friendOffline uid friendUid hmsg =>
    refine ⟨[_], _, [_], rfl, ?_, by simp [IsLookup], by simp [Harmless]⟩
    rw [hmsg]
    exact .friend uid friendUid
  | @friendAfterPush uid friendUid friend part hmsg huid hpart =>
    refine ⟨part ++ [⟨.getSessionByUid friendUid, some friend⟩], ⟨.addFriend uid friendUid, true⟩,
      [⟨.getLoginUid node.session, uid⟩], ?_, ?_, ?_, by simp [Harmless]⟩
    · rw [List.append_assoc]
      rfl
    · rw [hmsg]
      exact .friend uid friendUid
    · intro call hcall
      rcases List.mem_append.mp hcall with hcall | hcall
      · exact hsent hpart call hcall
      · obtain rfl := List.mem_singleton.mp hcall
        exact .inr ⟨friendUid, rfl⟩
  | @chatOffline msgId fromUid toUid content tm hmsg huid hsaved =>
    refine ⟨[_], _, [_, _], rfl, ?_, by simp [IsLookup], by simp [Harmless]⟩
    rw [hmsg]
    exact .message fromUid toUid msgId content _ hsaved
  | @chatAfterPush msgId fromUid toUid content tm recipient part hmsg huid hsaved hpart =>
    refine ⟨part ++ [⟨.getSessionByUid toUid, some recipient⟩],
      ⟨.saveMessage fromUid toUid content (strftime tm), msgId⟩,
      [⟨.now, tm⟩, ⟨.getLoginUid node.session, fromUid⟩], ?_, ?_, ?_, by simp [Harmless]⟩
    · rw [List.append_assoc]
      rfl
    · rw [hmsg]
      exact .message fromUid toUid msgId content _ hsaved
    · intro call hcall
      rcases List.mem_append.mp hcall with hcall | hcall
      · exact hsent hpart call hcall
      · obtain rfl := List.mem_singleton.mp hcall
        exact .inr ⟨toUid, rfl⟩
  | chatFailed hmsg huid hfailed => simp [Payload.status, Int.not_le.mpr hfailed] at hstatus
  | _ => simp [Payload.status] at hstatus

/-! ### Whole handlers -/

variable {node : LogicNode}

theorem performed_of_handled {handler : Handler Unit} {world : World} (hdb : world.db.WellFormed)
    (hcallback : LogicSystem.callback platform node = some handler) (inputs : Nat → Input) :
    ∃ trace, Finished platform node trace ∧
      Performed (Acts platform) (world.record (.dispatched node)) trace
        (handled platform inputs node handler world) ∧
      (handled platform inputs node handler world).trace = trace := by
  obtain ⟨trace, hperformed, ⟨-, hfinished⟩ | ⟨-, hraised⟩⟩ :=
    (callback_outline hcallback).exec (Acts platform) (acting platform inputs)
      (fun world => world.db.WellFormed) (fun n op world => ⟨inputs n, rfl, rfl⟩)
      (fun op world result world' hworld hacts => by
        obtain ⟨input, rfl, -⟩ := hacts
        exact admits_perform platform input op world hworld)
      (fun op world result world' trace hworld hwarrant hacts => by
        obtain ⟨input, -, rfl⟩ := hacts
        exact db_perform_wellFormed platform input op world hworld hwarrant)
      (.nil : Performed (Acts platform) (world.record (.dispatched node)) [] _) hdb 0
  · refine ⟨trace, hfinished, hperformed, ?_⟩
    exact (trace_of_performed hperformed).trans (List.append_nil trace)
  · exact hraised.elim

/-- **Each response tells the truth about the state.** From every reachable state between two handlers,
for every message and whatever SQLite does: when the handler answers with status minus one, tables,
online map and login uids are exactly as before; when it answers a registration, a friend request or a
chat request with status zero, it has inserted one row into the table in question, and all else is as
before but for expired entries of the online map. -/
theorem responses_truthful {ok : Label → State → Prop} {state : State}
    (hreach : Reaches platform ok state) {handler : Handler Unit}
    (hcallback : LogicSystem.callback platform node = some handler) (inputs : Nat → Input)
    {session : Sid} {payload : Payload} {msgid : Int} {stopped : Bool}
    (hbuilt : (⟨.loadStop session payload msgid, stopped⟩ : Call Op Op.Ret)
      ∈ (handled platform inputs node handler state.world).trace) :
    (payload.status = some (-1) →
      Unchanged state.world (handled platform inputs node handler state.world)) ∧
    (payload.status = some 0 → (node.msgId = MSG_REGISTER_REQ ∨ node.msgId = MSG_ADD_FRIEND_REQ ∨
        node.msgId = MSG_SEND_CHAT_REQ) →
      OneRow node.msgId state.world.db (handled platform inputs node handler state.world).db ∧
        SameUsers state.world (handled platform inputs node handler state.world)) := by
  have hdb := (grounded_of_reaches hreach).db
  obtain ⟨trace, hfinished, hperformed, htrace⟩ := performed_of_handled hdb hcallback inputs
  rw [htrace] at hbuilt
  rcases hfinished with ⟨rfl, -⟩ | ⟨part, before, target, answer, id, rfl, hpart, hsends, -⟩
  · cases hbuilt
  have hanswer : payload = answer ∨ payload.status = none ∨
      node.msgId = MSG_LOGIN_REQ ∧ payload.status = some 0 := by
    rcases List.mem_append.mp hbuilt with hmem | hmem
    · rcases mem_sent hpart hmem with ⟨_, heq⟩ | ⟨_, _, heq⟩
      · exact .inl (Op.loadStop.inj (Sigma.mk.inj heq).1).2.1
      · cases (Sigma.mk.inj heq).1
    · exact .inr (status_of_sends hsends hmem)
  refine ⟨fun hstatus => ?_, fun hstatus hreq => ?_⟩
  · have hstatus : answer.status = some (-1) := by
      rcases hanswer with rfl | hnone | ⟨-, hzero⟩
      · exact hstatus
      · rw [hstatus] at hnone
        cases hnone
      · rw [hstatus] at hzero
        cases hzero
    obtain ⟨hsame, honline, huid⟩ :=
      unchanged_of_performed hperformed hdb.lastMsgId_nonneg fun call hcall => by
        rcases List.mem_append.mp hcall with hcall | hcall
        · exact harmless_of_sent hpart call hcall
        · exact harmless_of_failed hsends hstatus call hcall
    exact ⟨hsame, honline, huid⟩
  · have hstatus : answer.status = some 0 := by
      rcases hanswer with rfl | hnone | ⟨hlogin, -⟩
      · exact hstatus
      · rw [hstatus] at hnone
        cases hnone
      · rw [hlogin] at hreq
        exact absurd hreq (by decide)
    obtain ⟨later, call, earlier, rfl, hinserts, hlater, hearlier⟩ := inserts_of_ok hsends hstatus hreq
    have hrest : ∀ call ∈ part ++ later, Harmless call ∨ IsLookup call := by
      intro call hcall
      rcases List.mem_append.mp hcall with hcall | hcall
      · exact .inl (harmless_of_sent hpart call hcall)
      · exact hlater call hcall
    rw [← List.append_assoc] at hperformed
    have hrow := oneRow_of_performed hperformed hdb.lastMsgId_nonneg hinserts hrest hearlier
    have husers := sameUsers_of_performed hperformed fun other hother => by
      rcases List.mem_append.mp hother with hother | hother
      · exact (hrest other hother).imp_right .inl
      · rcases List.mem_cons.mp hother with rfl | hother
        · exact .inr (.inr ⟨_, hinserts⟩)
        · exact (hearlier other hother).imp_right .inl
    exact ⟨hrow, husers.online, husers.uidOf, husers.expired⟩

/-- The statuses of the bodies a handler has built, newest first. -/
def builtStatuses : CallTrace → List (Option Int)
  | [] => []
  | ⟨.loadStop _ payload _, _⟩ :: earlier => payload.status :: builtStatuses earlier
  | _ :: earlier => builtStatuses earlier

theorem built_of_mem {status : Option Int} {trace : CallTrace} (h : status ∈ builtStatuses trace) :
    ∃ session payload msgid, ∃ stopped : Bool, payload.status = status ∧
      (⟨.loadStop session payload msgid, stopped⟩ : Call Op Op.Ret) ∈ trace := by
  induction trace with
  | nil => cases h
  | cons call trace ih =>
    rw [builtStatuses.eq_def] at h
    split at h
    · contradiction
    · next heq =>
      obtain ⟨rfl, rfl⟩ := List.cons.inj heq
      rcases List.mem_cons.mp h with rfl | h
      · exact ⟨_, _, _, _, rfl, List.mem_cons_self⟩
      · obtain ⟨session, payload, msgid, stopped, hstatus, hmem⟩ := ih h
        exact ⟨session, payload, msgid, stopped, hstatus, List.mem_cons_of_mem _ hmem⟩
    · next heq =>
      obtain ⟨-, rfl⟩ := List.cons.inj heq
      obtain ⟨session, payload, msgid, stopped, hstatus, hmem⟩ := ih h
      exact ⟨session, payload, msgid, stopped, hstatus, List.mem_cons_of_mem _ hmem⟩

/-- A registration for dan, after ann and bob have talked. -/
def danNode : LogicNode := ⟨0, MSG_REGISTER_REQ, render (credentials "dan")⟩

theorem responses_truthful_registration :
    OneRow MSG_REGISTER_REQ (played quietDb chatScript).world.db
      (handled reference (fun _ => .idle) danNode
        (LogicSystem.registerRequest reference danNode.session danNode.data)
        (played quietDb chatScript).world).db := by
  obtain ⟨session, payload, msgid, stopped, hstatus, hbuilt⟩ :
      ∃ session payload msgid, ∃ stopped : Bool, payload.status = some 0 ∧
        (⟨.loadStop session payload msgid, stopped⟩ : Call Op Op.Ret)
          ∈ (handled reference (fun _ => .idle) danNode
            (LogicSystem.registerRequest reference danNode.session danNode.data)
            (played quietDb chatScript).world).trace := built_of_mem (by decide +kernel)
  exact ((responses_truthful (reached_of_plays quietDb_wellFormed (by decide +kernel)) rfl _ hbuilt).2
    hstatus (.inl rfl)).1

end CoroutineServer
