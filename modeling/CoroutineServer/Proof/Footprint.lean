import CoroutineServer.Proof.Transactions
import CoroutineServer.Proof.Authenticity
import CoroutineServer.Proof.Sending

/-!
# What a request can touch

A table of the operations that each kind of request can come to, with the sessions they are about. It is
checked of each handler once; over the runs it says of every change of the shared state which request, or
which other thread, has made it.
-/

namespace CoroutineServer

open Program LogicSystem CSession

variable {platform : Platform} {node : LogicNode}

/-! ### The table -/

/-- The request that a payload is pushed for; the other payloads answer the session that asks. -/
def Payload.pushedBy : Payload → Option Int
  | .friendRequestPush _ _ => some MSG_ADD_FRIEND_REQ
  | .chatMsgPush _ _ _ _ _ => some MSG_SEND_CHAT_REQ
  | _ => none

/-- An answer goes to the session that asks, a push to any session. -/
def Delivers (node : LogicNode) (session : Sid) (payload : Payload) : Prop :=
  match payload.pushedBy with
  | none => session = node.session
  | some msgId => node.msgId = msgId

/-- The requests that look a session up. -/
def LooksUp (msgId : Int) : Prop :=
  msgId = MSG_LOGIN_REQ ∨ msgId = MSG_ADD_FRIEND_REQ ∨ msgId = MSG_SEND_CHAT_REQ

/-- The requests that mark messages as delivered. -/
def Fetches (msgId : Int) : Prop := msgId = MSG_LOGIN_REQ ∨ msgId = MSG_OFFLINE_MSG_REQ

/-- **The footprint of a request.** -/
def May (node : LogicNode) : Op → Prop
  | .getLoginUid session => session = node.session
  | .setLoginUid session _ => node.msgId = MSG_LOGIN_REQ ∧ session = node.session
  | .addOnlineUser _ session => node.msgId = MSG_LOGIN_REQ ∧ session = node.session
  | .takeLoginUid _ | .casStop _ | .removeOnlineUser _ => node.msgId = MSG_LOGIN_REQ
  | .loadStop session payload _ => Delivers node session payload
  | .push session payload _ => Delivers node session payload
  | .getSessionByUid _ => LooksUp node.msgId
  | .registerUser _ _ => node.msgId = MSG_REGISTER_REQ
  | .loginUser _ _ => node.msgId = MSG_LOGIN_REQ
  | .addFriend _ _ => node.msgId = MSG_ADD_FRIEND_REQ
  | .getFriendList _ => node.msgId = MSG_GET_FRIEND_LIST_REQ
  | .saveMessage _ _ _ _ => node.msgId = MSG_SEND_CHAT_REQ
  | .getOfflineMessages _ => Fetches node.msgId
  | .now => node.msgId = MSG_SEND_CHAT_REQ

/-- No trace is asked for: the table is about single operations. -/
def footprint (node : LogicNode) : Rules Op Op.Ret where
  Admits := fun _ _ => True
  Warrants := fun _ op => May node op

/-- Whatever the operations return, the program comes to none that is not in the table. -/
abbrev Confined (node : LogicNode) {α : Type} (prog : Handler α) (trace : CallTrace) : Prop :=
  Outline (footprint node) (fun _ _ => True) (fun _ _ => True) prog trace

/-! ### The handlers -/

section Handlers

variable {trace : CallTrace}

theorem confined_bind {α β : Type} {prog : Handler α} {rest : α → Handler β} (h : Confined node prog trace)
    (hrest : ∀ value trace, Confined node (rest value) trace) : Confined node (prog >>= rest) trace :=
  Outline.bind (h.mono (fun trace value _ => hrest value trace) fun _ _ h => h)

theorem confined_call {β : Type} (op : Op) {rest : op.Ret → Handler β} (h : May node op)
    (hrest : ∀ result trace, Confined node (rest result) trace) : Confined node (call op >>= rest) trace :=
  Outline.call_bind h fun result _ => hrest result _

theorem confined_field {α β : Type} {root : Json} {key : String} {get : Json → Except Exn α}
    {rest : α → Handler β} (hrest : ∀ value, Confined node (rest value) trace) :
    Confined node (field root key get >>= rest) trace :=
  Outline.ofExcept_bind (fun value _ => hrest value) fun _ _ => trivial

theorem confined_send {session : Sid} {payload : Payload} {msgid : Int} (h : Delivers node session payload) :
    Confined node (CSession.send platform session payload msgid) trace := by
  unfold CSession.send
  refine Outline.ofExcept_bind (fun msg _ => ?_) fun _ _ => trivial
  apply confined_call (.loadStop session payload msgid) h
  intro stopped trace
  cases stopped with
  | true => trivial
  | false =>
    rw [if_neg (by simp)]
    cases sendNode msg msgid with
    | none => trivial
    | some built =>
      cases built with
      | error fault => trivial
      | ok sent => exact confined_call (.push session payload sent) h fun _ _ => trivial

theorem confined_refuse {msg : Bytes} {rspId : Int} :
    Confined node (CSession.send platform node.session (errorResponse msg) rspId) trace := confined_send rfl

theorem confined_answering {rspId : Int} {body : Handler Unit} (h : Confined node body trace) :
    Confined node (answering platform node.session rspId body) trace :=
  Outline.tryCatch (h.mono (fun _ _ h => h) fun _ _ _ =>
    Outline.tryCatch (Outline.mono confined_refuse (fun _ _ h => h) fun _ _ _ => trivial))

/-- A body that is not JSON is refused. -/
theorem confined_parsing {rspId : Int} {invalid : Bytes} {body : Json → Handler Unit}
    (h : ∀ root, Confined node (body root) trace) :
    Confined node (match platform.parse node.data with
      | none => CSession.send platform node.session (errorResponse invalid) rspId
      | some root => body root) trace := by
  cases platform.parse node.data with
  | none => exact confined_refuse
  | some root => exact h root

/-- A session without a login is refused. -/
theorem confined_loggedIn {rspId : Int} {refusal : Bytes} {rest : Int → Handler Unit}
    (h : ∀ uid trace, Confined node (rest uid) trace) :
    Confined node (do
      let uid ← call (.getLoginUid node.session)
      if uid = 0 then CSession.send platform node.session (errorResponse refusal) rspId
      else rest uid) trace := by
  apply confined_call (.getLoginUid node.session) rfl
  intro uid trace
  split
  · exact confined_refuse
  · exact h uid trace

theorem helloWorldCallBack_confined : Confined node (helloWorldCallBack platform node.session node.data) trace := by
  apply Outline.tryCatch
  cases platform.parse node.data with
  | none => trivial
  | some root =>
    refine Outline.ofExcept_bind (fun id _ => ?_) fun _ _ => trivial
    refine Outline.ofExcept_bind (fun data _ => ?_) fun _ _ => trivial
    exact Outline.mono (confined_send rfl) (fun _ _ h => h) fun _ _ _ => trivial

theorem registerRequest_confined (hreq : node.msgId = MSG_REGISTER_REQ) :
    Confined node (registerRequest platform node.session node.data) trace := by
  refine confined_answering (confined_parsing fun root => ?_)
  split
  · exact confined_refuse
  refine confined_field fun username => confined_field fun password => ?_
  split
  · exact confined_refuse
  exact confined_call (.registerUser username password) hreq fun ok _ => confined_send rfl

theorem close_confined {old : Sid} (hreq : node.msgId = MSG_LOGIN_REQ) :
    Confined node (CSession.close old) trace := by
  unfold CSession.close
  apply confined_call (.casStop old) hreq
  intro exchanged trace
  split
  · trivial
  apply confined_call (.takeLoginUid old) hreq
  intro uid trace
  split
  · trivial
  · exact (Outline.call hreq fun _ _ => trivial : Confined node (call (.removeOnlineUser uid)) _)

theorem loginAs_confined {uid : Int} (hreq : node.msgId = MSG_LOGIN_REQ) :
    Confined node (loginAs platform node.session uid) trace := by
  unfold loginAs
  refine confined_call (.getSessionByUid uid) (.inl hreq) fun found trace => ?_
  refine confined_bind ?_ fun _ trace => ?_
  · cases found with
    | none => trivial
    | some old => exact close_confined hreq
  apply confined_call (.setLoginUid node.session uid) ⟨hreq, rfl⟩
  intro _ trace
  apply confined_call (.addOnlineUser uid node.session) ⟨hreq, rfl⟩
  intro _ trace
  apply confined_call (.getOfflineMessages uid) (.inl hreq)
  intro rows trace
  unfold loginPush
  split
  · exact confined_send rfl
  · exact confined_bind (confined_send rfl) fun _ _ => confined_send rfl

theorem loginRequest_confined (hreq : node.msgId = MSG_LOGIN_REQ) :
    Confined node (loginRequest platform node.session node.data) trace := by
  refine confined_answering (confined_parsing fun root => ?_)
  split
  · exact confined_refuse
  refine confined_field fun username => confined_field fun password => ?_
  split
  · exact confined_refuse
  apply confined_call (.loginUser username password) hreq
  intro result trace
  dsimp only
  split
  · exact loginAs_confined hreq
  · exact confined_send rfl

theorem getFriendListRequest_confined (hreq : node.msgId = MSG_GET_FRIEND_LIST_REQ) :
    Confined node (getFriendListRequest platform node.session) trace :=
  confined_answering (confined_loggedIn fun uid _ =>
    confined_call (.getFriendList uid) hreq fun _ _ => confined_send rfl)

theorem addFriendRequest_confined (hreq : node.msgId = MSG_ADD_FRIEND_REQ) :
    Confined node (addFriendRequest platform node.session node.data) trace := by
  refine confined_answering (confined_parsing fun root => ?_)
  split
  · exact confined_refuse
  refine confined_loggedIn fun uid trace => confined_field fun friendUid => ?_
  split
  · exact confined_refuse
  split
  · exact confined_refuse
  apply confined_call (.addFriend uid friendUid) hreq
  intro ok trace
  split
  · refine confined_bind ?_ fun _ _ => confined_send rfl
    refine confined_call (.getSessionByUid friendUid) (.inr (.inl hreq)) fun found trace => ?_
    cases found with
    | none => trivial
    | some friend => exact confined_send hreq
  · exact confined_send rfl

theorem chatMessageRequest_confined (hreq : node.msgId = MSG_SEND_CHAT_REQ) :
    Confined node (chatMessageRequest platform node.session node.data) trace := by
  refine confined_answering (confined_parsing fun root => ?_)
  split
  · exact confined_refuse
  refine confined_loggedIn fun fromUid trace => confined_field fun toUid => confined_field fun content => ?_
  split
  · exact confined_refuse
  split
  · exact confined_refuse
  split
  · exact confined_refuse
  apply confined_call .now hreq
  intro tm trace
  apply confined_call (.saveMessage fromUid toUid content (strftime tm)) hreq
  intro msgId trace
  split
  · refine confined_bind ?_ fun _ _ => confined_send rfl
    refine confined_call (.getSessionByUid toUid) (.inr (.inr hreq)) fun found trace => ?_
    cases found with
    | none => trivial
    | some recipient => exact confined_send hreq
  · exact confined_send rfl

theorem getOfflineMessageRequest_confined (hreq : node.msgId = MSG_OFFLINE_MSG_REQ) :
    Confined node (getOfflineMessageRequest platform node.session) trace :=
  confined_answering (confined_loggedIn fun uid _ =>
    confined_call (.getOfflineMessages uid) (.inr hreq) fun _ _ => confined_send rfl)

theorem callback_confined {handler : Handler Unit} (h : callback platform node = some handler) :
    Confined node handler trace := by
  unfold callback at h
  split_ifs at h with hhello hregister hlogin hlist hadd hchat hoffline
  all_goals obtain rfl := Option.some.inj h
  · exact helloWorldCallBack_confined
  · exact registerRequest_confined hregister
  · exact loginRequest_confined hlogin
  · exact getFriendListRequest_confined hlist
  · exact addFriendRequest_confined hadd
  · exact chatMessageRequest_confined hchat
  · exact getOfflineMessageRequest_confined hoffline

end Handlers

/-- The running handler stays in the footprint of the message it serves. -/
def Confining (state : State) : Prop := ∀ handler, state.worker = some handler →
  ∃ node, served state.world.history = some node ∧ Confined node handler state.world.trace

theorem confining_of_reaches {ok : Label → State → Prop} {state : State}
    (hreach : Reaches platform ok state) : Confining state := by
  apply hreach.invariant (fun _ => True) (fun _ _ => trivial)
  · rintro _ ⟨db, -, rfl⟩ handler hhandler
    cases hhandler
  · intro state state' label _ h _ hstep handler hhandler
    cases moved_of_step hstep with
    | quiet hquiet hworker =>
      rw [hquiet.history, hquiet.trace]
      rcases hworker with hsame | ⟨hnone, -⟩
      · exact h handler (hsame ▸ hhandler)
      · rw [hnone] at hhandler
        cases hhandler
    | dispatch => exact ⟨_, rfl, callback_confined hhandler⟩
    | work hworker =>
      obtain rfl := Option.some.inj hhandler
      obtain ⟨node, hserved, hconfined⟩ := h _ hworker
      rw [history_workStep, trace_workStep]
      exact ⟨node, hserved, (hconfined.step trivial).2⟩
    | io =>
      rw [history_ioStep, trace_ioStep]
      exact h handler hhandler

theorem may_of_work {ok : Label → State → Prop} {state : State} {op : Op} {next : op.Ret → Handler Unit}
    (hreach : Reaches platform ok state) (hworker : state.worker = some (.perform op next)) :
    ∃ node, served state.world.history = some node ∧ May node op := by
  obtain ⟨node, hserved, hconfined⟩ := confining_of_reaches hreach _ hworker
  exact ⟨node, hserved, hconfined.1⟩

/-! ### What an operation changes -/

section Operations

variable (platform : Platform) (input : Input) (op : Op) (world : World)

/-- The row as it was saved. -/
def MessageRow.unmarked (row : MessageRow) : MessageRow := { row with delivered := false }

theorem unmarked_markDelivered (uid : Int) (row : MessageRow) :
    (DBManager.markDelivered uid row).unmarked = row.unmarked := by
  unfold DBManager.markDelivered
  split <;> rfl

/-- What an operation makes of the tables. -/
inductive Rewrites (db : Db) : Op → Db → Prop where
  | nothing {op : Op} : Rewrites db op db
  | user {username password : Bytes} {users : List UserRow} {lastUid : Int} :
      Rewrites db (.registerUser username password) { db with users, lastUid }
  | friend {uid friendUid : Int} {friends : List FriendRow} {lastFriendId : Int} :
      Rewrites db (.addFriend uid friendUid) { db with friends, lastFriendId }
  | message {fromUid toUid : Int} {content timestamp : Bytes} {row : MessageRow}
      (hnew : db.lastMsgId < row.msgId) : Rewrites db (.saveMessage fromUid toUid content timestamp)
      { db with messages := db.messages ++ [row], lastMsgId := row.msgId }
  | marks {uid : Int} : Rewrites db (.getOfflineMessages uid)
      { db with messages := db.messages.map (DBManager.markDelivered uid) }

theorem rewrites_perform : Rewrites world.db op (perform platform input op world).2.db := by
  cases op with
  | registerUser username password =>
    rw [perform]
    rcases DBManager.registerUser_cases platform input.sqlite world.db username password with h | h <;> rw [h]
    · exact .nothing
    · exact .user
  | addFriend uid friendUid =>
    rw [perform]
    rcases DBManager.addFriend_cases input.sqlite world.db uid friendUid with h | h <;> rw [h]
    · exact .nothing
    · exact .friend
  | saveMessage fromUid toUid content timestamp =>
    rw [perform]
    rcases DBManager.saveMessage_cases input.sqlite world.db fromUid toUid content timestamp with h | h <;>
      rw [h]
    · exact .nothing
    · exact .message (Int.lt_succ _)
  | getOfflineMessages uid =>
    rw [perform]
    dsimp only
    rcases DBManager.getOfflineMessages_cases input.sqlite world.db uid with h | ⟨-, h⟩ <;> rw [h]
    · exact .nothing
    · exact .marks
  | _ =>
    rw [db_perform _ _ _ _ (by simp) (by simp) (by simp) (by simp)]
    exact .nothing

/-- Of the rows that the table had, only a fetch changes a delivered flag. -/
theorem Rewrites.fetch_of_marked {op : Op} {db db' : Db} (h : Rewrites db op db') (hdb : db.WellFormed)
    {row row' : MessageRow} (hrow : row ∈ db.messages) (hrow' : row' ∈ db'.messages)
    (hid : row'.msgId = row.msgId) (hmarked : row'.delivered ≠ row.delivered) :
    ∃ uid, op = .getOfflineMessages uid := by
  have hchanged : row' ∉ db.messages := fun hmem => hmarked (by rw [hdb.eq_of_msgId hmem hrow hid])
  cases h with
  | marks => exact ⟨_, rfl⟩
  | message hnew =>
    rcases List.mem_append.mp hrow' with hold | hadded
    · exact absurd hold hchanged
    · obtain rfl := List.mem_singleton.mp hadded
      have := hdb.msgId_le row hrow
      omega
  | _ => exact absurd hrow' hchanged

theorem onlineUsers_perform_apply {uid : Int} (hadd : ∀ session, op ≠ .addOnlineUser uid session)
    (hremove : op ≠ .removeOnlineUser uid) (hget : op ≠ .getSessionByUid uid) :
    (perform platform input op world).2.onlineUsers uid = world.onlineUsers uid := by
  have hne : ∀ {user : Int} {value : Option Sid}, user ≠ uid →
      Function.update world.onlineUsers user value uid = world.onlineUsers uid := fun huser =>
    Function.update_of_ne huser.symm _ _
  cases op with
  | addOnlineUser user session =>
    have huser : user ≠ uid := fun heq => hadd session (by rw [heq])
    rw [perform]
    unfold UserManager.addOnlineUser
    split_ifs
    · rfl
    · exact hne huser
  | removeOnlineUser user =>
    have huser : user ≠ uid := fun heq => hremove (by rw [heq])
    rw [perform]
    unfold UserManager.removeOnlineUser
    split_ifs
    · rfl
    · exact hne huser
  | getSessionByUid user =>
    have huser : user ≠ uid := fun heq => hget (by rw [heq])
    rw [perform]
    unfold UserManager.getSessionByUid
    split_ifs
    · rfl
    · split
      · rfl
      · split_ifs
        · exact hne huser
        · rfl
  | _ => rw [onlineUsers_perform] <;> intros <;> simp

end Operations

/-! ### Who has changed what -/

/-- The step is an operation of the handler of such a message. -/
def ByRequest (P : LogicNode → Prop) (label : Label) (state : State) : Prop :=
  (∃ input, label = .work input) ∧ ∃ node, served state.world.history = some node ∧ P node

/-- The step is the one of a `Close` of the session on an IO thread. -/
def ByClose (session : Sid) (pos : ClosePos) (label : Label) (state : State) : Prop :=
  ∃ thread, label = .io thread ∧ state.closers thread = some (session, pos)

/-- Each change that a step makes has a kind of request, or a `Close`, that it comes from. -/
structure Attributed (label : Label) (state state' : State) : Prop where
  users : state'.world.db.users ≠ state.world.db.users →
    ByRequest (fun node => node.msgId = MSG_REGISTER_REQ) label state
  friends : state'.world.db.friends ≠ state.world.db.friends →
    ByRequest (fun node => node.msgId = MSG_ADD_FRIEND_REQ) label state
  rows : state'.world.db.messages.map MessageRow.unmarked ≠ state.world.db.messages.map MessageRow.unmarked →
    ByRequest (fun node => node.msgId = MSG_SEND_CHAT_REQ) label state
  marks : ∀ row ∈ state.world.db.messages, ∀ row' ∈ state'.world.db.messages, row'.msgId = row.msgId →
    row'.delivered ≠ row.delivered → ByRequest (fun node => Fetches node.msgId) label state
  login : ∀ session, state'.world.uidOf session ≠ state.world.uidOf session →
    state'.world.uidOf session ≠ 0 →
    ByRequest (fun node => node.msgId = MSG_LOGIN_REQ ∧ node.session = session) label state
  logout : ∀ session, state'.world.uidOf session ≠ state.world.uidOf session →
    ByRequest (fun node => node.msgId = MSG_LOGIN_REQ) label state ∨ ByClose session .take label state
  stopped : ∀ session, state'.world.stopped session ≠ state.world.stopped session →
    ByRequest (fun node => node.msgId = MSG_LOGIN_REQ) label state ∨ ByClose session .exchange label state
  online : ∀ uid session, state'.world.onlineUsers uid ≠ state.world.onlineUsers uid →
    state'.world.onlineUsers uid = some session →
    ByRequest (fun node => node.msgId = MSG_LOGIN_REQ ∧ node.session = session) label state
  offline : ∀ uid, state'.world.onlineUsers uid ≠ state.world.onlineUsers uid →
    ByRequest (fun node => LooksUp node.msgId) label state ∨
      ∃ session, ByClose session (.remove uid) label state
  queued : ∀ session,
    (state.world.sessions session).sendQue.length < (state'.world.sessions session).sendQue.length →
    ByRequest (fun node => node.session = session ∨ node.msgId = MSG_ADD_FRIEND_REQ ∨
      node.msgId = MSG_SEND_CHAT_REQ) label state

theorem attributed_of_same {label : Label} {state state' : State} (hgrounded : state.world.db.WellFormed)
    (hdb : state'.world.db = state.world.db)
    (honline : state'.world.onlineUsers = state.world.onlineUsers)
    (huid : ∀ session, state'.world.uidOf session = state.world.uidOf session)
    (hstopped : ∀ session, state'.world.stopped session = state.world.stopped session)
    (hqueued : ∀ session, (state'.world.sessions session).sendQue.length
      ≤ (state.world.sessions session).sendQue.length) : Attributed label state state' where
  users := fun h => absurd (by rw [hdb]) h
  friends := fun h => absurd (by rw [hdb]) h
  rows := fun h => absurd (by rw [hdb]) h
  marks := fun row hrow row' hrow' hid h =>
    absurd (by rw [hgrounded.eq_of_msgId (hdb ▸ hrow') hrow hid]) h
  login := fun session h _ => absurd (huid session) h
  logout := fun session h => absurd (huid session) h
  stopped := fun session h => absurd (hstopped session) h
  online := fun uid _ h _ => absurd (by rw [honline]) h
  offline := fun uid h => absurd (by rw [honline]) h
  queued := fun session h => absurd h (Nat.not_lt.mpr (hqueued session))

theorem delivers_cases {session : Sid} {payload : Payload} (h : Delivers node session payload) :
    node.session = session ∨ node.msgId = MSG_ADD_FRIEND_REQ ∨ node.msgId = MSG_SEND_CHAT_REQ := by
  unfold Delivers at h
  cases payload with
  | friendRequestPush => exact .inr (.inl h)
  | chatMsgPush => exact .inr (.inr h)
  | _ => exact .inl h.symm

theorem attributed_workStep {input : Input} {op : Op} {next : op.Ret → Handler Unit} {state : State}
    (hdb : state.world.db.WellFormed) (hserved : served state.world.history = some node)
    (hmay : May node op) : Attributed (.work input) state (workStep platform input op next state) := by
  have hby : ∀ {P : LogicNode → Prop}, P node → ByRequest P (.work input) state :=
    fun h => ⟨⟨input, rfl⟩, node, hserved, h⟩
  have hrewrites : Rewrites state.world.db op (workStep platform input op next state).world.db :=
    rewrites_perform platform input op state.world
  have hidentity : ∀ session, (workStep platform input op next state).world.uidOf session
      ≠ state.world.uidOf session → (∃ uid, op = .setLoginUid session uid) ∨ op = .takeLoginUid session := by
    intro session hchanged
    by_contra hnot
    rw [not_or, not_exists] at hnot
    exact hchanged (uidOf_perform platform input op state.world session hnot.1 hnot.2)
  have hentry : ∀ uid, (workStep platform input op next state).world.onlineUsers uid
      ≠ state.world.onlineUsers uid → (∃ session, op = .addOnlineUser uid session) ∨
        op = .removeOnlineUser uid ∨ op = .getSessionByUid uid := by
    intro uid hchanged
    by_contra hnot
    rw [not_or, not_or, not_exists] at hnot
    exact hchanged (onlineUsers_perform_apply platform input op state.world hnot.1 hnot.2.1 hnot.2.2)
  refine ⟨fun hchanged => ?_, fun hchanged => ?_, fun hchanged => ?_,
    fun row hrow row' hrow' hid hmarked => ?_, fun session hchanged hlogin => ?_,
    fun session hchanged => .inl ?_, fun session hchanged => .inl ?_, fun uid session hchanged hnew => ?_,
    fun uid hchanged => .inl ?_, fun session hlonger => ?_⟩
  · generalize (workStep platform input op next state).world.db = db' at hrewrites hchanged
    cases hrewrites with
    | user => exact hby hmay
    | _ => exact absurd rfl hchanged
  · generalize (workStep platform input op next state).world.db = db' at hrewrites hchanged
    cases hrewrites with
    | friend => exact hby hmay
    | _ => exact absurd rfl hchanged
  · generalize (workStep platform input op next state).world.db = db' at hrewrites hchanged
    cases hrewrites with
    | message => exact hby hmay
    | @marks uid =>
      refine absurd ?_ hchanged
      dsimp only
      rw [List.map_map]
      exact List.map_congr_left fun row _ => unmarked_markDelivered uid row
    | _ => exact absurd rfl hchanged
  · obtain ⟨uid, rfl⟩ := hrewrites.fetch_of_marked hdb hrow hrow' hid hmarked
    exact hby hmay
  · rcases hidentity session hchanged with ⟨uid, rfl⟩ | rfl
    · exact hby ⟨hmay.1, hmay.2.symm⟩
    · exact absurd (uidOf_takeLoginUid platform input state.world session) hlogin
  · rcases hidentity session hchanged with ⟨uid, rfl⟩ | rfl
    · exact hby hmay.1
    · exact hby hmay
  · by_contra hnot
    refine hchanged (stopped_perform platform input op state.world session fun heq => hnot ?_)
    subst heq
    exact hby hmay
  · rcases onlineUsers_perform_eq_some platform input op state.world hnew with ⟨rfl, -⟩ | ⟨hold, -⟩
    · exact hby ⟨hmay.1, hmay.2.symm⟩
    · exact absurd (hnew.trans hold.symm) hchanged
  · rcases hentry uid hchanged with ⟨session, rfl⟩ | rfl | rfl
    · exact hby (.inl hmay.1)
    · exact hby (.inl hmay)
    · exact hby hmay
  · by_contra hnot
    refine hlonger.ne (congrArg List.length
      (sendQue_perform platform input state.world fun payload sent heq => hnot ?_)).symm
    subst heq
    exact hby (delivers_cases hmay)

theorem attributed_ioStep {thread : Nat} {session : Sid} {pos : ClosePos} {state : State}
    (hgrounded : state.world.db.WellFormed) (hcloser : state.closers thread = some (session, pos)) :
    Attributed (.io thread) state (ioStep platform thread session pos state) := by
  have hdb := db_ioStep platform thread session pos state
  have hqueued : ∀ other, ((ioStep platform thread session pos state).world.sessions other).sendQue
      = (state.world.sessions other).sendQue := fun other =>
    sendQue_perform platform .idle state.world fun _ _ => by cases pos <;> simp [ClosePos.op]
  refine ⟨fun h => absurd (by rw [hdb]) h, fun h => absurd (by rw [hdb]) h, fun h => absurd (by rw [hdb]) h,
    fun row hrow row' hrow' hid h => absurd (by rw [hgrounded.eq_of_msgId (hdb ▸ hrow') hrow hid]) h,
    fun other hchanged hlogin => ?_, fun other hchanged => .inr ?_,
    fun other hchanged => .inr ?_, fun uid other hchanged hnew => ?_, fun uid hchanged => .inr ?_,
    fun other h => absurd (congrArg List.length (hqueued other)).symm h.ne⟩
  · by_cases htake : pos.op session = .takeLoginUid other
    · refine absurd ?_ hlogin
      change (perform platform .idle (pos.op session) state.world).2.uidOf other = 0
      rw [htake]
      exact uidOf_takeLoginUid platform .idle state.world other
    · refine absurd (uidOf_perform platform .idle _ state.world other (fun _ => ?_) htake) hchanged
      cases pos <;> simp [ClosePos.op]
  · have htake : pos.op session = .takeLoginUid other := by
      by_contra hnot
      refine hchanged (uidOf_perform platform .idle _ state.world other (fun _ => ?_) hnot)
      cases pos <;> simp [ClosePos.op]
    cases pos with
    | take =>
      obtain rfl := Op.takeLoginUid.inj htake
      exact ⟨thread, rfl, hcloser⟩
    | exchange | remove => cases htake
  · have hcas : pos.op session = .casStop other := by
      by_contra hnot
      exact hchanged (stopped_perform platform .idle _ state.world other hnot)
    cases pos with
    | exchange =>
      obtain rfl := Op.casStop.inj hcas
      exact ⟨thread, rfl, hcloser⟩
    | take | remove => cases hcas
  · rcases onlineUsers_perform_eq_some platform .idle _ state.world hnew with ⟨heq, -⟩ | ⟨hold, -⟩
    · cases pos <;> cases heq
    · exact absurd (hnew.trans hold.symm) hchanged
  · have hremove : pos.op session = .removeOnlineUser uid := by
      by_contra hnot
      refine hchanged (onlineUsers_perform_apply platform .idle _ state.world (fun _ => ?_) hnot ?_)
      all_goals cases pos <;> simp [ClosePos.op]
    cases pos with
    | remove user =>
      obtain rfl := Op.removeOnlineUser.inj hremove
      exact ⟨session, thread, rfl, hcloser⟩
    | exchange | take => cases hremove

/-- **Every change has its request.** In every run, whatever SQLite answers and however the threads
interleave, a step changes the users only for a registration, the friends only for a friend request, the
rows of messages only for a chat, the delivered flag of a row only for a login or a fetch, and so on for
the login uids, the stop flags, the entries of the online map and the send queues; what no request has done
is a step of a `Close`. -/
theorem changes_attributed {label : Label} {state state' : State}
    (hreach : Reaches platform (fun _ _ => True) state)
    (hstep : step platform label state = some state') : Attributed label state state' := by
  have hdb := (grounded_of_reaches hreach).db
  cases moved_of_step hstep with
  | quiet hquiet =>
    exact attributed_of_same hdb hquiet.db hquiet.onlineUsers hquiet.uidOf hquiet.stopped hquiet.queued
  | dispatch => exact attributed_of_same hdb rfl rfl (fun _ => rfl) (fun _ => rfl) fun _ => Nat.le_refl _
  | work hworker =>
    obtain ⟨node, hserved, hmay⟩ := may_of_work hreach hworker
    exact attributed_workStep hdb hserved hmay
  | io hcloser => exact attributed_ioStep hdb hcloser

/-- Ann's login is about to fetch the message that waits for her. -/
def aboutToFetch : State :=
  Reach.after (step reference) (.dispatch :: List.replicate 4 (.work .idle))
    (played backlogDb [.accept 0, .post 0 MSG_LOGIN_REQ (credentials "ann")])

def waitingRow (delivered : Bool) : MessageRow :=
  ⟨1, 2, 1, ascii "hi", ascii "2024-01-01 00:00:00", delivered⟩

/-- The next step marks the message, and is one of her login. -/
theorem changes_attributed_ann :
    ∃ state', step reference (.work .idle) aboutToFetch = some state' ∧
      aboutToFetch.world.db.messages = [waitingRow false] ∧
      state'.world.db.messages = [waitingRow true] ∧
      Attributed (.work .idle) aboutToFetch state' ∧
      ByRequest (fun node => Fetches node.msgId) (.work .idle) aboutToFetch := by
  obtain ⟨hplays, hmeets, hworked, hbefore, hafter⟩ :
      plays (fun _ _ => true) backlogDb [.accept 0, .post 0 MSG_LOGIN_REQ (credentials "ann")] = true ∧
      Reach.meets (step reference) (fun _ _ => true) (.dispatch :: List.replicate 4 (.work .idle))
        (played backlogDb [.accept 0, .post 0 MSG_LOGIN_REQ (credentials "ann")]) = true ∧
      (step reference (.work .idle) aboutToFetch).isSome = true ∧
      aboutToFetch.world.db.messages = [waitingRow false] ∧
      (Reach.after (step reference) [.work .idle] aboutToFetch).world.db.messages = [waitingRow true] := by
    decide +kernel
  have hreach : Reaches reference (fun _ _ => True) aboutToFetch :=
    (reached_of_plays backlogDb_wellFormed hplays).follow (.of_enabled rfl hmeets)
  have hstep := step_after (.work .idle) aboutToFetch hworked
  have hattributed := changes_attributed hreach hstep
  refine ⟨_, hstep, hbefore, hafter, hattributed, ?_⟩
  apply hattributed.marks (waitingRow false) _ (waitingRow true) _ rfl (by decide)
  · rw [hbefore]
    exact List.mem_singleton_self _
  · rw [hafter]
    exact List.mem_singleton_self _

end CoroutineServer
