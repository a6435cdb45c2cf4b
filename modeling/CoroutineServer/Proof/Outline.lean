import CoroutineServer.System

/-!
# What each handler does

The outline of the handlers: before which operation what has been called with which result, and what
the trace of a finished handler is. It is proved of each handler once, for any results the shared state
can return; the arguments about runs use it and do not look at the handlers again.
-/

namespace CoroutineServer

open Program LogicSystem

variable {platform : Platform} {node : LogicNode}

/-! ### The vocabulary -/

/-- The calls of one `Send`. -/
inductive Sent (platform : Platform) (session : Sid) (payload : Payload) (msgid : Int) :
    CallTrace → Prop where
  | stopped : Sent platform session payload msgid [⟨.loadStop session payload msgid, true⟩]
  | refused {msg : Bytes} (hdump : platform.dump payload.json = .ok msg)
      (hnode : sendNode msg msgid = none) :
      Sent platform session payload msgid [⟨.loadStop session payload msgid, false⟩]
  | queued {msg : Bytes} {sent : SendNode} (accepted : Bool)
      (hdump : platform.dump payload.json = .ok msg)
      (hnode : sendNode msg msgid = some (.ok sent)) :
      Sent platform session payload msgid
        [⟨.push session payload sent, accepted⟩, ⟨.loadStop session payload msgid, false⟩]

/-- `LoginUser` has accepted the credentials of `uid`, and the old session has been looked up. -/
def Looked (uid : Int) (found : Option Sid) (trace : CallTrace) : Prop :=
  ∃ username password,
    trace = [⟨.getSessionByUid uid, found⟩, ⟨.loginUser username password, (true, uid)⟩]

/-- The calls of `Close` on the old session. -/
inductive Closed (old : Sid) : CallTrace → Prop where
  | already : Closed old [⟨.casStop old, false⟩]
  | loggedOut : Closed old [⟨.takeLoginUid old, (0 : Int)⟩, ⟨.casStop old, true⟩]
  | removed {uid : Int} (huid : uid ≠ 0) : Closed old
      [⟨.removeOnlineUser uid, ()⟩, ⟨.takeLoginUid old, uid⟩, ⟨.casStop old, true⟩]

/-- The old session, if there was one, has been closed. -/
inductive Kicked (uid : Int) : CallTrace → Prop where
  | nobody {trace : CallTrace} (hlooked : Looked uid none trace) : Kicked uid trace
  | closed {old : Sid} {part trace : CallTrace} (hpart : Closed old part)
      (hlooked : Looked uid (some old) trace) : Kicked uid (part ++ trace)

/-- The body carries these credentials. -/
def Presents (platform : Platform) (data username password : Bytes) : Prop :=
  ∃ root, platform.parse data = some root ∧
    (root.index "username").bind Json.getString = .ok username ∧
    (root.index "password").bind Json.getString = .ok password

/-- The body asks for this message. -/
def Requests (platform : Platform) (data : Bytes) (toUid : Int) (content : Bytes) : Prop :=
  ∃ root, platform.parse data = some root ∧
    (root.index "to_uid").bind (Json.getInt64 platform.truncate) = .ok toUid ∧
    (root.index "content").bind Json.getString = .ok content

/-- At most the identity of the session has been read. -/
def Untouched (node : LogicNode) (trace : CallTrace) : Prop :=
  trace = [] ∨ ∃ uid, trace = [⟨.getLoginUid node.session, uid⟩]

/-- A text that is well formed and short. -/
def Terse (limit : Nat) (text : Bytes) : Prop := Utf8.Valid text ∧ text.length ≤ limit

/-- The id of the response to a request. -/
def responseId (msgId : Int) : Option Int :=
  if msgId = MSG_REGISTER_REQ then some MSG_REGISTER_RSP
  else if msgId = MSG_LOGIN_REQ then some MSG_LOGIN_RSP
  else if msgId = MSG_GET_FRIEND_LIST_REQ then some MSG_GET_FRIEND_LIST_RSP
  else if msgId = MSG_ADD_FRIEND_REQ then some MSG_ADD_FRIEND_RSP
  else if msgId = MSG_SEND_CHAT_REQ then some MSG_SEND_CHAT_RSP
  else if msgId = MSG_OFFLINE_MSG_REQ then some MSG_OFFLINE_MSG_RSP
  else none

/-- The trace of a login once the session is registered. -/
def loginTrace (session : Sid) (uid : Int) (rows : List MessageRow) (trace : CallTrace) : CallTrace :=
  ⟨.getOfflineMessages uid, rows⟩ :: ⟨.addOnlineUser uid session, ()⟩ ::
    ⟨.setLoginUid session uid, ()⟩ :: trace

/-- The trace of a chat request once the message is saved. -/
def chatTrace (session : Sid) (msgId fromUid toUid : Int) (content : Bytes) (tm : Tm) : CallTrace :=
  [⟨.saveMessage fromUid toUid content (strftime tm), msgId⟩, ⟨.now, tm⟩, ⟨.getLoginUid session, fromUid⟩]

/-- The trace of a friend request once the database has answered. -/
def friendTrace (session : Sid) (uid friendUid : Int) (ok : Bool) : CallTrace :=
  [⟨.addFriend uid friendUid, ok⟩, ⟨.getLoginUid session, uid⟩]

/-- **What a handler sends**, to which session, and after which calls. -/
inductive Sends (platform : Platform) (node : LogicNode) :
    CallTrace → Sid → Payload → Int → Prop where
  | refusal {trace : CallTrace} {msg : Bytes} {rspId : Int}
      (hrsp : responseId node.msgId = some rspId) (huntouched : Untouched node trace)
      (hterse : Terse 256 msg) :
      Sends platform node trace node.session (errorResponse msg) rspId
  | registered {username password : Bytes} {ok : Bool} (hreq : node.msgId = MSG_REGISTER_REQ) :
      Sends platform node [⟨.registerUser username password, ok⟩] node.session (.registerRsp ok)
        MSG_REGISTER_RSP
  | loginFailed {username password : Bytes} {uid : Int} (hreq : node.msgId = MSG_LOGIN_REQ) :
      Sends platform node [⟨.loginUser username password, (false, uid)⟩] node.session .loginFailed
        MSG_LOGIN_RSP
  | loginBatch {uid : Int} {rows : List MessageRow} {trace : CallTrace}
      (hreq : node.msgId = MSG_LOGIN_REQ) (huid : 0 < uid) (hkicked : Kicked uid trace)
      (hrows : rows ≠ []) :
      Sends platform node (loginTrace node.session uid rows trace) node.session
        (.offlineMsgs true rows) MSG_OFFLINE_MSG_RSP
  | loginNoBatch {uid : Int} {trace : CallTrace} (hreq : node.msgId = MSG_LOGIN_REQ)
      (huid : 0 < uid) (hkicked : Kicked uid trace) :
      Sends platform node (loginTrace node.session uid [] trace) node.session (.loginOk uid 0)
        MSG_LOGIN_RSP
  | loginAfterBatch {uid : Int} {rows : List MessageRow} {trace part : CallTrace}
      (hreq : node.msgId = MSG_LOGIN_REQ) (huid : 0 < uid) (hkicked : Kicked uid trace)
      (hrows : rows ≠ [])
      (hpart : Sent platform node.session (.offlineMsgs true rows) MSG_OFFLINE_MSG_RSP part) :
      Sends platform node (part ++ loginTrace node.session uid rows trace) node.session
        (.loginOk uid rows.length) MSG_LOGIN_RSP
  | friendList {uid : Int} {friends : List Int} (hreq : node.msgId = MSG_GET_FRIEND_LIST_REQ)
      (huid : uid ≠ 0) :
      Sends platform node [⟨.getFriendList uid, friends⟩, ⟨.getLoginUid node.session, uid⟩]
        node.session (.friendList uid friends) MSG_GET_FRIEND_LIST_RSP
  | friendFailed {uid friendUid : Int} (hreq : node.msgId = MSG_ADD_FRIEND_REQ) (huid : uid ≠ 0) :
      Sends platform node (friendTrace node.session uid friendUid false) node.session
        (.addFriendRsp false) MSG_ADD_FRIEND_RSP
  | friendPush {uid friendUid : Int} {friend : Sid} (hreq : node.msgId = MSG_ADD_FRIEND_REQ)
      (huid : uid ≠ 0) :
      Sends platform node
        (⟨.getSessionByUid friendUid, some friend⟩ :: friendTrace node.session uid friendUid true)
        friend (.friendRequestPush uid friendUid) MSG_FRIEND_REQUEST_PUSH
  | friendOffline {uid friendUid : Int} (hreq : node.msgId = MSG_ADD_FRIEND_REQ) (huid : uid ≠ 0) :
      Sends platform node
        (⟨.getSessionByUid friendUid, none⟩ :: friendTrace node.session uid friendUid true)
        node.session (.addFriendRsp true) MSG_ADD_FRIEND_RSP
  | friendAfterPush {uid friendUid : Int} {friend : Sid} {part : CallTrace}
      (hreq : node.msgId = MSG_ADD_FRIEND_REQ) (huid : uid ≠ 0)
      (hpart : Sent platform friend (.friendRequestPush uid friendUid) MSG_FRIEND_REQUEST_PUSH part) :
      Sends platform node
        (part ++ ⟨.getSessionByUid friendUid, some friend⟩ ::
          friendTrace node.session uid friendUid true)
        node.session (.addFriendRsp true) MSG_ADD_FRIEND_RSP
  | chatFailed {msgId fromUid toUid : Int} {content : Bytes} {tm : Tm}
      (hreq : node.msgId = MSG_SEND_CHAT_REQ) (huid : fromUid ≠ 0) (hfailed : msgId < 0) :
      Sends platform node (chatTrace node.session msgId fromUid toUid content tm) node.session
        (.chatRsp msgId) MSG_SEND_CHAT_RSP
  | chatPush {msgId fromUid toUid : Int} {content : Bytes} {tm : Tm} {recipient : Sid}
      (hreq : node.msgId = MSG_SEND_CHAT_REQ) (huid : fromUid ≠ 0) (hsaved : 0 ≤ msgId) :
      Sends platform node
        (⟨.getSessionByUid toUid, some recipient⟩ ::
          chatTrace node.session msgId fromUid toUid content tm)
        recipient (.chatMsgPush msgId fromUid toUid content (strftime tm)) MSG_CHAT_MSG_PUSH
  | chatOffline {msgId fromUid toUid : Int} {content : Bytes} {tm : Tm}
      (hreq : node.msgId = MSG_SEND_CHAT_REQ) (huid : fromUid ≠ 0) (hsaved : 0 ≤ msgId) :
      Sends platform node
        (⟨.getSessionByUid toUid, none⟩ ::
          chatTrace node.session msgId fromUid toUid content tm)
        node.session (.chatRsp msgId) MSG_SEND_CHAT_RSP
  | chatAfterPush {msgId fromUid toUid : Int} {content : Bytes} {tm : Tm} {recipient : Sid}
      {part : CallTrace} (hreq : node.msgId = MSG_SEND_CHAT_REQ) (huid : fromUid ≠ 0)
      (hsaved : 0 ≤ msgId)
      (hpart : Sent platform recipient
        (.chatMsgPush msgId fromUid toUid content (strftime tm)) MSG_CHAT_MSG_PUSH part) :
      Sends platform node
        (part ++ ⟨.getSessionByUid toUid, some recipient⟩ ::
          chatTrace node.session msgId fromUid toUid content tm)
        node.session (.chatRsp msgId) MSG_SEND_CHAT_RSP
  | offlineBatch {uid : Int} {rows : List MessageRow} (hreq : node.msgId = MSG_OFFLINE_MSG_REQ)
      (huid : uid ≠ 0) :
      Sends platform node [⟨.getOfflineMessages uid, rows⟩, ⟨.getLoginUid node.session, uid⟩]
        node.session (.offlineMsgs false rows) MSG_OFFLINE_MSG_RSP
  | echoed {root : Json} {id : Int} (hreq : node.msgId = MSG_HELLO_WORLD) :
      Sends platform node [] node.session (.echo root) id

/-- The results the shared state can return: uids of accounts are positive, and the rows handed out are
undelivered ones of the user, of text that can be serialised. -/
def Admits : (op : Op) → op.Ret → Prop
  | .loginUser _ _, (ok, uid) => ok = true → 0 < uid
  | .getOfflineMessages uid, rows => ∀ row ∈ rows, row.toUid = uid ∧ row.delivered = false ∧
      Utf8.Valid row.content ∧ Utf8.Valid row.timestamp
  | _, _ => True

/-- What has been called before each operation. -/
def Warrants (platform : Platform) (node : LogicNode) (trace : CallTrace) : Op → Prop
  | .getLoginUid session => session = node.session ∧ trace = []
  | .setLoginUid session uid => session = node.session ∧ 0 < uid ∧ Kicked uid trace
  | .takeLoginUid session => ∃ uid looked, Looked uid (some session) looked ∧
      trace = ⟨.casStop session, true⟩ :: looked
  | .casStop session => ∃ uid, Looked uid (some session) trace
  | .loadStop session payload msgid => Sends platform node trace session payload msgid
  | .push session payload sent => ∃ msgid msg before,
      trace = ⟨.loadStop session payload msgid, false⟩ :: before ∧
        Sends platform node before session payload msgid ∧
        platform.dump payload.json = .ok msg ∧ sendNode msg msgid = some (.ok sent)
  | .addOnlineUser uid session => session = node.session ∧ 0 < uid ∧ ∃ kicked, Kicked uid kicked ∧
      trace = ⟨.setLoginUid node.session uid, ()⟩ :: kicked
  | .removeOnlineUser uid => uid ≠ 0 ∧ ∃ old user looked, Looked user (some old) looked ∧
      trace = ⟨.takeLoginUid old, uid⟩ :: ⟨.casStop old, true⟩ :: looked
  | .getSessionByUid uid =>
      (∃ username password, trace = [⟨.loginUser username password, (true, uid)⟩]) ∨
      (∃ owner, trace = friendTrace node.session owner uid true) ∨
      ∃ msgId fromUid content tm, 0 ≤ msgId ∧
        trace = chatTrace node.session msgId fromUid uid content tm
  | .registerUser _ _ => node.msgId = MSG_REGISTER_REQ ∧ trace = []
  | .loginUser username password => node.msgId = MSG_LOGIN_REQ ∧ trace = [] ∧
      Presents platform node.data username password
  | .addFriend uid _ => uid ≠ 0 ∧ trace = [⟨.getLoginUid node.session, uid⟩]
  | .getFriendList uid => uid ≠ 0 ∧ trace = [⟨.getLoginUid node.session, uid⟩]
  | .saveMessage fromUid toUid content timestamp => fromUid ≠ 0 ∧
      (Utf8.Valid content ∧ node.msgId = MSG_SEND_CHAT_REQ ∧ Requests platform node.data toUid content) ∧
      ∃ tm, timestamp = strftime tm ∧ trace = [⟨.now, tm⟩, ⟨.getLoginUid node.session, fromUid⟩]
  | .getOfflineMessages uid =>
      (node.msgId = MSG_OFFLINE_MSG_REQ ∧ uid ≠ 0 ∧ trace = [⟨.getLoginUid node.session, uid⟩]) ∨
      (node.msgId = MSG_LOGIN_REQ ∧ 0 < uid ∧ ∃ kicked, Kicked uid kicked ∧
        trace = ⟨.addOnlineUser uid node.session, ()⟩ ::
          ⟨.setLoginUid node.session uid, ()⟩ :: kicked)
  | .now => ∃ uid, uid ≠ 0 ∧ trace = [⟨.getLoginUid node.session, uid⟩]

def rules (platform : Platform) (node : LogicNode) : Rules Op Op.Ret where
  Admits := Admits
  Warrants := Warrants platform node

/-- The payloads a handler ends with; the others are pushes on the way. -/
def Payload.IsAnswer : Payload → Prop
  | .offlineMsgs atLogin _ => atLogin = false
  | .friendRequestPush _ _ => False
  | .chatMsgPush _ _ _ _ _ => False
  | _ => True

/-- **The trace of a finished handler** ends with the calls of one `Send`, that of its answer. Only an
echo request can end with no call at all. -/
def Finished (platform : Platform) (node : LogicNode) (trace : CallTrace) : Prop :=
  (trace = [] ∧ responseId node.msgId = none) ∨
    ∃ part before session payload msgid, trace = part ++ before ∧
      Sent platform session payload msgid part ∧
      Sends platform node before session payload msgid ∧ payload.IsAnswer

/-- A handler and its outline. -/
abbrev Outlined (platform : Platform) (node : LogicNode) (handler : Handler Unit)
    (trace : CallTrace) : Prop :=
  Outline (rules platform node) (fun trace _ => Finished platform node trace) (fun _ _ => False)
    handler trace

end CoroutineServer
