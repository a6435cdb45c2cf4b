import CoroutineServer.CSession

/-!
# The request handlers

The callbacks of `LogicSystem`, each as a program over the shared steps, and the table `DealMsg` looks
them up in. Every handler runs inside a try block whose handler answers with the text of the exception.
-/

namespace CoroutineServer

open Program

namespace LogicSystem

variable (platform : Platform)

def errorResponse (msg : Bytes) : Payload := .error (-1) msg

def validateCredentials (username password : Bytes) : Bool :=
  if username = [] ∨ password = [] then false
  else if username.length < MIN_USERNAME_LEN ∨ username.length > MAX_USERNAME_LEN then false
  else if password.length < MIN_PASSWORD_LEN ∨ password.length > MAX_PASSWORD_LEN then false
  else true

/-- The catch block of the handlers: an attempt to answer, itself inside a try. -/
def answering (session : Sid) (rspId : Int) (body : Handler Unit) : Handler Unit :=
  body.tryCatch fun what =>
    (CSession.send platform session (errorResponse (ascii "exception: " ++ what)) rspId).tryCatch
      fun _ => return ()

/-- `root[key].get<T>()`. -/
def field {α : Type} (root : Json) (key : String) (get : Json → Except Exn α) : Handler α :=
  Prog.ofExcept ((root.index key).bind get)

def helloWorldCallBack (session : Sid) (msgData : Bytes) : Handler Unit :=
  Prog.tryCatch (do
    match platform.parse msgData with
    | none => return ()
    | some root =>
        let id ← field root "id" (Json.getInt platform.truncate)
        let data ← field root "data" Json.getString
        let root := root.set "data"
          (.string (ascii "server has received msg, msg data is " ++ data))
        CSession.send platform session (.echo root) (toShort id))
    fun _ => return ()

def registerRequest (session : Sid) (msgData : Bytes) : Handler Unit :=
  answering platform session MSG_REGISTER_RSP do
    match platform.parse msgData with
    | none =>
        CSession.send platform session (errorResponse (ascii "invalid json")) MSG_REGISTER_RSP
    | some root =>
        if root.contains "username" = false ∨ root.contains "password" = false then
          CSession.send platform session (errorResponse (ascii "missing username or password"))
            MSG_REGISTER_RSP
        else
          let username ← field root "username" Json.getString
          let password ← field root "password" Json.getString
          if validateCredentials username password = false then
            CSession.send platform session
              (errorResponse (ascii "username 2-32 chars, password 3-64 chars")) MSG_REGISTER_RSP
          else
            let ok ← call (.registerUser username password)
            CSession.send platform session (.registerRsp ok) MSG_REGISTER_RSP

def loginPush (session : Sid) (uid : Int) (offlineMsgs : List MessageRow) : Handler Unit := do
  if offlineMsgs = [] then
    CSession.send platform session (.loginOk uid 0) MSG_LOGIN_RSP
  else
    CSession.send platform session (.offlineMsgs true offlineMsgs) MSG_OFFLINE_MSG_RSP
    CSession.send platform session (.loginOk uid offlineMsgs.length) MSG_LOGIN_RSP

def closeOld : Option Sid → Handler Unit
  | none => return ()
  | some old => CSession.close old

def loginAs (session : Sid) (uid : Int) : Handler Unit := do
  let oldSession ← call (.getSessionByUid uid)
  closeOld oldSession
  let _ ← call (.setLoginUid session uid)
  let _ ← call (.addOnlineUser uid session)
  let offlineMsgs ← call (.getOfflineMessages uid)
  loginPush platform session uid offlineMsgs

def loginRequest (session : Sid) (msgData : Bytes) : Handler Unit :=
  answering platform session MSG_LOGIN_RSP do
    match platform.parse msgData with
    | none => CSession.send platform session (errorResponse (ascii "invalid json")) MSG_LOGIN_RSP
    | some root =>
        if root.contains "username" = false ∨ root.contains "password" = false then
          CSession.send platform session (errorResponse (ascii "missing username or password"))
            MSG_LOGIN_RSP
        else
          let username ← field root "username" Json.getString
          let password ← field root "password" Json.getString
          if validateCredentials username password = false then
            CSession.send platform session (errorResponse (ascii "invalid credentials")) MSG_LOGIN_RSP
          else
            let (ok, uid) ← call (.loginUser username password)
            if ok = true then loginAs platform session uid
            else CSession.send platform session .loginFailed MSG_LOGIN_RSP

def getFriendListRequest (session : Sid) : Handler Unit :=
  answering platform session MSG_GET_FRIEND_LIST_RSP do
    let uid ← call (.getLoginUid session)
    if uid = 0 then
      CSession.send platform session (errorResponse (ascii "not logged in")) MSG_GET_FRIEND_LIST_RSP
    else
      let friendList ← call (.getFriendList uid)
      CSession.send platform session (.friendList uid friendList) MSG_GET_FRIEND_LIST_RSP

def pushFriendRequest (uid friendUid : Int) : Handler Unit := do
  let friendSession ← call (.getSessionByUid friendUid)
  match friendSession with
  | none => pure ()
  | some friend =>
      CSession.send platform friend (.friendRequestPush uid friendUid) MSG_FRIEND_REQUEST_PUSH

def addFriendRequest (session : Sid) (msgData : Bytes) : Handler Unit :=
  answering platform session MSG_ADD_FRIEND_RSP do
    match platform.parse msgData with
    | none =>
        CSession.send platform session (errorResponse (ascii "invalid json")) MSG_ADD_FRIEND_RSP
    | some root =>
        if root.contains "friend_uid" = false then
          CSession.send platform session (errorResponse (ascii "missing friend_uid"))
            MSG_ADD_FRIEND_RSP
        else
          let uid ← call (.getLoginUid session)
          if uid = 0 then
            CSession.send platform session (errorResponse (ascii "not logged in")) MSG_ADD_FRIEND_RSP
          else
            let friendUid ← field root "friend_uid" (Json.getInt64 platform.truncate)
            if friendUid ≤ 0 then
              CSession.send platform session (errorResponse (ascii "friend_uid invalid"))
                MSG_ADD_FRIEND_RSP
            else if uid = friendUid then
              CSession.send platform session (errorResponse (ascii "cannot add yourself"))
                MSG_ADD_FRIEND_RSP
            else
              let ok ← call (.addFriend uid friendUid)
              if ok = true then
                pushFriendRequest platform uid friendUid
                CSession.send platform session (.addFriendRsp true) MSG_ADD_FRIEND_RSP
              else CSession.send platform session (.addFriendRsp false) MSG_ADD_FRIEND_RSP

def pushChatMessage (msgId fromUid toUid : Int) (content timestamp : Bytes) : Handler Unit := do
  let toSession ← call (.getSessionByUid toUid)
  match toSession with
  | none => pure ()
  | some recipient =>
      CSession.send platform recipient (.chatMsgPush msgId fromUid toUid content timestamp)
        MSG_CHAT_MSG_PUSH

def chatMessageRequest (session : Sid) (msgData : Bytes) : Handler Unit :=
  answering platform session MSG_SEND_CHAT_RSP do
    match platform.parse msgData with
    | none => CSession.send platform session (errorResponse (ascii "invalid json")) MSG_SEND_CHAT_RSP
    | some root =>
        if root.contains "to_uid" = false ∨ root.contains "content" = false then
          CSession.send platform session (errorResponse (ascii "missing to_uid or content"))
            MSG_SEND_CHAT_RSP
        else
          let fromUid ← call (.getLoginUid session)
          if fromUid = 0 then
            CSession.send platform session (errorResponse (ascii "sender not logged in"))
              MSG_SEND_CHAT_RSP
          else
            let toUid ← field root "to_uid" (Json.getInt64 platform.truncate)
            let content ← field root "content" Json.getString
            if toUid ≤ 0 then
              CSession.send platform session (errorResponse (ascii "invalid to_uid"))
                MSG_SEND_CHAT_RSP
            else if content = [] then
              CSession.send platform session (errorResponse (ascii "content empty"))
                MSG_SEND_CHAT_RSP
            else if content.length > MAX_MESSAGE_LEN then
              CSession.send platform session
                (errorResponse (ascii "content too long, max 2048 chars")) MSG_SEND_CHAT_RSP
            else
              let tm ← call .now
              let savedMsgId ←
                call (.saveMessage fromUid toUid content (strftime tm))
              if savedMsgId ≥ 0 then
                pushChatMessage platform savedMsgId fromUid toUid content (strftime tm)
                CSession.send platform session (.chatRsp savedMsgId) MSG_SEND_CHAT_RSP
              else CSession.send platform session (.chatRsp savedMsgId) MSG_SEND_CHAT_RSP

def getOfflineMessageRequest (session : Sid) : Handler Unit :=
  answering platform session MSG_OFFLINE_MSG_RSP do
    let uid ← call (.getLoginUid session)
    if uid = 0 then
      CSession.send platform session (errorResponse (ascii "not logged in")) MSG_OFFLINE_MSG_RSP
    else
      let offlineMsgs ← call (.getOfflineMessages uid)
      CSession.send platform session (.offlineMsgs false offlineMsgs) MSG_OFFLINE_MSG_RSP

/-- `_fun_callbacks`, as `DealMsg` looks a message up in it. -/
def callback (node : LogicNode) : Option (Handler Unit) :=
  if node.msgId = MSG_HELLO_WORLD then some (helloWorldCallBack platform node.session node.data)
  else if node.msgId = MSG_REGISTER_REQ then some (registerRequest platform node.session node.data)
  else if node.msgId = MSG_LOGIN_REQ then some (loginRequest platform node.session node.data)
  else if node.msgId = MSG_GET_FRIEND_LIST_REQ then some (getFriendListRequest platform node.session)
  else if node.msgId = MSG_ADD_FRIEND_REQ then some (addFriendRequest platform node.session node.data)
  else if node.msgId = MSG_SEND_CHAT_REQ then
    some (chatMessageRequest platform node.session node.data)
  else if node.msgId = MSG_OFFLINE_MSG_REQ then
    some (getOfflineMessageRequest platform node.session)
  else none

end LogicSystem

end CoroutineServer
