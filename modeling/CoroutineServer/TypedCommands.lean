import CoroutineServer.ClientCommands
import CoroutineServer.LogicSystem

/-!
# Commands as they are meant

A command of the test client with its arguments: the line that is typed for it, and the handler that it asks
the server to run, with the JSON text, the frame and the checks of the arguments between the two left out.
-/

namespace CoroutineServer.TestClient

open Program LogicSystem

inductive TypedCommand where
  | register (user pass : Bytes)
  | login (user pass : Bytes)
  | friends
  | addFriend (friendUid : Int)
  | chat (toUid : Int) (content : Bytes)
  | offline

/-- What `iss >> text` takes as a whole. -/
def IsWord (text : Bytes) : Prop := text ≠ [] ∧ ∀ byte ∈ text, isSpace byte = false

instance decidableIsWord (text : Bytes) : Decidable (IsWord text) :=
  @instDecidableAnd _ _ inferInstance (List.decidableBAll (fun byte => isSpace byte = false) text)

namespace TypedCommand

def command : TypedCommand → Command
  | .register _ _ => .register
  | .login _ _ => .login
  | .friends => .friends
  | .addFriend _ => .addFriend
  | .chat _ _ => .chat
  | .offline => .offline

def line : TypedCommand → Bytes
  | .register user pass => ascii "/register " ++ (user ++ (ascii " " ++ pass))
  | .login user pass => ascii "/login " ++ (user ++ (ascii " " ++ pass))
  | .friends => ascii "/friends"
  | .addFriend friendUid => ascii "/friend add " ++ shown friendUid
  | .chat toUid content => ascii "/chat " ++ (shown toUid ++ (ascii " " ++ content))
  | .offline => ascii "/offline"

def req : TypedCommand → Json
  | .register user pass => credentialsReq user pass
  | .login user pass => credentialsReq user pass
  | .friends => .null
  | .addFriend friendUid => Json.null.set "friend_uid" (.number friendUid)
  | .chat toUid content => Json.null
      |>.set "to_uid" (.number toUid)
      |>.set "content" (.string content)
  | .offline => .null

def entry : TypedCommand → Entry
  | .login user pass => .login user pass
  | typed => .asks typed.command typed.req

/-- The arguments are such that neither side refuses them. -/
def Valid : TypedCommand → Prop
  | .register user pass => IsWord user ∧ IsWord pass ∧ validateUsername user = true ∧
      validatePassword pass = true
  | .login user pass => IsWord user ∧ IsWord pass ∧ validateUsername user = true ∧
      validatePassword pass = true
  | .addFriend friendUid => 0 < friendUid ∧ toInt64 friendUid = friendUid
  | .chat toUid content => (0 < toUid ∧ toInt64 toUid = toUid) ∧
      (content ≠ [] ∧ content.length ≤ MAX_MESSAGE_LEN) ∧
      (∀ byte ∈ content, byte ≠ 0x0a) ∧ ∀ byte ∈ content.head?, byte ≠ 0x20 ∧ byte ≠ 0x09
  | _ => True

instance decidableValid : (typed : TypedCommand) → Decidable typed.Valid
  | .register _ _ => inferInstanceAs (Decidable (_ ∧ _))
  | .login _ _ => inferInstanceAs (Decidable (_ ∧ _))
  | .addFriend _ => inferInstanceAs (Decidable (_ ∧ _))
  | .chat _ content =>
      -- byte by byte along the text; the bytes are so few that they could also be enumerated
      @instDecidableAnd _ _ inferInstance (@instDecidableAnd _ _ inferInstance (@instDecidableAnd _ _
        (List.decidableBAll (fun byte => byte ≠ 0x0a) content) (match content with
          | [] => isTrue fun _ h => (by cases h)
          | byte :: _ => decidable_of_iff (byte ≠ 0x20 ∧ byte ≠ 0x09) (by simp))))
  | .friends => isTrue trivial
  | .offline => isTrue trivial

/-- The handler that a command asks for, on the session that sends it. -/
def served (platform : Platform) (session : Sid) : TypedCommand → Handler Unit
  | .register user pass => answering platform session MSG_REGISTER_RSP do
      let ok ← call (.registerUser user pass)
      CSession.send platform session (.registerRsp ok) MSG_REGISTER_RSP
  | .login user pass => answering platform session MSG_LOGIN_RSP do
      let (ok, uid) ← call (.loginUser user pass)
      if ok = true then loginAs platform session uid
      else CSession.send platform session .loginFailed MSG_LOGIN_RSP
  | .friends => getFriendListRequest platform session
  | .addFriend friendUid => answering platform session MSG_ADD_FRIEND_RSP do
      let uid ← call (.getLoginUid session)
      if uid = 0 then
        CSession.send platform session (errorResponse (ascii "not logged in")) MSG_ADD_FRIEND_RSP
      else if uid = friendUid then
        CSession.send platform session (errorResponse (ascii "cannot add yourself")) MSG_ADD_FRIEND_RSP
      else
        let ok ← call (.addFriend uid friendUid)
        if ok = true then
          pushFriendRequest platform uid friendUid
          CSession.send platform session (.addFriendRsp true) MSG_ADD_FRIEND_RSP
        else CSession.send platform session (.addFriendRsp false) MSG_ADD_FRIEND_RSP
  | .chat toUid content => answering platform session MSG_SEND_CHAT_RSP do
      let fromUid ← call (.getLoginUid session)
      if fromUid = 0 then
        CSession.send platform session (errorResponse (ascii "sender not logged in")) MSG_SEND_CHAT_RSP
      else
        let tm ← call .now
        let savedMsgId ← call (.saveMessage fromUid toUid content (strftime tm))
        if savedMsgId ≥ 0 then
          pushChatMessage platform savedMsgId fromUid toUid content (strftime tm)
          CSession.send platform session (.chatRsp savedMsgId) MSG_SEND_CHAT_RSP
        else CSession.send platform session (.chatRsp savedMsgId) MSG_SEND_CHAT_RSP
  | .offline => getOfflineMessageRequest platform session

end TypedCommand

/-- What the turn of a line gives to the socket, `none` when `SendMsg` refuses the request. -/
def written (platform : Platform) (line : Bytes) : Option Bytes :=
  let sent := fun (command : Command) req => (platform.dump req).toOption.bind (sendMsg command.reqId)
  match Entry.read line with
  | .asks command req => sent command req
  | .login user pass => sent .login (credentialsReq user pass)
  | _ => some []

end CoroutineServer.TestClient
