import CoroutineServer.Const
import CoroutineServer.DBManager

/-!
# The bodies the server sends

One constructor for each JSON object a handler builds, with the values that go into it, and the object
itself, field by field in the order of the source. Two constructors also name a user that is not part of
the text: the owner of a friend list and the user a friend request is addressed to.
-/

namespace CoroutineServer

inductive Payload where
  | error (code : Int) (msg : Bytes)
  | registerRsp (ok : Bool)
  | loginOk (uid : Int) (offlineCount : Nat)
  | loginFailed
  | offlineMsgs (atLogin : Bool) (rows : List MessageRow)
  | friendList (owner : Int) (friends : List Int)
  | friendRequestPush (fromUid toUid : Int)
  | addFriendRsp (ok : Bool)
  | chatMsgPush (msgId fromUid toUid : Int) (content timestamp : Bytes)
  | chatRsp (msgId : Int)
  | echo (root : Json)

namespace Payload

/-- `item` of the loops over the offline messages. -/
def messageItem (row : MessageRow) : Json :=
  Json.null
    |>.set "msg_id" (.number row.msgId)
    |>.set "from_uid" (.number row.fromUid)
    |>.set "content" (.string row.content)
    |>.set "timestamp" (.string row.timestamp)

def json : Payload → Json
  | .error code msg => Json.null
      |>.set "status" (.number code)
      |>.set "msg" (.string msg)
  | .registerRsp ok => Json.null
      |>.set "status" (.number (if ok then 0 else -1))
      |>.set "msg" (.text (if ok then "register success" else "register failed (username may exist)"))
  | .loginOk uid offlineCount => Json.null
      |>.set "status" (.number 0)
      |>.set "uid" (.number uid)
      |>.set "msg" (.text "login success")
      |>.set "offline_count" (.number (toInt32 offlineCount))
  | .loginFailed => Json.null
      |>.set "status" (.number (-1))
      |>.set "uid" (.number 0)
      |>.set "msg" (.text "login failed (wrong username or password)")
  | .offlineMsgs atLogin rows => Json.null
      |>.set "status" (.number 0)
      |>.set "msg" (.text (if atLogin then "offline messages" else "ok"))
      |>.set "messages" (.array (rows.map messageItem))
      |>.set "count" (.number (toInt32 rows.length))
  | .friendList _ friends => Json.null
      |>.set "status" (.number 0)
      |>.set "msg" (.text "ok")
      |>.set "friends" (.array (friends.map Json.number))
  | .friendRequestPush fromUid _ => Json.null
      |>.set "from_uid" (.number fromUid)
      |>.set "msg" (.text "you have a new friend request")
  | .addFriendRsp ok => Json.null
      |>.set "status" (.number (if ok then 0 else -1))
      |>.set "msg" (.text (if ok then "friend added"
          else "add friend failed (already friends or user not found)"))
  | .chatMsgPush msgId fromUid toUid content timestamp => Json.null
      |>.set "msg_id" (.number msgId)
      |>.set "from_uid" (.number fromUid)
      |>.set "to_uid" (.number toUid)
      |>.set "content" (.string content)
      |>.set "timestamp" (.string timestamp)
  | .chatRsp msgId => Json.null
      |>.set "status" (.number (if msgId ≥ 0 then 0 else -1))
      |>.set "msg_id" (.number msgId)
      |>.set "msg" (.text (if msgId ≥ 0 then "ok" else "save failed"))
  | .echo root => root

/-- The status field of a response; a push has none, and an echo is the client's own object. -/
def status : Payload → Option Int
  | .error code _ => some code
  | .registerRsp ok => some (if ok then 0 else -1)
  | .loginOk _ _ => some 0
  | .loginFailed => some (-1)
  | .offlineMsgs _ _ => some 0
  | .friendList _ _ => some 0
  | .friendRequestPush _ _ => none
  | .addFriendRsp ok => some (if ok then 0 else -1)
  | .chatMsgPush _ _ _ _ _ => none
  | .chatRsp msgId => some (if msgId ≥ 0 then 0 else -1)
  | .echo _ => none

/-- The messages a frame with this body delivers. -/
def carries : Payload → List Int
  | .offlineMsgs _ rows => rows.map MessageRow.msgId
  | .chatMsgPush msgId _ _ _ _ => [msgId]
  | _ => []

/-- The text that goes into the body from outside can be serialised. -/
def TextValid : Payload → Prop
  | .error _ msg => Utf8.Valid msg
  | .offlineMsgs _ rows => ∀ row ∈ rows, Utf8.Valid row.content ∧ Utf8.Valid row.timestamp
  | .chatMsgPush _ _ _ content timestamp => Utf8.Valid content ∧ Utf8.Valid timestamp
  | .echo root => root.WellFormed
  | _ => True

open Json.WellFormed (set_text set_number)

theorem messageItem_wellFormed {row : MessageRow} (hcontent : Utf8.Valid row.content)
    (htimestamp : Utf8.Valid row.timestamp) : (messageItem row).WellFormed := by
  unfold messageItem
  refine Json.WellFormed.set ?_ (.of_ascii (by decide)) (.string htimestamp)
  refine Json.WellFormed.set ?_ (.of_ascii (by decide)) (.string hcontent)
  exact set_number (set_number .null (by decide)) (by decide)

/-- **Every body can be serialised** when the text in it can. -/
theorem json_wellFormed {payload : Payload} (h : payload.TextValid) : payload.json.WellFormed := by
  cases payload with
  | error code msg =>
    rw [json]
    exact (set_number .null (by decide)).set (.of_ascii (by decide)) (.string h)
  | registerRsp ok =>
    rw [json]
    apply set_text (set_number .null (by decide)) (by decide)
    cases ok <;> decide
  | loginOk uid offlineCount =>
    rw [json]
    exact set_number (set_text (set_number (set_number .null (by decide)) (by decide)) (by decide)
      (by decide)) (by decide)
  | loginFailed =>
    rw [json]
    exact set_text (set_number (set_number .null (by decide)) (by decide)) (by decide) (by decide)
  | offlineMsgs atLogin rows =>
    rw [json]
    have hitems : ∀ item ∈ rows.map messageItem, item.WellFormed := by
      intro item hitem
      obtain ⟨row, hrow, rfl⟩ := List.mem_map.mp hitem
      exact messageItem_wellFormed (h row hrow).1 (h row hrow).2
    refine set_number (Json.WellFormed.set ?_ (.of_ascii (by decide)) (.array hitems)) (by decide)
    apply set_text (set_number .null (by decide)) (by decide)
    cases atLogin <;> decide
  | friendList owner friends =>
    rw [json]
    have hitems : ∀ item ∈ friends.map Json.number, item.WellFormed := by
      intro item hitem
      obtain ⟨uid, -, rfl⟩ := List.mem_map.mp hitem
      exact .number uid
    exact (set_text (set_number .null (by decide)) (by decide) (by decide)).set
      (.of_ascii (by decide)) (.array hitems)
  | friendRequestPush fromUid toUid =>
    rw [json]
    exact set_text (set_number .null (by decide)) (by decide) (by decide)
  | addFriendRsp ok =>
    rw [json]
    apply set_text (set_number .null (by decide)) (by decide)
    cases ok <;> decide
  | chatMsgPush msgId fromUid toUid content timestamp =>
    rw [json]
    refine Json.WellFormed.set ?_ (.of_ascii (by decide)) (.string h.2)
    refine Json.WellFormed.set ?_ (.of_ascii (by decide)) (.string h.1)
    exact set_number (set_number (set_number .null (by decide)) (by decide)) (by decide)
  | chatRsp msgId =>
    rw [json]
    apply set_text (set_number (set_number .null (by decide)) (by decide)) (by decide)
    split <;> decide
  | echo root => exact h

end Payload

end CoroutineServer
