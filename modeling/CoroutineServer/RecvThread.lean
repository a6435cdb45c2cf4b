import CoroutineServer.Payload
import CoroutineServer.PrintResponse

/-!
# The receive thread of the test client

What `RecvThreadFunc` does with a message that has come in: pushes go to the screen, all else goes to the queue
of `WaitForResponse`. The screen gets a message piece by piece, so what stands before a piece that throws is
there.
-/

namespace CoroutineServer.TestClient

/-- What a chain of `<<` puts on the screen, and the exception of the piece that throws. -/
def streamed : List (Except Exn Bytes) → Bytes × Option Exn
  | [] => ([], none)
  | .error what :: _ => ([], some what)
  | .ok text :: pieces => (text ++ (streamed pieces).1, (streamed pieces).2)

/-! ### The pushes -/

section Display

variable (truncate : UInt64 → Int)

/-- `json.value(key, 0)`, which is an `int`. -/
def intValue (json : Json) (key : String) : Except Exn Bytes :=
  (json.value key (Json.getInt truncate) 0).map shown

def textValue (json : Json) (key fallback : String) : Except Exn Bytes :=
  json.value key Json.getString (ascii fallback)

def pushChat (json : Json) : List (Except Exn Bytes) :=
  [.ok (ascii "\n[Push-Chat] from="), intValue truncate json "from_uid",
    .ok (ascii " msg_id="), intValue truncate json "msg_id",
    .ok (ascii "\n  content: "), textValue json "content" "(empty)",
    .ok (ascii "\n  time: "), textValue json "timestamp" "(unknown)",
    .ok (ascii "\n> ")]

def pushFriend (json : Json) : List (Except Exn Bytes) :=
  [.ok (ascii "\n[Push-Friend] from="), intValue truncate json "from_uid",
    .ok (ascii " msg: "), textValue json "msg" "(empty)",
    .ok (ascii "\n> ")]

def offlineLine (m : Json) : List (Except Exn Bytes) :=
  [.ok (ascii "  ["), intValue truncate m "msg_id",
    .ok (ascii "] from="), intValue truncate m "from_uid",
    .ok (ascii " | "), textValue m "timestamp" "(unknown)",
    .ok (ascii "\n    "), textValue m "content" "(empty)",
    .ok (ascii "\n")]

/-- The loop over `messages`, which takes a position of whatever has a size. -/
def offlineLines : Json → List (Except Exn Bytes)
  | .array items => items.flatMap (offlineLine truncate)
  | arr => if arr.size = 0 then [] else [.error arr.cannotUsePosition]

def autoOffline (json : Json) : List (Except Exn Bytes) :=
  [.ok (ascii "\n[Auto-Offline] "), intValue truncate json "count", .ok (ascii " msgs:\n")]
    ++ (match json.index "messages" with
      | .ok arr => offlineLines truncate arr
      | .error what => [.error what])
    ++ [.ok (ascii "> ")]

end Display

/-! ### One message -/

/-- What comes of a message. -/
inductive Reaction where
  /-- The body is no JSON. -/
  | ignores
  | shows (text : Bytes)
  /-- An exception ends the text. -/
  | breaksOff (text : Bytes) (what : Exn)
  | queues (json : Json)

namespace Reaction

def ofStreamed : Bytes × Option Exn → Reaction
  | (text, none) => .shows text
  | (text, some what) => .breaksOff text what

/-- All that is printed. -/
def printed (msgId : Int) : Reaction → Bytes
  | .ignores => ascii "[Client] JSON parse failed, msg_id=" ++ shown msgId ++ ascii "\n"
  | .shows text => text
  | .breaksOff text what => text ++ ascii "[Client] push display error: " ++ what ++ ascii "\n"
  | .queues _ => []

end Reaction

/-- The body of the loop, behind `RecvOneMessage`. -/
def react (platform : Platform) (msg : Int × Bytes) : Reaction :=
  match platform.parse msg.2 with
  | none => .ignores
  | some json =>
      if msg.1 = MSG_CHAT_MSG_PUSH then .ofStreamed (streamed (pushChat platform.truncate json))
      else if msg.1 = MSG_FRIEND_REQUEST_PUSH then .ofStreamed (streamed (pushFriend platform.truncate json))
      else if msg.1 = MSG_OFFLINE_MSG_RSP ∧ json.contains "messages" = true then
        .ofStreamed (streamed (autoOffline platform.truncate json))
      else .queues json

/-! ### What the bodies of the server come to -/

/-- A message of a batch on the screen. -/
def rowText (row : MessageRow) : Bytes :=
  ascii "  [" ++ shown (toInt32 row.msgId) ++ ascii "] from=" ++ shown (toInt32 row.fromUid)
    ++ ascii " | " ++ row.timestamp ++ ascii "\n    " ++ row.content ++ ascii "\n"

/-- What the user is to see of a body, or the command is to get; ids are shown as `int`s. -/
def appearance : Payload → Reaction
  | .chatMsgPush msgId fromUid _ content timestamp => .shows
      (ascii "\n[Push-Chat] from=" ++ shown (toInt32 fromUid) ++ ascii " msg_id=" ++ shown (toInt32 msgId)
        ++ ascii "\n  content: " ++ content ++ ascii "\n  time: " ++ timestamp ++ ascii "\n> ")
  | .friendRequestPush fromUid _ => .shows
      (ascii "\n[Push-Friend] from=" ++ shown (toInt32 fromUid)
        ++ ascii " msg: you have a new friend request\n> ")
  | .offlineMsgs _ rows => .shows
      (ascii "\n[Auto-Offline] " ++ shown (toInt32 rows.length) ++ ascii " msgs:\n"
        ++ rows.flatMap rowText ++ ascii "> ")
  | payload => .queues payload.json

end CoroutineServer.TestClient
