import CoroutineServer.ClientLoop
import CoroutineServer.Render

/-!
# `PrintResponse`

What the test client does with a response, down to the accessors of a const value, which throw on values of
the wrong type and are undefined on missing fields.
-/

namespace CoroutineServer

/-! ### Accessors of a const value -/

/-- How an access can fail. -/
inductive Crash where
  | threw (what : Exn)
  /-- `operator[]` of a const object or array for something it does not have, which is undefined. -/
  | undefinedAccess

/-- An accessor that throws. -/
def throwing {α : Type} (result : Except Exn α) : Except Crash α := result.mapError .threw

namespace Json

/-- `type_error` 306, thrown by `value`. -/
def cannotUseValue (root : Json) : Exn :=
  ascii "[json.exception.type_error.306] cannot use value() with " ++ root.typeName

/-- `type_error` 305 for a position. -/
def cannotUsePosition (root : Json) : Exn :=
  ascii "[json.exception.type_error.305] cannot use operator[] with a numeric argument with "
    ++ root.typeName

/-- `root.value(key, fallback)`. -/
def value {α : Type} (root : Json) (key : String) (get : Json → Except Exn α) (fallback : α) :
    Except Exn α :=
  match root with
  | .object fields => match find (ascii key) fields with
      | some value => get value
      | none => .ok fallback
  | root => .error root.cannotUseValue

/-- `root[key]` on a const value. -/
def constIndex (root : Json) (key : String) : Except Crash Json :=
  match root with
  | .object fields => match find (ascii key) fields with
      | some value => .ok value
      | none => .error .undefinedAccess
  | root => .error (.threw root.cannotUseIndex)

/-- `root[i]` on a const value. -/
def constAt (root : Json) (i : Nat) : Except Crash Json :=
  match root with
  | .array items => match items[i]? with
      | some item => .ok item
      | none => .error .undefinedAccess
  | root => .error (.threw root.cannotUsePosition)

def size : Json → Nat
  | .null => 0
  | .array items => items.length
  | .object fields => fields.length
  | _ => 1

end Json

namespace TestClient

/-! ### `PrintResponse` -/

/-- What `cout` makes of an integer. -/
def shown (value : Int) : Bytes := render (.number value)

section Print

variable (truncate : UInt64 → Int)

/-- A field that is printed with its label when it is there and passes a test. -/
def printField {α : Type} (rsp : Json) (key label : String) (get : Json → Except Exn α)
    (test : α → Bool) (text : α → Bytes) : Except Crash Bytes := do
  if rsp.contains key then
    let field ← rsp.constIndex key
    let value ← throwing (get field)
    return if test value then ascii label ++ text value ++ ascii " " else []
  else return []

/-- The loop over the items of an array. -/
def printItems (rsp : Json) (item : Nat → Json → Except Crash Bytes) : Except Crash Bytes := do
  let texts ← (List.range rsp.size).mapM fun i => do
    let field ← rsp.constAt i
    item i field
  return texts.flatten

def printFriends (rsp : Json) : Except Crash Bytes := do
  if rsp.contains "friends" then
    let arr ← rsp.constIndex "friends"
    let texts ← printItems arr fun i field => do
      let uid ← throwing (field.getInt64 truncate)
      return shown uid ++ ascii (if i + 1 < arr.size then ", " else "")
    return ascii "\n  friends: " ++ texts
  else return []

def printMessage (m : Json) : Except Crash Bytes := do
  let msgId ← throwing ((← m.constIndex "msg_id").getInt64 truncate)
  let fromUid ← throwing ((← m.constIndex "from_uid").getInt64 truncate)
  let timestamp ← throwing (← m.constIndex "timestamp").getString
  let content ← throwing (← m.constIndex "content").getString
  return ascii "    [" ++ shown msgId ++ ascii "] from=" ++ shown fromUid ++ ascii " | " ++ timestamp
    ++ ascii "\n      " ++ content ++ ascii "\n"

def printMessages (rsp : Json) : Except Crash Bytes := do
  if rsp.contains "messages" then
    let count ← throwing ((← rsp.constIndex "count").getInt truncate)
    let arr ← rsp.constIndex "messages"
    let texts ← printItems arr fun _ m => printMessage truncate m
    return ascii "\n  offline (" ++ shown count ++ ascii "):\n" ++ texts
  else return []

/-- `PrintResponse`: the text, or how the accessors fail. -/
def printResponse (rsp : Json) : Except Crash Bytes :=
  match rsp with
  | .null => .ok []
  | rsp => do
      let status ← throwing (rsp.value "status" (Json.getInt truncate) (-999))
      let uid ← printField rsp "uid" "uid=" (Json.getInt64 truncate) (fun uid => uid != 0) shown
      let msg ← printField rsp "msg" "" Json.getString (fun _ => true) id
      let offlineCount ← printField rsp "offline_count" "offline=" (Json.getInt truncate)
        (fun count => count > 0) shown
      let friends ← printFriends truncate rsp
      let messages ← printMessages truncate rsp
      let msgId ← printField rsp "msg_id" "msg_id=" (Json.getInt64 truncate) (fun _ => true) shown
      return ascii (if status = 0 then "[OK] " else "[FAIL] ") ++ uid ++ msg ++ offlineCount ++ friends
        ++ messages ++ msgId ++ ascii "\n"

/-- What a command does with the value of `WaitForResponse`: the text, and whether it is a login that the
server has accepted. -/
def respond (command : Command) (rsp : Json) : Except Crash (Bytes × Bool) := do
  let text ← printResponse truncate rsp
  if command = .login then
    let status ← throwing (rsp.value "status" (Json.getInt truncate) (-1))
    return (text, decide (status = 0))
  else return (text, false)

/-- What `DoLogin` does with it. -/
def restore (rsp : Json) : Except Crash (Bytes × Bool) :=
  match rsp with
  | .null => .ok ([], false)
  | rsp => do
      let text ← printResponse truncate rsp
      let status ← throwing (rsp.value "status" (Json.getInt truncate) (-1))
      if status = 0 then
        -- `rsp` is not const here, so a missing field would be null
        let uid ← throwing ((rsp.index "uid").bind (Json.getInt64 truncate))
        return (text ++ ascii "[Client] re-login ok uid=" ++ shown uid ++ ascii "\n", true)
      else return (text, false)

end Print

end TestClient

end CoroutineServer
