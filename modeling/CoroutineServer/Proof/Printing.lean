import CoroutineServer.PrintResponse
import CoroutineServer.Proof.Outline

/-!
# What `PrintResponse` can print

A response with its fields of the right types can be printed. Every body that a handler builds as the
response to a command is one.
-/

namespace CoroutineServer

/-! ### Computations that do not fail -/

def Succeeds {ε α : Type} (computation : Except ε α) : Prop := ∃ result, computation = .ok result

namespace Succeeds

variable {ε α β : Type} {computation : Except ε α}

theorem pure (result : α) : Succeeds (ε := ε) (.ok result) := ⟨result, rfl⟩

theorem bind {rest : α → Except ε β} (h : Succeeds computation)
    (hrest : ∀ result, computation = .ok result → Succeeds (rest result)) :
    Succeeds (computation >>= rest) := by
  obtain ⟨result, rfl⟩ := h
  exact hrest result rfl

theorem throwing {computation : Except Exn α} (h : Succeeds computation) :
    Succeeds (throwing computation) := by
  obtain ⟨result, rfl⟩ := h
  exact ⟨result, rfl⟩

theorem mapM {items : List α} {each : α → Except ε β} (h : ∀ item ∈ items, Succeeds (each item)) :
    Succeeds (items.mapM each) := by
  induction items with
  | nil => exact ⟨[], rfl⟩
  | cons item items ih =>
    rw [List.mapM_cons]
    refine (h item List.mem_cons_self).bind fun result _ => ?_
    exact (ih fun other hother => h other (List.mem_cons_of_mem _ hother)).bind fun results _ => .pure _

end Succeeds

/-! ### Shapes -/

namespace Json

variable {root : Json} {key : String}

def lookup (root : Json) (key : String) : Option Json :=
  match root with
  | .object fields => find (ascii key) fields
  | _ => none

def isObject : Json → Bool
  | .object _ => true
  | _ => false

def isNumber : Json → Bool
  | .number _ => true
  | .numberFloat _ => true
  | _ => false

def isString : Json → Bool
  | .string _ => true
  | _ => false

def isArrayOf (shape : Json → Bool) : Json → Bool
  | .array items => items.all shape
  | _ => false

theorem contains_eq (root : Json) (key : String) : root.contains key = (root.lookup key).isSome := by
  cases root <;> rfl

theorem constIndex_of_lookup {value : Json} (h : root.lookup key = some value) :
    root.constIndex key = .ok value := by
  cases root with
  | object fields =>
    unfold lookup at h
    unfold constIndex
    dsimp only at h ⊢
    rw [h]
  | _ => cases h

theorem value_succeeds {α : Type} {get : Json → Except Exn α} (fallback : α)
    (hobject : root.isObject = true) {shape : Json → Bool}
    (hget : ∀ value, shape value = true → Succeeds (get value))
    (hshape : (root.lookup key).all shape = true) : Succeeds (root.value key get fallback) := by
  cases root with
  | object fields =>
    unfold lookup at hshape
    unfold value
    dsimp only at hshape ⊢
    cases hfind : find (ascii key) fields with
    | none => exact .pure fallback
    | some field =>
      rw [hfind] at hshape
      exact hget field hshape
  | _ => cases hobject

theorem getInt_succeeds (truncate : UInt64 → Int) {value : Json} (h : value.isNumber = true) :
    Succeeds (value.getInt truncate) := by
  cases value with
  | number | numberFloat => exact .pure _
  | _ => cases h

theorem getInt64_succeeds (truncate : UInt64 → Int) {value : Json} (h : value.isNumber = true) :
    Succeeds (value.getInt64 truncate) := by
  cases value with
  | number | numberFloat => exact .pure _
  | _ => cases h

theorem getString_succeeds {value : Json} (h : value.isString = true) : Succeeds value.getString := by
  cases value with
  | string => exact .pure _
  | _ => cases h

end Json

namespace TestClient

open Json

/-! ### Printing -/

/-- A message of `messages`. -/
def isMessage (m : Json) : Bool :=
  (m.lookup "msg_id").any isNumber && (m.lookup "from_uid").any isNumber &&
    (m.lookup "timestamp").any isString && (m.lookup "content").any isString

/-- What is there has the type that it is read with, and `messages` come with their count. -/
structure Printable (rsp : Json) : Prop where
  object : rsp.isObject = true
  status : (rsp.lookup "status").all isNumber = true
  uid : (rsp.lookup "uid").all isNumber = true
  msg : (rsp.lookup "msg").all isString = true
  offlineCount : (rsp.lookup "offline_count").all isNumber = true
  friends : (rsp.lookup "friends").all (isArrayOf isNumber) = true
  count : ((rsp.lookup "messages").isNone || (rsp.lookup "count").any isNumber) = true
  messages : (rsp.lookup "messages").all (isArrayOf isMessage) = true
  msgId : (rsp.lookup "msg_id").all isNumber = true

variable {truncate : UInt64 → Int} {rsp : Json} {shape : Json → Bool}

theorem printField_succeeds {α : Type} {key label : String} {get : Json → Except Exn α} {test : α → Bool}
    {text : α → Bytes} (hget : ∀ value, shape value = true → Succeeds (get value))
    (hshape : (rsp.lookup key).all shape = true) :
    Succeeds (printField rsp key label get test text) := by
  unfold printField
  rw [contains_eq]
  split_ifs with hsome
  · obtain ⟨field, hfield⟩ := Option.isSome_iff_exists.mp hsome
    rw [hfield] at hshape
    rw [constIndex_of_lookup hfield]
    exact (hget field hshape).throwing.bind fun value _ => .pure _
  · exact .pure _

theorem printItems_succeeds {item : Nat → Json → Except Crash Bytes}
    (harray : rsp.isArrayOf shape = true)
    (hitem : ∀ i field, shape field = true → Succeeds (item i field)) : Succeeds (printItems rsp item) := by
  cases rsp with
  | array items =>
    refine .bind (.mapM fun i hi => ?_) fun texts _ => .pure _
    have hi : i < items.length := List.mem_range.mp hi
    have hfield : (Json.array items).constAt i = .ok items[i] := by
      unfold constAt
      dsimp only
      rw [List.getElem?_eq_getElem hi]
    rw [hfield]
    exact hitem i _ (List.all_eq_true.mp harray _ (List.getElem_mem hi))
  | _ => cases harray

theorem printFriends_succeeds (h : (rsp.lookup "friends").all (isArrayOf isNumber) = true) :
    Succeeds (printFriends truncate rsp) := by
  unfold printFriends
  rw [contains_eq]
  split_ifs with hsome
  · obtain ⟨arr, harr⟩ := Option.isSome_iff_exists.mp hsome
    rw [harr] at h
    rw [constIndex_of_lookup harr]
    refine (printItems_succeeds h fun i field hfield => ?_).bind fun texts _ => .pure _
    exact (getInt64_succeeds truncate hfield).throwing.bind fun uid _ => .pure _
  · exact .pure _

theorem printMessage_succeeds {m : Json} (h : isMessage m = true) : Succeeds (printMessage truncate m) := by
  simp only [isMessage, Bool.and_eq_true, Option.any_eq_true] at h
  obtain ⟨⟨⟨⟨msgId, hmsgId, hid⟩, fromUid, hfromUid, hfrom⟩, timestamp, htimestamp, htime⟩,
    content, hcontent, htext⟩ := h
  unfold printMessage
  rw [constIndex_of_lookup hmsgId, constIndex_of_lookup hfromUid, constIndex_of_lookup htimestamp,
    constIndex_of_lookup hcontent]
  refine (getInt64_succeeds truncate hid).throwing.bind fun _ _ => ?_
  refine (getInt64_succeeds truncate hfrom).throwing.bind fun _ _ => ?_
  refine (getString_succeeds htime).throwing.bind fun _ _ => ?_
  exact (getString_succeeds htext).throwing.bind fun _ _ => .pure _

theorem printMessages_succeeds
    (hcount : ((rsp.lookup "messages").isNone || (rsp.lookup "count").any isNumber) = true)
    (h : (rsp.lookup "messages").all (isArrayOf isMessage) = true) :
    Succeeds (printMessages truncate rsp) := by
  unfold printMessages
  rw [contains_eq]
  split_ifs with hsome
  · obtain ⟨arr, harr⟩ := Option.isSome_iff_exists.mp hsome
    rw [harr] at h hcount
    obtain ⟨count, hcount, hnumber⟩ := (Option.any_eq_true _ _).mp hcount
    rw [constIndex_of_lookup harr, constIndex_of_lookup hcount]
    refine (getInt_succeeds truncate hnumber).throwing.bind fun _ _ => ?_
    exact (printItems_succeeds h fun _ _ => printMessage_succeeds).bind fun texts _ => .pure _
  · exact .pure _

theorem printResponse_succeeds (h : Printable rsp) : Succeeds (printResponse truncate rsp) := by
  have hint64 : ∀ value : Json, value.isNumber = true → Succeeds (value.getInt64 truncate) :=
    fun _ => getInt64_succeeds truncate
  have hint : ∀ value : Json, value.isNumber = true → Succeeds (value.getInt truncate) :=
    fun _ => getInt_succeeds truncate
  unfold printResponse
  split
  · exact .pure _
  · refine (value_succeeds _ h.object hint h.status).throwing.bind fun _ _ => ?_
    refine (printField_succeeds hint64 h.uid).bind fun _ _ => ?_
    refine (printField_succeeds (fun _ => getString_succeeds) h.msg).bind fun _ _ => ?_
    refine (printField_succeeds hint h.offlineCount).bind fun _ _ => ?_
    refine (printFriends_succeeds h.friends).bind fun _ _ => ?_
    refine (printMessages_succeeds h.count h.messages).bind fun _ _ => ?_
    exact (printField_succeeds hint64 h.msgId).bind fun _ _ => .pure _

/-! ### The bodies -/

theorem isMessage_messageItem (row : MessageRow) : isMessage (Payload.messageItem row) = true := rfl

/-- **Every answer of a handler can be printed.** -/
theorem printable_of_answer {payload : Payload} (hanswer : payload.IsAnswer)
    (hecho : ∀ root, payload ≠ .echo root) : Printable payload.json := by
  cases payload with
  | echo root => exact absurd rfl (hecho root)
  | friendRequestPush | chatMsgPush => exact hanswer.elim
  | offlineMsgs atLogin rows =>
    have hrows : (Json.array (rows.map Payload.messageItem)).isArrayOf isMessage = true := by
      rw [isArrayOf, List.all_map, List.all_eq_true]
      exact fun row _ => isMessage_messageItem row
    have hmessages : (Payload.offlineMsgs atLogin rows).json.lookup "messages"
        = some (.array (rows.map Payload.messageItem)) := rfl
    refine ⟨rfl, rfl, rfl, rfl, rfl, rfl, rfl, ?_, rfl⟩
    rw [hmessages]
    exact hrows
  | friendList owner friends =>
    have huids : (Json.array (friends.map Json.number)).isArrayOf isNumber = true := by
      rw [isArrayOf, List.all_map, List.all_eq_true]
      exact fun _ _ => rfl
    have hfriends : (Payload.friendList owner friends).json.lookup "friends"
        = some (.array (friends.map Json.number)) := rfl
    refine ⟨rfl, rfl, rfl, rfl, rfl, ?_, rfl, rfl, rfl⟩
    rw [hfriends]
    exact huids
  | error | registerRsp | loginOk | loginFailed | addFriendRsp | chatRsp => constructor <;> rfl

end TestClient

end CoroutineServer
