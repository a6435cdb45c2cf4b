import Mathlib.Tactic.IntervalCases
import CoroutineServer.Proof.Answers
import CoroutineServer.Proof.Mailbox

/-!
# The size of an accepted message

The limit on the way in is on the body of the request, and on the way out on two other bodies with more
fields around the same content. How long these are is a sum over the bytes of the content and the digits
of the ids, so it can be said exactly which messages are accepted though they cannot be sent on.
-/

namespace CoroutineServer

open Program

variable {platform : Platform}

/-! ### How long a body is -/

/-- How many bytes a byte of a text takes in a body. -/
def weight (byte : UInt8) : Nat :=
  if byte ∈ [0x22, 0x5c, 0x08, 0x09, 0x0a, 0x0c, 0x0d] then 2
  else if byte < 0x20 then 6
  else 1

def weigh (text : Bytes) : Nat := (text.map weight).sum

/-- How many bytes an id takes in a body. -/
def width (id : Int) : Nat := (render (.number id)).length

theorem length_escape (byte : UInt8) : (escape byte).length = weight byte := by
  unfold escape weight
  split_ifs <;> simp_all <;> rfl

theorem length_render_string (text : Bytes) : (render (.string text)).length = weigh text + 2 := by
  have hbody : (text.flatMap escape).length = weigh text := by
    rw [List.length_flatMap, weigh]
    exact congrArg List.sum (List.map_congr_left fun byte _ => length_escape byte)
  have hquote : (ascii "\"").length = 1 := rfl
  rw [render, quoted, List.length_append, List.length_append, hquote, hbody]
  omega

theorem weigh_append (front back : Bytes) : weigh (front ++ back) = weigh front + weigh back := by
  rw [weigh, List.map_append, List.sum_append]
  rfl

theorem weight_digit (n : Nat) : weight (digit n) = 1 := by
  have hdigit : n % 10 < 10 := Nat.mod_lt _ (by decide)
  unfold digit
  generalize n % 10 = value at hdigit
  interval_cases value <;> rfl

theorem weigh_strftime (tm : Tm) : weigh (strftime tm) = 19 := by
  have htwo : ∀ n, weigh (twoDigits n) = 2 := fun n => by
    simp only [weigh, twoDigits, List.map_cons, List.map_nil, weight_digit]
    rfl
  have hdash : weigh (ascii "-") = 1 := rfl
  have hblank : weigh (ascii " ") = 1 := rfl
  have hcolon : weigh (ascii ":") = 1 := rfl
  simp only [strftime, weigh_append, htwo, hdash, hblank, hcolon]

/-- The text of an object: a brace, and each field with its key, a colon and what comes after it. -/
theorem length_render_cons (field : Bytes × Json) (fields : List (Bytes × Json)) :
    (render (.object (field :: fields))).length = ((field :: fields).map fun field =>
      (quoted field.1).length + (render field.2).length + 2).sum + 1 := by
  rw [length_render_object]
  induction fields generalizing field with
  | nil =>
    rw [length_renderFields_cons]
    rfl
  | cons next fields ih =>
    have hrest := ih next
    rw [length_renderFields_cons, List.map_cons, List.sum_cons]
    simp only [List.isEmpty_cons, Bool.false_eq_true, if_false]
    omega

/-! ### The two bodies of a message -/

theorem json_push (msgId fromUid toUid : Int) (content timestamp : Bytes) :
    (Payload.chatMsgPush msgId fromUid toUid content timestamp).json = .object
      [(ascii "content", .string content), (ascii "from_uid", .number fromUid),
        (ascii "msg_id", .number msgId), (ascii "timestamp", .string timestamp),
        (ascii "to_uid", .number toUid)] := rfl

theorem json_item (row : MessageRow) :
    Payload.messageItem row = .object
      [(ascii "content", .string row.content), (ascii "from_uid", .number row.fromUid),
        (ascii "msg_id", .number row.msgId), (ascii "timestamp", .string row.timestamp)] := rfl

theorem json_batch (atLogin : Bool) (row : MessageRow) :
    (Payload.offlineMsgs atLogin [row]).json = .object
      [(ascii "count", .number 1), (ascii "messages", .array [Payload.messageItem row]),
        (ascii "msg", .text (if atLogin then "offline messages" else "ok")),
        (ascii "status", .number 0)] := by
  have hcount : toInt32 (([row].length : Nat) : Int) = 1 := by
    rw [List.length_singleton]
    decide
  rw [Payload.json, hcount]
  rfl

theorem length_push (msgId fromUid toUid : Int) (content timestamp : Bytes) :
    (render (Payload.chatMsgPush msgId fromUid toUid content timestamp).json).length
      = weigh content + width fromUid + width msgId + weigh timestamp + width toUid + 61 := by
  have hcontent : (quoted (ascii "content")).length = 9 := rfl
  have hfrom : (quoted (ascii "from_uid")).length = 10 := rfl
  have hid : (quoted (ascii "msg_id")).length = 8 := rfl
  have htimestamp : (quoted (ascii "timestamp")).length = 11 := rfl
  have hto : (quoted (ascii "to_uid")).length = 8 := rfl
  rw [json_push, length_render_cons]
  simp only [List.map_cons, List.map_nil, List.sum_cons, List.sum_nil, length_render_string,
    hcontent, hfrom, hid, htimestamp, hto, width]
  omega

theorem length_item (row : MessageRow) : (render (Payload.messageItem row)).length
    = weigh row.content + width row.fromUid + width row.msgId + weigh row.timestamp + 51 := by
  have hcontent : (quoted (ascii "content")).length = 9 := rfl
  have hfrom : (quoted (ascii "from_uid")).length = 10 := rfl
  have hid : (quoted (ascii "msg_id")).length = 8 := rfl
  have htimestamp : (quoted (ascii "timestamp")).length = 11 := rfl
  rw [json_item, length_render_cons]
  simp only [List.map_cons, List.map_nil, List.sum_cons, List.sum_nil, length_render_string,
    hcontent, hfrom, hid, htimestamp, width]
  omega

theorem length_batch (atLogin : Bool) (row : MessageRow) :
    (render (Payload.offlineMsgs atLogin [row]).json).length
      = weigh row.content + width row.fromUid + width row.msgId + weigh row.timestamp
        + if atLogin then 112 else 98 := by
  have hcount : (quoted (ascii "count")).length = 7 := rfl
  have hmessages : (quoted (ascii "messages")).length = 10 := rfl
  have hmsg : (quoted (ascii "msg")).length = 5 := rfl
  have hstatus : (quoted (ascii "status")).length = 8 := rfl
  have hone : (render (.number 1)).length = 1 := rfl
  have hzero : (render (.number 0)).length = 1 := rfl
  have hitems : (render (.array [Payload.messageItem row])).length
      = (render (Payload.messageItem row)).length + 2 := by
    have hopen : (ascii "[").length = 1 := rfl
    have hclose : (ascii "]").length = 1 := rfl
    simp only [render, renderItems, List.length_append, hopen, hclose, List.isEmpty_nil, if_true,
      List.length_nil]
    omega
  have htext : (render (.text (if atLogin then "offline messages" else "ok"))).length
      = if atLogin then 18 else 4 := by
    cases atLogin <;> rfl
  rw [json_batch, length_render_cons]
  simp only [List.map_cons, List.map_nil, List.sum_cons, List.sum_nil, hcount, hmessages, hmsg,
    hstatus, hone, hzero, hitems, htext, length_item]
  split_ifs <;> omega


/-! ### Which messages can be sent on -/

/-- The body can be serialised, and `Send` does not refuse it because of its length. -/
def Deliverable (platform : Platform) (payload : Payload) : Prop :=
  ∃ text, platform.dump payload.json = .ok text ∧ 1 ≤ text.length ∧ text.length ≤ MAX_LENGTH

/-- The condition: the content and the ids leave room for the rest of both bodies, which is 80 bytes of a
push and 131 bytes of the offline messages at a login. -/
def LeavesRoom (msgId fromUid toUid : Int) (content : Bytes) : Prop :=
  weigh content + width msgId + width fromUid + width toUid + 80 ≤ MAX_LENGTH ∧
    weigh (cstr content) + width msgId + width fromUid + 131 ≤ MAX_LENGTH

theorem weigh_le (text : Bytes) : weigh text ≤ 6 * text.length := by
  have hquoted := length_quoted_le text
  have hstring := length_render_string text
  rw [render] at hstring
  omega

/-- A short content leaves room whatever the ids are. -/
theorem leavesRoom_of_length_le {msgId fromUid toUid : Int} {content : Bytes}
    (h : content.length ≤ 312) : LeavesRoom msgId fromUid toUid content := by
  have hwhole := weigh_le content
  have hcut := weigh_le (cstr content)
  have hshorter : (cstr content).length ≤ content.length := (List.takeWhile_sublist _).length_le
  have hmsgId : width msgId ≤ 21 := length_render_number_le msgId
  have hfrom : width fromUid ≤ 21 := length_render_number_le fromUid
  have hto : width toUid ≤ 21 := length_render_number_le toUid
  have hlimit : MAX_LENGTH = 2048 := rfl
  unfold LeavesRoom
  omega

/-- The message that the worker is about to save. -/
def saving (state : State) : Option (Int × Int × Bytes × Bytes) :=
  match state.worker with
  | some (.perform (.saveMessage fromUid toUid content timestamp) _) =>
      some (fromUid, toUid, content, timestamp)
  | _ => none

theorem worker_of_saving {state : State} {fromUid toUid : Int} {content timestamp : Bytes}
    (h : saving state = some (fromUid, toUid, content, timestamp)) :
    ∃ next, state.worker = some (.perform (.saveMessage fromUid toUid content timestamp) next) := by
  unfold saving at h
  split at h
  · next next heq =>
    simp only [Option.some.injEq, Prod.mk.injEq] at h
    obtain ⟨rfl, rfl, rfl, rfl⟩ := h
    exact ⟨next, heq⟩
  · cases h

theorem deliverable_iff (hcompact : Compact platform) {payload : Payload}
    (hecho : ∀ root, payload ≠ .echo root) (htext : payload.TextValid) :
    Deliverable platform payload ↔ (render payload.json).length ≤ MAX_LENGTH := by
  obtain ⟨text, hdump⟩ := platform.dump_ok _ (Payload.json_wellFormed htext)
  obtain rfl := hcompact payload hecho text hdump
  constructor
  · rintro ⟨other, hother, -, hmax⟩
    rwa [Except.ok.inj (hdump.symm.trans hother)]
  · intro hmax
    exact ⟨_, hdump, List.length_pos_iff.mpr (render_ne_nil _), hmax⟩

/-- **Both bodies of a message fit** if and only if it leaves room for them. -/
theorem bodies_deliverable_iff (hcompact : Compact platform) {msgId fromUid toUid : Int}
    {content : Bytes} {tm : Tm} (hcontent : Utf8.Valid content) :
    (Deliverable platform (.chatMsgPush msgId fromUid toUid content (strftime tm)) ∧
      ∀ atLogin, Deliverable platform (.offlineMsgs atLogin
        [⟨msgId, fromUid, toUid, cstr content, cstr (strftime tm), false⟩])) ↔
      LeavesRoom msgId fromUid toUid content := by
  have hstamp := strftime_valid tm
  have hpush : Deliverable platform (.chatMsgPush msgId fromUid toUid content (strftime tm)) ↔ _ :=
    deliverable_iff hcompact (fun _ heq => by cases heq) ⟨hcontent, hstamp⟩
  rw [cstr_eq_self (zero_notMem_strftime tm)]
  have hbatch : ∀ atLogin, Deliverable platform (.offlineMsgs atLogin
      [⟨msgId, fromUid, toUid, cstr content, strftime tm, false⟩]) ↔ _ := fun atLogin =>
    deliverable_iff hcompact (fun _ heq => by cases heq) fun row hrow => by
      obtain rfl := List.mem_singleton.mp hrow
      exact ⟨hcontent.takeWhile_ne_zero, hstamp⟩
  simp only [hpush, hbatch, length_push, length_batch, weigh_strftime, Bool.forall_bool, LeavesRoom,
    Bool.false_eq_true, if_true, if_false]
  omega


/-- **An accepted message is deliverable** if and only if it leaves room for the bodies that carry it: the
push to the recipient, and the offline messages with just this one. -/
theorem accepted_deliverable {ok : Label → State → Prop} {state : State} {input : Input}
    {fromUid toUid msgId : Int} {content timestamp : Bytes} {db : Db} (hcompact : Compact platform)
    (hreach : Reaches platform ok state)
    (hsaving : saving state = some (fromUid, toUid, content, timestamp))
    (hsave : DBManager.saveMessage input.sqlite fromUid toUid content timestamp state.world.db
      = (msgId, db)) (haccepted : 0 ≤ msgId) :
    (∃ node, served state.world.history = some node ∧ node.msgId = MSG_SEND_CHAT_REQ ∧
        Requests platform node.data toUid content) ∧
      ∃ row, db.messages = state.world.db.messages ++ [row] ∧ row.msgId = msgId ∧
        DBManager.undelivered toUid row = true ∧
        ((Deliverable platform (.chatMsgPush msgId fromUid toUid content timestamp) ∧
            ∀ atLogin, Deliverable platform (.offlineMsgs atLogin [row])) ↔
          LeavesRoom (state.world.db.lastMsgId + 1) fromUid toUid content) := by
  obtain ⟨next, hworker⟩ := worker_of_saving hsaving
  obtain ⟨node, hserved, -, ⟨hcontent, hreq, hrequests⟩, tm, rfl, -⟩ :=
    (grounded_of_reaches hreach).warrants hworker
  refine ⟨⟨node, hserved, hreq, hrequests⟩, ?_⟩
  rcases DBManager.saveMessage_cases input.sqlite state.world.db fromUid toUid content (strftime tm)
    with hcase | hcase
  · obtain ⟨rfl, -⟩ := Prod.mk.inj (hsave.symm.trans hcase)
    exact absurd haccepted (by decide)
  · obtain ⟨rfl, rfl⟩ := Prod.mk.inj (hsave.symm.trans hcase)
    exact ⟨_, rfl, rfl, by simp [DBManager.undelivered], bodies_deliverable_iff hcompact hcontent⟩

/-- Bob asks to send ann a message, up to where it is saved. -/
def savingLabels (body : Json) : List Label :=
  [Act.accept 0, .post 0 MSG_LOGIN_REQ (credentials "bob"), .serve 7,
    .post 0 MSG_SEND_CHAT_REQ body].flatMap Act.labels ++ [.dispatch, .work .idle, .work .idle]

def savingState : State :=
  Reach.after (step reference) (savingLabels (chatBody 1)) (.initial quietDb)

theorem accepted_deliverable_hello :
    Deliverable reference (.chatMsgPush 1 2 1 (ascii "hello") (strftime Input.idle.tm)) := by
  obtain ⟨hmeets, hsaving, hid, hlast⟩ :
      Reach.meets (step reference) (fun _ _ => true) (savingLabels (chatBody 1)) (.initial quietDb)
        = true ∧
      saving savingState = some (2, 1, ascii "hello", strftime Input.idle.tm) ∧
      (DBManager.saveMessage Input.idle.sqlite 2 1 (ascii "hello") (strftime Input.idle.tm)
        savingState.world.db).1 = 1 ∧
      savingState.world.db.lastMsgId = 0 := by decide +kernel
  have hreach : Reaches reference (fun _ _ => True) savingState :=
    .of_enabled ⟨quietDb, quietDb_wellFormed, rfl⟩ hmeets
  have hsave : DBManager.saveMessage Input.idle.sqlite 2 1 (ascii "hello") (strftime Input.idle.tm)
      savingState.world.db = (1, (DBManager.saveMessage Input.idle.sqlite 2 1 (ascii "hello")
        (strftime Input.idle.tm) savingState.world.db).2) := Prod.ext hid rfl
  obtain ⟨-, row, -, -, -, hiff⟩ :=
    accepted_deliverable compact_reference hreach hsaving hsave (by decide)
  rw [hlast] at hiff
  exact (hiff.mpr (leavesRoom_of_length_le (by decide))).1

/-! ### A content that leaves no room -/

/-- The body of a chat request with a long content. -/
def longBody : Json :=
  Json.null
    |>.set "to_uid" (.number 1)
    |>.set "content" (.string (List.replicate 2000 0x61))

theorem longRequests_wellFormed : ∀ root ∈ [credentials "bob", longBody], root.WellFormed := by
  intro root hroot
  simp only [List.mem_cons, List.not_mem_nil, or_false] at hroot
  rcases hroot with rfl | rfl
  · exact (Json.WellFormed.null.set_text (by decide) (by decide)).set_text (by decide) (by decide)
  · refine (Json.WellFormed.null.set_number (by decide)).set (.of_ascii (by decide)) (.string ?_)
    refine .of_ascii fun byte hbyte => ?_
    rw [(List.mem_replicate.mp hbyte).2]
    decide

abbrev longPlatform : Platform := .reading [credentials "bob", longBody] longRequests_wellFormed

def longState : State :=
  Reach.after (step longPlatform) (savingLabels longBody) (.initial quietDb)

theorem accepted_undeliverable :
    ¬∀ state (input : Input) fromUid toUid msgId content timestamp db,
      Reaches longPlatform (fun _ _ => True) state →
      saving state = some (fromUid, toUid, content, timestamp) →
      DBManager.saveMessage input.sqlite fromUid toUid content timestamp state.world.db
        = (msgId, db) → 0 ≤ msgId →
      Deliverable longPlatform (.chatMsgPush msgId fromUid toUid content timestamp) ∧
        ∀ row, db.messages = state.world.db.messages ++ [row] →
          ∀ atLogin, Deliverable longPlatform (.offlineMsgs atLogin [row]) := by
  intro h
  obtain ⟨hmeets, hsaving, hid⟩ :
      Reach.meets (step longPlatform) (fun _ _ => true) (savingLabels longBody) (.initial quietDb)
        = true ∧
      saving longState = some (2, 1, List.replicate 2000 0x61, strftime Input.idle.tm) ∧
      0 ≤ (DBManager.saveMessage Input.idle.sqlite 2 1 (List.replicate 2000 0x61)
        (strftime Input.idle.tm) longState.world.db).1 := by decide +kernel
  have hreach : Reaches longPlatform (fun _ _ => True) longState :=
    .of_enabled ⟨quietDb, quietDb_wellFormed, rfl⟩ hmeets
  obtain ⟨⟨text, hdump, -, hmax⟩, -⟩ := h _ Input.idle 2 1 _ (List.replicate 2000 0x61)
    (strftime Input.idle.tm) _ hreach hsaving rfl hid
  obtain rfl := Except.ok.inj hdump
  have hweigh : weigh (List.replicate 2000 0x61) = 2000 := by decide +kernel
  rw [length_push, hweigh, weigh_strftime] at hmax
  have hlimit : MAX_LENGTH = 2048 := rfl
  omega

end CoroutineServer
