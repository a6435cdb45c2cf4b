import CoroutineServer.Proof.Ascending
import CoroutineServer.Proof.Delivery
import CoroutineServer.Proof.Printing
import CoroutineServer.RecvThread
import CoroutineServer.Scenario
import Mathlib.Data.List.Forall2

/-!
# What the user sees

The receive thread against the bodies that the server builds: each comes to the screen, or to the command that
waits for it, as what it means.
-/

namespace CoroutineServer.TestClient

open Program Wire

variable {platform : Platform} {state : State} {payload : Payload} {frame : Queued}

/-! ### Pieces -/

@[simp]
theorem streamed_ok (text : Bytes) (pieces : List (Except Exn Bytes)) :
    streamed (.ok text :: pieces) = (text ++ (streamed pieces).1, (streamed pieces).2) := rfl

/-- Pieces that do not throw are shown as a whole. -/
theorem streamed_map_ok (texts : List Bytes) : streamed (texts.map .ok) = (texts.flatten, none) := by
  induction texts with
  | nil => rfl
  | cons text texts ih => rw [List.map_cons, streamed_ok, ih, List.flatten_cons]

theorem toInt32_toInt32 (value : Int) : toInt32 (toInt32 value) = toInt32 value := by
  unfold toInt32
  split <;> split <;> omega

/-! ### Bodies -/

section Bodies

variable (truncate : UInt64 → Int)

theorem pushChat_shown (msgId fromUid toUid : Int) (content timestamp : Bytes) :
    .ofStreamed (streamed (pushChat truncate (Payload.chatMsgPush msgId fromUid toUid content timestamp).json))
      = appearance (.chatMsgPush msgId fromUid toUid content timestamp) := by
  have hpieces : pushChat truncate (Payload.chatMsgPush msgId fromUid toUid content timestamp).json
      = [ascii "\n[Push-Chat] from=", shown (toInt32 fromUid), ascii " msg_id=", shown (toInt32 msgId),
          ascii "\n  content: ", content, ascii "\n  time: ", timestamp, ascii "\n> "].map .ok := rfl
  rw [hpieces, streamed_map_ok]
  simp [appearance, Reaction.ofStreamed]

theorem pushFriend_shown (fromUid toUid : Int) :
    .ofStreamed (streamed (pushFriend truncate (Payload.friendRequestPush fromUid toUid).json))
      = appearance (.friendRequestPush fromUid toUid) := by
  have hpieces : pushFriend truncate (Payload.friendRequestPush fromUid toUid).json
      = [ascii "\n[Push-Friend] from=", shown (toInt32 fromUid), ascii " msg: ",
          ascii "you have a new friend request", ascii "\n> "].map .ok := rfl
  have hwords : ascii " msg: you have a new friend request\n> "
      = ascii " msg: " ++ (ascii "you have a new friend request" ++ ascii "\n> ") := by decide
  rw [hpieces, streamed_map_ok]
  unfold appearance
  rw [hwords]
  simp [Reaction.ofStreamed]

/-- The pieces of a message of a batch. -/
def rowPieces (row : MessageRow) : List Bytes :=
  [ascii "  [", shown (toInt32 row.msgId), ascii "] from=", shown (toInt32 row.fromUid), ascii " | ",
    row.timestamp, ascii "\n    ", row.content, ascii "\n"]

theorem flatten_rowPieces (rows : List MessageRow) :
    (rows.flatMap rowPieces).flatten = rows.flatMap rowText := by
  have hrow : ∀ row, (rowPieces row).flatten = rowText row := fun row => by simp [rowPieces, rowText]
  induction rows with
  | nil => rfl
  | cons row rows ih => rw [List.flatMap_cons, List.flatten_append, ih, hrow, List.flatMap_cons]

theorem offlineLines_rows (rows : List MessageRow) :
    offlineLines truncate (.array (rows.map Payload.messageItem)) = (rows.flatMap rowPieces).map .ok := by
  change (rows.map Payload.messageItem).flatMap (offlineLine truncate) = _
  rw [List.flatMap_map, List.map_flatMap]
  rfl

theorem autoOffline_shown (atLogin : Bool) (rows : List MessageRow) :
    .ofStreamed (streamed (autoOffline truncate (Payload.offlineMsgs atLogin rows).json))
      = appearance (.offlineMsgs atLogin rows) := by
  have hpieces : autoOffline truncate (Payload.offlineMsgs atLogin rows).json
      = ([ascii "\n[Auto-Offline] ", shown (toInt32 (toInt32 rows.length)), ascii " msgs:\n"]
          ++ rows.flatMap rowPieces ++ [ascii "> "]).map .ok := by
    rw [List.map_append, List.map_append, ← offlineLines_rows truncate]
    rfl
  rw [hpieces, streamed_map_ok, toInt32_toInt32]
  simp [appearance, Reaction.ofStreamed, flatten_rowPieces]

end Bodies

/-! ### Every frame of the server -/

theorem responses_queued {msgId rspId : Int} (h : responseId msgId = some rspId) :
    toShort rspId ≠ MSG_CHAT_MSG_PUSH ∧ toShort rspId ≠ MSG_FRIEND_REQUEST_PUSH := by
  unfold responseId at h
  split_ifs at h <;> cases h <;> decide

/-- A body comes to what it means under every id that the server sends it with. -/
theorem react_of_sends {node : LogicNode} {trace : CallTrace} {session : Sid} {msgid : Int} {text : Bytes}
    (hsends : Sends platform node trace session payload msgid) (hecho : ∀ root, payload ≠ .echo root)
    (hparse : platform.parse text = some payload.json) :
    react platform (toShort msgid, text) = appearance payload := by
  unfold react
  dsimp only
  rw [hparse]
  dsimp only
  cases hsends with
  | echoed => exact absurd rfl (hecho _)
  | chatPush => exact pushChat_shown _ _ _ _ _ _
  | friendPush => exact pushFriend_shown _ _ _
  | loginBatch | offlineBatch => exact autoOffline_shown _ _ _
  | @refusal _ msg rspId hrsp =>
    have hplain : (LogicSystem.errorResponse msg).json.contains "messages" = false := rfl
    have hid := responses_queued hrsp
    rw [if_neg hid.1, if_neg hid.2, if_neg (fun h => (by rw [hplain] at h; cases h.2))]
    rfl
  | _ => rfl

/-- The frames that go to the queue are those that the client loop routes there. -/
theorem react_eq_queues_iff {msgId : Int} {body : Bytes} {json : Json} {answers : Option Nat} :
    react platform (msgId, body) = .queues json ↔
      platform.parse body = some json ∧ routed ⟨msgId, json, answers⟩ = true := by
  have hstreamed : ∀ shown, Reaction.ofStreamed shown ≠ .queues json := by
    rintro ⟨text, what⟩
    cases what <;> exact fun h => (by cases h)
  unfold react routed
  cases hparse : platform.parse body with
  | none => simp
  | some root =>
    dsimp only
    constructor
    · intro h
      split_ifs at h with hchat hfriend hbatch <;> first
        | exact absurd h (hstreamed _)
        | (cases h; simp [hchat, hfriend, hbatch])
    · rintro ⟨hroot, hrouted⟩
      obtain rfl := Option.some.inj hroot
      split_ifs at hrouted ⊢
      rfl

theorem built_of_queued {session : Sid} (hreach : CoroutineServer.Reaches platform (fun _ _ => True) state)
    (hframe : frame ∈ queuedOn session state.world.history) :
    ∃ node before msgid text, Sends platform node before session frame.payload msgid ∧
      platform.dump frame.payload.json = .ok text ∧ sendNode text msgid = some (.ok frame.node) := by
  obtain ⟨later, earlier, hhistory⟩ := List.append_of_mem (mem_calls (mem_framesOn hframe))
  obtain ⟨node, -, msgid, text, before, -, hsends, hdump, hnode⟩ :=
    throughout_iff.mp (warranted_of_reaches hreach) later _ earlier hhistory _ rfl
  exact ⟨node, before, msgid, text, hsends, hdump, hnode⟩

/-- The body is not an echo, which has an id and fields of the client's choice, its text fits a frame, and it
is parsed back. -/
def Readable (platform : Platform) (frame : Queued) : Prop :=
  (∀ root, frame.payload ≠ .echo root) ∧ ∀ text, platform.dump frame.payload.json = .ok text →
    text.length ≤ CoroutineServer.MAX_LENGTH ∧ platform.parse text = some frame.payload.json

theorem react_of_queued {session : Sid} (hreach : CoroutineServer.Reaches platform (fun _ _ => True) state)
    (hframe : frame ∈ queuedOn session state.world.history) (hreadable : Readable platform frame) :
    react platform frame.node.message = appearance frame.payload := by
  obtain ⟨node, before, msgid, text, hsends, hdump, hnode⟩ := built_of_queued hreach hframe
  obtain ⟨hlength, hparse⟩ := hreadable.2 text hdump
  have hbound : text.length ≤ 2048 := hlength
  have hmessage := (SendQueue.message_of_sendNode hnode).1
  rw [toShort_natCast_of_lt (by omega), Int.toNat_natCast, List.take_length] at hmessage
  rw [hmessage]
  exact react_of_sends hsends hreadable.1 hparse

/-- **What the server says is what the user sees.** In every run, when any part of the frames that a session's
queue has taken has arrived, in segments of any kind, the receive thread has met exactly the frames that are
there as a whole. Each that can be read has come to what its body means: pushes and batches are on the screen
with all their texts, and every other answer is in the queue as the server built it. -/
theorem conversation_shown {session : Sid}
    (hreach : CoroutineServer.Reaches platform (fun _ _ => True) state) {socket : List Bytes}
    (hsocket : socket.flatten
      <+: (queuedOn session state.world.history).flatMap fun frame => frame.node.wire) :
    ∃ read rest part, queuedOn session state.world.history = read ++ rest ∧
      socket.flatten = (read.flatMap fun frame => frame.node.wire) ++ part ∧
      (∀ frame ∈ rest.head?, part.length < frame.node.wire.length) ∧
      List.Forall₂ (fun message frame => Readable platform frame →
        react platform message = appearance frame.payload) (recvAll socket) read := by
  have hframed : ∀ node ∈ (queuedOn session state.world.history).map Queued.node, SendQueue.Framed node := by
    intro node hnode
    obtain ⟨frame, hframe, rfl⟩ := List.mem_map.mp hnode
    obtain ⟨-, -, msgid, text, -, -, hbuilt⟩ := built_of_queued hreach hframe
    exact SendQueue.framed_of_sendNode hbuilt
  rw [← List.flatMap_map] at hsocket
  obtain ⟨nodes, others, part, hnodes, hread, hstream, -, hless⟩ :=
    SendQueue.recvAll_of_prefix hframed hsocket
  obtain ⟨read, rest, hframes, rfl, rfl⟩ := List.map_eq_append_iff.mp hnodes
  refine ⟨read, rest, part, hframes, ?_, fun frame hframe => ?_, ?_⟩
  · rw [hstream, List.flatMap_map]
  · exact hless _ (by rw [List.head?_map, Option.mem_def.mp hframe]; rfl)
  · rw [hread, List.map_map, List.forall₂_map_left_iff, List.forall₂_same]
    intro frame hframe hreadable
    have hqueued : frame ∈ queuedOn session state.world.history := by
      rw [hframes]
      exact List.mem_append_left _ hframe
    exact react_of_queued hreach hqueued hreadable

/-- The bodies that ann is sent when bob writes to her. -/
def annBodies : List Json :=
  [(Payload.loginOk 1 0).json, (Payload.chatMsgPush 1 2 1 (ascii "hello") (strftime Input.idle.tm)).json]

theorem annBodies_wellFormed : ∀ root ∈ requests ++ annBodies, root.WellFormed := by
  intro root hroot
  rcases List.mem_append.mp hroot with hrequest | hbody
  · exact requests_wellFormed root hrequest
  · simp only [annBodies, List.mem_cons, List.not_mem_nil, or_false] at hbody
    rcases hbody with rfl | rfl
    · exact Payload.json_wellFormed trivial
    · exact Payload.json_wellFormed ⟨.of_ascii (by decide), strftime_valid _⟩

abbrev conversing : Platform := .reading (requests ++ annBodies) annBodies_wellFormed

def conversation : State :=
  Reach.after (CoroutineServer.step conversing) (chatScript.flatMap Act.labels) (.initial quietDb)

def isAnnBody : Payload → Bool
  | .loginOk uid offlineCount => uid == 1 && offlineCount == 0
  | .chatMsgPush msgId fromUid toUid content timestamp => msgId == 1 && fromUid == 2 && toUid == 1 &&
      content == ascii "hello" && timestamp == strftime Input.idle.tm
  | _ => false

theorem readable_of_isAnnBody (h : isAnnBody frame.payload = true) : Readable conversing frame := by
  unfold isAnnBody at h
  split at h
  · next uid offlineCount hpayload =>
    simp only [Bool.and_eq_true, beq_iff_eq] at h
    obtain ⟨rfl, rfl⟩ := h
    unfold Readable
    rw [hpayload]
    refine ⟨fun _ heq => (by cases heq), fun text htext => ?_⟩
    obtain rfl := Except.ok.inj htext
    exact ⟨by decide +kernel, by rfl⟩
  · next hpayload =>
    simp only [Bool.and_eq_true, beq_iff_eq] at h
    obtain ⟨⟨⟨⟨rfl, rfl⟩, rfl⟩, rfl⟩, rfl⟩ := h
    unfold Readable
    rw [hpayload]
    refine ⟨fun _ heq => (by cases heq), fun text htext => ?_⟩
    obtain rfl := Except.ok.inj htext
    exact ⟨by decide +kernel, by rfl⟩
  · cases h

/-- Bob's message has been pushed to ann, and all of it has arrived. -/
theorem conversation_shown_ann :
    (∀ frame ∈ queuedOn 0 conversation.world.history, Readable conversing frame) ∧
    ∃ read rest part, queuedOn 0 conversation.world.history = read ++ rest ∧
      [(queuedOn 0 conversation.world.history).flatMap fun frame => frame.node.wire].flatten
        = (read.flatMap fun frame => frame.node.wire) ++ part ∧
      (∀ frame ∈ rest.head?, part.length < frame.node.wire.length) ∧
      List.Forall₂ (fun message frame => Readable conversing frame →
        react conversing message = appearance frame.payload)
        (recvAll [(queuedOn 0 conversation.world.history).flatMap fun frame => frame.node.wire]) read := by
  have hreach : CoroutineServer.Reaches conversing (fun _ _ => True) conversation :=
    .of_enabled ⟨quietDb, quietDb_wellFormed, rfl⟩ (by decide +kernel)
  have hbodies : (queuedOn 0 conversation.world.history).all (fun frame => isAnnBody frame.payload) = true := by
    decide +kernel
  exact ⟨fun frame hframe => readable_of_isAnnBody (List.all_eq_true.mp hbodies frame hframe),
    conversation_shown hreach (by rw [List.flatten_singleton])⟩

end CoroutineServer.TestClient
