import CoroutineServer.Proof.Grammar
import CoroutineServer.Proof.Tracking

/-!
# Order end to end

From a connection through the read loop, the logic queue, the worker, the table and the send queue to the
socket, messages may be dropped but never overtake each other. Ids are given out in the order of
dispatch, and a frame pushes an id above those of the frames queued before it. What a frame carries is
what the server put into it: an echo, whatever its client wrote there, carries nothing.
-/

namespace CoroutineServer

open Program CSession Wire

variable {platform : Platform}

/-! ### The ids in a frame -/

namespace Payload

/-- The message that a body pushes. -/
def pushes : Payload → Option Int
  | .chatMsgPush msgId _ _ _ _ => some msgId
  | _ => none

/-- The messages that a body brings together. -/
def brings : Payload → List Int
  | .offlineMsgs _ rows => rows.map MessageRow.msgId
  | _ => []

theorem eq_of_pushes {payload : Payload} {msgId : Int} (h : payload.pushes = some msgId) :
    ∃ fromUid toUid content timestamp,
      payload = .chatMsgPush msgId fromUid toUid content timestamp := by
  cases payload with
  | chatMsgPush =>
    obtain rfl := Option.some.inj h
    exact ⟨_, _, _, _, rfl⟩
  | _ => cases h

/-- What a body carries it pushes or brings. -/
theorem mem_carries {payload : Payload} {msgId : Int} :
    msgId ∈ payload.carries ↔ payload.pushes = some msgId ∨ msgId ∈ payload.brings := by
  cases payload with
  | chatMsgPush => simp [carries, pushes, brings, eq_comm]
  | _ => simp [carries, pushes, brings]

end Payload

theorem batchIds_offlineMsgs {node : SendNode} (atLogin : Bool) (rows : List MessageRow)
    (hid : node.msgId = MSG_OFFLINE_MSG_RSP) :
    Queued.batchIds ⟨node, .offlineMsgs atLogin rows⟩ = rows.map MessageRow.msgId := by
  have hindex : (Payload.offlineMsgs atLogin rows).json.index "messages"
      = .ok (.array (rows.map Payload.messageItem)) := rfl
  have hitem : ∀ row, Queued.idOf (Payload.messageItem row) = some row.msgId := fun _ => rfl
  unfold Queued.batchIds
  rw [if_pos hid, hindex]
  dsimp only
  rw [List.filterMap_map]
  induction rows with
  | nil => rfl
  | cons row rows ih =>
    rw [List.filterMap_cons, Function.comp_apply, hitem row]
    exact congrArg _ (ih rfl)

/-- A frame that a handler built shows what its body is about; only the object of an echo is not the
server's own. -/
theorem shown_of_sends {node : LogicNode} {trace : CallTrace} {session : Sid} {msgid : Int}
    {frame : Queued} (hsends : Sends platform node trace session frame.payload msgid)
    (hid : frame.node.msgId = toShort msgid) (hecho : frame.isEcho = false) :
    frame.pushedId = frame.payload.pushes ∧ frame.batchIds = frame.payload.brings := by
  obtain ⟨sent, payload⟩ := frame
  dsimp only at hsends hid ⊢
  have hother : toShort msgid ≠ MSG_CHAT_MSG_PUSH → toShort msgid ≠ MSG_OFFLINE_MSG_RSP →
      Queued.pushedId ⟨sent, payload⟩ = none ∧ Queued.batchIds ⟨sent, payload⟩ = [] :=
    fun hpush hbatch => ⟨if_neg (hid ▸ hpush), if_neg (hid ▸ hbatch)⟩
  cases hsends with
  | echoed => cases hecho
  | chatPush =>
    have hpush : sent.msgId = MSG_CHAT_MSG_PUSH := hid
    exact ⟨if_pos hpush, if_neg (by rw [hpush]; decide)⟩
  | loginBatch =>
    have hbatch : sent.msgId = MSG_OFFLINE_MSG_RSP := hid
    exact ⟨if_neg (by rw [hbatch]; decide), batchIds_offlineMsgs _ _ hbatch⟩
  | offlineBatch =>
    have hbatch : sent.msgId = MSG_OFFLINE_MSG_RSP := hid
    exact ⟨if_neg (by rw [hbatch]; decide), batchIds_offlineMsgs _ _ hbatch⟩
  | @refusal _ msg _ hrsp =>
    -- the refusal of an offline request has the id of a batch, but no messages
    have hnone : Queued.batchIds ⟨sent, LogicSystem.errorResponse msg⟩ = [] := by
      unfold Queued.batchIds
      split_ifs <;> rfl
    refine ⟨if_neg ?_, hnone⟩
    rw [hid]
    unfold responseId at hrsp
    split_ifs at hrsp <;> obtain rfl := Option.some.inj hrsp <;> decide
  | _ => exact hother (by decide) (by decide)

section Frames

variable {ok : Label → State → Prop} {state : State}

theorem shown_of_queued {session : Sid} {frame : Queued} (hreach : Reaches platform ok state)
    (hframe : frame ∈ queuedOn session state.world.history) (hecho : frame.isEcho = false) :
    frame.pushedId = frame.payload.pushes ∧ frame.batchIds = frame.payload.brings := by
  obtain ⟨later, earlier, hhistory⟩ := List.append_of_mem (mem_calls (mem_framesOn hframe))
  obtain ⟨node, msgid, before, -, hsends, hid⟩ := sends_of_pushed hreach hhistory
  exact shown_of_sends hsends hid hecho

theorem pushes_ascending {session : Sid} {frames : List Queued} (hreach : Reaches platform ok state)
    (hframes : frames <+: queuedOn session state.world.history) :
    (frames.filterMap (·.payload.pushes)).Pairwise (· < ·) := by
  rw [List.pairwise_filterMap]
  apply ((queuedOn_inTurn hreach session).sublist hframes.sublist).imp
  intro first later hturn msgId hmsgId pushed hpushed
  obtain ⟨fromUid, toUid, content, timestamp, heq⟩ := Payload.eq_of_pushes hpushed
  exact hturn pushed fromUid toUid content timestamp heq msgId (Payload.mem_carries.mpr (.inl hmsgId))

theorem brings_ascending {session : Sid} {frame : Queued} (hreach : Reaches platform ok state)
    (hframe : frame ∈ queuedOn session state.world.history) :
    frame.payload.brings.Pairwise (· < ·) := by
  obtain ⟨node, payload⟩ := frame
  cases payload with
  | offlineMsgs atLogin rows => exact queuedOn_batch hreach hframe
  | _ => exact .nil

/-- A call since which no other message has been dispatched belongs to the running handler. -/
theorem mem_handlerTrace {call : Call Op Op.Ret} {middle : List Event} (earlier : List Event)
    (hsame : ∀ node, Event.dispatched node ∉ middle) (h : Event.did call ∈ middle) :
    call ∈ handlerTrace (middle ++ earlier) := by
  induction middle with
  | nil => cases h
  | cons event middle ih =>
    cases event with
    | dispatched node => exact absurd List.mem_cons_self (hsame node)
    | did other =>
      rcases List.mem_cons.mp h with heq | h
      · obtain rfl := Event.did.inj heq
        exact List.mem_cons_self
      · exact List.mem_cons_of_mem _
          (ih (fun node hmem => hsame node (List.mem_cons_of_mem _ hmem)) h)

/-- The ids of the batch that a login has queued are below all that are pushed after the login. -/
theorem batch_lt_pushed {later middle earlier : List Event} {session : Sid} {batch : Queued}
    {username password : Bytes} {uid : Int} (hreach : Reaches platform ok state)
    (hhistory : state.world.history = later ++ .did ⟨.push session batch.payload batch.node, true⟩ ::
      (middle ++ .did ⟨.loginUser username password, (true, uid)⟩ :: earlier))
    (hsame : ∀ node, Event.dispatched node ∉ middle) {msgId : Int}
    (hmsgId : msgId ∈ batch.payload.brings) {frame : Queued} (hframe : frame ∈ queuedOn session
      (later ++ .did ⟨.push session batch.payload batch.node, true⟩ :: middle))
    {pushed : Int} (hpushed : frame.payload.pushes = some pushed) : msgId < pushed := by
  obtain ⟨node, msgid, before, htrace, hsends, -⟩ := sends_of_pushed hreach hhistory
  have hcarried : msgId ∈ batch.payload.carries := Payload.mem_carries.mpr (.inr hmsgId)
  have hpush := mem_calls (mem_framesOn hframe)
  obtain ⟨fromUid, toUid, content, timestamp, hpayload⟩ := Payload.eq_of_pushes hpushed
  rw [hpayload] at hpush
  rcases List.mem_append.mp hpush with hafter | hpush
  · -- pushed after the batch
    obtain ⟨after, first, rfl⟩ := List.append_of_mem hafter
    rw [List.append_assoc] at hhistory
    exact carried_lt_of_pushed hreach hhistory
      (List.mem_append_right _ List.mem_cons_self) hcarried
  rcases List.mem_cons.mp hpush with heq | hbetween
  · -- the batch itself pushes nothing
    have heq : Payload.chatMsgPush pushed fromUid toUid content timestamp = batch.payload := by
      have := (Sigma.mk.inj (Event.did.inj heq)).1
      exact (Op.push.inj this).2.1
    rw [← heq] at hmsgId
    cases hmsgId
  · -- the handler of the login has pushed nothing before the batch
    have hmem := mem_handlerTrace (.did ⟨.loginUser username password, (true, uid)⟩ :: earlier) hsame
      hbetween
    rw [htrace] at hmem
    exact absurd (by simpa using hmem) ((holds_of_sends hsends hcarried).2 session
      (.chatMsgPush pushed fromUid toUid content timestamp) frame.node true)

end Frames

/-! ### Order -/

/-- What a run keeps in order: the ids of the messages of one connection, which are the chat frames of its
stream, and the ids that the frames of one session carry. These are also the ids that the id and the JSON
of the frame show to its client. -/
structure InOrder (observed : Observed) : Prop where
  saved : ∀ session i j first second, ((session, i), first) ∈ observed.log.saved →
    ((session, j), second) ∈ observed.log.saved → i < j → first < second
  framed : ∀ session socket,
    observed.log.arrived session <+: (start socket).posted.map RecvNode.message →
      ∀ i msgId, ((session, i), msgId) ∈ observed.log.saved →
        ∃ frame : Frame, (serverCode.decodeAll socket.flatten).1[i]? = some frame ∧
          (frame.1 : Int) = MSG_SEND_CHAT_REQ
  started : ∀ session,
    observed.log.wire session <+: queuedOn session observed.state.world.history
  shown : ∀ session, ∀ frame ∈ queuedOn session observed.state.world.history, frame.isEcho = false →
    frame.pushedId = frame.payload.pushes ∧ frame.batchIds = frame.payload.brings
  pushed : ∀ session, ((observed.log.wire session).filterMap (·.payload.pushes)).Pairwise (· < ·)
  batched : ∀ session, ∀ frame ∈ observed.log.wire session, frame.payload.brings.Pairwise (· < ·)
  login : ∀ later middle earlier session (batch : Queued) username password uid,
    observed.state.world.history = later ++ .did ⟨.push session batch.payload batch.node, true⟩ ::
      (middle ++ .did ⟨.loginUser username password, (true, uid)⟩ :: earlier) →
    (∀ node, Event.dispatched node ∉ middle) → ∀ msgId ∈ batch.payload.brings,
      ∀ frame ∈ queuedOn session
        (later ++ .did ⟨.push session batch.payload batch.node, true⟩ :: middle),
        ∀ pushed, frame.payload.pushes = some pushed → msgId < pushed

/-- Of two saved messages of one connection, the one that arrived first has the smaller id. -/
theorem saved_ascending {observed : Observed} (hreach : Observes platform observed) {session : Sid}
    {i j : Nat} {first second : Int} (hfirst : ((session, i), first) ∈ observed.log.saved)
    (hsecond : ((session, j), second) ∈ observed.log.saved) (hlt : i < j) : first < second := by
  have htracked := tracked_of_observes hreach
  have hline : (observed.log.saved.map Prod.fst).Pairwise fun newer older => older.Before newer :=
    (List.pairwise_reverse.mp (List.pairwise_append.mp htracked.line).1).sublist htracked.saves
  have hids : (observed.log.saved.map Prod.snd).Pairwise fun newer older => older < newer := by
    rw [htracked.ids]
    exact List.pairwise_map.mpr (numbered_of_reaches (reaches_of_observes hreach)).ascending
  have hboth := (List.pairwise_map.mp hline).and (List.pairwise_map.mp hids)
  -- whichever of the two was saved first, it agrees with the order of arrival
  let Agree (one two : Arrival × Int) : Prop :=
    one.1.1 = two.1.1 → one.1.2 < two.1.2 → one.2 < two.2
  have hforward : observed.log.saved.Pairwise Agree := hboth.imp fun h hsame hless =>
    absurd (h.1 hsame.symm) (Nat.not_lt.mpr hless.le)
  have hback : observed.log.saved.Pairwise (flip Agree) := hboth.imp fun h _ _ => h.2
  exact List.Pairwise.forall_of_forall_of_flip (fun _ _ _ hless => absurd hless (Nat.lt_irrefl _))
    hforward hback hfirst hsecond rfl hlt

/-- **Order is preserved end to end**, for every interleaving and whatever is dropped. -/
theorem order_preserved {observed : Observed} (hreach : Observes platform observed) :
    InOrder observed := by
  have hreached := reaches_of_observes hreach
  have htracked := tracked_of_observes hreach
  have hstarted : ∀ session,
      observed.log.wire session <+: queuedOn session observed.state.world.history :=
    fun session => ⟨_, htracked.written session⟩
  refine ⟨fun session i j first second => saved_ascending hreach, ?_, hstarted, ?_, ?_, ?_, ?_⟩
  · intro session socket harrived i msgId hsaved
    obtain ⟨data, hdata⟩ := htracked.chats _ hsaved
    have hposted := List.prefix_iff_getElem?.mp harrived i
      (List.getElem?_eq_some_iff.mp hdata).1
    rw [(List.getElem?_eq_some_iff.mp hdata).2, start_posted, List.getElem?_map] at hposted
    obtain ⟨frame, hframe, heq⟩ := Option.map_eq_some_iff.mp hposted
    exact ⟨frame, hframe, congrArg Prod.fst heq⟩
  · exact fun session frame hframe hecho => shown_of_queued hreached hframe hecho
  · exact fun session => pushes_ascending hreached (hstarted session)
  · exact fun session frame hframe => brings_ascending hreached ((hstarted session).subset hframe)
  · intro later middle earlier session batch username password uid hhistory hsame msgId hmsgId frame
      hframe pushed hpushed
    exact batch_lt_pushed hreached hhistory hsame hmsgId hframe hpushed

/-- What a list of labels leads to from the start on a database, with its log. -/
def watched (platform : Platform) (db : Db) (labels : List Label) : Observed :=
  Reach.after (observe platform) labels ⟨.initial db, .empty⟩

theorem observes_watched {db : Db} {labels : List Label} (hdb : db.WellFormed)
    (hmeets : Reach.meets (observe platform) (fun _ _ => true) labels ⟨.initial db, .empty⟩ = true) :
    Observes platform (watched platform db labels) :=
  .of_enabled ⟨⟨db, hdb, rfl⟩, rfl⟩ hmeets

/-- A message waits for ann, who logs in. Bob logs in and sends her two more, and all writes complete. -/
def twoChatsLabels : List Label :=
  ([.accept 0, .accept 1, .post 0 MSG_LOGIN_REQ (credentials "ann"), .serve 9,
    .post 1 MSG_LOGIN_REQ (credentials "bob"), .serve 7, .post 1 MSG_SEND_CHAT_REQ (chatBody 1),
    .post 1 MSG_SEND_CHAT_REQ (chatBody 1), .serve 8, .serve 8] : List Act).flatMap Act.labels ++
  List.replicate 4 (.written 0)

theorem order_preserved_twoChats :
    (watched reference backlogDb twoChatsLabels).log.saved = [((1, 2), 3), ((1, 1), 2)] ∧
      ((watched reference backlogDb twoChatsLabels).log.wire 0).map Queued.batchIds = [[1], [], [], []] ∧
      ((watched reference backlogDb twoChatsLabels).log.wire 0).filterMap Queued.pushedId = [2, 3] ∧
      InOrder (watched reference backlogDb twoChatsLabels) := by
  obtain ⟨hmeets, hsaved, hbatches, hpushed⟩ :
      Reach.meets (observe reference) (fun _ _ => true) twoChatsLabels ⟨.initial backlogDb, .empty⟩
        = true ∧
      (watched reference backlogDb twoChatsLabels).log.saved = [((1, 2), 3), ((1, 1), 2)] ∧
      ((watched reference backlogDb twoChatsLabels).log.wire 0).map Queued.batchIds
        = [[1], [], [], []] ∧
      ((watched reference backlogDb twoChatsLabels).log.wire 0).filterMap Queued.pushedId = [2, 3] := by
    decide +kernel
  exact ⟨hsaved, hbatches, hpushed, order_preserved (observes_watched backlogDb_wellFormed hmeets)⟩

end CoroutineServer
