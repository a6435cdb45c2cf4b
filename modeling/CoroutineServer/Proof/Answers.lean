import CoroutineServer.Proof.Sending
import CoroutineServer.Scenario

/-!
# Requests are answered

Each handler ends with a `Send` to the session it serves. It comes through when the session is open, its
queue has room and the body fits a frame. Two things can prevent that though nobody closes the session
and its queue is short: a login that closes its own session, and a list that is too long.
-/

namespace CoroutineServer

open Program CSession

variable {platform : Platform} {node : LogicNode}

/-- The library writes the bodies of the server, in which no number is a floating-point one, compactly. -/
def Compact (platform : Platform) : Prop :=
  ∀ payload : Payload, (∀ root, payload ≠ .echo root) → ∀ text,
    platform.dump payload.json = .ok text → text = render payload.json

/-- The text of a body fits a frame. -/
def Fits (platform : Platform) (payload : Payload) : Prop :=
  ∀ text, platform.dump payload.json = .ok text → text.length ≤ MAX_LENGTH

/-- The condition: a login does not find the session it serves registered for its user, and the list of
friends or messages that is asked for fits a frame. -/
def Answerable (platform : Platform) (node : LogicNode) : Input → Op → State → Prop
  | _, .getSessionByUid uid, state => node.msgId = MSG_LOGIN_REQ →
      (UserManager.getSessionByUid uid state.world).1 ≠ some node.session
  | input, .getFriendList uid, state =>
      Fits platform (.friendList uid (DBManager.getFriendList input.sqlite uid state.world.db))
  | input, .getOfflineMessages uid, state => node.msgId = MSG_OFFLINE_MSG_REQ →
      Fits platform (.offlineMsgs false (DBManager.getOfflineMessages input.sqlite uid state.world.db).1)
  | _, _, _ => True

/-- The session is not closed by another thread. -/
abbrev undisturbed (session : Sid) : Label → State → Prop :=
  OpsMeet (fun _ _ _ => True) fun _ op _ => op ≠ .casStop session

abbrev answerable (platform : Platform) (node : LogicNode) : Label → State → Prop :=
  OpsMeet (Answerable platform node) fun _ op _ => op ≠ .casStop node.session

/-- A frame with the complete text of an object that has a status. -/
def Complete (platform : Platform) (rspId : Int) (frame : Queued) : Prop :=
  frame.node.msgId = rspId ∧ frame.payload.json.contains "status" = true ∧
    ∃ text, platform.dump frame.payload.json = .ok text ∧
      frame.node.wire = Wire.encodeFrame (frameOf (rspId, text))

/-- The last frame that is queued on the session is the response. At most one is queued before it, which
has another id: that of the offline messages in a login. -/
def Answered (platform : Platform) (node : LogicNode) (rspId : Int) (trace : CallTrace) : Prop :=
  ∃ before frame, framesOn node.session trace = before ++ [frame] ∧ Complete platform rspId frame ∧
    before.length ≤ 1 ∧ ∀ other ∈ before, other.node.msgId ≠ rspId ∧
      (node.msgId = MSG_LOGIN_REQ → other.node.msgId = MSG_OFFLINE_MSG_RSP)

/-! ### What a handler has queued before its answer -/

theorem framesOn_loginTrace {session target : Sid} {uid : Int} {rows : List MessageRow}
    {kicked : CallTrace} (hkicked : Kicked uid kicked) :
    framesOn session (loginTrace target uid rows kicked) = [] := by
  apply framesOn_eq_nil
  intro other payload sent accepted hmem
  simp only [loginTrace, List.mem_cons, Sigma.mk.injEq, reduceCtorEq, false_and, false_or] at hmem
  exact dealsWithOld_of_kicked hkicked hmem

/-- The id of what a handler queues on the way. -/
def pushId (msgId : Int) : Option Int :=
  if msgId = MSG_LOGIN_REQ then some MSG_OFFLINE_MSG_RSP
  else if msgId = MSG_ADD_FRIEND_REQ then some MSG_FRIEND_REQUEST_PUSH
  else if msgId = MSG_SEND_CHAT_REQ then some MSG_CHAT_MSG_PUSH
  else none

theorem frames_of_sends {trace : CallTrace} {target : Sid} {payload : Payload} {msgid : Int}
    (hsends : Sends platform node trace target payload msgid) (session : Sid) :
    framesOn session trace = [] ∨ ∃ frame, framesOn session trace = [frame] ∧
      pushId node.msgId = some frame.node.msgId := by
  have hafter : ∀ {receiver push id part before}, Sent platform receiver push id part →
      framesOn session before = [] → pushId node.msgId = some (toShort id) →
        framesOn session (part ++ before) = [] ∨ ∃ frame, framesOn session (part ++ before) = [frame] ∧
          pushId node.msgId = some frame.node.msgId := by
    intro receiver push id part before hpart hbefore hid
    rcases framesOn_sent session before hpart with heq | ⟨sent, hsent, heq⟩
    · exact .inl (heq.trans hbefore)
    · rw [hbefore] at heq
      exact .inr ⟨⟨sent, push⟩, heq, by rw [hid, hsent]⟩
  cases hsends with
  | refusal hrsp huntouched =>
    rcases huntouched with rfl | ⟨uid, rfl⟩ <;> exact .inl rfl
  | loginBatch _ _ hkicked => exact .inl (framesOn_loginTrace hkicked)
  | loginNoBatch _ _ hkicked => exact .inl (framesOn_loginTrace hkicked)
  | loginAfterBatch hreq _ hkicked _ hpart =>
    exact hafter hpart (framesOn_loginTrace hkicked) (by rw [hreq]; decide)
  | friendAfterPush hreq _ hpart => exact hafter hpart rfl (by rw [hreq]; decide)
  | chatAfterPush hreq _ _ hpart => exact hafter hpart rfl (by rw [hreq]; decide)
  | _ => exact .inl rfl

theorem answer_of_sends {trace : CallTrace} {target : Sid} {payload : Payload} {msgid rspId : Int}
    (hsends : Sends platform node trace target payload msgid) (hanswer : payload.IsAnswer)
    (hrsp : responseId node.msgId = some rspId) :
    target = node.session ∧ msgid = rspId ∧ payload.status.isSome ∧
      (payload.Brief ∨
        (∃ uid friends, payload = .friendList uid friends ∧
          (⟨.getFriendList uid, friends⟩ : Call Op Op.Ret) ∈ trace) ∨
        ∃ uid rows, payload = .offlineMsgs false rows ∧ node.msgId = MSG_OFFLINE_MSG_REQ ∧
          (⟨.getOfflineMessages uid, rows⟩ : Call Op Op.Ret) ∈ trace) := by
  have hid : ∀ {msgId answerId}, node.msgId = msgId → responseId msgId = some answerId →
      answerId = rspId := by
    rintro msgId answerId rfl hanswerId
    exact Option.some.inj (hanswerId.symm.trans hrsp)
  cases hsends with
  | refusal hrefused _ hterse =>
    exact ⟨rfl, Option.some.inj (hrefused.symm.trans hrsp), rfl, .inl hterse.2⟩
  | registered hreq => exact ⟨rfl, hid hreq rfl, rfl, .inl trivial⟩
  | loginFailed hreq => exact ⟨rfl, hid hreq rfl, rfl, .inl trivial⟩
  | loginBatch => cases hanswer
  | loginNoBatch hreq => exact ⟨rfl, hid hreq rfl, rfl, .inl trivial⟩
  | loginAfterBatch hreq => exact ⟨rfl, hid hreq rfl, rfl, .inl trivial⟩
  | @friendList uid friends hreq =>
    exact ⟨rfl, hid hreq rfl, rfl, .inr (.inl ⟨uid, friends, rfl, List.mem_cons_self⟩)⟩
  | friendFailed hreq => exact ⟨rfl, hid hreq rfl, rfl, .inl trivial⟩
  | friendPush => exact hanswer.elim
  | friendOffline hreq => exact ⟨rfl, hid hreq rfl, rfl, .inl trivial⟩
  | friendAfterPush hreq => exact ⟨rfl, hid hreq rfl, rfl, .inl trivial⟩
  | chatFailed hreq => exact ⟨rfl, hid hreq rfl, rfl, .inl trivial⟩
  | chatPush => exact hanswer.elim
  | chatOffline hreq => exact ⟨rfl, hid hreq rfl, rfl, .inl trivial⟩
  | chatAfterPush hreq => exact ⟨rfl, hid hreq rfl, rfl, .inl trivial⟩
  | @offlineBatch uid rows hreq =>
    exact ⟨rfl, hid hreq rfl, rfl, .inr (.inr ⟨uid, rows, rfl, hreq, List.mem_cons_self⟩)⟩
  | echoed hreq =>
    rw [hreq] at hrsp
    cases hrsp

/-! ### While the handler runs -/

/-- A call that does not keep the handler from answering. -/
def Helpful (platform : Platform) (node : LogicNode) : Call Op Op.Ret → Prop
  | ⟨.loadStop session _ _, (stopped : Bool)⟩ => session = node.session → stopped = false
  | ⟨.push session _ _, (accepted : Bool)⟩ => session = node.session → accepted = true
  | ⟨.loginUser _ _, _⟩ => node.msgId = MSG_LOGIN_REQ
  | ⟨.getSessionByUid _, (found : Option Sid)⟩ =>
      node.msgId = MSG_LOGIN_REQ → found ≠ some node.session
  | ⟨.getFriendList uid, (friends : List Int)⟩ => Fits platform (.friendList uid friends)
  | ⟨.getOfflineMessages _, (rows : List MessageRow)⟩ =>
      node.msgId = MSG_OFFLINE_MSG_REQ → Fits platform (.offlineMsgs false rows)
  | _ => True

/-- The invariant: the session is open, its queue had room for two frames when the handler began, and
nothing has gone wrong so far. -/
structure Attending (platform : Platform) (node : LogicNode) (state : State) : Prop where
  served : served state.world.history = some node
  opened : state.world.stopped node.session = false
  room : (state.world.sessions node.session).sendQue.length
    < MAX_SENDQUE + (framesOn node.session state.world.trace).length
  helpful : ∀ call ∈ state.world.trace, Helpful platform node call

theorem Attending.quiet {state state' : State} (h : Attending platform node state)
    (hquiet : Quiet state state') : Attending platform node state' := by
  refine ⟨?_, ?_, ?_, ?_⟩
  · rw [hquiet.history]
    exact h.served
  · rw [hquiet.stopped]
    exact h.opened
  · rw [hquiet.trace]
    exact (hquiet.queued node.session).trans_lt h.room
  · rw [hquiet.trace]
    exact h.helpful

theorem Attending.io {state : State} {thread : Nat} {closing : Sid} {pos : ClosePos}
    (h : Attending platform node state) (hother : pos.op closing ≠ .casStop node.session) :
    Attending platform node (ioStep platform thread closing pos state) := by
  refine ⟨?_, ?_, ?_, ?_⟩
  · rw [history_ioStep]
    exact h.served
  · exact (stopped_perform platform .idle _ state.world node.session hother).trans h.opened
  · rw [trace_ioStep]
    unfold ioStep
    dsimp only
    rw [sendQue_perform]
    · exact h.room
    · cases pos <;> simp [ClosePos.op]
  · rw [trace_ioStep]
    exact h.helpful

theorem Attending.not_casStop {state : State} (h : Attending platform node state)
    (hwarrant : Warrants platform node state.world.trace (.casStop node.session)) : False := by
  obtain ⟨uid, username, password, htrace⟩ := hwarrant
  have hlogin := h.helpful ⟨.loginUser username password, (true, uid)⟩ (by rw [htrace]; simp)
  exact h.helpful ⟨.getSessionByUid uid, some node.session⟩ (by rw [htrace]; simp) hlogin rfl

theorem Attending.push_room {state : State} {payload : Payload} {sent : SendNode}
    (h : Attending platform node state)
    (hwarrant : Warrants platform node state.world.trace (.push node.session payload sent)) :
    (state.world.sessions node.session).sendQue.length ≤ MAX_SENDQUE := by
  obtain ⟨msgid, msg, before, htrace, hsends, -⟩ := hwarrant
  have hroom := h.room
  rw [htrace, framesOn_cons (by simp)] at hroom
  have hframes : (framesOn node.session before).length ≤ 1 := by
    rcases frames_of_sends hsends node.session with heq | ⟨frame, heq, -⟩ <;> rw [heq] <;> simp
  omega

theorem Attending.helpful_perform {state : State} {input : Input} {op : Op}
    (h : Attending platform node state) (hok : Answerable platform node input op state)
    (hwarrant : Warrants platform node state.world.trace op) :
    Helpful platform node ⟨op, (perform platform input op state.world).1⟩ := by
  cases op with
  | loadStop session payload msgid =>
    rintro rfl
    exact h.opened
  | push session payload sent =>
    rintro rfl
    rw [perform, pushFrame_of_room (h.push_room hwarrant)]
  | loginUser username password => exact hwarrant.1
  | getSessionByUid uid => exact hok
  | getFriendList uid => exact hok
  | getOfflineMessages uid => exact hok
  | _ => trivial

/-- The handler's own frame is the only thing a step of the worker adds to the queue of its session. -/
theorem Attending.room_work {state : State} {input : Input} {op : Op} {next : op.Ret → Handler Unit}
    (h : Attending platform node state)
    (hwarrant : Warrants platform node state.world.trace op) :
    ((workStep platform input op next state).world.sessions node.session).sendQue.length
      < MAX_SENDQUE + (framesOn node.session (workStep platform input op next state).world.trace).length := by
  rw [trace_workStep]
  have hroom := h.room
  by_cases hpush : ∃ payload sent, op = .push node.session payload sent
  · obtain ⟨payload, sent, rfl⟩ := hpush
    unfold workStep
    dsimp only
    rw [perform, pushFrame_of_room (h.push_room hwarrant), framesOn_push, if_pos ⟨rfl, rfl⟩]
    change ((state.world.updateSession node.session fun s =>
      { s with sendQue := s.sendQue ++ [⟨sent, payload⟩] }).sessions node.session).sendQue.length < _
    rw [World.sessions_updateSession, if_pos rfl, List.length_append, List.length_append,
      List.length_singleton]
    omega
  · have hframes : framesOn node.session
        (⟨op, (perform platform input op state.world).1⟩ :: state.world.trace)
          = framesOn node.session state.world.trace := by
      by_cases hother : ∃ other payload sent, op = .push other payload sent
      · obtain ⟨other, payload, sent, rfl⟩ := hother
        rw [framesOn_push, if_neg]
        rintro ⟨-, rfl⟩
        exact hpush ⟨payload, sent, rfl⟩
      · exact framesOn_cons (fun other payload sent heq => hother ⟨other, payload, sent, heq⟩) _ _
    rw [hframes]
    refine lt_of_le_of_lt (Nat.le_of_eq (congrArg List.length ?_)) hroom
    exact sendQue_perform platform input state.world fun payload sent heq => hpush ⟨payload, sent, heq⟩

theorem Attending.work {state : State} {input : Input} {op : Op} {next : op.Ret → Handler Unit}
    (h : Attending platform node state) (hok : Answerable platform node input op state)
    (hwarrant : Warrants platform node state.world.trace op) :
    Attending platform node (workStep platform input op next state) := by
  refine ⟨?_, ?_, h.room_work hwarrant, ?_⟩
  · rw [history_workStep]
    exact h.served
  · refine (stopped_perform platform input op state.world node.session ?_).trans h.opened
    rintro rfl
    exact h.not_casStop hwarrant
  · rw [trace_workStep]
    intro call hcall
    rcases List.mem_cons.mp hcall with rfl | hcall
    · exact h.helpful_perform hok hwarrant
    · exact h.helpful call hcall

/-! ### Its answer -/

theorem isShort_of_responseId {msgId rspId : Int} (h : responseId msgId = some rspId) :
    IsShort rspId ∧ pushId msgId ≠ some rspId ∧
      (msgId = MSG_LOGIN_REQ → pushId msgId = some MSG_OFFLINE_MSG_RSP) := by
  unfold responseId at h
  split_ifs at h with hregister hlogin hlist hadd hchat hoffline
  all_goals
    obtain rfl := Option.some.inj h
    subst msgId
    decide

theorem Attending.answered {state : State} {rspId : Int} (hcompact : Compact platform)
    (h : Attending platform node state) (hrsp : responseId node.msgId = some rspId)
    (hfinished : Finished platform node state.world.trace) :
    Answered platform node rspId state.world.trace := by
  rcases hfinished with ⟨-, hnone⟩ | ⟨part, before, target, payload, msgid, htrace, hpart, hsends, hanswer⟩
  · rw [hrsp] at hnone
    cases hnone
  obtain ⟨rfl, rfl, hstatus, hkind⟩ := answer_of_sends hsends hanswer hrsp
  obtain ⟨hshort, hpushId, hlogin⟩ := isShort_of_responseId hrsp
  have hhelpful : ∀ call ∈ part ++ before, Helpful platform node call := htrace ▸ h.helpful
  have hfits : Fits platform payload := by
    rcases hkind with hbrief | ⟨uid, friends, rfl, hmem⟩ | ⟨uid, rows, rfl, hreq, hmem⟩
    · intro text htext
      rw [hcompact payload (by rintro root rfl; exact hbrief) text htext]
      exact Payload.length_render_json_le hbrief
    · exact hhelpful _ (List.mem_append_right _ hmem)
    · exact hhelpful _ (List.mem_append_right _ hmem) hreq
  have hopen : (⟨.loadStop node.session payload msgid, true⟩ : Call Op Op.Ret) ∉ part := by
    intro hmem
    exact Bool.noConfusion (hhelpful _ (List.mem_append_left _ hmem) rfl)
  have hroom : ∀ sent, (⟨.push node.session payload sent, false⟩ : Call Op Op.Ret) ∉ part := by
    intro sent hmem
    exact Bool.noConfusion (hhelpful _ (List.mem_append_left _ hmem) rfl)
  obtain ⟨text, sent, rfl, hdump, hmsgId, hwire⟩ := sent_of_fits hshort hpart hopen hroom hfits
  have hframes : framesOn node.session state.world.trace
      = framesOn node.session before ++ [⟨sent, payload⟩] := by
    rw [htrace, List.cons_append, framesOn_push, if_pos ⟨rfl, rfl⟩]
    exact congrArg (· ++ _) (framesOn_cons (by simp) _ _)
  refine ⟨framesOn node.session before, ⟨sent, payload⟩, hframes,
    ⟨hmsgId, Payload.contains_status hstatus, text, hdump, hwire⟩, ?_⟩
  rcases frames_of_sends hsends node.session with hnothing | ⟨frame, hframe, hid⟩
  · rw [hnothing]
    exact ⟨Nat.zero_le _, fun other hother => (by cases hother)⟩
  · rw [hframe]
    refine ⟨Nat.le_refl _, fun other hother => ?_⟩
    obtain rfl := List.mem_singleton.mp hother
    refine ⟨fun heq => hpushId (by rw [hid, heq]), fun hreq => ?_⟩
    exact Option.some.inj (hid.symm.trans (hlogin hreq))

/-- **Every request is answered**, under the condition. From every reachable state in which the session
of the message is open and its queue has room, when each step until the handler ends meets the condition,
the handler has queued exactly one response on the session, with the complete text of an object that has
a status; and every handler can be brought to its end. -/
theorem requests_answered {start begun state : State} {rspId : Int} (hcompact : Compact platform)
    (hreach : Reaches platform (fun _ _ => True) start)
    (hopen : start.world.stopped node.session = false)
    (hroom : (start.world.sessions node.session).sendQue.length < MAX_SENDQUE)
    (hdispatch : step platform .dispatch start = some begun)
    (hserved : served begun.world.history = some node) (hrsp : responseId node.msgId = some rspId)
    (hhandling : Handling platform (answerable platform node) begun state) :
    (state.worker = none → Answered platform node rspId state.world.trace) ∧
      ∃ ended, Handling platform (fun _ _ => True) state ended ∧ ended.worker = none := by
  have hbegun : Attending platform node begun := by
    simp only [step] at hdispatch
    split at hdispatch
    · obtain rfl := Option.some.inj hdispatch
      exact ⟨hserved, hopen, hroom, fun call hcall => (by cases hcall)⟩
    · cases hdispatch
  obtain ⟨hstate, hattending⟩ : Reaches platform (fun _ _ => True) state ∧
      Attending platform node state := by
    apply hhandling.invariant (Attending platform node) (.next hreach trivial hdispatch) hbegun
    · exact fun _ h => h.served
    · exact fun _ _ h hquiet => h.quiet hquiet
    · exact fun _ _ _ _ _ h hok hworker hwarrant => h.work (hok _ _ hworker) hwarrant
    · exact fun _ _ _ _ h hok hcloser => h.io (hok _ _ hcloser)
  obtain ⟨ended, hended, hidle⟩ := handling_ends platform state
  refine ⟨fun hidle => ?_, ended, hended.mono (fun _ => id) fun _ _ h => ⟨trivial, h.2⟩, hidle⟩
  exact hattending.answered hcompact hrsp
    ((grounded_of_reaches hstate).finished hidle node hattending.served)

def testAnswerable (node : LogicNode) : Op → State → Bool
  | .getSessionByUid uid, state =>
      decide (node.msgId ≠ MSG_LOGIN_REQ ∨
        (UserManager.getSessionByUid uid state.world).1 ≠ some node.session)
  | .getFriendList uid, state =>
      (render (Payload.friendList uid (DBManager.getFriendList .fine uid state.world.db)).json).length
        ≤ MAX_LENGTH
  | .getOfflineMessages uid, state =>
      (render (Payload.offlineMsgs false
        (DBManager.getOfflineMessages .fine uid state.world.db).1).json).length ≤ MAX_LENGTH
  | _, _ => true

theorem answerable_of_test {label : Label} {state : State}
    (hidle : ∀ input, label = .work input → input = .idle)
    (htest : testOps (testAnswerable node) (fun _ _ => false) label state = true) :
    answerable reference node label state := by
  refine opsMeet_of_test (fun op hop => ?_) (fun _ _ h => (by cases h)) hidle htest
  cases op with
  | getSessionByUid uid => exact fun hreq => (of_decide_eq_true hop).resolve_left fun h => h hreq
  | getFriendList uid =>
    intro text htext
    obtain rfl := Except.ok.inj htext
    exact of_decide_eq_true hop
  | getOfflineMessages uid =>
    intro _ text htext
    rw [testAnswerable, decide_eq_true_eq] at hop
    rw [← Except.ok.inj htext]
    exact hop
  | _ => trivial

theorem compact_reference : Compact reference := fun _ _ _ htext => (Except.ok.inj htext).symm

/-- Ann logs in; a message waits for her. -/
def waitingScript : List Act := [.accept 0, .post 0 MSG_LOGIN_REQ (credentials "ann")]

def annNode : LogicNode := ⟨0, MSG_LOGIN_REQ, render (credentials "ann")⟩

theorem requests_answered_login : Answered reference annNode MSG_LOGIN_RSP
    (Reach.after (step reference) (serving 9)
      (Reach.after (step reference) [.dispatch] (played backlogDb waitingScript))).world.trace := by
  obtain ⟨hplays, hopen, hroom, hdispatched, hserved, hmeets, hended⟩ :
      plays (fun _ _ => true) backlogDb waitingScript = true ∧
      (played backlogDb waitingScript).world.stopped annNode.session = false ∧
      ((played backlogDb waitingScript).world.sessions annNode.session).sendQue.length < MAX_SENDQUE ∧
      (step reference .dispatch (played backlogDb waitingScript)).isSome = true ∧
      served (Reach.after (step reference) [.dispatch] (played backlogDb waitingScript)).world.history
        = some annNode ∧
      Reach.meets (step reference) (testOps (testAnswerable annNode) fun _ _ => false) (serving 9)
        (Reach.after (step reference) [.dispatch] (played backlogDb waitingScript)) = true ∧
      (Reach.after (step reference) (serving 9) (Reach.after (step reference) [.dispatch]
        (played backlogDb waitingScript))).worker.isNone = true := by decide +kernel
  have hreach := reached_of_plays backlogDb_wellFormed hplays
  have hdispatch := step_after .dispatch (played backlogDb waitingScript) hdispatched
  have hhandling : Handling reference (answerable reference annNode) _ _ :=
    handling_of_meets (fun label hlabel => ⟨(mem_serving hlabel).1, fun state =>
      answerable_of_test (mem_serving hlabel).2⟩) hmeets
  exact (requests_answered compact_reference hreach hopen hroom hdispatch hserved rfl hhandling).1
    (Option.isNone_iff_eq_none.mp hended)

/-- Ann logs in a second time on the same session. -/
def secondLoginScript : List Act :=
  [.accept 0, .post 0 MSG_LOGIN_REQ (credentials "ann"), .serve 7,
    .post 0 MSG_LOGIN_REQ (credentials "ann")]

/-- Without the condition, the second login closes its own session, and no response is queued. -/
theorem request_unanswered :
    ¬∀ start begun state node rspId, Reaches reference (fun _ _ => True) start →
      start.world.stopped node.session = false →
      (start.world.sessions node.session).sendQue.length < MAX_SENDQUE →
      step reference .dispatch start = some begun → served begun.world.history = some node →
      responseId node.msgId = some rspId → Handling reference (undisturbed node.session) begun state →
      state.worker = none → Answered reference node rspId state.world.trace := by
  intro h
  obtain ⟨hplays, hopen, hroom, hdispatched, hserved, hmeets, hended, hnone⟩ :
      plays (fun _ _ => true) quietDb secondLoginScript = true ∧
      (played quietDb secondLoginScript).world.stopped annNode.session = false ∧
      ((played quietDb secondLoginScript).world.sessions annNode.session).sendQue.length < MAX_SENDQUE ∧
      (step reference .dispatch (played quietDb secondLoginScript)).isSome = true ∧
      served (Reach.after (step reference) [.dispatch] (played quietDb secondLoginScript)).world.history
        = some annNode ∧
      Reach.meets (step reference) (testOps (fun _ _ => true) fun _ _ => false) (serving 9)
        (Reach.after (step reference) [.dispatch] (played quietDb secondLoginScript)) = true ∧
      (Reach.after (step reference) (serving 9) (Reach.after (step reference) [.dispatch]
        (played quietDb secondLoginScript))).worker.isNone = true ∧
      (framesOn annNode.session (Reach.after (step reference) (serving 9) (Reach.after (step reference)
        [.dispatch] (played quietDb secondLoginScript))).world.trace).isEmpty = true := by
    decide +kernel
  have hreach := reached_of_plays quietDb_wellFormed hplays
  have hdispatch := step_after .dispatch (played quietDb secondLoginScript) hdispatched
  have hhandling : Handling reference (undisturbed annNode.session) _ _ :=
    handling_of_meets (fun label hlabel => ⟨(mem_serving hlabel).1, fun state =>
      opsMeet_of_test (fun _ _ => trivial) (fun _ _ h => (by cases h)) (mem_serving hlabel).2⟩) hmeets
  obtain ⟨before, frame, hframes, -⟩ := h _ _ _ annNode MSG_LOGIN_RSP hreach hopen hroom hdispatch
    hserved rfl hhandling (Option.isNone_iff_eq_none.mp hended)
  rw [hframes] at hnone
  simp at hnone

end CoroutineServer
