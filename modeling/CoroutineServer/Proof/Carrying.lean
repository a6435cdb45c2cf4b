import CoroutineServer.Library.Simulation
import CoroutineServer.Scenario
import CoroutineServer.Proof.Ascending
import CoroutineServer.Proof.Delivery
import CoroutineServer.Proof.Ledger

/-!
# The sessions of the server and their send queues

The server pushes a frame in one step and takes it off its queue in one step. Each of its sessions still does
only what a send queue does that has its threads, its writes and its bytes: the section of `Send` is answered
by the push and, on an empty queue, by the start of a write, and a frame that is written by its transfer, its
completion, `HandleWrite` and the start of the next write. The socket of a session that is closed stays open
for its last writes, as the thread that closes it may be late.
-/

namespace CoroutineServer

open Program Wire

namespace SendQueue

variable {platform : Platform} {session : Sid} {pos : SendPos} {world world' : World} {channel : Channel}

/-- Where the worker stands as a sender on a session. -/
def sending (session : Sid) : Option (Handler Unit) → SendPos
  | some (.perform (.push other _ sent) _) => if other = session then .checked sent else .idle
  | _ => .idle

theorem sending_eq_idle {worker : Option (Handler Unit)}
    (h : ∀ payload sent next, worker ≠ some (.perform (.push session payload sent) next)) :
    sending session worker = .idle := by
  unfold sending
  split
  · next other payload sent next =>
    apply if_neg
    rintro rfl
    exact h payload sent next rfl
  · rfl

theorem Shows.length (h : Shows channel session world) :
    channel.sendQue.length = (world.sessions session).sendQue.length := by
  rw [h, List.length_map]

/-- The channel stands as the session does, between two writes of its frames. The worker is its only
sender, and each write that is due has been started. -/
structure Mirrors (session : Sid) (pos : SendPos) (world : World) (channel : Channel) : Prop where
  shows : Shows channel session world
  stopped : channel.bStop = world.stopped session
  accepted : channel.accepted = (queuedOn session world.history).map Queued.node
  queued : ∃ gone, queuedOn session world.history = gone ++ (world.sessions session).sendQue
  sender : channel.senders 0 = pos
  handler : channel.handler = .idle
  writes : channel.writes = (channel.sendQue.take 1).map .start
  isOpen : channel.isOpen = true
  fine : channel.failed = false

namespace Mirrors

/-- The stop flag may change on both sides, and the frames on neither. -/
theorem reflag {bStop : Bool} (closing : Bool) (h : Mirrors session pos world channel)
    (hque : (world'.sessions session).sendQue = (world.sessions session).sendQue)
    (hstop : world'.stopped session = bStop)
    (hframes : queuedOn session world'.history = queuedOn session world.history) :
    Mirrors session pos world' { channel with bStop, closing } := by
  refine ⟨?_, hstop.symm, ?_, ?_, h.sender, h.handler, h.writes, h.isOpen, h.fine⟩
  · unfold Shows
    rw [hque]
    exact h.shows
  · rw [hframes]
    exact h.accepted
  · rw [hframes, hque]
    exact h.queued

theorem congr (h : Mirrors session pos world channel)
    (hque : (world'.sessions session).sendQue = (world.sessions session).sendQue)
    (hstop : world'.stopped session = world.stopped session)
    (hframes : queuedOn session world'.history = queuedOn session world.history) :
    Mirrors session pos world' channel :=
  h.reflag channel.closing hque (hstop.trans h.stopped.symm) hframes

/-- `Close` exchanges the stop flag. -/
theorem close (h : Mirrors session pos world channel)
    (hque : (world'.sessions session).sendQue = (world.sessions session).sendQue)
    (hstop : world'.stopped session = true)
    (hframes : queuedOn session world'.history = queuedOn session world.history) :
    Reach.Answered step (fun _ _ => True) (Mirrors session pos) world' channel := by
  have hclose : step .close channel = some channel.exchange := rfl
  exact .after trivial hclose (.stay (h.reflag _ hque hstop hframes))

/-- `Send` finds the session open and the length in range. -/
theorem send {msg : Bytes} {msgid : Int} {sent : SendNode} (h : Mirrors session .idle world channel)
    (hopen : world.stopped session = false) (hnode : sendNode msg msgid = some (.ok sent)) :
    Reach.Answered step (fun _ _ => True) (Mirrors session (.checked sent)) world channel := by
  have hsend : step (.send 0 msg msgid) channel = some (channel.setSender 0 (.checked sent)) := by
    simp only [step, h.sender, h.stopped, hopen, hnode, if_true]
    rfl
  refine .after trivial hsend (.stay ?_)
  exact ⟨h.shows, h.stopped, h.accepted, h.queued, Channel.senders_setSender_self _ _ _, h.handler, h.writes,
    h.isOpen, h.fine⟩

/-- The section of `Send` refuses the frame. -/
theorem refuse {sent : SendNode} (h : Mirrors session (.checked sent) world channel)
    (hfull : (world.sessions session).sendQue.length > MAX_SENDQUE) :
    Reach.Answered step (fun _ _ => True) (Mirrors session .idle) world channel := by
  have hpush : step (.push 0) channel = some (channel.setSender 0 .idle) := by
    rw [step, h.sender]
    dsimp only
    rw [Channel.push, if_pos (h.shows.length ▸ hfull)]
  refine .after trivial hpush (.stay ?_)
  exact ⟨h.shows, h.stopped, h.accepted, h.queued, Channel.senders_setSender_self _ _ _, h.handler, h.writes,
    h.isOpen, h.fine⟩

/-- The section of `Send` pushes the frame, and starts its write when nothing is before it. -/
theorem push (frame : Queued) (h : Mirrors session (.checked frame.node) world channel)
    (hroom : ¬(world.sessions session).sendQue.length > MAX_SENDQUE)
    (hque : (world'.sessions session).sendQue = (world.sessions session).sendQue ++ [frame])
    (hstop : world'.stopped session = world.stopped session)
    (hframes : queuedOn session world'.history = queuedOn session world.history ++ [frame]) :
    Reach.Answered step (fun _ _ => True) (Mirrors session .idle) world' channel := by
  have hshows : channel.sendQue ++ [frame.node] = (world'.sessions session).sendQue.map Queued.node := by
    rw [hque, List.map_append, ← show channel.sendQue = _ from h.shows]
    rfl
  have haccepted : channel.accepted ++ [frame.node]
      = (queuedOn session world'.history).map Queued.node := by
    rw [hframes, List.map_append, h.accepted]
    rfl
  have hqueued : ∃ gone, queuedOn session world'.history
      = gone ++ (world'.sessions session).sendQue := by
    obtain ⟨gone, hgone⟩ := h.queued
    exact ⟨gone, by rw [hframes, hgone, hque, List.append_assoc]⟩
  have hpush : step (.push 0) channel = some (channel.push 0 frame.node) := by
    rw [step, h.sender]
  refine .after trivial hpush ?_
  rw [Channel.push, if_neg (h.shows.length ▸ hroom)]
  have hwrites := h.writes
  cases hbefore : channel.sendQue with
  | nil =>
    rw [hbefore] at hshows hwrites
    have hstart : step (.startWrite 0) ({ channel with
        sendQue := [frame.node]
        accepted := channel.accepted ++ [frame.node] }.setSender 0 (.starting frame.node))
        = some (({ channel with
          sendQue := [frame.node]
          accepted := channel.accepted ++ [frame.node] }.setSender 0 (.starting frame.node)).startWrite
            frame.node |>.setSender 0 .idle) := by
      rw [step, Channel.senders_setSender_self]
    refine .after trivial hstart (.stay ⟨hshows, h.stopped.trans hstop.symm, haccepted, hqueued,
      Channel.senders_setSender_self _ _ _, h.handler, ?_, h.isOpen, h.fine⟩)
    exact congrArg (· ++ [.start frame.node]) hwrites
  | cons front rest =>
    rw [hbefore] at hshows hwrites
    exact .stay ⟨hshows, h.stopped.trans hstop.symm, haccepted, hqueued,
      Channel.senders_setSender_self _ _ _, h.handler, hwrites, h.isOpen, h.fine⟩

/-- A frame is written: its bytes go out, the write completes, `HandleWrite` pops the frame and starts the
write of the next one. -/
theorem written {frame : Queued} {rest : List Queued} (h : Mirrors session pos world channel)
    (hque : (world.sessions session).sendQue = frame :: rest)
    (hrest : (world'.sessions session).sendQue = rest)
    (hstop : world'.stopped session = world.stopped session)
    (hframes : queuedOn session world'.history = queuedOn session world.history) :
    Reach.Answered step (fun _ _ => True) (Mirrors session pos) world' channel := by
  have hnodes : channel.sendQue = frame.node :: rest.map Queued.node := by
    rw [show channel.sendQue = _ from h.shows, hque, List.map_cons]
  have hwrites : channel.writes = [.start frame.node] := by
    rw [h.writes, hnodes]
    rfl
  have hshows : rest.map Queued.node = (world'.sessions session).sendQue.map Queued.node := by
    rw [hrest]
  have haccepted : channel.accepted = (queuedOn session world'.history).map Queued.node := by
    rw [hframes]
    exact h.accepted
  have hqueued : ∃ gone, queuedOn session world'.history
      = gone ++ (world'.sessions session).sendQue := by
    obtain ⟨gone, hgone⟩ := h.queued
    exact ⟨gone ++ [frame], by rw [hframes, hgone, hque, hrest, List.append_assoc]; rfl⟩
  have htransfer : step (.transfer 0 frame.node.wire.length) channel = some { channel with
      writes := [⟨frame.node, frame.node.wire.length, none⟩]
      wire := channel.wire ++ frame.node.wire } := by
    simp [step, hwrites, Write.start, h.isOpen]
  have hcomplete : step (.complete 0 true) { channel with
      writes := [⟨frame.node, frame.node.wire.length, none⟩]
      wire := channel.wire ++ frame.node.wire } = some { channel with
        writes := [⟨frame.node, frame.node.wire.length, some true⟩]
        wire := channel.wire ++ frame.node.wire } := by
    simp [step]
  have hhandle : step (.handleWrite 0) { channel with
      writes := [⟨frame.node, frame.node.wire.length, some true⟩]
      wire := channel.wire ++ frame.node.wire } = some { channel with
        writes := []
        wire := channel.wire ++ frame.node.wire }.pop := by
    simp [step, h.handler]
  refine .after trivial htransfer (.after trivial hcomplete (.after trivial hhandle ?_))
  cases rest with
  | nil =>
    rw [Channel.pop, hnodes]
    exact .stay ⟨hshows, h.stopped.trans hstop.symm, haccepted, hqueued, h.sender, h.handler, rfl, h.isOpen,
      h.fine⟩
  | cons next rest =>
    have hnext : step .startNext { channel with
        writes := []
        wire := channel.wire ++ frame.node.wire
        sendQue := next.node :: rest.map Queued.node
        handler := .starting next.node } = some { { channel with
          writes := []
          wire := channel.wire ++ frame.node.wire
          sendQue := next.node :: rest.map Queued.node }.startWrite next.node with handler := .idle } := rfl
    rw [Channel.pop, hnodes]
    exact .after trivial hnext (.stay ⟨hshows, h.stopped.trans hstop.symm, haccepted, hqueued, h.sender, rfl,
      rfl, h.isOpen, h.fine⟩)

/-- What leaves the queue and the flag of every session as they are. -/
theorem update {other : Sid} {change : Session → Session} (h : Mirrors session pos world channel)
    (hque : (change (world.sessions other)).sendQue = (world.sessions other).sendQue)
    (hstop : (change (world.sessions other)).bStop = (world.sessions other).bStop) :
    Mirrors session pos (world.updateSession other change) channel := by
  apply h.congr
  · rw [World.sessions_updateSession]
    split_ifs with heq
    · rw [heq, hque]
    · rfl
  · unfold World.stopped
    rw [World.sessions_updateSession]
    split_ifs with heq
    · rw [heq, hstop]
    · rfl
  · rfl

/-- An operation that is neither a push nor the exchange of the stop flag. -/
theorem other {op : Op} (platform : Platform) (input : Input) (h : Mirrors session pos world channel)
    (hpush : ∀ payload sent, op ≠ .push session payload sent) (hcas : op ≠ .casStop session)
    (hframes : queuedOn session world'.history = queuedOn session world.history)
    (hsessions : world'.sessions = (perform platform input op world).2.sessions) :
    Mirrors session pos world' channel := by
  refine h.congr ?_ ?_ hframes
  · rw [hsessions]
    exact sendQue_perform platform input world hpush
  · unfold World.stopped
    rw [hsessions]
    exact stopped_perform platform input op world session hcas

theorem queuedOn_did {op : Op} {result : op.Ret} (hpush : ∀ payload sent, op ≠ .push session payload sent)
    (history : List Event) :
    queuedOn session (.did ⟨op, result⟩ :: history) = queuedOn session history := by
  show framesOn session (⟨op, result⟩ :: calls history) = _
  cases op with
  | push target payload sent =>
    rw [framesOn_push, if_neg]
    rintro ⟨-, rfl⟩
    exact hpush payload sent rfl
  | _ => exact framesOn_cons (by simp) session _

/-- The worker performs an operation. -/
theorem work (platform : Platform) (input : Input) {op : Op} {next : op.Ret → Handler Unit}
    (h : Mirrors session (sending session (some (.perform op next))) world channel) :
    Reach.Answered step (fun _ _ => True) (Mirrors session .idle)
      ((perform platform input op world).2.record (.did ⟨op, (perform platform input op world).1⟩))
      channel := by
  by_cases hpush : ∃ payload sent, op = .push session payload sent
  · obtain ⟨payload, sent, rfl⟩ := hpush
    have hchecked : Mirrors session (.checked sent) world channel := by
      have hsending : sending session (some (.perform (.push session payload sent) next)) = .checked sent :=
        if_pos rfl
      rwa [hsending] at h
    rw [perform]
    by_cases hfull : (world.sessions session).sendQue.length > MAX_SENDQUE
    · have hrefused : pushFrame session ⟨sent, payload⟩ world = (false, world) := if_pos hfull
      rw [hrefused]
      obtain ⟨after, hafter, hmirrors⟩ := hchecked.refuse hfull
      exact ⟨after, hafter, hmirrors.congr rfl rfl rfl⟩
    · rw [pushFrame_of_room (Nat.not_lt.mp hfull)]
      refine hchecked.push ⟨sent, payload⟩ hfull ?_ ?_ ?_
      · simp only [World.record, World.sessions_updateSession, if_true]
      · simp only [World.record, World.stopped, World.sessions_updateSession, if_true]
      · show framesOn session (⟨.push session payload sent, true⟩ :: calls world.history) = _
        rw [framesOn_push, if_pos ⟨rfl, rfl⟩]
  · have hpush' : ∀ payload sent, op ≠ .push session payload sent :=
      fun payload sent heq => hpush ⟨payload, sent, heq⟩
    have hidle : sending session (some (.perform op next)) = .idle := by
      apply sending_eq_idle
      rintro payload sent next' heq
      cases heq
      exact hpush ⟨payload, sent, rfl⟩
    rw [hidle] at h
    have hframes : queuedOn session ((perform platform input op world).2.record
        (.did ⟨op, (perform platform input op world).1⟩)).history = queuedOn session world.history := by
      rw [World.history_record, queuedOn_did hpush', perform_history]
    by_cases hcas : op = .casStop session
    · refine h.close ?_ ?_ hframes
      · exact sendQue_perform platform input world hpush'
      · rw [World.stopped_record, hcas]
        exact stopped_casStop platform input world session
    · exact .stay (h.other platform input hpush' hcas hframes rfl)

/-- An IO thread goes on with its `Close`. -/
theorem io {thread : Nat} {target : Sid} {closePos : CSession.ClosePos} {state : State}
    (h : Mirrors session pos state.world channel) :
    Reach.Answered step (fun _ _ => True) (Mirrors session pos)
      (ioStep platform thread target closePos state).world channel := by
  have hpush : ∀ payload sent, closePos.op target ≠ .push session payload sent := by
    intro payload sent
    cases closePos <;> simp [CSession.ClosePos.op]
  have hframes : queuedOn session (ioStep platform thread target closePos state).world.history
      = queuedOn session state.world.history := by
    rw [history_ioStep]
  by_cases hcas : closePos.op target = .casStop session
  · refine h.close ?_ ?_ hframes
    · exact sendQue_perform platform .idle state.world hpush
    · show ((perform platform .idle (closePos.op target) state.world).2).stopped session = true
      rw [hcas]
      exact stopped_casStop platform .idle state.world session
  · exact .stay (h.other platform .idle hpush hcas hframes rfl)

/-- The worker stands before a push only when `Send` has just found the session open. -/
theorem next {input : Input} {op : Op} {next : op.Ret → Handler Unit} {state : State}
    (hreach : CoroutineServer.Reaches platform (fun _ _ => True) (workStep platform input op next state))
    (h : Mirrors session .idle (workStep platform input op next state).world channel) :
    Reach.Answered step (fun _ _ => True)
      (Mirrors session (sending session (workStep platform input op next state).worker))
      (workStep platform input op next state).world channel := by
  by_cases hpush : ∃ payload sent rest, (workStep platform input op next state).worker
      = some (.perform (.push session payload sent) rest)
  · obtain ⟨payload, sent, rest, hworker⟩ := hpush
    obtain ⟨node, -, msgid, msg, before, htrace, -, -, hnode⟩ :=
      (grounded_of_reaches hreach).warrants hworker
    rw [trace_workStep] at htrace
    obtain ⟨hop, hresult⟩ := Sigma.mk.inj (List.cons.inj htrace).1
    subst hop
    have hopen : state.world.stopped session = false := eq_of_heq hresult
    have hsending : sending session (workStep platform input (.loadStop session payload msgid) next
        state).worker = .checked sent := by
      rw [hworker]
      exact if_pos rfl
    rw [hsending]
    exact h.send hopen hnode
  · rw [sending_eq_idle fun payload sent rest hworker => hpush ⟨payload, sent, rest, hworker⟩]
    exact .stay h

end Mirrors

/-- **Every run of the server is one of each send queue.** -/
theorem mirrored_of_reaches {state : State} (hreach : CoroutineServer.Reaches platform (fun _ _ => True) state)
    (session : Sid) :
    ∃ channel, Reaches channel ∧ Mirrors session (sending session state.worker) state.world channel := by
  apply hreach.simulated fun state channel =>
    Mirrors session (sending session state.worker) state.world channel
  · rintro _ ⟨db, -, rfl⟩
    exact ⟨.initial, rfl, rfl, rfl, rfl, ⟨[], rfl⟩, rfl, rfl, rfl, rfl, rfl⟩
  intro label state state' channel hprior _ h _ hstep
  have hafter := hprior.next trivial hstep
  cases label with
  | accept other =>
    simp only [CoroutineServer.step, Option.ite_none_left_eq_some, Option.some.injEq] at hstep
    obtain ⟨-, rfl⟩ := hstep
    have hkept : Mirrors session (sending session state.worker)
        (state.world.updateSession other fun s => { s with started := true }) channel := h.update rfl rfl
    exact .stay hkept
  | post node =>
    simp only [CoroutineServer.step, Option.ite_none_right_eq_some] at hstep
    obtain ⟨-, hstep⟩ := hstep
    split_ifs at hstep
    · obtain rfl := Option.some.inj hstep
      exact .stay h
    · obtain rfl := Option.some.inj hstep
      exact .stay h
  | dispatch =>
    simp only [CoroutineServer.step] at hstep
    split at hstep
    · next node rest hidle hque =>
      obtain rfl := Option.some.inj hstep
      rw [hidle] at h
      -- a handler does not begin with a push
      have hsending : sending session (LogicSystem.callback platform node) = .idle := by
        refine sending_eq_idle fun payload sent next hworker => ?_
        obtain ⟨_, -, _, _, _, htrace, -⟩ := (grounded_of_reaches hafter).warrants hworker
        cases htrace
      refine .stay ?_
      dsimp only
      rw [hsending]
      exact h.congr rfl rfl rfl
    · cases hstep
  | work input =>
    simp only [CoroutineServer.step] at hstep
    split at hstep
    · next op next hworker =>
      obtain rfl := Option.some.inj hstep
      rw [hworker] at h
      obtain ⟨between, hbetween, hmirrors⟩ := h.work platform input
      exact .trans hbetween (hmirrors.next hafter)
    · cases hstep
  | finish =>
    simp only [CoroutineServer.step] at hstep
    split at hstep
    · next hworker =>
      obtain rfl := Option.some.inj hstep
      rw [hworker] at h
      exact .stay h
    · next hworker =>
      obtain rfl := Option.some.inj hstep
      rw [hworker] at h
      exact .stay h
    · cases hstep
  | closeCall thread other =>
    simp only [CoroutineServer.step, Option.ite_none_right_eq_some, Option.some.injEq] at hstep
    obtain ⟨-, rfl⟩ := hstep
    exact .stay h
  | io thread =>
    simp only [CoroutineServer.step] at hstep
    split at hstep
    · obtain rfl := Option.some.inj hstep
      exact h.io
    · cases hstep
  | written other =>
    simp only [CoroutineServer.step] at hstep
    split at hstep
    · cases hstep
    · next frame rest hque =>
      obtain rfl := Option.some.inj hstep
      by_cases hother : other = session
      · subst hother
        refine h.written hque ?_ ?_ rfl
        · rw [World.sessions_updateSession, if_pos rfl]
        · unfold World.stopped
          rw [World.sessions_updateSession, if_pos rfl]
      · have hsame : (state.world.updateSession other fun s => { s with sendQue := rest }).sessions session
            = state.world.sessions session := by
          rw [World.sessions_updateSession, if_neg (Ne.symm hother)]
        refine .stay (h.congr (congrArg Session.sendQue hsame) (congrArg Session.bStop hsame) rfl)
  | expire other =>
    simp only [CoroutineServer.step, Option.ite_none_right_eq_some, Option.some.injEq] at hstep
    obtain ⟨-, rfl⟩ := hstep
    have hkept : Mirrors session (sending session state.worker)
        (state.world.updateSession other fun s => { s with expired := true }) channel := h.update rfl rfl
    exact .stay hkept

/-- Between two writes, exactly the frames that have left the queue are on the wire. -/
theorem Mirrors.wire {gone : List Queued} (hreach : Reaches channel) (h : Mirrors session pos world channel)
    (hgone : queuedOn session world.history = gone ++ (world.sessions session).sendQue) :
    channel.wire = (gone.map Queued.node).flatMap SendNode.wire := by
  obtain ⟨⟨turn, done, hstands⟩, -⟩ := inv_of_reaches hreach
  have hdone : done = gone.map Queued.node := by
    have horder : done ++ channel.sendQue = gone.map Queued.node ++ channel.sendQue := by
      rw [← hstands.order, h.accepted, hgone, List.map_append, ← show channel.sendQue = _ from h.shows]
    exact List.append_cancel_right horder
  have hstarted : turn.started.flatMap Write.onWire = [] := by
    have hwrites := hstands.writes.symm.trans h.writes
    have hfront := hstands.front
    cases turn with
    | writing write =>
      cases hque : channel.sendQue with
      | nil =>
        rw [hque] at hwrites
        cases hwrites
      | cons node rest =>
        rw [hque] at hwrites
        obtain rfl : write = .start node := List.singleton_inj.mp hwrites
        simp [Turn.started, Write.onWire, Write.start]
    | lost write =>
      cases hque : channel.sendQue with
      | nil =>
        rw [hque] at hfront
        cases hfront
      | cons node rest =>
        rw [hque] at hwrites
        cases hwrites
    | _ => rfl
  rw [hstands.wire, hdone, hstarted, List.append_nil]

/-- **From the handlers to the client.** In every run of the server and for each of its sessions there is a
run of a send queue, with its threads, its mutex and its writes, that has accepted exactly the frames the
handlers have queued on the session, in their order, holds those the session still holds, and is stopped when
the session is. The bytes it has put on the socket are those of the frames that have left the queue, and
however they are cut into segments, the client reads exactly the messages of these frames. -/
theorem sessions_carried {state : State} (hreach : CoroutineServer.Reaches platform (fun _ _ => True) state)
    (session : Sid) :
    ∃ channel gone, Reaches channel ∧
      channel.accepted = (queuedOn session state.world.history).map Queued.node ∧
      channel.sendQue = (state.world.sessions session).sendQue.map Queued.node ∧
      channel.bStop = (state.world.sessions session).bStop ∧ channel.failed = false ∧
      queuedOn session state.world.history = gone ++ (state.world.sessions session).sendQue ∧
      channel.wire = gone.flatMap (fun frame => frame.node.wire) ∧
      ∀ socket : List Bytes, socket.flatten = channel.wire →
        TestClient.recvAll socket = gone.map (fun frame => frame.node.message) := by
  obtain ⟨channel, hchannel, h⟩ := mirrored_of_reaches hreach session
  obtain ⟨gone, hgone⟩ := h.queued
  have hwire := h.wire hchannel hgone
  have hframed : ∀ node ∈ gone.map Queued.node, Framed node := fun node hnode => by
    apply framed_of_accepted hchannel
    rw [h.accepted, hgone, List.map_append]
    exact List.mem_append_left _ hnode
  refine ⟨channel, gone, hchannel, h.accepted, h.shows, h.stopped, h.fine, hgone, ?_,
    fun socket hsocket => ?_⟩
  · rw [hwire, List.flatMap_map]
  · rw [recvAll_eq, hsocket, hwire, ← flatMap_framesOf hframed,
      clientCode.decodeAll_flatMap_encode (valid_framesOf hframed) rfl, map_framesOf hframed, List.map_map]
    rfl

/-- Ann has been sent the answer to her login, and bob's message waits behind it. -/
def annAnswered : State := Reach.after (CoroutineServer.step reference) [.written 0] (played quietDb chatScript)

theorem sessions_carried_chat :
    ∃ channel gone, Reaches channel ∧ gone.length = 1 ∧ channel.sendQue.length = 1 ∧
      queuedOn 0 annAnswered.world.history = gone ++ (annAnswered.world.sessions 0).sendQue ∧
      ∀ socket : List Bytes, socket.flatten = channel.wire →
        TestClient.recvAll socket = gone.map (fun frame => frame.node.message) := by
  obtain ⟨hplays, hwritten, hqueued, hleft⟩ : plays (fun _ _ => true) quietDb chatScript = true ∧
      (CoroutineServer.step reference (.written 0) (played quietDb chatScript)).isSome = true ∧
      (queuedOn 0 annAnswered.world.history).length = 2 ∧
      (annAnswered.world.sessions 0).sendQue.length = 1 := by
    decide +kernel
  have hchat := (reachesFrom_of_plays quietDb_wellFormed hplays).mono (initial_of_eq quietDb_wellFormed)
    fun _ _ => id
  obtain ⟨state, hstep⟩ := Option.isSome_iff_exists.mp hwritten
  have hstate : state = annAnswered := by
    unfold annAnswered
    rw [Reach.after, hstep]
    rfl
  have hreach : CoroutineServer.Reaches reference (fun _ _ => True) annAnswered :=
    hstate ▸ hchat.next trivial hstep
  obtain ⟨channel, gone, hchannel, -, hsendQue, -, -, hgone, -, hread⟩ := sessions_carried hreach 0
  refine ⟨channel, gone, hchannel, ?_, ?_, hgone, hread⟩
  · rw [hgone, List.length_append, hleft] at hqueued
    exact Nat.succ.inj hqueued
  · rw [hsendQue, List.length_map]
    exact hleft

end SendQueue

end CoroutineServer
