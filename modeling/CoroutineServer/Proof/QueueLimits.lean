import CoroutineServer.Proof.QueueOrder
import CoroutineServer.Proof.SendSteps
import CoroutineServer.Queues

/-!
# The limits of the queues

`PostMsgToQue` refuses a message when the queue holds its limit. `Send` refuses a frame only when the queue
holds one more than its limit, so it lets one frame too many in.
-/

namespace CoroutineServer

/-! ### One queue -/

namespace LogicQueue

theorem accepted_of_room {queue : Queue} (hroom : queue.msgQue.length < MAX_RECVQUE) (msg : LogicNode) :
    (postMsgToQue msg queue).accepted = queue.accepted ++ [msg] := by
  unfold postMsgToQue
  rw [if_neg (Nat.not_le.mpr hroom)]
  dsimp only
  split_ifs
  · exact (notifyOne_frame _).2.2.1
  · rfl

end LogicQueue

namespace SendQueue

variable {channel channel' : Channel} {label : Label}

theorem send_of_idle {msg : Bytes} {msgid : Int} {node : SendNode}
    (hsenders : channel.senders = fun _ => .idle) (hopen : channel.bStop = false)
    (hnode : sendNode msg msgid = some (.ok node)) :
    step (.send 0 msg msgid) channel = some (channel.setSender 0 (.checked node)) := by
  simp [step, hsenders, hopen, hnode]

theorem push_of_full (hfull : MAX_SENDQUE < channel.sendQue.length) (thread : Nat) (node : SendNode) :
    channel.push thread node = channel.setSender thread .idle := if_pos hfull

theorem push_of_room (hroom : channel.sendQue.length ≤ MAX_SENDQUE) (thread : Nat) (node : SendNode) :
    (channel.push thread node).sendQue = channel.sendQue ++ [node] ∧
      (channel.push thread node).accepted = channel.accepted ++ [node] := by
  unfold Channel.push
  rw [if_neg (Nat.not_lt.mpr hroom)]
  dsimp only
  split <;> exact ⟨rfl, rfl⟩

theorem push_of_waiting {front : SendNode} {rest : List SendNode}
    (hroom : channel.sendQue.length ≤ MAX_SENDQUE) (thread : Nat) (node : SendNode)
    (hque : channel.sendQue = front :: rest) :
    channel.push thread node = ({ channel with
      sendQue := channel.sendQue ++ [node]
      accepted := channel.accepted ++ [node] } : Channel).setSender thread .idle := by
  unfold Channel.push
  rw [if_neg (Nat.not_lt.mpr hroom), hque]

/-- The section of `Send` keeps the queue within a limit that it has not reached, or that it refuses at. -/
theorem length_push_le {limit : Nat} (hbound : channel.sendQue.length ≤ limit)
    (hroom : channel.sendQue.length < limit ∨ MAX_SENDQUE < channel.sendQue.length) (thread : Nat)
    (node : SendNode) : (channel.push thread node).sendQue.length ≤ limit := by
  rcases hroom with hless | hfull
  · rcases sendQue_push channel thread node with heq | heq
    · rw [heq]
      exact hbound
    · rw [heq, List.length_append]
      exact hless
  · rw [push_of_full hfull]
    exact hbound

theorem length_pop (channel : Channel) : channel.pop.sendQue.length ≤ channel.sendQue.length := by
  unfold Channel.pop
  split
  · exact Nat.le_refl _
  · exact Nat.zero_le _
  · next front next rest hque =>
    rw [hque]
    exact Nat.le_succ _

/-- Only the section of `Send` adds to the queue. -/
theorem length_step_le {limit : Nat} (hbound : channel.sendQue.length ≤ limit)
    (hroom : ∀ thread, label = .push thread →
      channel.sendQue.length < limit ∨ MAX_SENDQUE < channel.sendQue.length)
    (hstep : step label channel = some channel') : channel'.sendQue.length ≤ limit := by
  cases steps_of_step hstep with
  | push _ => exact length_push_le hbound (hroom _ rfl) _ _
  | written => exact (length_pop _).trans hbound
  | _ => exact hbound

end SendQueue

/-! ### All queues -/

namespace Queues

variable {queues queues' : Queues} {label : Label} {ok : Label → Queues → Prop} {limit : Nat}

theorem channels_setChannel_self (queues : Queues) (session : Sid) (channel : SendQueue.Channel) :
    (queues.setChannel session channel).channels session = channel := Function.update_self _ _ _

theorem channels_setChannel_of_ne (queues : Queues) {session other : Sid} (channel : SendQueue.Channel)
    (hne : other ≠ session) :
    (queues.setChannel session channel).channels other = queues.channels other :=
  Function.update_of_ne hne _ _

/-- The two kinds of steps. -/
inductive Steps (queues : Queues) : Label → Queues → Prop where
  | logic {label : LogicQueue.Label} {logic : LogicQueue.Queue}
      (hlogic : LogicQueue.step label queues.logic = some logic) :
      Steps queues (.logic label) { queues with logic }
  | channel {session : Sid} {label : SendQueue.Label} {channel : SendQueue.Channel}
      (hchannel : SendQueue.step label (queues.channels session) = some channel) :
      Steps queues (.channel session label) (queues.setChannel session channel)

theorem steps_of_step (hstep : step label queues = some queues') : Steps queues label queues' := by
  cases label with
  | logic label =>
    obtain ⟨logic, hlogic, rfl⟩ := Option.map_eq_some_iff.mp hstep
    exact .logic hlogic
  | channel session label =>
    obtain ⟨channel, hchannel, rfl⟩ := Option.map_eq_some_iff.mp hstep
    exact .channel hchannel

theorem logicInv_of_reaches (hreach : Reaches ok queues) : LogicQueue.Inv queues.logic := by
  induction hreach with
  | initial h =>
    rw [h]
    exact LogicQueue.inv_initial
  | next _ _ hstep ih =>
    cases steps_of_step hstep with
    | logic hlogic => exact ih.step hlogic
    | channel => exact ih

/-- A push keeps a send queue within a limit that it has not reached, or that the code refuses at. -/
theorem Within.step (h : Within limit queues) (hinv : LogicQueue.Inv queues.logic)
    (hroom : ∀ session thread, label = .channel session (.push thread) →
      (queues.channels session).sendQue.length < limit ∨
        MAX_SENDQUE < (queues.channels session).sendQue.length)
    (hstep : step label queues = some queues') : Within limit queues' := by
  cases steps_of_step hstep with
  | logic hlogic => exact { h with msgQue := (hinv.step hlogic).bounded }
  | @channel session label channel hchannel =>
    refine { h with sendQue := fun other => ?_ }
    by_cases hother : other = session
    · subst hother
      rw [channels_setChannel_self]
      apply SendQueue.length_step_le (h.sendQue other) (fun thread heq => ?_) hchannel
      exact hroom other thread (congrArg (Label.channel other) heq)
    · rw [channels_setChannel_of_ne _ _ hother]
      exact h.sendQue other

/-- What is dropped is dropped at the limit. -/
theorem Within.full_of_dropped (h : Within limit queues) (hlimit : limit ≤ MAX_SENDQUE + 1)
    (hstep : Queues.step label queues = some queues') (hdropped : Dropped label queues queues') :
    Full limit label queues := by
  cases steps_of_step hstep with
  | @logic label logic hlogic =>
    cases label with
    | post thread msg =>
      simp only [LogicQueue.step, Option.ite_none_left_eq_some, Option.some.injEq] at hlogic
      obtain ⟨-, rfl⟩ := hlogic
      refine Nat.le_antisymm h.msgQue (Nat.not_lt.mp fun hroom => ?_)
      have haccepted := (LogicQueue.accepted_of_room hroom msg).symm.trans hdropped
      simp at haccepted
    | _ => exact hdropped.elim
  | @channel session label channel hchannel =>
    cases label with
    | push thread =>
      have hbound := h.sendQue session
      have hfull : MAX_SENDQUE < (queues.channels session).sendQue.length := by
        refine Nat.not_le.mp fun hroom => ?_
        have hsame : channel.accepted = (queues.channels session).accepted := by
          rw [← channels_setChannel_self queues session channel]
          exact hdropped
        cases SendQueue.steps_of_step hchannel with
        | push hchecked =>
          have haccepted := (SendQueue.push_of_room hroom thread _).2.symm.trans hsame
          simp at haccepted
      exact Nat.le_antisymm hbound (hlimit.trans hfull)
    | _ => exact hdropped.elim

/-! ### A peer that does not read -/

/-- A run of one session, while nothing else happens. -/
theorem reaches_channel (session : Sid) {channel : SendQueue.Channel}
    (hreach : SendQueue.Reaches channel) :
    Reaches (fun _ _ => True) (initial.setChannel session channel) := by
  induction hreach with
  | initial h =>
    rw [h]
    exact .initial (congrArg (Queues.mk _) (Function.update_eq_self session _))
  | @next channel channel' label _ _ hstep ih =>
    have hqueues : step (.channel session label) (initial.setChannel session channel)
        = some (initial.setChannel session channel') := by
      rw [step, channels_setChannel_self, hstep]
      exact congrArg (fun channels => some (Queues.mk _ channels)) (Function.update_idem _ _ _)
    exact .next ih trivial hqueues

/-- A session whose first write does not end, with `n` frames behind it. -/
def flooded (node : SendNode) (n : Nat) : SendQueue.Channel :=
  { SendQueue.Channel.initial with
    sendQue := List.replicate (n + 1) node
    writes := [.start node]
    accepted := List.replicate (n + 1) node
    given := [node.wire] }

theorem reaches_flooded {msg : Bytes} {msgid : Int} {node : SendNode}
    (hnode : sendNode msg msgid = some (.ok node)) {n : Nat} (hn : n ≤ MAX_SENDQUE) :
    SendQueue.Reaches (flooded node n) := by
  have hidle : ∀ pos, Function.update (Function.update (fun _ => SendQueue.SendPos.idle) 0 pos) 0 .idle
      = fun _ => .idle := fun pos => by rw [Function.update_idem, Function.update_eq_self]
  induction n with
  | zero =>
    have hpush : SendQueue.step (.push 0) (SendQueue.Channel.initial.setSender 0 (.checked node))
        = some ((SendQueue.Channel.initial.setSender 0 (.checked node)).push 0 node) := by
      simp [SendQueue.step]
    have hwrite : SendQueue.step (.startWrite 0)
        ((SendQueue.Channel.initial.setSender 0 (.checked node)).push 0 node)
          = some (flooded node 0) := by
      simp [SendQueue.step, SendQueue.Channel.push, SendQueue.Channel.initial,
        SendQueue.Channel.setSender, SendQueue.Channel.startWrite, flooded, hidle]
    exact .next (.next (.next (.initial rfl) trivial (SendQueue.send_of_idle rfl rfl hnode)) trivial hpush)
      trivial hwrite
  | succ n ih =>
    have hroom : ((flooded node n).setSender 0 (.checked node)).sendQue.length ≤ MAX_SENDQUE := by
      simpa [flooded, SendQueue.Channel.setSender] using hn
    have hpush : SendQueue.step (.push 0) ((flooded node n).setSender 0 (.checked node))
        = some (flooded node (n + 1)) := by
      simp only [SendQueue.step, SendQueue.Channel.senders_setSender_self]
      rw [SendQueue.push_of_waiting hroom 0 node (List.replicate_succ ..)]
      simp [SendQueue.Channel.setSender, flooded, SendQueue.Channel.initial, hidle,
        List.replicate_succ']
    exact .next (.next (ih (Nat.le_of_succ_le hn)) trivial (SendQueue.send_of_idle rfl rfl hnode)) trivial hpush

/-- The frame of a short response. -/
def shortFrame : SendNode :=
  { curLen := 0, totalLen := 6, msgId := MSG_REGISTER_RSP,
    data := shortBytes MSG_REGISTER_RSP ++ shortBytes 2 ++ ascii "\x7b\x7d" ++ [0] }

theorem sendNode_short : sendNode (ascii "\x7b\x7d") MSG_REGISTER_RSP = some (.ok shortFrame) := by decide

/-! ### The limits -/

/-- **One frame too many, and no more.** In every run the logic queue is within its limit and every send
queue holds at most one frame more than its limit; what is dropped is dropped there. -/
theorem limits_exceeded_by_one (hreach : Reaches ok queues) :
    Within (MAX_SENDQUE + 1) queues ∧ ∀ label queues', step label queues = some queues' →
      Dropped label queues queues' → Full (MAX_SENDQUE + 1) label queues := by
  have hwithin : Within (MAX_SENDQUE + 1) queues := by
    induction hreach with
    | initial h =>
      rw [h]
      exact ⟨Nat.zero_le _, fun _ => Nat.zero_le _⟩
    | @next queues _ _ hprior _ hstep ih =>
      refine ih.step (logicInv_of_reaches hprior) (fun session _ _ => ?_) hstep
      exact (Nat.lt_or_ge MAX_SENDQUE _).symm.imp_left Nat.lt_succ_of_le
  exact ⟨hwithin, fun _ _ => hwithin.full_of_dropped (Nat.le_refl _)⟩

/-- The queue of a session holds 1001 frames, and a call of `Send` is past its check of the stop flag. -/
def overfull : SendQueue.Channel := (flooded shortFrame MAX_SENDQUE).setSender 0 (.checked shortFrame)

/-- The frame of that call is dropped. -/
theorem limits_exceeded_by_one_pushed :
    ∃ queues', step (.channel 0 (.push 0)) (initial.setChannel 0 overfull) = some queues' ∧
      Dropped (.channel 0 (.push 0)) (initial.setChannel 0 overfull) queues' ∧
      Within (MAX_SENDQUE + 1) (initial.setChannel 0 overfull) ∧
      Full (MAX_SENDQUE + 1) (.channel 0 (.push 0)) (initial.setChannel 0 overfull) := by
  have hreach : Reaches (fun _ _ => True) (initial.setChannel 0 overfull) :=
    reaches_channel 0 (.next (reaches_flooded sendNode_short (Nat.le_refl _)) trivial
      (SendQueue.send_of_idle rfl rfl sendNode_short))
  have hfull : MAX_SENDQUE < overfull.sendQue.length := by
    simp [overfull, flooded, SendQueue.Channel.setSender]
  have hpush : SendQueue.step (.push 0) overfull = some (overfull.setSender 0 .idle) := by
    rw [← SendQueue.push_of_full hfull 0 shortFrame]
    simp only [SendQueue.step, overfull, SendQueue.Channel.senders_setSender_self]
  have hstep : step (.channel 0 (.push 0)) (initial.setChannel 0 overfull)
      = some ((initial.setChannel 0 overfull).setChannel 0 (overfull.setSender 0 .idle)) := by
    rw [step, channels_setChannel_self, hpush]
    rfl
  have hdropped : Dropped (.channel 0 (.push 0)) (initial.setChannel 0 overfull)
      ((initial.setChannel 0 overfull).setChannel 0 (overfull.setSender 0 .idle)) := by
    rw [Dropped, channels_setChannel_self, channels_setChannel_self]
    rfl
  obtain ⟨hwithin, hdrops⟩ := limits_exceeded_by_one hreach
  exact ⟨_, hstep, hdropped, hwithin, hdrops _ _ hstep hdropped⟩

theorem within_of_reaches (hreach : Reaches Roomy queues) : Within MAX_SENDQUE queues := by
  induction hreach with
  | initial h =>
    rw [h]
    exact ⟨Nat.zero_le _, fun _ => Nat.zero_le _⟩
  | @next queues _ _ hprior hok hstep ih =>
    refine ih.step (logicInv_of_reaches hprior) (fun session thread heq => .inl ?_) hstep
    subst heq
    exact Nat.lt_of_le_of_ne (ih.sendQue session) hok

theorem roomy_of_within (h : Within MAX_SENDQUE queues') (hstep : step label queues = some queues') :
    Roomy label queues := by
  cases steps_of_step hstep with
  | logic => trivial
  | @channel session label channel hchannel =>
    cases label with
    | push thread =>
      intro hlimit
      cases SendQueue.steps_of_step hchannel with
      | push hchecked =>
        have hbound := h.sendQue session
        rw [channels_setChannel_self, (SendQueue.push_of_room hlimit.le thread _).1, List.length_append,
          hlimit] at hbound
        exact Nat.not_succ_le_self _ hbound
    | _ => trivial

/-- **The queue limits hold**, exactly as long as no section of `Send` finds its queue at the limit. In
every run whose steps meet the condition the queues are within their limits, and a further step keeps
them there, and drops at the limit only, if and only if it meets the condition. -/
theorem limits_hold (hreach : Reaches Roomy queues) :
    Within MAX_SENDQUE queues ∧ ∀ label queues', step label queues = some queues' →
      ((Within MAX_SENDQUE queues' ∧ (Dropped label queues queues' → Full MAX_SENDQUE label queues)) ↔
        Roomy label queues) := by
  have hwithin := within_of_reaches hreach
  refine ⟨hwithin, fun label queues' hstep => ⟨fun h => roomy_of_within h.1 hstep, fun hok => ?_⟩⟩
  exact ⟨within_of_reaches (.next hreach hok hstep),
    hwithin.full_of_dropped (Nat.le_succ _) hstep⟩

/-- A message is posted and taken, and two frames are sent on one session and one on another. -/
def busyRun : List Label :=
  [.logic (.post 0 ⟨0, MSG_HELLO_WORLD, ascii "\x7b\x7d"⟩), .logic .test, .logic .take,
    .channel 0 (.send 0 (ascii "a") MSG_LOGIN_RSP), .channel 0 (.push 0), .channel 0 (.startWrite 0),
    .channel 0 (.send 0 (ascii "b") MSG_CHAT_MSG_PUSH), .channel 0 (.push 0),
    .channel 1 (.send 0 (ascii "c") MSG_CHAT_MSG_PUSH), .channel 1 (.push 0),
    .channel 0 (.transfer 0 5), .channel 0 (.complete 0 true), .channel 0 (.handleWrite 0)]

def testRoomy : Label → Queues → Bool
  | .channel session (.push _), queues => decide ((queues.channels session).sendQue.length ≠ MAX_SENDQUE)
  | _, _ => true

theorem roomy_of_test (htest : testRoomy label queues = true) : Roomy label queues := by
  cases label with
  | logic => trivial
  | channel session label =>
    cases label with
    | push thread => simpa [testRoomy, Roomy] using htest
    | _ => trivial

theorem limits_hold_busy : Within MAX_SENDQUE (Reach.after step busyRun .initial) := by
  have hmeets : Reach.meets step testRoomy busyRun .initial = true := by decide
  exact (limits_hold (.of_meets rfl (fun _ _ _ _ => roomy_of_test) hmeets)).1

/-- 1001 frames are sent to a session while its first write does not end; all of them are queued. -/
theorem limit_exceeded :
    Reaches (fun _ _ => True) (initial.setChannel 0 (flooded shortFrame MAX_SENDQUE)) ∧
      ¬Within MAX_SENDQUE (initial.setChannel 0 (flooded shortFrame MAX_SENDQUE)) := by
  refine ⟨reaches_channel 0 (reaches_flooded sendNode_short (Nat.le_refl _)), fun h => ?_⟩
  have hbound := h.sendQue 0
  rw [channels_setChannel_self, flooded, List.length_replicate] at hbound
  exact Nat.not_succ_le_self _ hbound

end Queues

end CoroutineServer
