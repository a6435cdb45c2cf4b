import CoroutineServer.Proof.Buffers
import CoroutineServer.Proof.RoundTrip
import CoroutineServer.Proof.SendSteps

/-!
# Send is all or nothing

A frame that `Send` queues holds the id and the length after their narrowing to a short, and as much of
the text as the narrowed length says. So it carries the message exactly when neither is changed by the
narrowing.
-/

namespace CoroutineServer

namespace SendQueue

variable {msg : Bytes} {msgid : Int} {node : SendNode} {thread : Nat} {channel channel' : Channel}
  {label : Label}

/-! ### What a queued frame carries -/

/-- `RecvOneMessage` reads the message off the front of every stream that begins with the frame. -/
def Carries (node : SendNode) (msgid : Int) (msg : Bytes) : Prop :=
  ∀ (socket : List Bytes) (rest : Bytes), socket.flatten = node.wire ++ rest →
    ∃ socket', TestClient.recvOneMessage socket = some ((msgid, msg), socket') ∧
      socket'.flatten = rest

/-- **What the client reads of a queued frame**, whatever its text and its id. -/
theorem carries_of_sendNode (hnode : sendNode msg msgid = some (.ok node)) :
    Carries node (toShort msgid) (msg.take (toShort msg.length).toNat) := by
  obtain ⟨len, hlen, hpos, hmax, hmsg, hresult⟩ := sendNode_eq_some hnode
  have htake : (msg.take len).length = len := List.length_take_of_le hmsg
  have hbody : BodyInRange (toShort msgid, msg.take len) := by
    unfold BodyInRange
    dsimp only
    rw [htake]
    exact ⟨hpos, hmax⟩
  have hwire : node.wire = Wire.encodeFrame (frameOf (toShort msgid, msg.take len)) := by
    have hbound : len ≤ 2048 := hmax
    rw [SendNode.wire_new_eq hmax hmsg hresult.symm, Wire.shortBytes_eq_bytes16,
      Wire.shortBytes_natCast (by omega), List.append_assoc]
    unfold Wire.encodeFrame frameOf
    dsimp only
    rw [htake]
  intro socket rest hsocket
  have hspec := recvOneMessage_spec socket
  have hdecode : Wire.clientCode.decode socket.flatten
      = some (frameOf (toShort msgid, msg.take len), rest) := by
    rw [hsocket, hwire]
    exact Wire.clientCode.decode_encode _ rest (validFrame_of_bodyInRange hbody)
  rw [hdecode] at hspec
  obtain ⟨socket', hrecv, hrest⟩ := hspec
  refine ⟨socket', hrecv.trans ?_, hrest⟩
  unfold frameOf
  dsimp only
  rw [Wire.toShort_toNat_emod (isShort_toShort msgid), hlen, Int.toNat_natCast]

theorem Carries.unique {other : Int} {text : Bytes} (h : Carries node msgid msg)
    (hother : Carries node other text) : msgid = other ∧ msg = text := by
  obtain ⟨_, hfirst, -⟩ := h [node.wire] [] (by simp)
  obtain ⟨_, hsecond, -⟩ := hother [node.wire] [] (by simp)
  obtain ⟨hmessage, -⟩ := Prod.mk.inj (Option.some.inj (hfirst.symm.trans hsecond))
  exact Prod.mk.inj hmessage

theorem sendNode_of_range (hpos : 0 < toShort msg.length) (hmax : toShort msg.length ≤ MAX_LENGTH) :
    ∃ node, sendNode msg msgid = some (.ok node) := by
  have hbound : (MAX_LENGTH : Int) = 2048 := rfl
  have hshort : toShort MAX_LENGTH = 2048 := rfl
  obtain ⟨len, hlen⟩ := Int.eq_ofNat_of_zero_le (Int.le_of_lt hpos)
  have hle := toShort_length_le hpos
  rw [hlen] at hle hmax
  have hnew := SendNode.new_eq (toShort msgid) (Int.ofNat_le.mp hmax) (by simpa using hle)
  have hsend : sendNode msg msgid = some (SendNode.new msg len (toShort msgid)) := by
    unfold sendNode
    dsimp only
    rw [if_neg (by omega), hlen]
  exact ⟨_, hsend.trans (congrArg some hnew)⟩

/-! ### A call of `Send` -/

/-- A step of a call of `Send` on the thread. -/
def Label.IsOf (thread : Nat) : Label → Prop
  | .send other _ _ => other = thread
  | .push other => other = thread
  | .startWrite other => other = thread
  | _ => False

theorem senders_of_elsewhere (hlabel : ¬label.IsOf thread) (hstep : step label channel = some channel') :
    channel'.senders thread = channel.senders thread := by
  cases steps_of_step hstep with
  | send | startWrite => exact Channel.senders_setSender_of_ne _ _ (Ne.symm hlabel)
  | push => exact senders_push_of_ne channel _ (Ne.symm hlabel)
  | written => rw [senders_pop]
  | refused | startNext | transfer | complete | failed | leave | close | closeSocket => rfl

/-- The states that other threads can lead to. -/
abbrev Meanwhile (thread : Nat) (channel : Channel) : Channel → Prop :=
  Reach.Reaches step (fun other => other = channel) fun label _ => ¬label.IsOf thread

theorem senders_of_meanwhile (h : Meanwhile thread channel channel') :
    channel'.senders thread = channel.senders thread := by
  induction h with
  | initial h => rw [h]
  | next _ hlabel hstep ih => exact (senders_of_elsewhere hlabel hstep).trans ih

/-- **A call of `Send` is all or nothing**: none of its steps changes the queue but the push, which adds
a frame that carries the message, or nothing. -/
structure AllOrNothing (thread : Nat) (msg : Bytes) (msgid : Int) (channel : Channel) : Prop where
  called : ∀ after, step (.send thread msg msgid) channel = some after →
    after.sendQue = channel.sendQue
  pushed : ∀ after later final, step (.send thread msg msgid) channel = some after →
    Meanwhile thread after later → step (.push thread) later = some final →
      final.sendQue = later.sendQue ∨
        ∃ node, final.sendQue = later.sendQue ++ [node] ∧ Carries node msgid msg
  started : ∀ later final, step (.startWrite thread) later = some final →
    final.sendQue = later.sendQue

theorem sendQue_send {after : Channel} (hstep : step (.send thread msg msgid) channel = some after) :
    after.sendQue = channel.sendQue ∧ ∀ node, after.senders thread = .checked node →
      channel.senders thread = .idle → sendNode msg msgid = some (.ok node) := by
  cases steps_of_step hstep with
  | refused =>
    refine ⟨rfl, fun node hchecked hidle => ?_⟩
    cases hidle.symm.trans hchecked
  | send _ _ hnode =>
    refine ⟨rfl, fun other hchecked _ => ?_⟩
    rw [Channel.senders_setSender_self] at hchecked
    obtain rfl := SendPos.checked.inj hchecked
    exact hnode

theorem sendQue_startWrite (hstep : step (.startWrite thread) channel = some channel') :
    channel'.sendQue = channel.sendQue := by
  cases steps_of_step hstep with
  | startWrite => rfl

/-- The condition: the length, once narrowed, is refused, or text and id fit the frame. -/
def Expressible (msg : Bytes) (msgid : Int) : Prop :=
  toShort msg.length ≤ 0 ∨ (MAX_LENGTH : Int) < toShort msg.length ∨
    (msg.length ≤ MAX_LENGTH ∧ IsShort msgid)

theorem carries_of_expressible (h : Expressible msg msgid) (hnode : sendNode msg msgid = some (.ok node)) :
    Carries node msgid msg := by
  obtain ⟨len, hlen, hpos, hmax, -, -⟩ := sendNode_eq_some hnode
  have hcarries := carries_of_sendNode hnode
  rcases h with hlow | hhigh | ⟨hfits, hid⟩
  · omega
  · omega
  · have hbound : msg.length ≤ 2048 := hfits
    have hwhole : toShort msg.length = msg.length := toShort_of_isShort (by unfold IsShort; omega)
    rwa [toShort_of_isShort hid, hwhole, Int.toNat_natCast, List.take_length] at hcarries

/-- A session that has just been started queues whatever passes the length check. -/
theorem carries_of_allOrNothing (hnode : sendNode msg msgid = some (.ok node))
    (h : AllOrNothing 0 msg msgid .initial) : Carries node msgid msg := by
  have hcalled : step (.send 0 msg msgid) .initial
      = some (Channel.initial.setSender 0 (.checked node)) := by
    simp [step, Channel.initial, hnode]
  have hpush : step (.push 0) (Channel.initial.setSender 0 (.checked node))
      = some ((Channel.initial.setSender 0 (.checked node)).push 0 node) := by
    rw [step, Channel.senders_setSender_self]
  rcases h.pushed _ _ _ hcalled (.initial rfl) hpush with hqueue | ⟨other, hqueue, hcarries⟩
  · cases hqueue
  · obtain ⟨rfl, -⟩ := List.cons.inj hqueue
    exact hcarries

/-- **Send is all or nothing** for a message exactly when the narrowed length is refused or the message
fits the frame. -/
theorem send_all_or_nothing (msg : Bytes) (msgid : Int) :
    (∀ channel thread, Reaches channel → channel.senders thread = .idle →
      AllOrNothing thread msg msgid channel) ↔ Expressible msg msgid := by
  constructor
  · intro h
    by_contra hnot
    obtain ⟨hpos, hnot⟩ := not_or.mp hnot
    obtain ⟨hmax, hnot⟩ := not_or.mp hnot
    obtain ⟨node, hnode⟩ := sendNode_of_range (Int.not_le.mp hpos) (Int.not_lt.mp hmax)
    have hwhole := carries_of_allOrNothing hnode (h .initial 0 (.initial rfl) rfl)
    obtain ⟨hid, hmsg⟩ := hwhole.unique (carries_of_sendNode hnode)
    have hlength := congrArg List.length hmsg
    rw [List.length_take] at hlength
    have hbound : (MAX_LENGTH : Int) = 2048 := rfl
    refine hnot ⟨?_, hid ▸ isShort_toShort msgid⟩
    change msg.length ≤ 2048
    omega
  · intro hexpressible channel thread _ hidle
    refine ⟨fun after hcalled => (sendQue_send hcalled).1, ?_, fun _ _ => sendQue_startWrite⟩
    intro after later final hcalled hmeanwhile hpush
    cases steps_of_step hpush with
    | @push _ node hchecked =>
      rw [senders_of_meanwhile hmeanwhile] at hchecked
      have hnode := (sendQue_send hcalled).2 node hchecked hidle
      exact (sendQue_push later thread node).imp_right fun hpushed =>
        ⟨node, hpushed, carries_of_expressible hexpressible hnode⟩

/-- The echo request may name any id: 70000 reaches the client as 4464. -/
theorem echo_id_wrapped :
    ¬∀ msg msgid channel thread, Reaches channel → channel.senders thread = .idle →
      AllOrNothing thread msg msgid channel := by
  intro h
  have hrange : 0 < toShort (ascii "\x7b\x7d").length ∧ toShort (ascii "\x7b\x7d").length ≤ MAX_LENGTH := by
    decide
  obtain ⟨node, hnode⟩ := sendNode_of_range hrange.1 hrange.2
  have hwhole := carries_of_allOrNothing hnode (h _ 70000 .initial 0 (.initial rfl) rfl)
  exact absurd (hwhole.unique (carries_of_sendNode hnode)).1 (by decide)

end SendQueue

end CoroutineServer
