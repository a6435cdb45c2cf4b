import CoroutineServer.Proof.RoundTrip
import CoroutineServer.Proof.Traces

/-!
# What one `Send` queues

A text in range becomes one whole frame, which is queued when the session is open and its queue has
room. The frames a handler has queued on a session are read off its trace.
-/

namespace CoroutineServer

open Program

variable {platform : Platform}

/-- A text in range becomes one whole frame. -/
theorem sendNode_of_fits {text : Bytes} {msgid : Int} (hid : IsShort msgid) (hne : text ≠ [])
    (hfits : text.length ≤ MAX_LENGTH) :
    ∃ sent, sendNode text msgid = some (.ok sent) ∧ sent.msgId = msgid ∧
      sent.wire = Wire.encodeFrame (frameOf (msgid, text)) := by
  have hpos : 1 ≤ text.length := List.length_pos_iff.mpr hne
  have hmax : text.length ≤ 2048 := hfits
  have hlen : toShort text.length = text.length :=
    toShort_of_isShort (by unfold IsShort; omega)
  have hbody : BodyInRange (msgid, text) := ⟨hpos, hfits⟩
  have hnew := SendNode.new_eq msgid hfits (Nat.le_refl _)
  refine ⟨_, ?_, ?_, wire_eq_encodeFrame hbody hnew⟩
  · have hrange : ¬((text.length : Int) ≤ 0 ∨ (text.length : Int) > toShort MAX_LENGTH) := by
      have : toShort MAX_LENGTH = 2048 := rfl
      omega
    unfold sendNode
    dsimp only
    rw [hlen, if_neg hrange, toShort_of_isShort hid]
    exact congrArg some hnew
  · rfl

theorem msgId_of_sendNode {text : Bytes} {msgid : Int} {sent : SendNode}
    (hnode : sendNode text msgid = some (.ok sent)) : sent.msgId = toShort msgid := by
  obtain ⟨len, -, -, hmax, hmsg, hresult⟩ := sendNode_eq_some hnode
  rw [SendNode.new_eq _ hmax hmsg] at hresult
  obtain rfl := Except.ok.inj hresult
  rfl

/-- When nothing stands in its way, `Send` queues the whole text. -/
theorem sent_of_fits {session : Sid} {payload : Payload} {msgid : Int} {part : CallTrace}
    (hid : IsShort msgid) (hpart : Sent platform session payload msgid part)
    (hopen : (⟨.loadStop session payload msgid, true⟩ : Call Op Op.Ret) ∉ part)
    (hroom : ∀ sent, (⟨.push session payload sent, false⟩ : Call Op Op.Ret) ∉ part)
    (hfits : ∀ text, platform.dump payload.json = .ok text → text.length ≤ MAX_LENGTH) :
    ∃ text sent, part = [⟨.push session payload sent, true⟩, ⟨.loadStop session payload msgid, false⟩] ∧
      platform.dump payload.json = .ok text ∧ sent.msgId = msgid ∧
      sent.wire = Wire.encodeFrame (frameOf (msgid, text)) := by
  have hnode : ∀ {text}, platform.dump payload.json = .ok text →
      ∃ sent, sendNode text msgid = some (.ok sent) ∧ sent.msgId = msgid ∧
        sent.wire = Wire.encodeFrame (frameOf (msgid, text)) := fun hdump =>
    sendNode_of_fits hid (platform.dump_ne_nil _ _ hdump) (hfits _ hdump)
  cases hpart with
  | stopped => exact absurd List.mem_cons_self hopen
  | refused hdump hrefused =>
    obtain ⟨sent, hsent, -⟩ := hnode hdump
    rw [hrefused] at hsent
    cases hsent
  | @queued text sent accepted hdump hqueued =>
    obtain ⟨other, hother, hmsgId, hwire⟩ := hnode hdump
    obtain rfl := Except.ok.inj (Option.some.inj (hqueued.symm.trans hother))
    cases accepted with
    | false => exact absurd List.mem_cons_self (hroom sent)
    | true => exact ⟨text, sent, rfl, hdump, hmsgId, hwire⟩

/-! ### The send queue -/

theorem sendQue_perform (platform : Platform) (input : Input) {op : Op} (world : World) {session : Sid}
    (hop : ∀ payload sent, op ≠ .push session payload sent) :
    ((perform platform input op world).2.sessions session).sendQue
      = (world.sessions session).sendQue := by
  cases op with
  | setLoginUid other uid =>
    rw [perform, World.sessions_updateSession]
    split_ifs <;> rfl
  | takeLoginUid other =>
    rw [perform, World.sessions_updateSession]
    split_ifs <;> rfl
  | casStop other =>
    rw [perform, World.sessions_updateSession]
    split_ifs <;> rfl
  | push other payload node =>
    have hother : session ≠ other := by
      rintro rfl
      exact hop payload node rfl
    rcases pushFrame_eq world other ⟨node, payload⟩ with h | h
    · rw [perform, h]
    · rw [perform, h, World.sessions_updateSession, if_neg hother]
  | addOnlineUser uid other => rw [perform, (addOnlineUser_frame uid other world).2.1]
  | removeOnlineUser uid => rw [perform, (removeOnlineUser_frame uid world).2.1]
  | getSessionByUid uid => rw [perform, (getSessionByUid_frame uid world).2.1]
  | _ => rfl

theorem pushFrame_of_room {session : Sid} {frame : Queued} {world : World}
    (hroom : (world.sessions session).sendQue.length ≤ MAX_SENDQUE) :
    pushFrame session frame world
      = (true, world.updateSession session fun s => { s with sendQue := s.sendQue ++ [frame] }) := by
  unfold pushFrame
  exact if_neg (Nat.not_lt.mpr hroom)

/-! ### The frames of a handler -/

/-- The frames a handler has queued on a session, oldest first. -/
def framesOn (session : Sid) : CallTrace → List Queued
  | [] => []
  | ⟨.push other payload sent, true⟩ :: earlier =>
      if other = session then framesOn session earlier ++ [⟨sent, payload⟩] else framesOn session earlier
  | _ :: earlier => framesOn session earlier

theorem framesOn_cons {op : Op} {result : op.Ret}
    (hop : ∀ session payload sent, op ≠ .push session payload sent) (session : Sid)
    (trace : CallTrace) : framesOn session (⟨op, result⟩ :: trace) = framesOn session trace := by
  cases op with
  | push session payload sent => exact absurd rfl (hop session payload sent)
  | _ => rfl

theorem framesOn_push (session other : Sid) (payload : Payload) (sent : SendNode) (accepted : Bool)
    (trace : CallTrace) :
    framesOn session (⟨.push other payload sent, accepted⟩ :: trace)
      = if accepted = true ∧ other = session then framesOn session trace ++ [⟨sent, payload⟩]
        else framesOn session trace := by
  cases accepted with
  | true => simp [framesOn]
  | false => rfl

theorem framesOn_sent (session : Sid) (trace : CallTrace) {target : Sid} {payload : Payload}
    {msgid : Int} {part : CallTrace} (hpart : Sent platform target payload msgid part) :
    framesOn session (part ++ trace) = framesOn session trace ∨
      ∃ sent, sent.msgId = toShort msgid ∧
        framesOn session (part ++ trace) = framesOn session trace ++ [⟨sent, payload⟩] := by
  cases hpart with
  | stopped => exact .inl rfl
  | refused => exact .inl rfl
  | @queued text sent accepted hdump hnode =>
    rw [List.cons_append, framesOn_push]
    split_ifs
    · exact .inr ⟨sent, msgId_of_sendNode hnode, rfl⟩
    · exact .inl rfl

theorem framesOn_eq_nil {session : Sid} {trace : CallTrace}
    (h : ∀ session payload sent accepted,
      (⟨.push session payload sent, accepted⟩ : Call Op Op.Ret) ∉ trace) :
    framesOn session trace = [] := by
  induction trace with
  | nil => rfl
  | cons call trace ih =>
    obtain ⟨op, result⟩ := call
    rw [framesOn_cons]
    · exact ih fun session payload sent accepted hmem =>
        h session payload sent accepted (List.mem_cons_of_mem _ hmem)
    · rintro other payload sent rfl
      exact h other payload sent result List.mem_cons_self

end CoroutineServer
