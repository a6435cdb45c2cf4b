import CoroutineServer.Proof.Runs

/-!
# Reading the traces

Facts about the traces of the handlers that the arguments about runs use: what is in a trace when a
handler sends or ends, and that it is not in the middle of a login or a `Close` then.
-/

namespace CoroutineServer

open Program

variable {platform : Platform} {node : LogicNode} {trace : CallTrace}

theorem mem_sent {session : Sid} {payload : Payload} {msgid : Int} {part : CallTrace}
    {call : Call Op Op.Ret} (hpart : Sent platform session payload msgid part) (hcall : call ∈ part) :
    (∃ stopped, call = ⟨.loadStop session payload msgid, stopped⟩) ∨
      ∃ sent accepted, call = ⟨.push session payload sent, accepted⟩ := by
  cases hpart with
  | stopped =>
    obtain rfl := List.mem_singleton.mp hcall
    exact .inl ⟨true, rfl⟩
  | refused hdump hnode =>
    obtain rfl := List.mem_singleton.mp hcall
    exact .inl ⟨false, rfl⟩
  | @queued msg sent accepted hdump hnode =>
    rcases List.mem_cons.mp hcall with rfl | hcall
    · exact .inr ⟨sent, accepted, rfl⟩
    · obtain rfl := List.mem_singleton.mp hcall
      exact .inl ⟨false, rfl⟩

theorem not_mem_sent {session : Sid} {payload : Payload} {msgid : Int} {part : CallTrace} {op : Op}
    {result : op.Ret} (hpart : Sent platform session payload msgid part)
    (hload : ∀ session payload msgid, op ≠ .loadStop session payload msgid)
    (hpush : ∀ session payload sent, op ≠ .push session payload sent) :
    (⟨op, result⟩ : Call Op Op.Ret) ∉ part := by
  intro hcall
  rcases mem_sent hpart hcall with ⟨stopped, heq⟩ | ⟨sent, accepted, heq⟩
  · exact hload _ _ _ (Sigma.mk.inj heq).1
  · exact hpush _ _ _ (Sigma.mk.inj heq).1

/-! ### Logins -/

/-- The login a trace starts with, for whom it succeeded. -/
def LoginIn (trace : CallTrace) (uid : Int) : Prop :=
  ∃ username password, (⟨.loginUser username password, (true, uid)⟩ : Call Op Op.Ret) ∈ trace

theorem loginIn_cons {op : Op} {result : op.Ret} {uid : Int}
    (hop : ∀ username password, op ≠ .loginUser username password) :
    LoginIn (⟨op, result⟩ :: trace) uid ↔ LoginIn trace uid := by
  constructor
  · rintro ⟨username, password, hmem⟩
    rcases List.mem_cons.mp hmem with heq | hmem
    · exact absurd (Sigma.mk.inj heq).1.symm (hop username password)
    · exact ⟨username, password, hmem⟩
  · rintro ⟨username, password, hmem⟩
    exact ⟨username, password, List.mem_cons_of_mem _ hmem⟩

theorem loginIn_of_looked {uid : Int} {found : Option Sid} (h : Looked uid found trace) :
    LoginIn trace uid := by
  obtain ⟨username, password, rfl⟩ := h
  exact ⟨username, password, by simp⟩

theorem loginIn_of_kicked {uid : Int} (h : Kicked uid trace) : LoginIn trace uid := by
  cases h with
  | nobody hlooked => exact loginIn_of_looked hlooked
  | closed hpart hlooked =>
    obtain ⟨username, password, hmem⟩ := loginIn_of_looked hlooked
    exact ⟨username, password, List.mem_append_right _ hmem⟩

/-- A login that has dealt with the old session has looked it up, and exchanged its stop flag. -/
theorem found_of_kicked {uid : Int} (h : Kicked uid trace) :
    ∃ found, (⟨.getSessionByUid uid, found⟩ : Call Op Op.Ret) ∈ trace ∧
      ∀ old, found = some old →
        ∃ exchanged, (⟨.casStop old, exchanged⟩ : Call Op Op.Ret) ∈ trace := by
  cases h with
  | nobody hlooked =>
    obtain ⟨username, password, rfl⟩ := hlooked
    exact ⟨none, List.mem_cons_self, fun old h => by cases h⟩
  | @closed old part looked hpart hlooked =>
    obtain ⟨username, password, rfl⟩ := hlooked
    refine ⟨some old, by simp, fun other h => ?_⟩
    obtain rfl := Option.some.inj h
    cases hpart with
    | already => exact ⟨false, by simp⟩
    | loggedOut => exact ⟨true, by simp⟩
    | removed huid => exact ⟨true, by simp⟩

/-- The operations of a login up to there. -/
def DealsWithOld : Op → Prop
  | .loginUser _ _ => True
  | .getSessionByUid _ => True
  | .casStop _ => True
  | .takeLoginUid _ => True
  | .removeOnlineUser _ => True
  | _ => False

theorem dealsWithOld_of_kicked {uid : Int} (h : Kicked uid trace) {call : Call Op Op.Ret}
    (hcall : call ∈ trace) : DealsWithOld call.1 := by
  have hall : ∀ call ∈ trace, DealsWithOld call.1 := by
    cases h with
    | nobody hlooked =>
      obtain ⟨username, password, rfl⟩ := hlooked
      simp [DealsWithOld]
    | closed hpart hlooked =>
      obtain ⟨username, password, rfl⟩ := hlooked
      cases hpart <;> simp [DealsWithOld]
  exact hall call hcall

theorem registered_of_sends {session : Sid} {payload : Payload} {msgid uid : Int}
    (hsends : Sends platform node trace session payload msgid) (hlogin : LoginIn trace uid) :
    ∃ user, (⟨.setLoginUid node.session user, ()⟩ : Call Op Op.Ret) ∈ trace ∧
      (⟨.addOnlineUser user node.session, ()⟩ : Call Op Op.Ret) ∈ trace := by
  obtain ⟨username, password, hmem⟩ := hlogin
  cases hsends with
  | refusal hrsp huntouched =>
    rcases huntouched with rfl | ⟨user, rfl⟩ <;> simp at hmem
  | @loginBatch user rows before => exact ⟨user, by simp [loginTrace], by simp [loginTrace]⟩
  | @loginNoBatch user before => exact ⟨user, by simp [loginTrace], by simp [loginTrace]⟩
  | @loginAfterBatch user rows before part =>
    exact ⟨user, by simp [loginTrace], by simp [loginTrace]⟩
  | friendAfterPush hreq huid hpart =>
    rcases List.mem_append.mp hmem with hmem | hmem
    · exact absurd hmem (not_mem_sent hpart (by simp) (by simp))
    · simp [friendTrace] at hmem
  | chatAfterPush hreq huid hsaved hpart =>
    rcases List.mem_append.mp hmem with hmem | hmem
    · exact absurd hmem (not_mem_sent hpart (by simp) (by simp))
    · simp [chatTrace] at hmem
  | _ => simp [friendTrace, chatTrace] at hmem

theorem registered_of_finished {uid : Int} (hfinished : Finished platform node trace)
    (hlogin : LoginIn trace uid) :
    ∃ user, (⟨.setLoginUid node.session user, ()⟩ : Call Op Op.Ret) ∈ trace ∧
      (⟨.addOnlineUser user node.session, ()⟩ : Call Op Op.Ret) ∈ trace := by
  obtain ⟨username, password, hmem⟩ := hlogin
  rcases hfinished with ⟨rfl, -⟩ | ⟨part, before, session, payload, msgid, rfl, hpart, hsends, -⟩
  · cases hmem
  · rcases List.mem_append.mp hmem with hmem | hmem
    · exact absurd hmem (not_mem_sent hpart (by simp) (by simp))
    · obtain ⟨user, hset, hadd⟩ := registered_of_sends hsends ⟨username, password, hmem⟩
      exact ⟨user, List.mem_append_right _ hset, List.mem_append_right _ hadd⟩

/-! ### In the middle of a login or a `Close` -/

/-- The worker stands between two calls that belong together: behind the exchange of a stop flag, behind
a login uid it has taken, or behind one it has set. -/
def Midway : CallTrace → Prop
  | ⟨.casStop _, exchanged⟩ :: _ => exchanged = true
  | ⟨.takeLoginUid _, uid⟩ :: _ => uid ≠ 0
  | ⟨.setLoginUid _ _, _⟩ :: _ => True
  | _ => False

theorem midway_of_head_setLoginUid {session : Sid} {uid : Int}
    (h : trace.head? = some ⟨.setLoginUid session uid, ()⟩) : Midway trace := by
  obtain ⟨rest, rfl⟩ := List.head?_eq_some_iff.mp h
  trivial

theorem not_midway_sent_append {session : Sid} {payload : Payload} {msgid : Int} {part : CallTrace}
    (hpart : Sent platform session payload msgid part) : ¬Midway (part ++ trace) := by
  cases hpart <;> exact id

theorem not_midway_of_looked {uid : Int} {found : Option Sid} (h : Looked uid found trace) :
    ¬Midway trace := by
  obtain ⟨username, password, rfl⟩ := h
  exact id

theorem not_midway_of_kicked {uid : Int} (h : Kicked uid trace) : ¬Midway trace := by
  cases h with
  | nobody hlooked => exact not_midway_of_looked hlooked
  | closed hpart hlooked =>
    cases hpart with
    | already => exact Bool.false_ne_true
    | loggedOut => exact fun h => h rfl
    | removed huid => exact id

theorem not_midway_of_sends {session : Sid} {payload : Payload} {msgid : Int}
    (hsends : Sends platform node trace session payload msgid) : ¬Midway trace := by
  cases hsends with
  | refusal hrsp huntouched =>
    rcases huntouched with rfl | ⟨user, rfl⟩ <;> exact id
  | loginAfterBatch hreq huid hkicked hrows hpart => exact not_midway_sent_append hpart
  | friendAfterPush hreq huid hpart => exact not_midway_sent_append hpart
  | chatAfterPush hreq huid hsaved hpart => exact not_midway_sent_append hpart
  | _ => exact id

theorem not_midway_of_finished (hfinished : Finished platform node trace) : ¬Midway trace := by
  rcases hfinished with ⟨rfl, -⟩ | ⟨part, before, session, payload, msgid, rfl, hpart, -, -⟩
  · exact id
  · exact not_midway_sent_append hpart

theorem Grounded.not_midway_of_idle {state : State} (h : Grounded platform state)
    (hidle : state.worker = none) : ¬Midway state.world.trace := by
  cases hserved : served state.world.history with
  | none =>
    rw [h.unserved hserved]
    exact id
  | some node => exact not_midway_of_finished (h.finished hidle node hserved)

/-- Only the three operations that complete what has begun are called midway. -/
theorem not_midway_of_warrants {op : Op} (hwarrant : Warrants platform node trace op)
    (htake : ∀ session, op ≠ .takeLoginUid session) (hremove : ∀ uid, op ≠ .removeOnlineUser uid)
    (hadd : ∀ uid session, op ≠ .addOnlineUser uid session) : ¬Midway trace := by
  cases op with
  | getLoginUid session =>
    obtain ⟨-, rfl⟩ := hwarrant
    exact id
  | setLoginUid session uid => exact not_midway_of_kicked hwarrant.2.2
  | takeLoginUid session => exact absurd rfl (htake session)
  | casStop session =>
    obtain ⟨uid, hlooked⟩ := hwarrant
    exact not_midway_of_looked hlooked
  | loadStop session payload msgid => exact not_midway_of_sends hwarrant
  | push session payload sent =>
    obtain ⟨msgid, msg, before, rfl, -⟩ := hwarrant
    exact id
  | addOnlineUser uid session => exact absurd rfl (hadd uid session)
  | removeOnlineUser uid => exact absurd rfl (hremove uid)
  | getSessionByUid uid =>
    rcases hwarrant with ⟨username, password, rfl⟩ | ⟨owner, rfl⟩ | ⟨_, _, _, _, -, rfl⟩ <;> exact id
  | registerUser username password =>
    obtain ⟨-, rfl⟩ := hwarrant
    exact id
  | loginUser username password =>
    obtain ⟨-, rfl, -⟩ := hwarrant
    exact id
  | addFriend uid friendUid =>
    obtain ⟨-, rfl⟩ := hwarrant
    exact id
  | getFriendList uid =>
    obtain ⟨-, rfl⟩ := hwarrant
    exact id
  | saveMessage fromUid toUid content timestamp =>
    obtain ⟨-, -, tm, -, rfl⟩ := hwarrant
    exact id
  | getOfflineMessages uid =>
    rcases hwarrant with ⟨-, -, rfl⟩ | ⟨-, -, kicked, -, rfl⟩ <;> exact id
  | now =>
    obtain ⟨uid, -, rfl⟩ := hwarrant
    exact id

end CoroutineServer
