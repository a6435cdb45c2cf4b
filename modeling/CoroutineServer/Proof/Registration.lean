import CoroutineServer.Proof.Traces
import CoroutineServer.Scenario

/-!
# One session for each user

`Close` takes the login uid in one step and removes the entry of that uid in a later one. When a login
has registered another session under the uid in between, the entry that is removed is that session's.
In the runs where this does not happen, every open session that is logged in is the one the online map
names for its user.
-/

namespace CoroutineServer

open Program CSession

variable {platform : Platform}

/-- The session is open and logged in as the user. -/
def LoggedIn (world : World) (session : Sid) (uid : Int) : Prop :=
  world.stopped session = false ∧ world.uidOf session = uid ∧ uid ≠ 0

/-- The condition: the entry that `Close` removes on an IO thread is not that of a session logged in as
the uid. -/
def RemovesOwn : Op → State → Prop
  | .removeOnlineUser uid, state =>
      ∀ session, state.world.onlineUsers uid = some session → ¬LoggedIn state.world session uid
  | _, _ => True

/-- The invariant: the sessions that are logged in are registered, but for the one whose login has just
set its uid, and what a login has found and closed leaves no other session of its user. -/
structure Exclusive (world : World) : Prop where
  nonneg : ∀ session, 0 ≤ world.uidOf session
  registered : ∀ session uid, LoggedIn world session uid → world.onlineUsers uid = some session ∨
    world.trace.head? = some ⟨.setLoginUid session uid, ()⟩
  found : ∀ uid result, (⟨.getSessionByUid uid, result⟩ : Call Op Op.Ret) ∈ world.trace →
    (∀ session user, (⟨.setLoginUid session user, ()⟩ : Call Op Op.Ret) ∉ world.trace) →
    ∀ session, LoggedIn world session uid → result = some session
  kicked : ∀ session exchanged, (⟨.casStop session, exchanged⟩ : Call Op Op.Ret) ∈ world.trace →
    world.stopped session = true
  setting : ∀ session uid, world.trace.head? = some ⟨.setLoginUid session uid, ()⟩ →
    ∀ other, LoggedIn world other uid → other = session
  kicking : ∀ old, world.trace.head? = some ⟨.casStop old, true⟩ →
    ∀ session, ¬LoggedIn world session (world.uidOf old)
  taking : ∀ old uid, world.trace.head? = some ⟨.takeLoginUid old, uid⟩ →
    ∀ session, ¬LoggedIn world session uid

theorem LoggedIn.of_perform {input : Input} {op : Op} {world : World} {session : Sid} {uid : Int}
    (hset : ∀ user, op ≠ .setLoginUid session user)
    (h : LoggedIn (perform platform input op world).2 session uid) : LoggedIn world session uid := by
  obtain ⟨hopen, huid, hne⟩ := h
  refine ⟨?_, ?_, hne⟩
  · by_contra hstop
    rw [stopped_perform_mono platform input op world (by simpa using hstop)] at hopen
    cases hopen
  · by_cases htake : op = .takeLoginUid session
    · rw [htake, uidOf_takeLoginUid] at huid
      exact absurd huid.symm hne
    · rwa [uidOf_perform platform input op world session hset htake] at huid

namespace Exclusive

variable {world world' : World}

/-- The invariant survives a change that leaves the history alone, stops sessions, resets login uids and
removes no entry of a session that is logged in. -/
theorem of_reset (h : Exclusive world) (hhistory : world'.history = world.history)
    (hlogged : ∀ session uid, LoggedIn world' session uid → LoggedIn world session uid)
    (hstopped : ∀ session, world.stopped session = true → world'.stopped session = true)
    (huid : ∀ session, world'.uidOf session = world.uidOf session ∨ world'.uidOf session = 0)
    (honline : ∀ session uid, LoggedIn world' session uid → world.onlineUsers uid = some session →
      world'.onlineUsers uid = some session) :
    Exclusive world' := by
  have htrace : world'.trace = world.trace := by
    unfold World.trace
    rw [hhistory]
  refine ⟨fun session => ?_, fun session uid hin => ?_, ?_, ?_, ?_, ?_, ?_⟩
  · rcases huid session with hsame | hzero
    · rw [hsame]
      exact h.nonneg session
    · exact Int.le_of_eq hzero.symm
  · rw [htrace]
    exact (h.registered session uid (hlogged session uid hin)).imp_left (honline session uid hin)
  · rw [htrace]
    exact fun uid result hmem hset session hin =>
      h.found uid result hmem hset session (hlogged session uid hin)
  · rw [htrace]
    exact fun session exchanged hmem => hstopped session (h.kicked session exchanged hmem)
  · rw [htrace]
    exact fun session uid hhead other hin => h.setting session uid hhead other (hlogged other uid hin)
  · rw [htrace]
    intro old hhead session hin
    rcases huid old with hsame | hzero
    · rw [hsame] at hin
      exact h.kicking old hhead session (hlogged session _ hin)
    · exact hin.2.2 hzero
  · rw [htrace]
    exact fun old uid hhead session hin => h.taking old uid hhead session (hlogged session uid hin)

theorem dispatched {node : LogicNode} (h : Exclusive world) (hmidway : ¬Midway world.trace) :
    Exclusive (world.record (.dispatched node)) := by
  refine ⟨h.nonneg, fun session uid hin => .inl ?_, fun uid result hmem => ?_, ?_, ?_, ?_, ?_⟩
  · rcases h.registered session uid hin with honline | hhead
    · exact honline
    · exact absurd (midway_of_head_setLoginUid hhead) hmidway
  · cases hmem
  · intro session exchanged hmem
    cases hmem
  · intro session uid hhead
    cases hhead
  · intro old hhead
    cases hhead
  · intro old uid hhead
    cases hhead

/-- An operation other than `SetLoginUid`, when the sessions that stay logged in are registered
after it. -/
theorem did {op : Op} {result : op.Ret} (h : Exclusive world)
    (hhistory : world'.history = world.history)
    (hset : ∀ session uid, op ≠ .setLoginUid session uid)
    (hnonneg : ∀ session, 0 ≤ world'.uidOf session)
    (hlogged : ∀ session uid, LoggedIn world' session uid → LoggedIn world session uid)
    (hstopped : ∀ session, world.stopped session = true → world'.stopped session = true)
    (honline : ∀ session uid, LoggedIn world' session uid → world'.onlineUsers uid = some session)
    (hfound : ∀ uid found, (⟨op, result⟩ : Call Op Op.Ret) = ⟨.getSessionByUid uid, found⟩ →
      ∀ session, LoggedIn world session uid → found = some session)
    (hcas : ∀ old, op = .casStop old → world'.stopped old = true)
    (hkicking : ∀ old, (⟨op, result⟩ : Call Op Op.Ret) = ⟨.casStop old, true⟩ →
      ∀ session, ¬LoggedIn world' session (world'.uidOf old))
    (htaking : ∀ old uid, (⟨op, result⟩ : Call Op Op.Ret) = ⟨.takeLoginUid old, uid⟩ →
      ∀ session, ¬LoggedIn world session uid) :
    Exclusive (world'.record (.did ⟨op, result⟩)) := by
  have htrace : world'.trace = world.trace := by
    unfold World.trace
    rw [hhistory]
  refine ⟨hnonneg, fun session uid hin => .inl (honline session uid hin), ?_, ?_, ?_, ?_, ?_⟩
  · intro uid found hmem hnoSet session hin
    rw [World.trace_did, htrace] at hmem hnoSet
    rcases List.mem_cons.mp hmem with heq | hmem
    · exact hfound uid found heq.symm session (hlogged session uid hin)
    · exact h.found uid found hmem (fun other user hmem => hnoSet other user
        (List.mem_cons_of_mem _ hmem)) session (hlogged session uid hin)
  · intro session exchanged hmem
    rw [World.trace_did, htrace] at hmem
    rcases List.mem_cons.mp hmem with heq | hmem
    · exact hcas session (Sigma.mk.inj heq).1.symm
    · exact hstopped session (h.kicked session exchanged hmem)
  · intro session uid hhead
    exact absurd (Sigma.mk.inj (Option.some.inj hhead)).1 (hset session uid)
  · intro old hhead
    exact hkicking old (Option.some.inj hhead)
  · intro old uid hhead session hin
    exact htaking old uid (Option.some.inj hhead) session (hlogged session uid hin)

theorem setLoginUid {node : LogicNode} {session : Sid} {uid : Int} (h : Exclusive world)
    (hwarrant : Warrants platform node world.trace (.setLoginUid session uid))
    (hnonneg : ∀ other, 0 ≤ world'.uidOf other) (hhistory : world'.history = world.history)
    (honline : world'.onlineUsers = world.onlineUsers)
    (hstopped : ∀ other, world'.stopped other = world.stopped other)
    (huid : world'.uidOf session = uid)
    (hother : ∀ other, other ≠ session → world'.uidOf other = world.uidOf other) :
    Exclusive (world'.record (.did ⟨.setLoginUid session uid, ()⟩)) := by
  have htrace : world'.trace = world.trace := by
    unfold World.trace
    rw [hhistory]
  have hlogged : ∀ other user, other ≠ session → LoggedIn world' other user →
      LoggedIn world other user := by
    rintro other user hne ⟨hopen, hin, huser⟩
    rw [hstopped] at hopen
    rw [hother other hne] at hin
    exact ⟨hopen, hin, huser⟩
  obtain ⟨-, -, hkicked⟩ := hwarrant
  -- nobody else is logged in as the user: the lookup would have found the session, to be closed
  have hnobody : ∀ other, ¬LoggedIn world other uid := by
    intro other hin
    have hnoSet : ∀ third user, (⟨.setLoginUid third user, ()⟩ : Call Op Op.Ret) ∉ world.trace :=
      fun third user hmem => dealsWithOld_of_kicked hkicked hmem
    obtain ⟨found, hfound, hclosed⟩ := found_of_kicked hkicked
    obtain ⟨exchanged, hcas⟩ := hclosed other (h.found uid found hfound hnoSet other hin)
    exact Bool.false_ne_true (hin.1.symm.trans (h.kicked other exchanged hcas))
  refine ⟨hnonneg, fun other user hin => ?_, fun user found hmem hnoSet => ?_, ?_, ?_, ?_, ?_⟩
  · by_cases hsame : other = session
    · rw [hsame] at hin ⊢
      obtain rfl := hin.2.1.symm.trans huid
      exact .inr rfl
    · rw [World.onlineUsers_record, honline]
      apply (h.registered other user (hlogged other user hsame hin)).imp_right
      intro hhead
      exact absurd (midway_of_head_setLoginUid hhead) (not_midway_of_kicked hkicked)
  · exact absurd List.mem_cons_self (hnoSet session uid)
  · intro other exchanged hmem
    rw [World.trace_did, htrace] at hmem
    rcases List.mem_cons.mp hmem with heq | hmem
    · cases (Sigma.mk.inj heq).1
    · rw [World.stopped_record, hstopped]
      exact h.kicked other exchanged hmem
  · intro other user hhead third hin
    obtain ⟨rfl, rfl⟩ := Op.setLoginUid.inj (Sigma.mk.inj (Option.some.inj hhead)).1
    by_contra hne
    exact hnobody third (hlogged third uid hne hin)
  · intro old hhead
    cases (Sigma.mk.inj (Option.some.inj hhead)).1
  · intro old user hhead
    cases (Sigma.mk.inj (Option.some.inj hhead)).1

end Exclusive

theorem nonneg_perform {input : Input} {op : Op} {world : World}
    (h : ∀ session, 0 ≤ world.uidOf session) (hset : ∀ session uid, op ≠ .setLoginUid session uid)
    (session : Sid) : 0 ≤ (perform platform input op world).2.uidOf session := by
  by_cases htake : op = .takeLoginUid session
  · rw [htake]
    exact Int.le_of_eq (uidOf_takeLoginUid platform input world session).symm
  · rw [uidOf_perform platform input op world session (hset session) htake]
    exact h session

section Worker

variable {state : State} {node : LogicNode} {input : Input}

theorem exclusive_setLoginUid {session : Sid} {uid : Int} (h : Exclusive state.world)
    (hwarrant : Warrants platform node state.world.trace (.setLoginUid session uid)) :
    Exclusive ((perform platform input (.setLoginUid session uid) state.world).2.record
      (.did ⟨.setLoginUid session uid, ()⟩)) := by
  have hother : ∀ other, other ≠ session →
      (perform platform input (.setLoginUid session uid) state.world).2.uidOf other
        = state.world.uidOf other := by
    intro other hne
    refine uidOf_perform platform input _ state.world other (fun user heq => ?_) (by simp)
    exact hne (Op.setLoginUid.inj heq).1.symm
  refine h.setLoginUid hwarrant (fun other => ?_) (perform_history ..) rfl (fun other => ?_)
    (uidOf_setLoginUid platform input state.world session uid) hother
  · by_cases hsame : other = session
    · rw [hsame, uidOf_setLoginUid]
      exact Int.le_of_lt hwarrant.2.1
    · rw [hother other hsame]
      exact h.nonneg other
  · exact stopped_perform platform input _ state.world other (by simp)

/-- The worker's operations keep the sessions that are logged in registered, and the lookups find
them. -/
theorem registered_perform {op : Op} (hground : Grounded platform state) (h : Exclusive state.world)
    (hwarrant : Warrants platform node state.world.trace op)
    (hset : ∀ session uid, op ≠ .setLoginUid session uid) {session : Sid} {uid : Int}
    (hin : LoggedIn (perform platform input op state.world).2 session uid) :
    (perform platform input op state.world).2.onlineUsers uid = some session ∧
      ∀ found, (⟨op, (perform platform input op state.world).1⟩ : Call Op Op.Ret)
        = ⟨.getSessionByUid uid, found⟩ → found = some session := by
  have hold : LoggedIn state.world session uid := hin.of_perform (hset session)
  have huid : 0 < uid := by
    have hnonneg := h.nonneg session
    have hne := hold.2.2
    rw [hold.2.1] at hnonneg
    omega
  have hregistered : (∀ session uid, state.world.trace.head? ≠ some ⟨.setLoginUid session uid, ()⟩) →
      state.world.onlineUsers uid = some session :=
    fun hhead => (h.registered session uid hold).resolve_right (hhead session uid)
  have hmidway : ¬Midway state.world.trace → state.world.onlineUsers uid = some session := by
    refine fun hmidway => hregistered fun session uid hhead => ?_
    exact hmidway (midway_of_head_setLoginUid hhead)
  cases op with
  | addOnlineUser user other =>
    refine ⟨?_, fun found heq => by cases (Sigma.mk.inj heq).1⟩
    obtain ⟨rfl, huser, kicked, -, htrace⟩ := hwarrant
    rw [perform, onlineUsers_addOnlineUser huser, Function.update_apply]
    split_ifs with heq
    · rw [← h.setting node.session user (by rw [htrace]; rfl) session (heq ▸ hold)]
    · rcases h.registered session uid hold with honline | hhead
      · exact honline
      · rw [htrace] at hhead
        exact absurd (Op.setLoginUid.inj (Sigma.mk.inj (Option.some.inj hhead)).1).2.symm heq
  | removeOnlineUser user =>
    refine ⟨?_, fun found heq => by cases (Sigma.mk.inj heq).1⟩
    obtain ⟨-, old, who, looked, -, htrace⟩ := hwarrant
    have honline : state.world.onlineUsers uid = some session :=
      hregistered fun other third => by simp [htrace]
    rw [perform]
    by_cases huser : 0 < user
    · rw [onlineUsers_removeOnlineUser huser, Function.update_apply, if_neg]
      · exact honline
      · rintro rfl
        exact h.taking old uid (by rw [htrace]; rfl) session hold
    · unfold UserManager.removeOnlineUser
      rwa [if_pos (by omega)]
  | takeLoginUid other =>
    refine ⟨?_, fun found heq => by cases (Sigma.mk.inj heq).1⟩
    obtain ⟨who, looked, -, htrace⟩ := hwarrant
    exact hregistered fun other third => by simp [htrace]
  | getSessionByUid user =>
    have honline := hmidway (not_midway_of_warrants hwarrant (by simp) (by simp) (by simp))
    rw [perform]
    by_cases huser : user = uid
    · subst huser
      rcases getSessionByUid_cases huid state.world with ⟨other, hentry, -, heq⟩ | ⟨_, _, _, hexpired⟩
      · obtain rfl := Option.some.inj (honline.symm.trans hentry)
        rw [heq]
        refine ⟨honline, fun found hcall => ?_⟩
        exact (eq_of_heq (Sigma.mk.inj hcall).2).symm
      · -- an expired session is not open
        have hstop := hground.expired session (hexpired session honline)
        exact absurd (hold.1.symm.trans hstop) Bool.false_ne_true
    · refine ⟨?_, fun found heq => absurd (Op.getSessionByUid.inj (Sigma.mk.inj heq).1) huser⟩
      by_cases hpos : 0 < user
      · rcases getSessionByUid_cases hpos state.world with ⟨other, -, -, heq⟩ | ⟨_, heq, hmap, -⟩
        · rw [heq]
          exact honline
        · rw [heq, hmap, Function.update_apply, if_neg (Ne.symm huser)]
          exact honline
      · unfold UserManager.getSessionByUid
        rwa [if_pos (by omega)]
  | setLoginUid other user => exact absurd rfl (hset other user)
  | _ =>
    refine ⟨?_, fun found heq => by cases (Sigma.mk.inj heq).1⟩
    rw [onlineUsers_perform]
    · exact hmidway (not_midway_of_warrants hwarrant (by simp) (by simp) (by simp))
    all_goals intros; simp

/-- When the worker stops an open session, nobody else is logged in as its user. -/
theorem kicking_perform {old : Sid} (h : Exclusive state.world)
    (hwarrant : Warrants platform node state.world.trace (.casStop old))
    (hexchanged : (perform platform input (.casStop old) state.world).1 = true) (session : Sid) :
    ¬LoggedIn (perform platform input (.casStop old) state.world).2 session
      ((perform platform input (.casStop old) state.world).2.uidOf old) := by
  intro hin
  have hmidway : ¬Midway state.world.trace :=
    not_midway_of_warrants hwarrant (by simp) (by simp) (by simp)
  have hregistered : ∀ other uid, LoggedIn state.world other uid →
      state.world.onlineUsers uid = some other := fun other uid hother =>
    (h.registered other uid hother).resolve_right fun hhead =>
      hmidway (midway_of_head_setLoginUid hhead)
  have hsession := hin.of_perform (by simp)
  rw [uidOf_perform platform input _ state.world old (by simp) (by simp)] at hsession
  have hopen : state.world.stopped old = false := by
    rw [perform, Bool.not_eq_true'] at hexchanged
    exact hexchanged
  have hold : LoggedIn state.world old (state.world.uidOf old) := ⟨hopen, rfl, hsession.2.2⟩
  obtain rfl := Option.some.inj
    ((hregistered session _ hsession).symm.trans (hregistered old _ hold))
  exact Bool.false_ne_true (hin.1.symm.trans (stopped_casStop platform input state.world session))

/-- **The worker's operations keep the invariant.** -/
theorem exclusive_perform {op : Op} (hground : Grounded platform state) (h : Exclusive state.world)
    (hwarrant : Warrants platform node state.world.trace op) :
    Exclusive ((perform platform input op state.world).2.record
      (.did ⟨op, (perform platform input op state.world).1⟩)) := by
  by_cases hset : ∃ session uid, op = .setLoginUid session uid
  · obtain ⟨session, uid, rfl⟩ := hset
    exact exclusive_setLoginUid h hwarrant
  have hset : ∀ session uid, op ≠ .setLoginUid session uid :=
    fun session uid heq => hset ⟨session, uid, heq⟩
  refine h.did (perform_history ..) hset (nonneg_perform h.nonneg hset)
    (fun session uid hin => hin.of_perform (hset session)) (fun session hstop => ?_)
    (fun session uid hin => (registered_perform hground h hwarrant hset hin).1) ?_ ?_ ?_ ?_
  · exact stopped_perform_mono platform input op state.world hstop
  · rintro uid found heq session hin
    obtain rfl := (Sigma.mk.inj heq).1
    have hin' : LoggedIn (perform platform input (.getSessionByUid uid) state.world).2 session uid := by
      refine ⟨?_, ?_, hin.2.2⟩
      · rw [stopped_perform platform input _ state.world session (by simp)]
        exact hin.1
      · rw [uidOf_perform platform input _ state.world session (by simp) (by simp)]
        exact hin.2.1
    exact (registered_perform hground h hwarrant hset hin').2 found heq
  · rintro old rfl
    exact stopped_casStop platform input state.world old
  · intro old heq session
    obtain ⟨rfl, hresult⟩ := Sigma.mk.inj heq
    exact kicking_perform h hwarrant (eq_of_heq hresult) session
  · intro old uid heq session
    obtain ⟨rfl, hresult⟩ := Sigma.mk.inj heq
    obtain rfl := eq_of_heq hresult
    obtain ⟨who, looked, -, htrace⟩ := hwarrant
    exact h.kicking old (by rw [htrace]; rfl) session

end Worker

/-- The steps of `Close` on IO threads keep the invariant, when they meet the condition. -/
theorem exclusive_io {state : State} {session : Sid} {pos : ClosePos}
    (h : Exclusive state.world) (hown : RemovesOwn (pos.op session) state) :
    Exclusive (perform platform .idle (pos.op session) state.world).2 := by
  have hset : ∀ other uid, pos.op session ≠ .setLoginUid other uid := by
    intro other uid
    cases pos <;> simp [ClosePos.op]
  refine h.of_reset (perform_history ..) (fun other uid hin => hin.of_perform (hset other))
    (fun other hstop => ?_) (fun other => ?_) fun other uid hin honline => ?_
  · exact stopped_perform_mono platform .idle _ state.world hstop
  · by_cases htake : pos.op session = .takeLoginUid other
    · rw [htake]
      exact .inr (uidOf_takeLoginUid platform .idle state.world other)
    · exact .inl (uidOf_perform platform .idle _ state.world other (hset other) htake)
  · cases pos with
    | exchange => exact honline
    | take => exact honline
    | remove user =>
      have hold := hin.of_perform (hset other)
      rw [ClosePos.op, perform]
      by_cases huser : 0 < user
      · rw [onlineUsers_removeOnlineUser huser, Function.update_apply, if_neg]
        · exact honline
        · rintro rfl
          exact hown other honline hold
      · unfold UserManager.removeOnlineUser
        rwa [if_pos (by omega)]

/-- The runs in which every removal on an IO thread meets the condition. -/
abbrev removesOwn : Label → State → Prop :=
  OpsMeet (fun _ _ _ => True) fun _ op state => RemovesOwn op state

theorem exclusive_of_reaches {state : State} (hreach : Reaches platform removesOwn state) :
    Exclusive state.world := by
  apply invariant_of_moves (fun state => Exclusive state.world) hreach (fun _ => id)
  · rintro _ ⟨db, -, rfl⟩
    refine ⟨fun session => Int.le_refl 0, ?_, ?_, ?_, ?_, ?_, ?_⟩
    · rintro session uid ⟨-, hin, hne⟩
      exact absurd hin.symm hne
    · intro uid result hmem
      cases hmem
    · intro session exchanged hmem
      cases hmem
    · intro session uid hhead
      cases hhead
    · intro old hhead
      cases hhead
    · intro old uid hhead
      cases hhead
  · intro state state' h hquiet
    refine h.of_reset hquiet.history ?_ (fun session hstop => ?_)
      (fun session => .inl (hquiet.uidOf session)) fun session uid _ honline => ?_
    · rintro session uid ⟨hopen, hin, hne⟩
      exact ⟨(hquiet.stopped session).symm.trans hopen, (hquiet.uidOf session).symm.trans hin, hne⟩
    · rwa [hquiet.stopped]
    · rwa [hquiet.onlineUsers]
  · intro state node rest hreached h hidle
    exact h.dispatched ((grounded_of_reaches hreached).not_midway_of_idle hidle)
  · intro state input op next node hreached h _ _ _ hwarrant
    exact exclusive_perform (grounded_of_reaches hreached) h hwarrant
  · intro state thread session pos _ h hok hcloser
    exact exclusive_io h (hok session pos hcloser)

/-- **One registered session per user**, when every removal on an IO thread meets the condition. While
the worker is between two handlers, a lookup of the user of an open session returns that session, also
while a call of `Close` on it has yet to exchange its stop flag; and at no time are two open sessions
logged in as the same user. -/
theorem one_session_per_user {state : State} (hreach : Reaches platform removesOwn state) :
    (state.worker = none → ∀ session, state.world.stopped session = false →
      0 < state.world.uidOf session →
      (UserManager.getSessionByUid (state.world.uidOf session) state.world).1 = some session) ∧
    ∀ session other, state.world.stopped session = false → state.world.stopped other = false →
      0 < state.world.uidOf session → state.world.uidOf session = state.world.uidOf other →
      session = other := by
  have h := exclusive_of_reaches hreach
  have hground := grounded_of_reaches hreach
  refine ⟨fun hidle session hopen huid => ?_, fun session other hopen hother huid hsame => ?_⟩
  · have hentry : state.world.onlineUsers (state.world.uidOf session) = some session :=
      (h.registered session _ ⟨hopen, rfl, (Int.ne_of_gt huid)⟩).resolve_right fun hhead =>
        hground.not_midway_of_idle hidle (midway_of_head_setLoginUid hhead)
    rcases getSessionByUid_cases huid state.world with ⟨found, hfound, -, heq⟩ | ⟨_, _, _, hexpired⟩
    · rw [heq, ← hfound, hentry]
    · exact absurd (hopen.symm.trans (hground.expired session (hexpired session hentry)))
        Bool.false_ne_true
  · have hin : LoggedIn state.world session (state.world.uidOf session) :=
      ⟨hopen, rfl, Int.ne_of_gt huid⟩
    have hin' : LoggedIn state.world other (state.world.uidOf session) :=
      ⟨hother, hsame.symm, (Int.ne_of_gt huid)⟩
    rcases h.registered session _ hin with hentry | hhead
    · rcases h.registered other _ hin' with hentry' | hhead'
      · exact Option.some.inj (hentry.symm.trans hentry')
      · exact h.setting other _ hhead' session hin
    · exact (h.setting session _ hhead other hin').symm

def testRemovesOwn : Op → State → Bool
  | .removeOnlineUser uid, state => match state.world.onlineUsers uid with
      | some session => state.world.stopped session || state.world.uidOf session != uid
      | none => true
  | _, _ => true

theorem removesOwn_of_test {label : Label} {state : State}
    (hidle : ∀ input, label = .work input → input = .idle)
    (htest : testOps (fun _ _ => true) testRemovesOwn label state = true) : removesOwn label state := by
  refine opsMeet_of_test (fun _ _ => trivial) (fun session op hop => ?_) hidle htest
  cases op with
  | removeOnlineUser uid =>
    rintro other hentry ⟨hopen, huid, -⟩
    simp [testRemovesOwn, hentry, hopen, huid] at hop
  | _ => trivial

/-- Ann's session is closed, and she logs in again on another one. -/
def reconnectScript : List Act :=
  [.accept 0, .accept 1, .post 0 MSG_LOGIN_REQ (credentials "ann"), .serve 7, .closeCall 0 0, .io 0 3,
    .post 1 MSG_LOGIN_REQ (credentials "ann"), .serve 7]

theorem one_session_per_user_reconnect :
    (UserManager.getSessionByUid 1 (played quietDb reconnectScript).world).1 = some 1 := by
  obtain ⟨hplays, hidle, hopen, huid⟩ :
      plays (testOps (fun _ _ => true) testRemovesOwn) quietDb reconnectScript = true ∧
      (played quietDb reconnectScript).worker.isNone = true ∧
      (played quietDb reconnectScript).world.stopped 1 = false ∧
      (played quietDb reconnectScript).world.uidOf 1 = 1 := by decide +kernel
  have hreach : Reaches reference removesOwn (played quietDb reconnectScript) :=
    reaches_of_plays (fun _ _ hidle _ => removesOwn_of_test hidle) quietDb_wellFormed hplays
  have hlookup := (one_session_per_user hreach).1 (Option.isNone_iff_eq_none.mp hidle) 1 hopen
    (by rw [huid]; decide)
  rwa [huid] at hlookup

/-- A `Close` of ann's first session has taken her uid when she logs in on the second, and removes the
entry afterwards. Then she logs in on a third. -/
def crossingScript : List Act :=
  [.accept 0, .accept 1, .accept 2, .post 0 MSG_LOGIN_REQ (credentials "ann"), .serve 7,
    .closeCall 0 0, .io 0 2, .post 1 MSG_LOGIN_REQ (credentials "ann"), .serve 8, .io 0 1,
    .post 2 MSG_LOGIN_REQ (credentials "ann"), .serve 7]

/-- Without the condition, two sessions are open and logged in as ann, and only one is registered, with
no handler and no `Close` in progress. -/
theorem sessions_unregistered :
    (¬∀ state, Reaches reference (fun _ _ => True) state → state.worker = none →
      ∀ session, (∀ thread pos, state.closers thread ≠ some (session, pos)) →
        state.world.stopped session = false → 0 < state.world.uidOf session →
        (UserManager.getSessionByUid (state.world.uidOf session) state.world).1 = some session) ∧
    ¬∀ state, Reaches reference (fun _ _ => True) state → state.worker = none →
      (∀ thread, state.closers thread = none) →
      ∀ session other, state.world.stopped session = false → state.world.stopped other = false →
        0 < state.world.uidOf session → state.world.uidOf session = state.world.uidOf other →
        session = other := by
  obtain ⟨hplays, hworker, hended, hfirst, hsecond, huid, hshared⟩ :
      plays (fun _ _ => true) quietDb crossingScript = true ∧
      (played quietDb crossingScript).worker.isNone = true ∧
      ((played quietDb crossingScript).closers 0).isNone = true ∧
      (played quietDb crossingScript).world.stopped 1 = false ∧
      (played quietDb crossingScript).world.stopped 2 = false ∧
      0 < (played quietDb crossingScript).world.uidOf 1 ∧
      (played quietDb crossingScript).world.uidOf 1 = (played quietDb crossingScript).world.uidOf 2 := by
    decide +kernel
  have hreach : Reaches reference (fun _ _ => True) (played quietDb crossingScript) :=
    reached_of_plays quietDb_wellFormed hplays
  have hidle := Option.isNone_iff_eq_none.mp hworker
  have hclosers : ∀ thread, (played quietDb crossingScript).closers thread = none :=
    closers_eq_none 0 (by simp [crossingScript]) hended
  refine ⟨fun h => ?_, fun h => ?_⟩
  · have hlookup := h _ hreach hidle 1 (fun thread pos => by simp [hclosers thread]) hfirst huid
    revert hlookup
    decide +kernel
  · have hsame := h _ hreach hidle hclosers 1 2 hfirst hsecond huid hshared
    exact absurd hsame (by decide)

end CoroutineServer
