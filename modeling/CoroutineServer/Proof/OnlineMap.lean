import CoroutineServer.Proof.Registration

/-!
# Soundness of the online map

An entry stays sound through second logins and closes when each registration is of a session that is
still open, or whose `Close` has yet to remove this very entry, and that is under no other uid. Then
between handlers and with no `Close` in progress, the map names open sessions that are logged in as the
users they stand for.
-/

namespace CoroutineServer

open Program CSession

variable {platform : Platform}

/-- A `Close` in progress on an IO thread will remove this entry. -/
def PendingRemoval (state : State) (uid : Int) (session : Sid) : Prop :=
  ∃ thread, state.closers thread = some (session, .take) ∧ state.world.uidOf session = uid ∨
    state.closers thread = some (session, .remove uid)

/-- The condition: a session that a login registers is open, or its `Close` will remove the entry, and
it is held under no other uid. -/
def RegistersLive : Op → State → Prop
  | .addOnlineUser uid session, state =>
      (state.world.stopped session = false ∨ PendingRemoval state uid session) ∧
        ∀ other, other ≠ uid → state.world.onlineUsers other ≠ some session
  | _, _ => True

/-- The worker is closing the session, and will remove this entry. -/
def Kicking (world : World) (uid : Int) (session : Sid) : Prop :=
  world.trace.head? = some ⟨.casStop session, true⟩ ∧ world.uidOf session = uid ∨
    world.trace.head? = some ⟨.takeLoginUid session, uid⟩

/-- The invariant: an entry names an open session that is logged in, or is about to be removed, or its
session has just got the uid of another login. -/
structure Sound (state : State) : Prop where
  uid_pos : ∀ uid session, state.world.onlineUsers uid = some session → 0 < uid
  entry : ∀ uid session, state.world.onlineUsers uid = some session →
    LoggedIn state.world session uid ∨ PendingRemoval state uid session ∨
      Kicking state.world uid session ∨
      ∃ user, state.world.trace.head? = some ⟨.setLoginUid session user, ()⟩
  setting : ∀ session uid, state.world.trace.head? = some ⟨.setLoginUid session uid, ()⟩ →
    state.world.stopped session = false → state.world.uidOf session = uid

theorem midway_of_kicking {world : World} {uid : Int} {session : Sid} (huid : 0 < uid)
    (h : Kicking world uid session) : Midway world.trace := by
  rcases h with ⟨hhead, -⟩ | hhead
  · obtain ⟨rest, heq⟩ := List.head?_eq_some_iff.mp hhead
    rw [heq]
    exact rfl
  · obtain ⟨rest, heq⟩ := List.head?_eq_some_iff.mp hhead
    rw [heq]
    exact Int.ne_of_gt huid

namespace Sound

variable {state state' : State}

theorem settled (h : Sound state) (hmidway : ¬Midway state.world.trace) {uid : Int} {session : Sid}
    (hentry : state.world.onlineUsers uid = some session) :
    LoggedIn state.world session uid ∨ PendingRemoval state uid session := by
  rcases h.entry uid session hentry with hin | hpending | hkicking | ⟨user, hhead⟩
  · exact .inl hin
  · exact .inr hpending
  · exact absurd (midway_of_kicking (h.uid_pos uid session hentry) hkicking) hmidway
  · exact absurd (midway_of_head_setLoginUid hhead) hmidway

theorem of_quiet (h : Sound state) (hquiet : Quiet state state') : Sound state' := by
  refine ⟨?_, fun uid session hentry => ?_, fun session uid hhead hopen => ?_⟩
  · rw [hquiet.onlineUsers]
    exact h.uid_pos
  · rw [hquiet.onlineUsers] at hentry
    unfold LoggedIn PendingRemoval Kicking
    rw [hquiet.trace, hquiet.stopped, hquiet.uidOf]
    refine (h.entry uid session hentry).imp_right (Or.imp_left ?_)
    rintro ⟨thread, ⟨hcloser, huid⟩ | hcloser⟩
    · exact ⟨thread, .inl ⟨hquiet.kept thread _ hcloser, huid⟩⟩
    · exact ⟨thread, .inr (hquiet.kept thread _ hcloser)⟩
  · rw [hquiet.uidOf]
    rw [hquiet.trace] at hhead
    rw [hquiet.stopped] at hopen
    exact h.setting session uid hhead hopen

end Sound

section Worker

variable {state : State} {node : LogicNode} {input : Input} {op : Op} {next : op.Ret → Handler Unit}

/-- What stays of an entry's soundness when an operation leaves the session alone. -/
theorem settled_workStep {uid : Int} {session : Sid} (hcas : op ≠ .casStop session)
    (hset : ∀ user, op ≠ .setLoginUid session user) (htake : op ≠ .takeLoginUid session)
    (h : LoggedIn state.world session uid ∨ PendingRemoval state uid session) :
    LoggedIn (workStep platform input op next state).world session uid ∨
      PendingRemoval (workStep platform input op next state) uid session := by
  have huid : (workStep platform input op next state).world.uidOf session
      = state.world.uidOf session :=
    uidOf_perform platform input op state.world session hset htake
  have hstopped : (workStep platform input op next state).world.stopped session
      = state.world.stopped session :=
    stopped_perform platform input op state.world session hcas
  unfold LoggedIn PendingRemoval
  rw [huid, hstopped]
  exact h

/-- An entry after one of the worker's operations is the one it adds, or was there before, and was not
the one it removes. -/
theorem entry_workStep {uid : Int} {session : Sid}
    (h : (workStep platform input op next state).world.onlineUsers uid = some session) :
    op = .addOnlineUser uid session ∧ 0 < uid ∨
      state.world.onlineUsers uid = some session ∧ (op = .removeOnlineUser uid → uid ≤ 0) ∧
        ∀ other, op = .addOnlineUser uid other → uid ≤ 0 :=
  onlineUsers_perform_eq_some platform input op state.world h

/-- Between the exchange of the stop flag and the removal, the entry of the session that is being closed
is about to be removed by the worker. -/
theorem kicking_workStep {uid : Int} {session old : Sid} (h : Sound state)
    (hentry : state.world.onlineUsers uid = some session)
    (hwarrant : Warrants platform node state.world.trace op)
    (hop : op = .casStop old ∨ op = .takeLoginUid old) :
    LoggedIn (workStep platform input op next state).world session uid ∨
      PendingRemoval (workStep platform input op next state) uid session ∨
      Kicking (workStep platform input op next state).world uid session := by
  rcases hop with rfl | rfl
  · have hsettled := h.settled (not_midway_of_warrants hwarrant (by simp) (by simp) (by simp)) hentry
    by_cases hsame : session = old
    · subst hsame
      have huid : (workStep platform input (.casStop session) next state).world.uidOf session
          = state.world.uidOf session :=
        uidOf_perform platform input (.casStop session) state.world session (by simp) (by simp)
      rcases hsettled with ⟨hopen, hin, -⟩ | hpending
      · refine .inr (.inr (.inl ⟨?_, huid.trans hin⟩))
        have hresult : (perform platform input (.casStop session) state.world).1 = true := by
          rw [perform, Bool.not_eq_true']
          exact hopen
        rw [trace_workStep, hresult]
        rfl
      · refine .inr (.inl ?_)
        unfold PendingRemoval
        rw [huid]
        exact hpending
    · refine (settled_workStep ?_ (by simp) (by simp) hsettled).imp_right .inl
      simpa using Ne.symm hsame
  · obtain ⟨who, looked, -, htrace⟩ := hwarrant
    have hnoSet : ∀ user, state.world.trace.head? ≠ some ⟨.setLoginUid session user, ()⟩ := by
      intro user
      rw [htrace]
      simp
    by_cases hsame : session = old
    · subst hsame
      have htaken : ∀ user, state.world.uidOf session = user →
          Kicking (workStep platform input (.takeLoginUid session) next state).world user session := by
        rintro user rfl
        exact .inr rfl
      rcases h.entry uid session hentry with ⟨-, hin, -⟩ | ⟨thread, ⟨-, hin⟩ | hcloser⟩ | hkicking | hset
      · exact .inr (.inr (htaken uid hin))
      · exact .inr (.inr (htaken uid hin))
      · exact .inr (.inl ⟨thread, .inr hcloser⟩)
      · rcases hkicking with ⟨-, hin⟩ | hhead
        · exact .inr (.inr (htaken uid hin))
        · rw [htrace] at hhead
          cases (Sigma.mk.inj (Option.some.inj hhead)).1
      · obtain ⟨user, hhead⟩ := hset
        exact absurd hhead (hnoSet user)
    · have hsettled : LoggedIn state.world session uid ∨ PendingRemoval state uid session := by
        rcases h.entry uid session hentry with hin | hpending | (⟨hhead, -⟩ | hhead) | ⟨user, hhead⟩
        · exact .inl hin
        · exact .inr hpending
        · rw [htrace] at hhead
          exact absurd (Op.casStop.inj (Sigma.mk.inj (Option.some.inj hhead)).1).symm hsame
        · rw [htrace] at hhead
          cases (Sigma.mk.inj (Option.some.inj hhead)).1
        · exact absurd hhead (hnoSet user)
      refine (settled_workStep (by simp) (by simp) ?_ hsettled).imp_right .inl
      simpa using Ne.symm hsame

/-- The operations after a `SetLoginUid` or a login uid that was taken: the entry is added, or removed. -/
theorem completed_workStep {uid : Int} {session : Sid} (h : Sound state)
    (hlive : RegistersLive op state) (hwarrant : Warrants platform node state.world.trace op)
    (hentry : (workStep platform input op next state).world.onlineUsers uid = some session)
    (hop : (∃ user other, op = .addOnlineUser user other) ∨ ∃ user, op = .removeOnlineUser user) :
    LoggedIn (workStep platform input op next state).world session uid ∨
      PendingRemoval (workStep platform input op next state) uid session := by
  apply settled_workStep
  · rcases hop with ⟨_, _, rfl⟩ | ⟨_, rfl⟩ <;> simp
  · rcases hop with ⟨_, _, rfl⟩ | ⟨_, rfl⟩ <;> simp
  · rcases hop with ⟨_, _, rfl⟩ | ⟨_, rfl⟩ <;> simp
  rcases hop with ⟨user, other, rfl⟩ | ⟨user, rfl⟩
  · obtain ⟨rfl, huser, kicked, -, htrace⟩ := hwarrant
    rcases entry_workStep hentry with ⟨heq, huid⟩ | ⟨hold, -, hnoAdd⟩
    · obtain ⟨rfl, rfl⟩ := Op.addOnlineUser.inj heq
      rcases hlive.1 with hopen | hpending
      · have hset := h.setting node.session user (by rw [htrace]; rfl) hopen
        exact .inl ⟨hopen, hset, Int.ne_of_gt huid⟩
      · exact .inr hpending
    · have hne : uid ≠ user := by
        rintro rfl
        have := hnoAdd node.session rfl
        omega
      rcases h.entry uid session hold with hin | hpending | (⟨hhead, -⟩ | hhead) | ⟨who, hhead⟩
      · exact .inl hin
      · exact .inr hpending
      · rw [htrace] at hhead
        cases (Sigma.mk.inj (Option.some.inj hhead)).1
      · rw [htrace] at hhead
        cases (Sigma.mk.inj (Option.some.inj hhead)).1
      · rw [htrace] at hhead
        obtain ⟨rfl, -⟩ := Op.setLoginUid.inj (Sigma.mk.inj (Option.some.inj hhead)).1
        exact absurd hold (hlive.2 uid hne)
  · obtain ⟨-, old, who, looked, -, htrace⟩ := hwarrant
    rcases entry_workStep hentry with ⟨heq, -⟩ | ⟨hold, hkept, -⟩
    · cases heq
    rcases h.entry uid session hold with hin | hpending | (⟨hhead, -⟩ | hhead) | ⟨third, hhead⟩
    · exact .inl hin
    · exact .inr hpending
    · rw [htrace] at hhead
      cases (Sigma.mk.inj (Option.some.inj hhead)).1
    · -- the entry that is being removed
      rw [htrace] at hhead
      obtain ⟨heq, hresult⟩ := Sigma.mk.inj (Option.some.inj hhead)
      obtain rfl := eq_of_heq hresult
      have hpos := h.uid_pos _ session hold
      have := hkept rfl
      omega
    · rw [htrace] at hhead
      cases (Sigma.mk.inj (Option.some.inj hhead)).1

/-- **The worker's operations keep the invariant**, when they meet the condition. -/
theorem sound_workStep (h : Sound state) (hlive : RegistersLive op state)
    (hwarrant : Warrants platform node state.world.trace op) :
    Sound (workStep platform input op next state) := by
  refine ⟨fun uid session hentry => ?_, fun uid session hentry => ?_, fun session uid hhead _ => ?_⟩
  · rcases entry_workStep hentry with ⟨-, hpos⟩ | ⟨hold, -⟩
    · exact hpos
    · exact h.uid_pos uid session hold
  · by_cases hkick : ∃ old, op = .casStop old ∨ op = .takeLoginUid old
    · obtain ⟨old, hkick⟩ := hkick
      rcases entry_workStep hentry with ⟨rfl, -⟩ | ⟨hold, -⟩
      · rcases hkick with heq | heq <;> cases heq
      · exact (kicking_workStep h hold hwarrant hkick).imp_right (Or.imp_right .inl)
    by_cases hcomplete : (∃ user other, op = .addOnlineUser user other) ∨
        ∃ user, op = .removeOnlineUser user
    · exact (completed_workStep h hlive hwarrant hentry hcomplete).imp_right .inl
    · have hadd : ∀ user other, op ≠ .addOnlineUser user other :=
        fun user other heq => hcomplete (.inl ⟨user, other, heq⟩)
      have hsettled := h.settled
        (not_midway_of_warrants hwarrant (fun other heq => hkick ⟨other, .inr heq⟩)
          (fun user heq => hcomplete (.inr ⟨user, heq⟩)) hadd)
        ((entry_workStep hentry).resolve_left fun hnew => hadd _ _ hnew.1).1
      by_cases hset : ∃ user, op = .setLoginUid session user
      · obtain ⟨user, rfl⟩ := hset
        exact .inr (.inr (.inr ⟨user, rfl⟩))
      · exact (settled_workStep (fun heq => hkick ⟨session, .inl heq⟩)
          (fun user heq => hset ⟨user, heq⟩) (fun heq => hkick ⟨session, .inr heq⟩)
          hsettled).imp_right .inl
  · obtain ⟨rfl, -⟩ := Sigma.mk.inj (Option.some.inj hhead)
    exact uidOf_setLoginUid platform input state.world session uid

end Worker

section Io

variable {state : State} {thread : Nat} {closing : Sid} {pos : ClosePos}

theorem closers_take (huid : state.world.uidOf closing ≠ 0) :
    (ioStep platform thread closing .take state).closers thread
      = some (closing, .remove (state.world.uidOf closing)) := by
  rw [closers_ioStep, if_pos rfl]
  exact congrArg (Option.map (closing, ·)) (if_neg huid)

theorem closers_exchange (hopen : state.world.stopped closing = false) :
    (ioStep platform thread closing .exchange state).closers thread = some (closing, .take) := by
  rw [closers_ioStep, if_pos rfl]
  refine congrArg (Option.map (closing, ·)) (if_pos ?_)
  change (!state.world.stopped closing) = true
  rw [hopen]
  rfl

theorem uidOf_ioStep {session : Sid} (htake : ¬(pos = .take ∧ closing = session)) :
    (ioStep platform thread closing pos state).world.uidOf session = state.world.uidOf session := by
  refine uidOf_perform platform .idle (pos.op closing) state.world session (fun user => ?_) ?_
  · cases pos <;> simp [ClosePos.op]
  · cases pos <;> simp_all [ClosePos.op]

theorem stopped_ioStep {session : Sid} (hexchange : ¬(pos = .exchange ∧ closing = session)) :
    (ioStep platform thread closing pos state).world.stopped session
      = state.world.stopped session := by
  apply stopped_perform platform .idle (pos.op closing) state.world session
  cases pos <;> simp_all [ClosePos.op]

theorem pendingRemoval_ioStep {uid : Int} {session : Sid}
    (hcloser : state.closers thread = some (closing, pos)) (huid : uid ≠ 0)
    (hkept : pos ≠ .remove uid) (h : PendingRemoval state uid session) :
    PendingRemoval (ioStep platform thread closing pos state) uid session := by
  obtain ⟨other, ⟨htake, rfl⟩ | hremove⟩ := h
  · by_cases htaken : pos = .take ∧ closing = session
    · obtain ⟨rfl, rfl⟩ := htaken
      exact ⟨thread, .inr (closers_take huid)⟩
    · refine ⟨other, .inl ⟨?_, uidOf_ioStep htaken⟩⟩
      rw [closers_ioStep, if_neg]
      · exact htake
      · rintro rfl
        obtain ⟨hsession, hpos⟩ := Prod.mk.inj (Option.some.inj (hcloser.symm.trans htake))
        exact htaken ⟨hpos, hsession⟩
  · refine ⟨other, .inr ?_⟩
    rw [closers_ioStep, if_neg]
    · exact hremove
    · rintro rfl
      exact hkept (Prod.mk.inj (Option.some.inj (hcloser.symm.trans hremove))).2

/-- **The steps of `Close` on IO threads keep the invariant.** -/
theorem sound_ioStep (hground : Grounded platform state) (h : Sound state)
    (hcloser : state.closers thread = some (closing, pos)) :
    Sound (ioStep platform thread closing pos state) := by
  have hentries : ∀ uid session,
      (ioStep platform thread closing pos state).world.onlineUsers uid = some session →
      state.world.onlineUsers uid = some session ∧ pos ≠ .remove uid := by
    intro uid session hentry
    rcases onlineUsers_perform_eq_some platform .idle (pos.op closing) state.world hentry
      with ⟨heq, -⟩ | ⟨hold, hkept, -⟩
    · cases pos <;> cases heq
    · refine ⟨hold, ?_⟩
      rintro rfl
      have hpos := h.uid_pos uid session hold
      have := hkept rfl
      omega
  refine ⟨fun uid session hentry => h.uid_pos uid session (hentries uid session hentry).1,
    fun uid session hentry => ?_, fun session uid hhead hopen => ?_⟩
  · obtain ⟨hold, hkept⟩ := hentries uid session hentry
    have huid : uid ≠ 0 := Int.ne_of_gt (h.uid_pos uid session hold)
    rcases h.entry uid session hold
      with ⟨hopen, hin, -⟩ | hpending | (⟨hhead, hin⟩ | hhead) | ⟨user, hhead⟩
    · by_cases hexchange : pos = .exchange ∧ closing = session
      · obtain ⟨rfl, rfl⟩ := hexchange
        exact .inr (.inl ⟨thread, .inl ⟨closers_exchange hopen, (uidOf_ioStep (by simp)).trans hin⟩⟩)
      by_cases htake : pos = .take ∧ closing = session
      · obtain ⟨rfl, rfl⟩ := htake
        rw [← hin] at huid ⊢
        exact .inr (.inl ⟨thread, .inr (closers_take huid)⟩)
      · exact .inl ⟨(stopped_ioStep hexchange).trans hopen, (uidOf_ioStep htake).trans hin, huid⟩
    · exact .inr (.inl (pendingRemoval_ioStep hcloser huid hkept hpending))
    · by_cases htake : pos = .take ∧ closing = session
      · obtain ⟨rfl, rfl⟩ := htake
        rw [← hin] at huid ⊢
        exact .inr (.inl ⟨thread, .inr (closers_take huid)⟩)
      · refine .inr (.inr (.inl (.inl ⟨?_, (uidOf_ioStep htake).trans hin⟩)))
        rw [trace_ioStep]
        exact hhead
    · refine .inr (.inr (.inl (.inr ?_)))
      rw [trace_ioStep]
      exact hhead
    · refine .inr (.inr (.inr ⟨user, ?_⟩))
      rw [trace_ioStep]
      exact hhead
  · rw [trace_ioStep] at hhead
    have hopen' : state.world.stopped session = false := by
      by_contra hstop
      have hstop' := stopped_perform_mono platform .idle (pos.op closing) state.world
        (by simpa using hstop)
      exact Bool.false_ne_true (hopen.symm.trans hstop')
    rw [uidOf_ioStep]
    · exact h.setting session uid hhead hopen'
    · -- whoever takes a uid has stopped the session before
      rintro ⟨rfl, rfl⟩
      have hstop := hground.closing thread closing .take hcloser (by simp)
      exact Bool.false_ne_true (hopen'.symm.trans hstop)

end Io

/-- The runs in which every registration meets the condition. -/
abbrev registersLive : Label → State → Prop :=
  OpsMeet (fun _ op state => RegistersLive op state) fun _ _ _ => True

theorem sound_of_reaches {state : State} (hreach : Reaches platform registersLive state) :
    Sound state := by
  apply invariant_of_moves Sound hreach (fun _ => id)
  · rintro _ ⟨db, -, rfl⟩
    refine ⟨fun uid session hentry => ?_, fun uid session hentry => ?_, fun session uid hhead => ?_⟩
    · cases hentry
    · cases hentry
    · cases hhead
  · exact fun state state' h hquiet => h.of_quiet hquiet
  · intro state node rest hreached h hidle
    have hmidway := (grounded_of_reaches hreached).not_midway_of_idle hidle
    exact ⟨h.uid_pos, fun uid session hentry => (h.settled hmidway hentry).imp_right .inl,
      fun session uid hhead => by cases hhead⟩
  · intro state input op next node _ h hok hworker _ hwarrant
    exact sound_workStep h (hok op next hworker) hwarrant
  · intro state thread session pos hreached h _ hcloser
    exact sound_ioStep (grounded_of_reaches hreached) h hcloser

/-- **The online map is sound**, when every registration meets the condition: with no handler and no
`Close` in progress, a session it names for a user is open and logged in as that user, and so it names
no session for two users. -/
theorem online_map_sound {state : State} (hreach : Reaches platform registersLive state)
    (hidle : state.worker = none) (hclosers : ∀ thread, state.closers thread = none) :
    (∀ uid session, state.world.onlineUsers uid = some session →
      state.world.stopped session = false ∧ state.world.uidOf session = uid) ∧
    ∀ uid other session, state.world.onlineUsers uid = some session →
      state.world.onlineUsers other = some session → uid = other := by
  have hsound : ∀ uid session, state.world.onlineUsers uid = some session →
      state.world.stopped session = false ∧ state.world.uidOf session = uid := by
    intro uid session hentry
    have hmidway := (grounded_of_reaches hreach).not_midway_of_idle hidle
    rcases (sound_of_reaches hreach).settled hmidway hentry
      with ⟨hopen, huid, -⟩ | ⟨thread, ⟨hcloser, -⟩ | hcloser⟩
    · exact ⟨hopen, huid⟩
    · rw [hclosers] at hcloser
      cases hcloser
    · rw [hclosers] at hcloser
      cases hcloser
  refine ⟨hsound, fun uid other session hentry hother => ?_⟩
  exact (hsound uid session hentry).2.symm.trans (hsound other session hother).2

def testRegistersLive : Op → State → Bool
  | .addOnlineUser uid session, state => !state.world.stopped session &&
      (registeredFor session state.world.history).all (· = uid)
  | _, _ => true

theorem registersLive_of_test {label : Label} {state : State}
    (hidle : ∀ input, label = .work input → input = .idle)
    (hreach : Reaches reference registersLive state)
    (htest : testOps testRegistersLive (fun _ _ => true) label state = true) :
    registersLive label state := by
  refine opsMeet_of_test (fun op hop => ?_) (fun _ _ _ => trivial) hidle htest
  cases op with
  | addOnlineUser uid session =>
    rw [testRegistersLive, Bool.and_eq_true, Bool.not_eq_true', List.all_eq_true] at hop
    refine ⟨.inl hop.1, fun other hother hentry => hother ?_⟩
    exact of_decide_eq_true (hop.2 other (mem_registeredFor hreach hentry))
  | _ => trivial

theorem online_map_sound_reconnect :
    (played quietDb reconnectScript).world.onlineUsers 1 = some 1 ∧
      (played quietDb reconnectScript).world.stopped 1 = false ∧
      (played quietDb reconnectScript).world.uidOf 1 = 1 := by
  obtain ⟨hplays, hentry, hidle, hended⟩ :
      plays (testOps testRegistersLive fun _ _ => true) quietDb reconnectScript = true ∧
      (played quietDb reconnectScript).world.onlineUsers 1 = some 1 ∧
      (played quietDb reconnectScript).worker.isNone = true ∧
      ((played quietDb reconnectScript).closers 0).isNone = true := by decide +kernel
  have hreach : Reaches reference registersLive (played quietDb reconnectScript) :=
    reaches_of_plays (fun _ _ => registersLive_of_test) quietDb_wellFormed hplays
  refine ⟨hentry, (online_map_sound hreach ?_ ?_).1 1 1 hentry⟩
  · exact Option.isNone_iff_eq_none.mp hidle
  · exact closers_eq_none 0 (by simp [reconnectScript]) hended

/-- Ann logs in twice on one session. The second login finds the session itself under her uid and
closes it. -/
def repeatedScript : List Act :=
  [.accept 0, .post 0 MSG_LOGIN_REQ (credentials "ann"), .serve 7,
    .post 0 MSG_LOGIN_REQ (credentials "ann"), .serve 9]

/-- Without the condition, the map names a live session for ann that is stopped. -/
theorem online_map_stale :
    ¬∀ state, Reaches reference (fun _ _ => True) state → state.worker = none →
      (∀ thread, state.closers thread = none) →
      ∀ uid session, state.world.onlineUsers uid = some session →
        (state.world.sessions session).expired = false →
        state.world.stopped session = false ∧ state.world.uidOf session = uid := by
  intro h
  obtain ⟨hplays, hidle, hentry, hexpired⟩ :
      plays (fun _ _ => true) quietDb repeatedScript = true ∧
      (played quietDb repeatedScript).worker.isNone = true ∧
      (played quietDb repeatedScript).world.onlineUsers 1 = some 0 ∧
      ((played quietDb repeatedScript).world.sessions 0).expired = false := by decide +kernel
  have hopen := (h _ (reached_of_plays quietDb_wellFormed hplays) (Option.isNone_iff_eq_none.mp hidle)
    (fun thread => closers_played (by simp [repeatedScript])) 1 0 hentry hexpired).1
  revert hopen
  decide +kernel

end CoroutineServer
