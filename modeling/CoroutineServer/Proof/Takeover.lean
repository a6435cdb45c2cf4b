import CoroutineServer.Proof.Answers
import CoroutineServer.Proof.Relogin

/-!
# The effect of a login

What a handler that has found valid credentials leaves behind: its session is open, logged in and
registered, the session that was registered before is closed and logged out, and nobody else is touched.
That is so exactly when sessions and map are not entangled before: the registered session may be the
very session that logs in, or may be logged in as somebody else by now.
-/

namespace CoroutineServer

open Program CSession

variable {platform : Platform} {node : LogicNode} {uid : Int}

/-! ### The effect -/

/-- The world a login leaves, beside the one it began in. -/
structure Installed (session : Sid) (uid : Int) (begun world : World) : Prop where
  still_open : world.stopped session = false
  identity : world.uidOf session = uid
  online : world.onlineUsers uid = some session
  only : ∀ user, user ≠ uid → world.onlineUsers user ≠ some session
  kicked : ∀ other, other ≠ session → begun.uidOf other = uid →
    world.stopped other = true ∧ world.uidOf other = 0

/-- What one step of a login leaves alone: the sessions of other users, and their entries. The user the
session was logged in as before is not one of them. -/
structure Spares (session : Sid) (uid : Int) (begun world world' : World) : Prop where
  sessions : ∀ other, begun.uidOf other ≠ uid → begun.uidOf other ≠ begun.uidOf session →
    world'.sessions other = world.sessions other
  users : ∀ user, user ≠ uid → user ≠ begun.uidOf session →
    world'.onlineUsers user = world.onlineUsers user

/-- **The effect of a successful login**, whatever other threads do meanwhile in the runs that meet the
condition: on the state when the handler has returned, and in each of its steps. -/
structure LoginEffect (platform : Platform) (ok : Label → State → Prop) (session : Sid) (uid : Int)
    (begun : State) : Prop where
  installed : ∀ state, Handling platform ok begun state → state.worker = none →
    Installed session uid begun.world state.world
  spares : ∀ state state' input, Handling platform ok begun state →
    step platform (.work input) state = some state' →
      Spares session uid begun.world state.world state'.world

/-- The condition: whoever is logged in as the user is open and registered, and neither the session that
logs in nor, when it is open, the session of somebody else is registered for the user. -/
structure Uncrossed (session : Sid) (uid : Int) (world : World) : Prop where
  elsewhere : world.onlineUsers uid ≠ some session
  registered : ∀ old, world.onlineUsers uid = some old → world.stopped old = false →
    world.uidOf old = uid ∨ world.uidOf old = world.uidOf session
  others : ∀ other, other ≠ session → world.uidOf other = uid →
    world.onlineUsers uid = some other ∧ world.stopped other = false
  only : ∀ user, user ≠ uid → world.onlineUsers user = some session →
    ∃ old, world.onlineUsers uid = some old ∧ world.stopped old = false ∧ world.uidOf old = user

/-! ### The end of a login -/

/-- `LoginUser` has accepted the credentials that a request of an open session presents. -/
structure Accepted (platform : Platform) (node : LogicNode) (uid : Int) (begun : State) : Prop where
  reach : Reaches platform (fun _ _ => True) begun
  served : served begun.world.history = some node
  login : ∃ username password, begun.world.trace = [⟨.loginUser username password, (true, uid)⟩]
  still_open : begun.world.stopped node.session = false

variable {begun state : State}

namespace Accepted

theorem uid_pos (h : Accepted platform node uid begun) : 0 < uid := by
  obtain ⟨username, password, htrace⟩ := h.login
  exact (grounded_of_reaches h.reach).admitted ⟨.loginUser username password, (true, uid)⟩
    (by rw [htrace]; exact List.mem_cons_self) rfl

theorem follows (h : Accepted platform node uid begun) : Follows node uid begun.world begun := by
  obtain ⟨username, password, htrace⟩ := h.login
  refine ⟨h.served, ⟨username, password, by rw [htrace]; rfl⟩, fun _ => rfl, ?_, ?_, ?_, ?_, ?_⟩
  · exact fun old _ hold => ⟨hold, rfl, .inr rfl⟩
  all_goals simp [htrace]

theorem leaves (h : Accepted platform node uid begun) : Leaves node uid begun.world begun := by
  obtain ⟨username, password, htrace⟩ := h.login
  refine ⟨?_, ?_, ?_, ?_, ?_, fun _ => h.still_open, fun _ _ h => h⟩
  all_goals simp [htrace]

theorem run (h : Accepted platform node uid begun)
    (hhandling : Handling platform (unhindered node.session uid) begun state) :
    Reaches platform (fun _ _ => True) state ∧ Follows node uid begun.world state ∧
      Leaves node uid begun.world state := by
  apply hhandling.invariant
    (fun state => Follows node uid begun.world state ∧ Leaves node uid begun.world state) h.reach
    ⟨h.follows, h.leaves⟩
  · exact fun _ hinv => hinv.1.served
  · exact fun _ _ hinv hquiet => ⟨hinv.1.of_quiet hquiet, hinv.2.of_quiet hquiet⟩
  · exact fun _ _ _ _ hreach hinv _ _ hwarrant =>
      ⟨hinv.1.work h.uid_pos (grounded_of_reaches hreach) hwarrant,
        hinv.2.work hinv.1 h.uid_pos hwarrant⟩
  · exact fun _ _ _ _ hinv hok hcloser => ⟨hinv.1.io hok hcloser, hinv.2.io hok hcloser⟩

end Accepted

/-- When the handler has returned, it has dealt with the registered session and registered its own. -/
theorem Follows.ended (h : Follows node uid begun.world state)
    (hreach : Reaches platform (fun _ _ => True) state) (hidle : state.worker = none) :
    (⟨.setLoginUid node.session uid, ()⟩ : Call Op Op.Ret) ∈ state.world.trace ∧
      (⟨.addOnlineUser uid node.session, ()⟩ : Call Op Op.Ret) ∈ state.world.trace ∧
      ∃ kicked, Kicked uid kicked ∧ ∀ call ∈ kicked, call ∈ state.world.trace := by
  have hlogin : LoginIn state.world.trace uid := by
    obtain ⟨username, password, hlast⟩ := h.loggingIn
    exact ⟨username, password, List.mem_of_getLast? hlast⟩
  obtain ⟨user, -, hadd⟩ :=
    registered_of_finished ((grounded_of_reaches hreach).finished hidle node h.served) hlogin
  obtain ⟨later, before, htrace, hwarrant⟩ := warranted_of_mem hreach h.served hadd
  have hbefore : LoggingIn uid before := by
    have hlast := h.loggingIn
    rw [htrace, List.append_cons] at hlast
    refine hlast.suffix _ ?_
    obtain ⟨-, -, kicked, -, rfl⟩ := hwarrant
    simp
  obtain ⟨rfl, -⟩ := hbefore.added hwarrant
  obtain ⟨-, -, kicked, hkicked, rfl⟩ := hwarrant
  refine ⟨?_, hadd, kicked, hkicked, fun call hcall => ?_⟩
  · rw [htrace]
    simp
  · rw [htrace]
    simp [hcall]

/-- The registered session, if it was open, has been closed and logged out, and its user unregistered. -/
theorem old_closed (hfollows : Follows node uid begun.world state)
    (hleaves : Leaves node uid begun.world state)
    (hreach : Reaches platform (fun _ _ => True) state) (hidle : state.worker = none) {old : Sid}
    (hold : begun.world.onlineUsers uid = some old) (hopen : begun.world.stopped old = false) :
    state.world.stopped old = true ∧ (old ≠ node.session → state.world.uidOf old = 0) ∧
      (begun.world.uidOf old ≠ 0 →
        (⟨.removeOnlineUser (begun.world.uidOf old), ()⟩ : Call Op Op.Ret) ∈ state.world.trace) := by
  obtain ⟨-, -, kicked, hkicked, hmem⟩ := hfollows.ended hreach hidle
  cases hkicked with
  | nobody hlooked =>
    obtain ⟨username, password, rfl⟩ := hlooked
    have hstopped := hfollows.unfound (hmem _ List.mem_cons_self) old hold
    rw [hopen] at hstopped
    cases hstopped
  | @closed other part looked hpart hlooked =>
    obtain ⟨username, password, rfl⟩ := hlooked
    obtain rfl : other = old :=
      Option.some.inj ((hfollows.found other (hmem _ (by simp))).symm.trans hold)
    cases hpart with
    | already =>
      have hexchanged := hfollows.exchanged other false (hmem _ (by simp))
      rw [hopen] at hexchanged
      cases hexchanged
    | loggedOut =>
      have htaken := hfollows.taken other 0 (hmem _ (by simp))
      exact ⟨hleaves.stopped other true (hmem _ (by simp)),
        fun hne => hleaves.loggedOut other 0 hne (hmem _ (by simp)),
        fun hne => absurd htaken.symm hne⟩
    | @removed user huser =>
      obtain rfl := hfollows.taken other user (hmem _ (by simp))
      exact ⟨hleaves.stopped other true (hmem _ (by simp)),
        fun hne => hleaves.loggedOut other (begun.world.uidOf other) hne (hmem _ (by simp)),
        fun _ => hmem _ (by simp)⟩

theorem online_pos {ok : Label → State → Prop} (hreach : Reaches platform ok state) {user : Int}
    {session : Sid} (hentry : state.world.onlineUsers user = some session) : 0 < user := by
  revert user session
  apply invariant_of_moves (fun state => ∀ {user : Int} {session : Sid},
    state.world.onlineUsers user = some session → 0 < user) hreach (fun _ => id)
  · rintro _ ⟨db, -, rfl⟩ user session hentry
    cases hentry
  · intro state state' h hquiet user session hentry
    rw [hquiet.onlineUsers] at hentry
    exact h hentry
  · exact fun state node rest _ h _ user session hentry => h hentry
  · intro state input op next node _ h _ _ _ _ user session hentry
    rcases entry_workStep hentry with ⟨-, hpos⟩ | ⟨hold, -⟩
    · exact hpos
    · exact h hold
  · intro state thread session pos _ h _ _ user other hentry
    rcases onlineUsers_perform_eq_some platform .idle _ state.world hentry with ⟨-, hpos⟩ | ⟨hold, -⟩
    · exact hpos
    · exact h hold

theorem Uncrossed.installed (h : Uncrossed node.session uid begun.world)
    (haccepted : Accepted platform node uid begun)
    (hhandling : Handling platform (unhindered node.session uid) begun state)
    (hidle : state.worker = none) : Installed node.session uid begun.world state.world := by
  obtain ⟨hreach, hfollows, hleaves⟩ := haccepted.run hhandling
  obtain ⟨hset, hadd, -⟩ := hfollows.ended hreach hidle
  refine ⟨hleaves.still_open h.elsewhere, hleaves.identity hset, hleaves.online hadd, ?_, ?_⟩
  · intro user hne hentry
    obtain ⟨old, hold, hopen, rfl⟩ := h.only user hne (hleaves.only user hne hentry)
    have hpos := online_pos hreach hentry
    obtain ⟨-, -, hremoved⟩ := old_closed hfollows hleaves hreach hidle hold hopen
    exact hleaves.removed _ hne hpos (hremoved (Int.ne_of_gt hpos)) hentry
  · intro other hne huid
    obtain ⟨hold, hopen⟩ := h.others other hne huid
    obtain ⟨hstopped, hout, -⟩ := old_closed hfollows hleaves hreach hidle hold hopen
    exact ⟨hstopped, hout hne⟩

/-! ### The steps of a login -/

/-- A session is changed by the operations on it only. -/
theorem sessions_perform {input : Input} {op : Op} {world : World} {other : Sid}
    (hcas : op ≠ .casStop other) (hset : ∀ user, op ≠ .setLoginUid other user)
    (htake : op ≠ .takeLoginUid other) (hpush : ∀ payload sent, op ≠ .push other payload sent) :
    (perform platform input op world).2.sessions other = world.sessions other := by
  cases op with
  | casStop session =>
    rw [perform, World.sessions_updateSession, if_neg (by rintro rfl; exact hcas rfl)]
  | setLoginUid session user =>
    rw [perform, World.sessions_updateSession, if_neg (by rintro rfl; exact hset user rfl)]
  | takeLoginUid session =>
    rw [perform, World.sessions_updateSession, if_neg (by rintro rfl; exact htake rfl)]
  | push session payload sent =>
    rcases pushFrame_eq world session ⟨sent, payload⟩ with heq | heq
    · rw [perform, heq]
    · rw [perform, heq, World.sessions_updateSession,
        if_neg (by rintro rfl; exact hpush payload sent rfl)]
  | addOnlineUser user session => rw [perform, (addOnlineUser_frame user session world).2.1]
  | removeOnlineUser user => rw [perform, (removeOnlineUser_frame user world).2.1]
  | getSessionByUid user => rw [perform, (getSessionByUid_frame user world).2.1]
  | _ => rfl

/-- The exchange leaves a session that was stopped before as it was. -/
theorem sessions_casStop {input : Input} {world : World} {old : Sid}
    (hstopped : world.stopped old = true) (other : Sid) :
    (perform platform input (.casStop old) world).2.sessions other = world.sessions other := by
  rw [perform, World.sessions_updateSession]
  split_ifs with heq
  · subst heq
    unfold World.stopped at hstopped
    rw [← hstopped]
  · rfl

section Steps

variable {op : Op} {next : op.Ret → Handler Unit}

/-- Behind the exchange that stopped it, the old session is the registered one, and was open. -/
theorem Follows.old_of_looked {old : Sid} {looked : CallTrace} {user : Int} (later : CallTrace)
    (hfollows : Follows node uid begun.world state) (hlooked : Looked user (some old) looked)
    (htrace : state.world.trace = later ++ looked) : begun.world.onlineUsers uid = some old := by
  obtain ⟨username, password, rfl⟩ := hlooked
  have hsuffix := hfollows.loggingIn
  rw [htrace] at hsuffix
  obtain rfl := (hsuffix.suffix _ (by simp)).last rfl
  exact hfollows.found old (by rw [htrace]; simp)

theorem Uncrossed.spares (h : Uncrossed node.session uid begun.world)
    (hfollows : Follows node uid begun.world state)
    (hwarrant : Warrants platform node state.world.trace op) (input : Input) :
    Spares node.session uid begun.world state.world (workStep platform input op next state).world := by
  -- the old session, once stopped by the worker, is one the condition is about
  have hstopping : ∀ {old : Sid} {looked : CallTrace} {user : Int} (later : CallTrace),
      Looked user (some old) looked → state.world.trace = later ++ ⟨.casStop old, true⟩ :: looked →
        begun.world.uidOf old = uid ∨ begun.world.uidOf old = begun.world.uidOf node.session := by
    intro old looked user later hlooked htrace
    have hold := hfollows.old_of_looked (later ++ [⟨.casStop old, true⟩]) hlooked
      (by rw [htrace]; simp)
    have hopen := hfollows.exchanged old true (by rw [htrace]; simp)
    exact h.registered old hold (by simpa using hopen.symm)
  refine ⟨fun other hother hsame => ?_, fun user huser hsame => ?_⟩
  · change (perform platform input op state.world).2.sessions other = state.world.sessions other
    have hne : other ≠ node.session := by
      rintro rfl
      exact hsame rfl
    by_cases hcas : op = .casStop other
    · -- the registered session: it is the session of somebody else, so it had been stopped
      subst hcas
      obtain ⟨asked, hlooked⟩ := hwarrant
      have hold := hfollows.old_of_looked [] hlooked rfl
      obtain ⟨username, password, htrace⟩ := hlooked
      obtain ⟨-, -, hstill⟩ := hfollows.still (by rw [htrace]; exact rfl) (by rw [htrace]; simp) hold
      apply sessions_casStop
      rw [hstill]
      by_contra hopen
      rcases h.registered other hold (by simpa using hopen) with huid | huid
      · exact hother huid
      · exact hsame huid
    apply sessions_perform hcas
    · rintro user rfl
      exact hne hwarrant.1
    · rintro rfl
      obtain ⟨asked, looked, hlooked, htrace⟩ := hwarrant
      rcases hstopping [] hlooked htrace with huid | huid
      · exact hother huid
      · exact hsame huid
    · rintro payload sent rfl
      obtain ⟨msgid, msg, before, htrace, hsends, -⟩ := hwarrant
      have hlogging := hfollows.loggingIn
      rw [htrace] at hlogging
      have hbefore : LoggingIn uid before := by
        refine LoggingIn.suffix [⟨.loadStop other payload msgid, false⟩] hlogging ?_
        rintro rfl
        obtain ⟨_, _, hlast⟩ := hlogging
        cases hlast
      exact hne (hbefore.recipient hsends)
  · apply entry_perform
    · rintro session rfl
      exact huser (hfollows.loggingIn.added hwarrant).1
    · rintro rfl
      obtain ⟨-, old, asked, looked, hlooked, htrace⟩ := hwarrant
      have htaken := hfollows.taken old user (by rw [htrace]; exact List.mem_cons_self)
      rcases hstopping [⟨.takeLoginUid old, user⟩] hlooked htrace with huid | huid
      · exact huser (htaken.trans huid)
      · exact hsame (htaken.trans huid)
    · rintro rfl
      exact huser (hfollows.loggingIn.lookup hwarrant).1

end Steps

/-! ### A login that runs alone -/

theorem unhindered_of_alone (session : Sid) (user : Int)
    (hhandling : Handling platform Alone begun state) :
    Handling platform (unhindered session user) begun state := by
  refine hhandling.mono (fun _ => id) fun label state h => ⟨?_, h.2⟩
  rcases h.1 with rfl | ⟨input, rfl⟩
  · trivial
  · exact fun _ _ _ => trivial

/-- What only the login itself changes when no other thread runs. -/
structure Lonely (node : LogicNode) (uid : Int) (begun : World) (state : State) : Prop where
  uids : ∀ other, other ≠ node.session → state.world.uidOf other = begun.uidOf other ∨
    ∃ user, (⟨.takeLoginUid other, user⟩ : Call Op Op.Ret) ∈ state.world.trace
  users : ∀ user, user ≠ uid → state.world.onlineUsers user = begun.onlineUsers user ∨
    (⟨.removeOnlineUser user, ()⟩ : Call Op Op.Ret) ∈ state.world.trace

theorem Lonely.work {input : Input} {op : Op} {next : op.Ret → Handler Unit}
    (h : Lonely node uid begun.world state) (hfollows : Follows node uid begun.world state)
    (hwarrant : Warrants platform node state.world.trace op) :
    Lonely node uid begun.world (workStep platform input op next state) := by
  refine ⟨fun other hne => ?_, fun user hne => ?_⟩
  · rw [trace_workStep]
    by_cases htake : op = .takeLoginUid other
    · subst htake
      exact .inr ⟨_, List.mem_cons_self⟩
    · have hset : ∀ user, op ≠ .setLoginUid other user := by
        rintro user rfl
        exact hne hwarrant.1
      refine (h.uids other hne).imp (fun hsame => ?_) fun ⟨user, hmem⟩ => ?_
      · exact (uidOf_perform platform input op _ other hset htake).trans hsame
      · exact ⟨user, List.mem_cons_of_mem _ hmem⟩
  · rw [trace_workStep]
    by_cases hremove : op = .removeOnlineUser user
    · subst hremove
      exact .inr List.mem_cons_self
    · refine (h.users user hne).imp (fun hsame => ?_) fun hmem => List.mem_cons_of_mem _ hmem
      refine (entry_perform input op _ user ?_ hremove ?_).trans hsame
      · rintro session rfl
        exact hne (hfollows.loggingIn.added hwarrant).1
      · rintro rfl
        exact hne (hfollows.loggingIn.lookup hwarrant).1

theorem Accepted.lonely (h : Accepted platform node uid begun)
    (hhandling : Handling platform Alone begun state) : Lonely node uid begun.world state := by
  have hboth := hhandling.invariant
    (fun state => Follows node uid begun.world state ∧ Lonely node uid begun.world state) h.reach
    ⟨h.follows, fun _ _ => .inl rfl, fun _ _ => .inl rfl⟩ (fun _ hinv => hinv.1.served) ?_ ?_ ?_
  · exact hboth.2.2
  · intro state state' hinv hquiet
    refine ⟨hinv.1.of_quiet hquiet, ?_, ?_⟩
    · rw [hquiet.trace]
      intro other
      rw [hquiet.uidOf]
      exact hinv.2.uids other
    · rw [hquiet.trace, hquiet.onlineUsers]
      exact hinv.2.users
  · exact fun _ _ _ _ hreach hinv _ _ hwarrant =>
      ⟨hinv.1.work h.uid_pos (grounded_of_reaches hreach) hwarrant, hinv.2.work hinv.1 hwarrant⟩
  · intro state thread session pos _ halone
    rcases halone with heq | ⟨input, heq⟩ <;> cases heq

/-- The session that was taken off its user had been found, and was open. -/
theorem Follows.old_of_taken (h : Follows node uid begun.world state)
    (hreach : Reaches platform (fun _ _ => True) state) {old : Sid} {user : Int}
    (hmem : (⟨.takeLoginUid old, user⟩ : Call Op Op.Ret) ∈ state.world.trace) :
    begun.world.onlineUsers uid = some old ∧ begun.world.stopped old = false := by
  obtain ⟨later, before, htrace, asked, looked, hlooked, rfl⟩ := warranted_of_mem hreach h.served hmem
  have hexchanged := h.exchanged old true (by rw [htrace]; simp)
  refine ⟨h.old_of_looked (later ++ [⟨.takeLoginUid old, user⟩, ⟨.casStop old, true⟩]) hlooked ?_, ?_⟩
  · rw [htrace]
    simp
  · simpa using hexchanged.symm

theorem sessions_of_alone {session : Sid}
    (hspares : ∀ state state' input, Handling platform (unhindered session uid) begun state →
      step platform (.work input) state = some state' →
        Spares session uid begun.world state.world state'.world)
    (hhandling : Handling platform Alone begun state) {other : Sid}
    (hother : begun.world.uidOf other ≠ uid)
    (hsame : begun.world.uidOf other ≠ begun.world.uidOf session) :
    state.world.sessions other = begun.world.sessions other := by
  induction hhandling with
  | initial h => rw [h]
  | @next before after label hprior hok hstep ih =>
    rcases hok.1 with rfl | ⟨input, rfl⟩
    · simp only [step] at hstep
      split at hstep
      · obtain rfl := Option.some.inj hstep
        exact ih
      · obtain rfl := Option.some.inj hstep
        exact ih
      · cases hstep
    · have hspared := hspares before after input (unhindered_of_alone session uid hprior) hstep
      exact (hspared.sessions other hother hsame).trans ih

theorem LoginEffect.uncrossed
    (h : LoginEffect platform (unhindered node.session uid) node.session uid begun)
    (haccepted : Accepted platform node uid begun) : Uncrossed node.session uid begun.world := by
  obtain ⟨ended, halone, hidle⟩ := handling_ends platform begun
  have hhandling := unhindered_of_alone node.session uid halone
  obtain ⟨hreach, hfollows, hleaves⟩ := haccepted.run hhandling
  have hlonely := haccepted.lonely halone
  have hinstalled := h.installed ended hhandling hidle
  refine ⟨fun hself => ?_, fun old hold hopen => ?_, fun other hne huid => ?_,
    fun user hne hentry => ?_⟩
  · -- the session would be closed by its own login
    obtain ⟨hstopped, -⟩ := old_closed hfollows hleaves hreach hidle hself haccepted.still_open
    rw [hinstalled.still_open] at hstopped
    cases hstopped
  · -- somebody else would be closed
    by_contra hnot
    obtain ⟨hother, hsame⟩ := not_or.mp hnot
    obtain ⟨hstopped, -⟩ := old_closed hfollows hleaves hreach hidle hold hopen
    have hkept := sessions_of_alone h.spares halone hother hsame
    unfold World.stopped at hstopped hopen
    rw [hkept, hopen] at hstopped
    cases hstopped
  · -- nobody else is taken off the user
    obtain ⟨-, hout⟩ := hinstalled.kicked other hne huid
    rcases hlonely.uids other hne with hkept | ⟨user, hmem⟩
    · exact absurd (huid.symm.trans (hkept.symm.trans hout)) (Int.ne_of_gt haccepted.uid_pos)
    · exact hfollows.old_of_taken hreach hmem
  · -- no other entry is removed
    rcases hlonely.users user hne with hkept | hmem
    · exact absurd (hkept.trans hentry) (hinstalled.only user hne)
    · obtain ⟨later, before, htrace, -, old, asked, looked, -, rfl⟩ :=
        warranted_of_mem hreach hfollows.served hmem
      have htaken : (⟨.takeLoginUid old, user⟩ : Call Op Op.Ret) ∈ ended.world.trace := by
        rw [htrace]
        simp
      obtain ⟨hold, hopen⟩ := hfollows.old_of_taken hreach htaken
      exact ⟨old, hold, hopen, (hfollows.taken old user htaken).symm⟩

/-- **A login takes the uid over**, and leaves the others' sessions and entries alone, exactly when sessions
and map are not crossed before it. -/
theorem login_effect (h : Accepted platform node uid begun) :
    LoginEffect platform (unhindered node.session uid) node.session uid begun ↔
      Uncrossed node.session uid begun.world := by
  refine ⟨fun heffect => heffect.uncrossed h, fun huncrossed => ⟨?_, ?_⟩⟩
  · exact fun state hhandling hidle => huncrossed.installed h hhandling hidle
  · intro state state' input hhandling hstep
    obtain ⟨hreach, hfollows, -⟩ := h.run hhandling
    simp only [step] at hstep
    split at hstep
    · next op next hworker =>
      obtain rfl := Option.some.inj hstep
      obtain ⟨other, hother, hwarrant⟩ := (grounded_of_reaches hreach).warrants hworker
      obtain rfl := Option.some.inj (hfollows.served.symm.trans hother)
      exact huncrossed.spares hfollows hwarrant input
    · cases hstep

/-! ### Two logins -/

/-- The sessions whose login uid has been set. -/
def identified : List Event → List Sid
  | [] => []
  | .did ⟨.setLoginUid session _, _⟩ :: earlier => session :: identified earlier
  | _ :: earlier => identified earlier

theorem identified_suffix (event : Event) (earlier : List Event) :
    identified earlier <:+ identified (event :: earlier) := by
  rw [identified.eq_def (event :: earlier)]
  split
  · contradiction
  · next heq =>
    obtain ⟨-, rfl⟩ := List.cons.inj heq
    exact List.suffix_cons _ _
  · next heq =>
    obtain ⟨-, rfl⟩ := List.cons.inj heq
    exact List.suffix_refl _

theorem mem_identified {ok : Label → State → Prop} (hreach : Reaches platform ok state) {session : Sid}
    (huid : state.world.uidOf session ≠ 0) : session ∈ identified state.world.history := by
  revert session
  apply invariant_of_moves (fun state => ∀ {session : Sid}, state.world.uidOf session ≠ 0 →
    session ∈ identified state.world.history) hreach (fun _ => id)
  · rintro _ ⟨db, -, rfl⟩ session huid
    exact absurd rfl huid
  · intro state state' h hquiet session huid
    rw [hquiet.history]
    rw [hquiet.uidOf] at huid
    exact h huid
  · exact fun state node rest _ h _ session huid => h huid
  · intro state input op next node _ h _ _ _ _ session huid
    rw [history_workStep]
    by_cases hset : ∃ user, op = .setLoginUid session user
    · obtain ⟨user, rfl⟩ := hset
      exact List.mem_cons_self
    · apply (identified_suffix _ _).subset
      by_cases htake : op = .takeLoginUid session
      · subst htake
        exact absurd (uidOf_takeLoginUid platform input state.world session) huid
      · have hsame := uidOf_perform platform input op state.world session
          (fun user heq => hset ⟨user, heq⟩) htake
        exact h fun hzero => huid (hsame.trans hzero)
  · intro state thread other pos _ h _ _ session huid
    rw [history_ioStep]
    by_cases htake : pos = .take ∧ other = session
    · obtain ⟨rfl, rfl⟩ := htake
      exact absurd (uidOf_takeLoginUid platform .idle state.world other) huid
    · rw [uidOf_ioStep htake] at huid
      exact h huid

/-- Ann is logged in on one session and logs in on another. -/
def takeoverScript : List Act :=
  [.accept 0, .accept 1, .post 0 MSG_LOGIN_REQ (credentials "ann"), .serve 7,
    .post 1 MSG_LOGIN_REQ (credentials "ann")]

/-- The last request of a script, when `LoginUser` has answered it. -/
def accepting (script : List Act) : State :=
  Reach.after (step reference) [.dispatch, .work .idle] (played quietDb script)

/-- The user of a login that has been accepted, and has done nothing else. -/
def acceptedFor : CallTrace → Option Int
  | [⟨.loginUser _ _, (true, uid)⟩] => some uid
  | _ => none

/-- What can be computed of a script is one fact, so that the kernel plays the script once. -/
theorem accepted_of_plays {script : List Act} (h : plays (fun _ _ => true) quietDb script = true ∧
      Reach.meets (step reference) (fun _ _ => true) [.dispatch, .work .idle] (played quietDb script)
        = true ∧
      served (accepting script).world.history = some node ∧
      acceptedFor (accepting script).world.trace = some uid ∧
      (accepting script).world.stopped node.session = false) :
    Accepted reference node uid (accepting script) := by
  obtain ⟨hplays, hmeets, hserved, hlogin, hopen⟩ := h
  have hreach : Reaches reference (fun _ _ => True) (accepting script) :=
    ((reachesFrom_of_plays quietDb_wellFormed hplays).trans (.of_enabled rfl hmeets)).mono
      (fun _ h => ⟨quietDb, quietDb_wellFormed, h⟩) fun _ _ => id
  refine ⟨hreach, hserved, ?_, hopen⟩
  revert hlogin
  generalize (accepting script).world.trace = trace
  intro hlogin
  unfold acceptedFor at hlogin
  split at hlogin
  · next username password user =>
    obtain rfl := Option.some.inj hlogin
    exact ⟨username, password, rfl⟩
  · cases hlogin

def takeoverNode : LogicNode := ⟨1, MSG_LOGIN_REQ, render (credentials "ann")⟩

theorem login_effect_takeover :
    LoginEffect reference (unhindered 1 1) 1 1 (accepting takeoverScript) := by
  have haccepted : Accepted reference takeoverNode 1 (accepting takeoverScript) :=
    accepted_of_plays (by decide +kernel)
  obtain ⟨hentry, hopen, huid, hall, hnone⟩ :
      (accepting takeoverScript).world.onlineUsers 1 = some 0 ∧
      (accepting takeoverScript).world.stopped 0 = false ∧
      (accepting takeoverScript).world.uidOf 0 = 1 ∧
      (identified (accepting takeoverScript).world.history).all (· = 0) = true ∧
      (registeredFor takeoverNode.session (accepting takeoverScript).world.history).isEmpty = true := by
    decide +kernel
  refine (login_effect haccepted).mpr ⟨?_, fun old hold _ => ?_, fun other _ hother => ?_,
    fun user hne hregistered => ?_⟩
  · rw [takeoverNode, hentry]
    decide
  · obtain rfl := Option.some.inj (hentry.symm.trans hold)
    exact .inl huid
  · have hmem := mem_identified haccepted.reach (by rw [hother]; decide)
    obtain rfl : other = 0 := by simpa using List.all_eq_true.mp hall other hmem
    exact ⟨hentry, hopen⟩
  · have hmem := mem_registeredFor haccepted.reach hregistered
    rw [List.isEmpty_iff.mp hnone] at hmem
    cases hmem

/-- Ann logs in a second time on the session she is logged in on: the login closes it. -/
theorem login_closes_itself :
    ¬∀ node uid begun, Accepted reference node uid begun →
      LoginEffect reference (undisturbed node.session) node.session uid begun := by
  intro h
  have haccepted : Accepted reference annNode 1 (accepting secondLoginScript) :=
    accepted_of_plays (by decide +kernel)
  have hhandling : Handling reference (undisturbed annNode.session) (accepting secondLoginScript)
      (Reach.after (step reference) (serving 8) (accepting secondLoginScript)) :=
    handling_of_meets (fun label hlabel => ⟨(mem_serving hlabel).1, fun state =>
      opsMeet_of_test (fun _ _ => trivial) (fun _ _ h => (by cases h)) (mem_serving hlabel).2⟩)
      (by decide +kernel : Reach.meets (step reference) (testOps (fun _ _ => true) fun _ _ => false)
        (serving 8) (accepting secondLoginScript) = true)
  have hopen := ((h _ _ _ haccepted).installed _ hhandling
    (Option.isNone_iff_eq_none.mp (by decide +kernel))).still_open
  revert hopen
  decide +kernel

end CoroutineServer
