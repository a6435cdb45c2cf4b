import CoroutineServer.Proof.Handlers

/-!
# Runs of the server

What every reachable state satisfies: the database is well formed, and the running handler follows its
outline. An invariant of the runs is then shown for four kinds of steps, each with all that is known
when it happens.
-/

namespace CoroutineServer

open Program CSession

variable {platform : Platform}

namespace World

def stopped (world : World) (session : Sid) : Bool := (world.sessions session).bStop

def uidOf (world : World) (session : Sid) : Int := (world.sessions session).loginUid

/-- The calls of the handler that runs, or ran last. -/
def trace (world : World) : CallTrace := handlerTrace world.history

@[simp]
theorem trace_did (world : World) (call : Call Op Op.Ret) :
    (world.record (.did call)).trace = call :: world.trace := rfl

@[simp]
theorem trace_dispatched (world : World) (node : LogicNode) :
    (world.record (.dispatched node)).trace = [] := rfl

@[simp]
theorem history_record (world : World) (event : Event) :
    (world.record event).history = event :: world.history := rfl

@[simp]
theorem stopped_record (world : World) (event : Event) (session : Sid) :
    (world.record event).stopped session = world.stopped session := rfl

@[simp]
theorem uidOf_record (world : World) (event : Event) (session : Sid) :
    (world.record event).uidOf session = world.uidOf session := rfl

@[simp]
theorem onlineUsers_record (world : World) (event : Event) :
    (world.record event).onlineUsers = world.onlineUsers := rfl

@[simp]
theorem db_record (world : World) (event : Event) : (world.record event).db = world.db := rfl

theorem sessions_updateSession (world : World) (session other : Sid) (change : Session → Session) :
    (world.updateSession session change).sessions other
      = if other = session then change (world.sessions other) else world.sessions other := by
  unfold updateSession
  dsimp only
  rw [Function.update_apply]
  split
  · rename_i heq
    rw [heq]
  · rfl

end World

/-- Two worlds that differ in the online map at most. -/
def SameButOnline (world world' : World) : Prop :=
  world'.db = world.db ∧ world'.sessions = world.sessions ∧ world'.history = world.history

theorem addOnlineUser_frame (uid : Int) (session : Sid) (world : World) :
    SameButOnline world (UserManager.addOnlineUser uid session world) := by
  unfold UserManager.addOnlineUser
  split_ifs <;> exact ⟨rfl, rfl, rfl⟩

theorem removeOnlineUser_frame (uid : Int) (world : World) :
    SameButOnline world (UserManager.removeOnlineUser uid world) := by
  unfold UserManager.removeOnlineUser
  split_ifs <;> exact ⟨rfl, rfl, rfl⟩

theorem getSessionByUid_frame (uid : Int) (world : World) :
    SameButOnline world (UserManager.getSessionByUid uid world).2 := by
  unfold UserManager.getSessionByUid
  split_ifs
  · exact ⟨rfl, rfl, rfl⟩
  · split
    · exact ⟨rfl, rfl, rfl⟩
    · split_ifs <;> exact ⟨rfl, rfl, rfl⟩

theorem onlineUsers_addOnlineUser {uid : Int} (huid : 0 < uid) (session : Sid) (world : World) :
    (UserManager.addOnlineUser uid session world).onlineUsers
      = Function.update world.onlineUsers uid (some session) := by
  unfold UserManager.addOnlineUser
  rw [if_neg (by omega)]

theorem onlineUsers_removeOnlineUser {uid : Int} (huid : 0 < uid) (world : World) :
    (UserManager.removeOnlineUser uid world).onlineUsers
      = Function.update world.onlineUsers uid none := by
  unfold UserManager.removeOnlineUser
  rw [if_neg (by omega)]

/-- A lookup either finds the live session of the entry, or finds none and leaves no entry. -/
theorem getSessionByUid_cases {uid : Int} (huid : 0 < uid) (world : World) :
    (∃ session, world.onlineUsers uid = some session ∧ (world.sessions session).expired = false ∧
      UserManager.getSessionByUid uid world = (some session, world)) ∨
    (∃ world', UserManager.getSessionByUid uid world = (none, world') ∧
      world'.onlineUsers = Function.update world.onlineUsers uid none ∧
      ∀ session, world.onlineUsers uid = some session → (world.sessions session).expired = true) := by
  unfold UserManager.getSessionByUid
  rw [if_neg (by omega)]
  cases honline : world.onlineUsers uid with
  | none =>
    refine .inr ⟨world, rfl, ?_, by simp⟩
    rw [← honline, Function.update_eq_self]
  | some session =>
    dsimp only
    split_ifs with hexpired
    · refine .inr ⟨_, rfl, rfl, ?_⟩
      rintro other hother
      obtain rfl := Option.some.inj hother
      exact hexpired
    · exact .inl ⟨session, rfl, by simpa using hexpired, rfl⟩

theorem online_of_getSessionByUid {uid : Int} {session : Sid} {world : World}
    (h : (UserManager.getSessionByUid uid world).1 = some session) :
    world.onlineUsers uid = some session := by
  by_cases huid : 0 < uid
  · rcases getSessionByUid_cases huid world with ⟨other, honline, -, heq⟩ | ⟨world', heq, -⟩
    · rw [heq] at h
      rwa [← Option.some.inj h]
    · rw [heq] at h
      cases h
  · unfold UserManager.getSessionByUid at h
    rw [if_pos (by omega)] at h
    cases h

/-! ### Operations on the parts of the state -/

section Perform

variable (platform : Platform) (input : Input) (op : Op) (world : World)

theorem pushFrame_eq (session : Sid) (frame : Queued) :
    (pushFrame session frame world).2 = world ∨
      (pushFrame session frame world).2
        = world.updateSession session fun s => { s with sendQue := s.sendQue ++ [frame] } := by
  unfold pushFrame
  split_ifs
  · exact .inl rfl
  · exact .inr rfl

theorem perform_history : (perform platform input op world).2.history = world.history := by
  cases op with
  | push session payload node =>
    rcases pushFrame_eq world session ⟨node, payload⟩ with h | h
    · rw [perform, h]
    · rw [perform, h]
      rfl
  | addOnlineUser uid session => exact (addOnlineUser_frame uid session world).2.2
  | removeOnlineUser uid => exact (removeOnlineUser_frame uid world).2.2
  | getSessionByUid uid => exact (getSessionByUid_frame uid world).2.2
  | _ => rfl

@[simp]
theorem trace_perform : (perform platform input op world).2.trace = world.trace := by
  unfold World.trace
  rw [perform_history]

/-- A session keeps all but its send queue in every operation but those of login and `Close`. -/
theorem session_perform (session : Sid) (hcas : op ≠ .casStop session)
    (hset : ∀ uid, op ≠ .setLoginUid session uid) (htake : op ≠ .takeLoginUid session) :
    ∃ sendQue, (perform platform input op world).2.sessions session
      = { world.sessions session with sendQue } := by
  cases op with
  | setLoginUid other uid =>
    rw [perform, World.sessions_updateSession, if_neg (by rintro rfl; exact hset uid rfl)]
    exact ⟨_, rfl⟩
  | takeLoginUid other =>
    rw [perform, World.sessions_updateSession, if_neg (by rintro rfl; exact htake rfl)]
    exact ⟨_, rfl⟩
  | casStop other =>
    rw [perform, World.sessions_updateSession, if_neg (by rintro rfl; exact hcas rfl)]
    exact ⟨_, rfl⟩
  | push other payload node =>
    rcases pushFrame_eq world other ⟨node, payload⟩ with h | h
    · rw [perform, h]
      exact ⟨_, rfl⟩
    · rw [perform, h, World.sessions_updateSession]
      split <;> exact ⟨_, rfl⟩
  | addOnlineUser uid other =>
    rw [perform, (addOnlineUser_frame uid other world).2.1]
    exact ⟨_, rfl⟩
  | removeOnlineUser uid =>
    rw [perform, (removeOnlineUser_frame uid world).2.1]
    exact ⟨_, rfl⟩
  | getSessionByUid uid =>
    rw [perform, (getSessionByUid_frame uid world).2.1]
    exact ⟨_, rfl⟩
  | _ => exact ⟨_, rfl⟩

theorem stopped_perform (session : Sid) (hop : op ≠ .casStop session) :
    (perform platform input op world).2.stopped session = world.stopped session := by
  unfold World.stopped
  by_cases hset : ∃ uid, op = .setLoginUid session uid
  · obtain ⟨uid, rfl⟩ := hset
    rw [perform, World.sessions_updateSession, if_pos rfl]
  by_cases htake : op = .takeLoginUid session
  · rw [htake, perform, World.sessions_updateSession, if_pos rfl]
  obtain ⟨sendQue, h⟩ := session_perform platform input op world session hop
    (fun uid h => hset ⟨uid, h⟩) htake
  rw [h]

theorem stopped_casStop (session : Sid) :
    (perform platform input (.casStop session) world).2.stopped session = true := by
  unfold World.stopped
  rw [perform, World.sessions_updateSession, if_pos rfl]

/-- Stopping is for good. -/
theorem stopped_perform_mono {session : Sid} (h : world.stopped session = true) :
    (perform platform input op world).2.stopped session = true := by
  by_cases hop : op = .casStop session
  · rw [hop]
    exact stopped_casStop platform input world session
  · rw [stopped_perform platform input op world session hop]
    exact h

theorem uidOf_perform (session : Sid) (hset : ∀ uid, op ≠ .setLoginUid session uid)
    (htake : op ≠ .takeLoginUid session) :
    (perform platform input op world).2.uidOf session = world.uidOf session := by
  unfold World.uidOf
  by_cases hcas : op = .casStop session
  · rw [hcas, perform, World.sessions_updateSession, if_pos rfl]
  obtain ⟨sendQue, h⟩ := session_perform platform input op world session hcas hset htake
  rw [h]

theorem uidOf_setLoginUid (session : Sid) (uid : Int) :
    (perform platform input (.setLoginUid session uid) world).2.uidOf session = uid := by
  unfold World.uidOf
  rw [perform, World.sessions_updateSession, if_pos rfl]

theorem uidOf_takeLoginUid (session : Sid) :
    (perform platform input (.takeLoginUid session) world).2.uidOf session = 0 := by
  unfold World.uidOf
  rw [perform, World.sessions_updateSession, if_pos rfl]

theorem expired_perform (session : Sid) :
    ((perform platform input op world).2.sessions session).expired
      = (world.sessions session).expired := by
  by_cases hcas : op = .casStop session
  · rw [hcas, perform, World.sessions_updateSession, if_pos rfl]
  by_cases hset : ∃ uid, op = .setLoginUid session uid
  · obtain ⟨uid, rfl⟩ := hset
    rw [perform, World.sessions_updateSession, if_pos rfl]
  by_cases htake : op = .takeLoginUid session
  · rw [htake, perform, World.sessions_updateSession, if_pos rfl]
  obtain ⟨sendQue, h⟩ := session_perform platform input op world session hcas
    (fun uid h => hset ⟨uid, h⟩) htake
  rw [h]

theorem onlineUsers_perform (hadd : ∀ uid session, op ≠ .addOnlineUser uid session)
    (hremove : ∀ uid, op ≠ .removeOnlineUser uid) (hget : ∀ uid, op ≠ .getSessionByUid uid) :
    (perform platform input op world).2.onlineUsers = world.onlineUsers := by
  cases op with
  | push session payload node =>
    rcases pushFrame_eq world session ⟨node, payload⟩ with h | h
    · rw [perform, h]
    · rw [perform, h]
      rfl
  | addOnlineUser uid session => exact absurd rfl (hadd uid session)
  | removeOnlineUser uid => exact absurd rfl (hremove uid)
  | getSessionByUid uid => exact absurd rfl (hget uid)
  | _ => rfl

/-- An entry of the online map is made by a login, and stays until it is removed. -/
theorem onlineUsers_perform_eq_some {uid : Int} {session : Sid}
    (h : (perform platform input op world).2.onlineUsers uid = some session) :
    op = .addOnlineUser uid session ∧ 0 < uid ∨
      world.onlineUsers uid = some session ∧ (op = .removeOnlineUser uid → uid ≤ 0) ∧
        ∀ other, op = .addOnlineUser uid other → uid ≤ 0 := by
  by_cases hadd : ∃ user other, op = .addOnlineUser user other
  · obtain ⟨user, other, rfl⟩ := hadd
    rw [perform] at h
    by_cases huser : 0 < user
    · rw [onlineUsers_addOnlineUser huser, Function.update_apply] at h
      split_ifs at h with heq
      · obtain rfl := Option.some.inj h
        subst heq
        exact .inl ⟨rfl, huser⟩
      · refine .inr ⟨h, by simp, fun other hop => absurd ?_ heq⟩
        exact (Op.addOnlineUser.inj hop).1.symm
    · unfold UserManager.addOnlineUser at h
      rw [if_pos (by omega)] at h
      refine .inr ⟨h, by simp, fun other hop => ?_⟩
      rw [← (Op.addOnlineUser.inj hop).1]
      omega
  have hnoAdd : ∀ other, op = .addOnlineUser uid other → uid ≤ 0 :=
    fun other hop => absurd ⟨uid, other, hop⟩ hadd
  by_cases hremove : ∃ user, op = .removeOnlineUser user
  · obtain ⟨user, rfl⟩ := hremove
    rw [perform] at h
    by_cases huser : 0 < user
    · rw [onlineUsers_removeOnlineUser huser, Function.update_apply] at h
      split_ifs at h with heq
      exact .inr ⟨h, fun hop => absurd (Op.removeOnlineUser.inj hop).symm heq, hnoAdd⟩
    · unfold UserManager.removeOnlineUser at h
      rw [if_pos (by omega)] at h
      refine .inr ⟨h, fun hop => ?_, hnoAdd⟩
      rw [← Op.removeOnlineUser.inj hop]
      omega
  have hnoRemove : op = .removeOnlineUser uid → uid ≤ 0 := fun hop => absurd ⟨uid, hop⟩ hremove
  refine .inr ⟨?_, hnoRemove, hnoAdd⟩
  by_cases hget : ∃ user, op = .getSessionByUid user
  · obtain ⟨user, rfl⟩ := hget
    rw [perform] at h
    by_cases huser : 0 < user
    · rcases getSessionByUid_cases huser world with ⟨other, -, -, heq⟩ | ⟨world', heq, honline, -⟩
      · rwa [heq] at h
      · rw [heq, honline, Function.update_apply] at h
        split_ifs at h
        exact h
    · unfold UserManager.getSessionByUid at h
      rwa [if_pos (by omega)] at h
  · rwa [onlineUsers_perform platform input op world (fun user other hop => hadd ⟨user, other, hop⟩)
      (fun user hop => hremove ⟨user, hop⟩) (fun user hop => hget ⟨user, hop⟩)] at h

theorem db_perform (hregister : ∀ username password, op ≠ .registerUser username password)
    (hfriend : ∀ uid friendUid, op ≠ .addFriend uid friendUid)
    (hsave : ∀ fromUid toUid content timestamp, op ≠ .saveMessage fromUid toUid content timestamp)
    (hoffline : ∀ uid, op ≠ .getOfflineMessages uid) :
    (perform platform input op world).2.db = world.db := by
  cases op with
  | push session payload node =>
    rcases pushFrame_eq world session ⟨node, payload⟩ with h | h
    · rw [perform, h]
    · rw [perform, h]
      rfl
  | addOnlineUser uid session => exact (addOnlineUser_frame uid session world).1
  | removeOnlineUser uid => exact (removeOnlineUser_frame uid world).1
  | getSessionByUid uid => exact (getSessionByUid_frame uid world).1
  | registerUser username password => exact absurd rfl (hregister username password)
  | addFriend uid friendUid => exact absurd rfl (hfriend uid friendUid)
  | saveMessage fromUid toUid content timestamp =>
    exact absurd rfl (hsave fromUid toUid content timestamp)
  | getOfflineMessages uid => exact absurd rfl (hoffline uid)
  | _ => rfl

theorem db_perform_wellFormed {node : LogicNode} {trace : CallTrace} (hdb : world.db.WellFormed)
    (hwarrant : Warrants platform node trace op) :
    (perform platform input op world).2.db.WellFormed := by
  cases op with
  | registerUser username password => exact hdb.registerUser username password
  | addFriend uid friendUid => exact hdb.addFriend uid friendUid
  | saveMessage fromUid toUid content timestamp =>
    obtain ⟨-, ⟨hcontent, -⟩, tm, rfl, -⟩ := hwarrant
    exact hdb.saveMessage hcontent (strftime_valid tm)
  | getOfflineMessages uid => exact hdb.getOfflineMessages uid
  | _ => rwa [db_perform] <;> intros <;> simp

theorem admits_perform (hdb : world.db.WellFormed) :
    Admits op (perform platform input op world).1 := by
  cases op with
  | loginUser username password =>
    change Admits (.loginUser username password)
      (DBManager.loginUser platform input.sqlite username password world.db)
    cases hlogin : DBManager.loginUser platform input.sqlite username password world.db with
    | mk ok uid =>
      rintro rfl
      obtain ⟨user, hmem, rfl⟩ := DBManager.loginUser_eq_true hlogin
      exact hdb.uid_pos user hmem
  | getOfflineMessages uid =>
    intro row hrow
    obtain ⟨hmem, hto, hundelivered⟩ := DBManager.mem_getOfflineMessages hrow
    exact ⟨hto, hundelivered, hdb.content_valid row hmem, hdb.timestamp_valid row hmem⟩
  | _ => trivial

end Perform

/-! ### Operations of the threads on the parts of the state -/

section Threads

variable (platform : Platform) (input : Input) (op : Op) (next : op.Ret → Handler Unit)
variable (thread : Nat) (session : Sid) (pos : ClosePos) (state : State)

theorem history_workStep : (workStep platform input op next state).world.history
    = .did ⟨op, (perform platform input op state.world).1⟩ :: state.world.history := by
  unfold workStep
  dsimp only
  rw [World.history_record, perform_history]

theorem trace_workStep : (workStep platform input op next state).world.trace
    = ⟨op, (perform platform input op state.world).1⟩ :: state.world.trace := by
  unfold workStep
  dsimp only
  rw [World.trace_did, trace_perform]

theorem history_ioStep :
    (ioStep platform thread session pos state).world.history = state.world.history :=
  perform_history platform .idle (pos.op session) state.world

theorem trace_ioStep : (ioStep platform thread session pos state).world.trace = state.world.trace :=
  trace_perform platform .idle (pos.op session) state.world

theorem db_ioStep : (ioStep platform thread session pos state).world.db = state.world.db := by
  unfold ioStep
  dsimp only
  cases pos <;> rw [db_perform] <;> intros <;> simp [ClosePos.op]

theorem closers_ioStep (other : Nat) :
    (ioStep platform thread session pos state).closers other
      = if other = thread then ((pos.next session
          (perform platform .idle (pos.op session) state.world).1).map (session, ·))
        else state.closers other := by
  unfold ioStep
  dsimp only
  rw [Function.update_apply]

end Threads

/-! ### What is known of every reached state -/

/-- The facts that need no further history: the database, the running handler against its outline, what
its calls returned, and the two places where a stopped session shows. -/
structure Grounded (platform : Platform) (state : State) : Prop where
  db : state.world.db.WellFormed
  running : ∀ handler, state.worker = some handler →
    ∃ node, served state.world.history = some node ∧
      Outlined platform node handler state.world.trace
  finished : state.worker = none → ∀ node, served state.world.history = some node →
    Finished platform node state.world.trace
  unserved : served state.world.history = none → state.world.trace = []
  admitted : ∀ call ∈ state.world.trace, Admits call.1 call.2
  expired : ∀ session, (state.world.sessions session).expired = true →
    state.world.stopped session = true
  closing : ∀ thread session pos, state.closers thread = some (session, pos) → pos ≠ .exchange →
    state.world.stopped session = true

/-- A step in which neither the worker nor a `Close` performs an operation. -/
structure Quiet (state state' : State) : Prop where
  db : state'.world.db = state.world.db
  onlineUsers : state'.world.onlineUsers = state.world.onlineUsers
  history : state'.world.history = state.world.history
  stopped : ∀ session, state'.world.stopped session = state.world.stopped session
  uidOf : ∀ session, state'.world.uidOf session = state.world.uidOf session
  kept : ∀ thread closer, state.closers thread = some closer → state'.closers thread = some closer
  called : ∀ thread session pos, state'.closers thread = some (session, pos) → pos ≠ .exchange →
    state.closers thread = some (session, pos)
  queued : ∀ session, (state'.world.sessions session).sendQue.length
    ≤ (state.world.sessions session).sendQue.length

theorem Quiet.trace {state state' : State} (h : Quiet state state') :
    state'.world.trace = state.world.trace := by
  unfold World.trace
  rw [h.history]

theorem quiet_updateSession {state : State} {session : Sid} {change : Session → Session}
    (hstop : (change (state.world.sessions session)).bStop = (state.world.sessions session).bStop)
    (huid : (change (state.world.sessions session)).loginUid
      = (state.world.sessions session).loginUid)
    (hque : (change (state.world.sessions session)).sendQue.length
      ≤ (state.world.sessions session).sendQue.length) :
    Quiet state { state with world := state.world.updateSession session change } := by
  refine ⟨rfl, rfl, rfl, fun other => ?_, fun other => ?_, fun _ _ h => h, fun _ _ _ h _ => h,
    fun other => ?_⟩
  · unfold World.stopped
    rw [World.sessions_updateSession]
    split_ifs with heq
    · rw [heq, hstop]
    · rfl
  · unfold World.uidOf
    rw [World.sessions_updateSession]
    split_ifs with heq
    · rw [heq, huid]
    · rfl
  · rw [World.sessions_updateSession]
    split_ifs with heq
    · rw [heq]
      exact hque
    · exact Nat.le_refl _

/-- The four kinds of steps. -/
inductive Moved (platform : Platform) : Label → State → State → Prop where
  | quiet {label : Label} {state state' : State} (hquiet : Quiet state state')
      (hworker : state'.worker = state.worker ∨ state'.worker = none ∧
        ((∃ value, state.worker = some (.ret value)) ∨ ∃ what, state.worker = some (.throw what)))
      (hexpired : ∀ session, (state'.world.sessions session).expired = true →
        (state.world.sessions session).expired = true ∨ state.world.stopped session = true) :
      Moved platform label state state'
  | dispatch {state : State} {node : LogicNode} {rest : List LogicNode} (hidle : state.worker = none) :
      Moved platform .dispatch state { state with
        world := state.world.record (.dispatched node)
        msgQue := rest
        worker := LogicSystem.callback platform node }
  | work {state : State} {input : Input} {op : Op} {next : op.Ret → Handler Unit}
      (hworker : state.worker = some (.perform op next)) :
      Moved platform (.work input) state (workStep platform input op next state)
  | io {state : State} {thread : Nat} {session : Sid} {pos : ClosePos}
      (hcloser : state.closers thread = some (session, pos)) :
      Moved platform (.io thread) state (ioStep platform thread session pos state)

theorem moved_of_step {label : Label} {state state' : State}
    (hstep : step platform label state = some state') : Moved platform label state state' := by
  cases label with
  | accept session =>
    rw [step] at hstep
    split_ifs at hstep
    obtain rfl := Option.some.inj hstep
    refine .quiet (quiet_updateSession rfl rfl (Nat.le_refl _)) (.inl rfl) fun other hother => ?_
    rw [World.sessions_updateSession] at hother
    split_ifs at hother <;> exact .inl hother
  | post node =>
    rw [step] at hstep
    have hsame : ∀ msgQue, Quiet state { state with msgQue } := fun _ =>
      ⟨rfl, rfl, rfl, fun _ => rfl, fun _ => rfl, fun _ _ h => h, fun _ _ _ h _ => h,
        fun _ => Nat.le_refl _⟩
    split_ifs at hstep
    · obtain rfl := Option.some.inj hstep
      exact .quiet (hsame _) (.inl rfl) fun _ h => .inl h
    · obtain rfl := Option.some.inj hstep
      exact .quiet (hsame _) (.inl rfl) fun _ h => .inl h
  | dispatch =>
    rw [step] at hstep
    split at hstep
    · rename_i hidle hque
      obtain rfl := Option.some.inj hstep
      exact .dispatch hidle
    · cases hstep
  | work input =>
    rw [step] at hstep
    split at hstep
    · rename_i hworker
      obtain rfl := Option.some.inj hstep
      exact .work hworker
    · cases hstep
  | finish =>
    rw [step] at hstep
    have hsame : Quiet state { state with worker := none } :=
      ⟨rfl, rfl, rfl, fun _ => rfl, fun _ => rfl, fun _ _ h => h, fun _ _ _ h _ => h,
        fun _ => Nat.le_refl _⟩
    split at hstep
    · rename_i value hworker
      obtain rfl := Option.some.inj hstep
      exact .quiet hsame (.inr ⟨rfl, .inl ⟨value, hworker⟩⟩) fun _ h => .inl h
    · rename_i what hworker
      obtain rfl := Option.some.inj hstep
      exact .quiet hsame (.inr ⟨rfl, .inr ⟨what, hworker⟩⟩) fun _ h => .inl h
    · cases hstep
  | closeCall thread session =>
    rw [step] at hstep
    split_ifs at hstep with hguard
    obtain rfl := Option.some.inj hstep
    refine .quiet ⟨rfl, rfl, rfl, fun _ => rfl, fun _ => rfl, ?_, ?_, fun _ => Nat.le_refl _⟩ (.inl rfl)
      fun _ h => .inl h
    · intro other closer hother
      dsimp only
      rw [Function.update_apply, if_neg]
      · exact hother
      · rintro rfl
        rw [hguard.2] at hother
        cases hother
    · intro other session' pos hother hpos
      dsimp only at hother
      rw [Function.update_apply] at hother
      split_ifs at hother
      · obtain ⟨-, rfl⟩ := Prod.mk.inj (Option.some.inj hother)
        exact absurd rfl hpos
      · exact hother
  | io thread =>
    rw [step] at hstep
    split at hstep
    · rename_i session pos hcloser
      obtain rfl := Option.some.inj hstep
      exact .io hcloser
    · cases hstep
  | written session =>
    rw [step] at hstep
    split at hstep
    · cases hstep
    · next head rest hque =>
      obtain rfl := Option.some.inj hstep
      have hless : rest.length ≤ (state.world.sessions session).sendQue.length := by
        rw [hque]
        exact Nat.le_succ _
      refine .quiet (quiet_updateSession rfl rfl hless) (.inl rfl) fun other hother => ?_
      rw [World.sessions_updateSession] at hother
      split_ifs at hother <;> exact .inl hother
  | expire session =>
    rw [step] at hstep
    split_ifs at hstep with hstop
    obtain rfl := Option.some.inj hstep
    refine .quiet (quiet_updateSession rfl rfl (Nat.le_refl _)) (.inl rfl) fun other hother => ?_
    rw [World.sessions_updateSession] at hother
    split_ifs at hother with heq
    · exact .inr (heq ▸ hstop)
    · exact .inl hother

theorem Grounded.warrants {state : State} {op : Op} {next : op.Ret → Handler Unit}
    (h : Grounded platform state) (hworker : state.worker = some (.perform op next)) :
    ∃ node, served state.world.history = some node ∧
      Warrants platform node state.world.trace op := by
  obtain ⟨node, hserved, houtline⟩ := h.running _ hworker
  exact ⟨node, hserved, houtline.1⟩

theorem grounded_initial {db : Db} (hdb : db.WellFormed) : Grounded platform (.initial db) where
  db := hdb
  running := fun handler hhandler => by cases hhandler
  finished := fun _ node hnode => by cases hnode
  unserved := fun _ => rfl
  admitted := fun call hcall => by cases hcall
  expired := fun session hsession => by cases hsession
  closing := fun thread session pos hcloser => by cases hcloser

namespace Grounded

theorem quiet {state state' : State} (h : Grounded platform state) (hquiet : Quiet state state')
    (hworker : state'.worker = state.worker ∨ state'.worker = none ∧
      ((∃ value, state.worker = some (.ret value)) ∨ ∃ what, state.worker = some (.throw what)))
    (hexpired : ∀ session, (state'.world.sessions session).expired = true →
      (state.world.sessions session).expired = true ∨ state.world.stopped session = true) :
    Grounded platform state' := by
  refine ⟨?_, ?_, ?_, ?_, ?_, ?_, ?_⟩
  · rw [hquiet.db]
    exact h.db
  · intro handler hhandler
    rw [hquiet.history, hquiet.trace]
    rcases hworker with hsame | ⟨hnone, -⟩
    · exact h.running handler (hsame ▸ hhandler)
    · rw [hnone] at hhandler
      cases hhandler
  · intro hidle node hserved
    rw [hquiet.history] at hserved
    rw [hquiet.trace]
    rcases hworker with hsame | ⟨-, ⟨value, hret⟩ | ⟨what, hthrow⟩⟩
    · exact h.finished (hsame ▸ hidle) node hserved
    · obtain ⟨other, hother, houtline⟩ := h.running _ hret
      obtain rfl := Option.some.inj (hserved.symm.trans hother)
      exact houtline
    · obtain ⟨other, -, houtline⟩ := h.running _ hthrow
      exact houtline.elim
  · intro hserved
    rw [hquiet.trace]
    exact h.unserved (hquiet.history ▸ hserved)
  · rw [hquiet.trace]
    exact h.admitted
  · intro session hsession
    rw [hquiet.stopped]
    rcases hexpired session hsession with hsession | hsession
    · exact h.expired session hsession
    · exact hsession
  · intro thread session pos hcloser hpos
    rw [hquiet.stopped]
    exact h.closing thread session pos (hquiet.called thread session pos hcloser hpos) hpos

theorem dispatch {state : State} {node : LogicNode} {rest : List LogicNode}
    (h : Grounded platform state) :
    Grounded platform { state with
      world := state.world.record (.dispatched node)
      msgQue := rest
      worker := LogicSystem.callback platform node } := by
  refine ⟨h.db, ?_, ?_, ?_, fun call hcall => ?_, h.expired, h.closing⟩
  · intro handler hhandler
    exact ⟨node, rfl, callback_outline hhandler⟩
  · intro hnone other hother
    obtain rfl := Option.some.inj hother
    exact .inl ⟨rfl, responseId_of_callback_none hnone⟩
  · intro hserved
    cases hserved
  · cases hcall

theorem work {state : State} {input : Input} {op : Op} {next : op.Ret → Handler Unit}
    (h : Grounded platform state) (hworker : state.worker = some (.perform op next)) :
    Grounded platform (workStep platform input op next state) := by
  obtain ⟨node, hserved, houtline⟩ := h.running _ hworker
  have hadmits := admits_perform platform input op state.world h.db
  obtain ⟨hwarrant, hnext⟩ := houtline.step hadmits
  have hserved' : served (workStep platform input op next state).world.history = some node := by
    rw [history_workStep]
    exact hserved
  refine ⟨db_perform_wellFormed platform input op state.world h.db hwarrant, ?_, ?_, ?_, ?_, ?_, ?_⟩
  · intro handler hhandler
    obtain rfl := Option.some.inj hhandler
    refine ⟨node, hserved', ?_⟩
    rw [trace_workStep]
    exact hnext
  · intro hnone
    cases hnone
  · intro hnone
    exact absurd (hserved'.symm.trans hnone) (by simp)
  · intro call hcall
    rw [trace_workStep] at hcall
    rcases List.mem_cons.mp hcall with rfl | hcall
    · exact hadmits
    · exact h.admitted call hcall
  · intro session hsession
    refine stopped_perform_mono platform input op state.world (h.expired session ?_)
    rwa [← expired_perform platform input op state.world session]
  · intro thread session pos hcloser hpos
    exact stopped_perform_mono platform input op state.world (h.closing thread session pos hcloser hpos)

/-- A thread that stands behind the exchange has stopped its session. -/
theorem io {state : State} {thread : Nat} {session : Sid} {pos : ClosePos}
    (h : Grounded platform state) (hcloser : state.closers thread = some (session, pos)) :
    Grounded platform (ioStep platform thread session pos state) := by
  have hhistory := history_ioStep platform thread session pos state
  have htrace := trace_ioStep platform thread session pos state
  refine ⟨?_, ?_, ?_, ?_, ?_, ?_, ?_⟩
  · rw [db_ioStep]
    exact h.db
  · intro handler hhandler
    rw [hhistory, htrace]
    exact h.running handler hhandler
  · intro hidle node hserved
    rw [htrace]
    exact h.finished hidle node (hhistory ▸ hserved)
  · intro hserved
    rw [htrace]
    exact h.unserved (hhistory ▸ hserved)
  · rw [htrace]
    exact h.admitted
  · intro other hother
    refine stopped_perform_mono platform .idle (pos.op session) state.world (h.expired other ?_)
    rwa [← expired_perform platform .idle (pos.op session) state.world other]
  · intro other session' pos' hcloser' hpos'
    rw [closers_ioStep] at hcloser'
    split_ifs at hcloser'
    · -- the thread itself: behind the exchange its session has been stopped
      obtain ⟨next, hnext, heq⟩ := Option.map_eq_some_iff.mp hcloser'
      obtain ⟨rfl, rfl⟩ := Prod.mk.inj heq
      by_cases hexchange : pos = .exchange
      · subst hexchange
        exact stopped_casStop platform .idle state.world session
      · exact stopped_perform_mono platform .idle _ state.world
          (h.closing thread session pos hcloser hexchange)
    · exact stopped_perform_mono platform .idle _ state.world
        (h.closing other session' pos' hcloser' hpos')

end Grounded

theorem grounded_moved {label : Label} {state state' : State} (h : Grounded platform state)
    (hmoved : Moved platform label state state') : Grounded platform state' := by
  cases hmoved with
  | quiet hquiet hworker hexpired => exact h.quiet hquiet hworker hexpired
  | dispatch => exact h.dispatch
  | work hworker => exact h.work hworker
  | io hcloser => exact h.io hcloser

theorem grounded_of_reaches {ok : Label → State → Prop} {state : State}
    (hreach : Reaches platform ok state) : Grounded platform state := by
  apply hreach.invariant (fun _ => True) (fun _ _ => trivial)
  · rintro state ⟨db, hdb, rfl⟩
    exact grounded_initial hdb
  · intro state state' label _ h _ hstep
    exact grounded_moved h (moved_of_step hstep)

/-- **Invariants of the runs**, by the four kinds of steps. Each starts in a state that is itself
reached, so whatever is known of reached states holds of it. -/
theorem invariant_of_moves {ok : Label → State → Prop} {Start : State → Prop} {state : State}
    (Inv : State → Prop) (hreach : Reach.Reaches (step platform) Start ok state)
    (hstart : ∀ state, Start state → Initial state) (hinitial : ∀ state, Start state → Inv state)
    (hquiet : ∀ state state', Inv state → Quiet state state' → Inv state')
    (hdispatch : ∀ state node rest, Reaches platform ok state → Inv state → state.worker = none →
      Inv { state with
        world := state.world.record (.dispatched node)
        msgQue := rest
        worker := LogicSystem.callback platform node })
    (hwork : ∀ state input op next node, Reaches platform ok state → Inv state →
      ok (.work input) state → state.worker = some (.perform op next) →
      served state.world.history = some node → Warrants platform node state.world.trace op →
      Inv (workStep platform input op next state))
    (hio : ∀ state thread session pos, Reaches platform ok state → Inv state →
      ok (.io thread) state → state.closers thread = some (session, pos) →
      Inv (ioStep platform thread session pos state)) :
    Inv state := by
  apply hreach.invariant (Reaches platform ok) (fun _ h => h.mono hstart fun _ _ => id) hinitial
  intro state state' label hreach hinv hok hstep
  cases moved_of_step hstep with
  | quiet hmoved _ _ => exact hquiet _ _ hinv hmoved
  | dispatch hidle => exact hdispatch _ _ _ hreach hinv hidle
  | @work _ input op next hworker =>
    obtain ⟨node, hserved, hwarrant⟩ := (grounded_of_reaches hreach).warrants hworker
    exact hwork _ _ _ _ _ hreach hinv hok hworker hserved hwarrant
  | io hcloser => exact hio _ _ _ _ hreach hinv hok hcloser

/-- **Properties of the events** of a run: a dispatch has the property, and each operation of the worker
has it when it is performed. -/
theorem throughout_of_moves {ok : Label → State → Prop} {state : State}
    (P : Event → List Event → Prop) (hreach : Reaches platform ok state)
    (hdispatch : ∀ node earlier, P (.dispatched node) earlier)
    (hwork : ∀ state input op next node, Reaches platform ok state → ok (.work input) state →
      state.worker = some (.perform op next) → served state.world.history = some node →
      Warrants platform node state.world.trace op →
      P (.did ⟨op, (perform platform input op state.world).1⟩) state.world.history) :
    Throughout P state.world.history := by
  apply invariant_of_moves (fun state => Throughout P state.world.history) hreach (fun _ => id)
  · rintro _ ⟨db, -, rfl⟩
    trivial
  · intro state state' h hquiet
    rw [hquiet.history]
    exact h
  · intro state node rest _ h _
    exact ⟨hdispatch node _, h⟩
  · intro state input op next node hreached h hok hworker hserved hwarrant
    rw [history_workStep]
    exact ⟨hwork state input op next node hreached hok hworker hserved hwarrant, h⟩
  · intro state thread session pos _ h _ _
    rw [history_ioStep]
    exact h

/-- Each call was warranted by the message that was served and the calls before it. -/
def Warranted (platform : Platform) (event : Event) (earlier : List Event) : Prop :=
  ∀ call, event = .did call → ∃ node, served earlier = some node ∧
    Warrants platform node (handlerTrace earlier) call.1

theorem warranted_of_reaches {ok : Label → State → Prop} {state : State}
    (hreach : Reaches platform ok state) : Throughout (Warranted platform) state.world.history := by
  apply throughout_of_moves _ hreach
  · intro node earlier call hcall
    cases hcall
  · intro state input op next node _ _ _ hserved hwarrant call hcall
    obtain rfl := Event.did.inj hcall
    exact ⟨node, hserved, hwarrant⟩

theorem history_of_trace {history : List Event} (later : CallTrace) {earlier : CallTrace}
    (h : handlerTrace history = later ++ earlier) :
    ∃ rest, history = later.map .did ++ rest ∧ handlerTrace rest = earlier ∧
      served rest = served history := by
  induction later generalizing history with
  | nil => exact ⟨history, rfl, h, rfl⟩
  | cons call later ih =>
    cases history with
    | nil => cases h
    | cons event history =>
      cases event with
      | dispatched node => cases h
      | did other =>
        obtain ⟨rfl, htrace⟩ := List.cons.inj h
        obtain ⟨rest, rfl, hrest, hserved⟩ := ih htrace
        exact ⟨rest, rfl, hrest, hserved⟩

/-- Each call of the handler that runs was warranted by the calls before it. -/
theorem warranted_of_mem {ok : Label → State → Prop} {state : State} {node : LogicNode}
    {call : Call Op Op.Ret} (hreach : Reaches platform ok state)
    (hserved : served state.world.history = some node) (hcall : call ∈ state.world.trace) :
    ∃ later before, state.world.trace = later ++ call :: before ∧
      Warrants platform node before call.1 := by
  obtain ⟨later, before, htrace⟩ := List.append_of_mem hcall
  obtain ⟨rest, hhistory, hrest, hsame⟩ := history_of_trace later htrace
  obtain ⟨earlier, rfl, hearlier, hbefore⟩ := history_of_trace [call] hrest
  obtain ⟨other, hother, hwarrant⟩ :=
    throughout_iff.mp (warranted_of_reaches hreach) _ _ earlier hhistory call rfl
  obtain rfl := Option.some.inj ((hserved.symm.trans (hsame.symm.trans hbefore.symm)).trans hother)
  exact ⟨later, before, htrace, hearlier ▸ hwarrant⟩

/-! ### The steps of one handler -/

/-- The states in which the handler of a message runs, from the state its dispatch leaves. -/
abbrev Handling (platform : Platform) (ok : Label → State → Prop) (begun : State) : State → Prop :=
  Reach.Reaches (step platform) (fun state => state = begun) fun label state =>
    ok label state ∧ label ≠ .dispatch

/-- **Invariants of one handler**, by the three kinds of steps that dispatch nothing. -/
theorem Handling.invariant {ok : Label → State → Prop} {begun state : State} {node : LogicNode}
    (Inv : State → Prop) (hhandling : Handling platform ok begun state)
    (hbegun : Reaches platform (fun _ _ => True) begun) (hinitial : Inv begun)
    (hserved : ∀ state, Inv state → served state.world.history = some node)
    (hquiet : ∀ state state', Inv state → Quiet state state' → Inv state')
    (hwork : ∀ state input op next, Reaches platform (fun _ _ => True) state → Inv state →
      ok (.work input) state → state.worker = some (.perform op next) →
      Warrants platform node state.world.trace op → Inv (workStep platform input op next state))
    (hio : ∀ state thread session pos, Inv state → ok (.io thread) state →
      state.closers thread = some (session, pos) → Inv (ioStep platform thread session pos state)) :
    Reaches platform (fun _ _ => True) state ∧ Inv state := by
  induction hhandling with
  | initial h =>
    rw [h]
    exact ⟨hbegun, hinitial⟩
  | next _ hok hnext ih =>
    obtain ⟨hreach, hinv⟩ := ih
    refine ⟨.next hreach trivial hnext, ?_⟩
    cases moved_of_step hnext with
    | quiet hmoved => exact hquiet _ _ hinv hmoved
    | dispatch => exact absurd rfl hok.2
    | work hworker =>
      obtain ⟨other, hother, hwarrant⟩ := (grounded_of_reaches hreach).warrants hworker
      obtain rfl := Option.some.inj ((hserved _ hinv).symm.trans hother)
      exact hwork _ _ _ _ hreach hinv hok.1 hworker hwarrant
    | io hcloser => exact hio _ _ _ _ hinv hok.1 hcloser

/-- The steps in which the worker runs alone. -/
abbrev Alone (label : Label) (_ : State) : Prop := label = .finish ∨ ∃ input, label = .work input

/-- A handler that runs can always be brought to its end by the worker. -/
theorem handling_ends (platform : Platform) (state : State) :
    ∃ ended, Handling platform Alone state ended ∧ ended.worker = none := by
  have hfinish : ∀ state : State, step platform .finish state = some { state with worker := none } →
      ∃ ended, Handling platform Alone state ended ∧ ended.worker = none :=
    fun state hstep => ⟨_, .next (.initial rfl) ⟨.inl rfl, by simp⟩ hstep, rfl⟩
  cases hworker : state.worker with
  | none => exact ⟨state, .initial rfl, hworker⟩
  | some handler =>
    induction handler generalizing state with
    | ret value => exact hfinish state (by rw [step, hworker])
    | throw what => exact hfinish state (by rw [step, hworker])
    | perform op next ih =>
      have hstep : step platform (.work .idle) state = some (workStep platform .idle op next state) := by
        rw [step, hworker]
      obtain ⟨ended, hended, hidle⟩ := ih _ (workStep platform .idle op next state) rfl
      exact ⟨ended, hended.after ⟨.inr ⟨_, rfl⟩, by simp⟩ hstep, hidle⟩

end CoroutineServer
