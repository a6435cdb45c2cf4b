import CoroutineServer.Proof.OnlineMap

/-!
# The steps of a login

Once `LoginUser` has accepted the credentials, the handler closes the session that is registered for the
user, sets the uid of its own session and registers it. Two invariants of the runs in which no other
thread interferes with the two sessions: what the calls return is what was there when the login began,
and what they have done stays done.
-/

namespace CoroutineServer

open Program CSession

variable {platform : Platform} {node : LogicNode} {uid : Int}

/-- The runs in which no other thread closes the session or the one that is registered for the user, nor
removes the entry of the user. -/
abbrev unhindered (session : Sid) (uid : Int) : Label → State → Prop :=
  OpsMeet (fun _ _ _ => True) fun other op state =>
    other ≠ session ∧ state.world.onlineUsers uid ≠ some other ∧ op ≠ .removeOnlineUser uid

/-! ### The trace of a login -/

/-- The handler has begun with a successful login. -/
def LoggingIn (uid : Int) (trace : CallTrace) : Prop :=
  ∃ username password, trace.getLast? = some ⟨.loginUser username password, (true, uid)⟩

/-- The worker has yet to take the login uid of the old session. -/
def Awaits (old : Sid) : CallTrace → Prop
  | ⟨.loginUser _ _, _⟩ :: _ => True
  | ⟨.getSessionByUid _, found⟩ :: _ => found = some old
  | ⟨.casStop other, exchanged⟩ :: _ => other = old ∧ exchanged = true
  | _ => False

namespace LoggingIn

variable {trace : CallTrace} {user : Int}

theorem cons (h : LoggingIn uid trace) (call : Call Op Op.Ret) : LoggingIn uid (call :: trace) := by
  obtain ⟨username, password, hlast⟩ := h
  refine ⟨username, password, ?_⟩
  rw [List.getLast?_cons, hlast]
  rfl

theorem ne_nil (h : LoggingIn uid trace) : trace ≠ [] := by
  rintro rfl
  obtain ⟨_, _, hlast⟩ := h
  cases hlast

theorem suffix (later : CallTrace) (h : LoggingIn uid (later ++ trace)) (hne : trace ≠ []) :
    LoggingIn uid trace := by
  obtain ⟨username, password, hlast⟩ := h
  obtain ⟨call, hcall⟩ := Option.isSome_iff_exists.mp (List.getLast?_isSome.mpr hne)
  rw [List.getLast?_append, hcall, Option.some_or] at hlast
  exact ⟨username, password, hcall.trans hlast⟩

theorem last {username password : Bytes} (h : LoggingIn uid trace)
    (hlast : trace.getLast? = some ⟨.loginUser username password, (true, user)⟩) : user = uid := by
  obtain ⟨_, _, hfirst⟩ := h
  obtain ⟨hop, hresult⟩ := Sigma.mk.inj (Option.some.inj (hlast.symm.trans hfirst))
  obtain ⟨rfl, rfl⟩ := Op.loginUser.inj hop
  exact (Prod.mk.inj (eq_of_heq hresult)).2

theorem looked {found : Option Sid} (h : LoggingIn uid trace) (hlooked : Looked user found trace) :
    user = uid := by
  obtain ⟨username, password, rfl⟩ := hlooked
  exact h.last rfl

theorem kicked (h : LoggingIn uid trace) (hkicked : Kicked user trace) : user = uid := by
  cases hkicked with
  | nobody hlooked => exact h.looked hlooked
  | closed hpart hlooked =>
    obtain ⟨username, password, rfl⟩ := hlooked
    apply h.last
    rw [List.getLast?_append]
    rfl

/-- The only lookup of a login is that of its own user, right behind `LoginUser`. -/
theorem lookup (h : LoggingIn uid trace)
    (hwarrant : Warrants platform node trace (.getSessionByUid user)) :
    user = uid ∧ ∃ username password, trace = [⟨.loginUser username password, (true, uid)⟩] := by
  rcases hwarrant with ⟨username, password, rfl⟩ | ⟨owner, rfl⟩ | ⟨_, _, _, _, -, rfl⟩
  · obtain rfl := h.last rfl
    exact ⟨rfl, username, password, rfl⟩
  · obtain ⟨_, _, hlast⟩ := h
    cases hlast
  · obtain ⟨_, _, hlast⟩ := h
    cases hlast

/-- A login sends to its own session only. -/
theorem recipient {session : Sid} {payload : Payload} {msgid : Int} (h : LoggingIn uid trace)
    (hsends : Sends platform node trace session payload msgid) : session = node.session := by
  obtain ⟨username, password, hlast⟩ := h
  cases hsends with
  | friendPush => cases hlast
  | chatPush => cases hlast
  | _ => rfl

end LoggingIn

/-! ### What the calls returned -/

/-- Until the worker takes its uid, the registered session is as it was, and what the calls of the login
returned is what was there when it began. -/
structure Follows (node : LogicNode) (uid : Int) (begun : World) (state : State) : Prop where
  served : served state.world.history = some node
  loggingIn : LoggingIn uid state.world.trace
  unasked : state.world.trace.length = 1 →
    state.world.onlineUsers uid = begun.onlineUsers uid
  awaiting : ∀ old, Awaits old state.world.trace → begun.onlineUsers uid = some old →
    state.world.onlineUsers uid = some old ∧ state.world.uidOf old = begun.uidOf old ∧
      (state.world.trace.head? = some ⟨.casStop old, true⟩ ∨
        state.world.stopped old = begun.stopped old)
  found : ∀ old, (⟨.getSessionByUid uid, some old⟩ : Call Op Op.Ret) ∈ state.world.trace →
    begun.onlineUsers uid = some old
  unfound : (⟨.getSessionByUid uid, none⟩ : Call Op Op.Ret) ∈ state.world.trace →
    ∀ old, begun.onlineUsers uid = some old → begun.stopped old = true
  exchanged : ∀ old exchanged, (⟨.casStop old, exchanged⟩ : Call Op Op.Ret) ∈ state.world.trace →
    exchanged = !begun.stopped old
  taken : ∀ old user, (⟨.takeLoginUid old, user⟩ : Call Op Op.Ret) ∈ state.world.trace →
    user = begun.uidOf old

/-- An entry is changed by the operations on it only. -/
theorem entry_perform (input : Input) (op : Op) (world : World) (user : Int)
    (hadd : ∀ session, op ≠ .addOnlineUser user session) (hremove : op ≠ .removeOnlineUser user)
    (hget : op ≠ .getSessionByUid user) :
    (perform platform input op world).2.onlineUsers user = world.onlineUsers user := by
  cases op with
  | addOnlineUser other session =>
    have hne : user ≠ other := by
      rintro rfl
      exact hadd session rfl
    rw [perform]
    unfold UserManager.addOnlineUser
    split_ifs
    · rfl
    · exact Function.update_of_ne hne _ _
  | removeOnlineUser other =>
    have hne : user ≠ other := by
      rintro rfl
      exact hremove rfl
    rw [perform]
    unfold UserManager.removeOnlineUser
    split_ifs
    · rfl
    · exact Function.update_of_ne hne _ _
  | getSessionByUid other =>
    have hne : user ≠ other := by
      rintro rfl
      exact hget rfl
    rw [perform]
    unfold UserManager.getSessionByUid
    split_ifs
    · rfl
    · split
      · rfl
      · split_ifs
        · exact Function.update_of_ne hne _ _
        · rfl
  | _ => rw [onlineUsers_perform] <;> simp

namespace Follows

variable {begun : World} {state state' : State}

theorem of_quiet (h : Follows node uid begun state) (hquiet : Quiet state state') :
    Follows node uid begun state' := by
  refine ⟨?_, ?_, ?_, ?_, ?_, ?_, ?_, ?_⟩
  · rw [hquiet.history]
    exact h.served
  · rw [hquiet.trace]
    exact h.loggingIn
  · rw [hquiet.trace, hquiet.onlineUsers]
    exact h.unasked
  · intro old
    rw [hquiet.trace, hquiet.onlineUsers, hquiet.uidOf, hquiet.stopped]
    exact h.awaiting old
  · rw [hquiet.trace]
    exact h.found
  · rw [hquiet.trace]
    exact h.unfound
  · rw [hquiet.trace]
    exact h.exchanged
  · rw [hquiet.trace]
    exact h.taken

/-- A `Close` elsewhere does not touch the registered session nor its entry. -/
theorem io (h : Follows node uid begun state) {thread : Nat} {other : Sid} {pos : ClosePos}
    (hok : unhindered node.session uid (.io thread) state)
    (hcloser : state.closers thread = some (other, pos)) :
    Follows node uid begun (ioStep platform thread other pos state) := by
  obtain ⟨-, helsewhere, hremove⟩ := hok other pos hcloser
  have htrace := trace_ioStep platform thread other pos state
  have hentry : (ioStep platform thread other pos state).world.onlineUsers uid
      = state.world.onlineUsers uid :=
    entry_perform .idle _ _ _ (by cases pos <;> simp [ClosePos.op]) hremove
      (by cases pos <;> simp [ClosePos.op])
  refine ⟨?_, ?_, ?_, ?_, ?_, ?_, ?_, ?_⟩
  · rw [history_ioStep]
    exact h.served
  · rw [htrace]
    exact h.loggingIn
  · rw [htrace, hentry]
    exact h.unasked
  · intro old
    rw [htrace, hentry]
    intro hawaits hold
    obtain ⟨hregistered, huid, hstopped⟩ := h.awaiting old hawaits hold
    have hne : other ≠ old := fun heq => helsewhere (heq ▸ hregistered)
    have hsame : (ioStep platform thread other pos state).world.uidOf old = state.world.uidOf old :=
      uidOf_perform platform .idle _ _ old (by cases pos <;> simp [ClosePos.op])
        (by cases pos <;> simp [ClosePos.op, hne])
    have hstop : (ioStep platform thread other pos state).world.stopped old
        = state.world.stopped old :=
      stopped_perform platform .idle _ _ old (by cases pos <;> simp [ClosePos.op, hne])
    rw [hsame, hstop]
    exact ⟨hregistered, huid, hstopped⟩
  · rw [htrace]
    exact h.found
  · rw [htrace]
    exact h.unfound
  · rw [htrace]
    exact h.exchanged
  · rw [htrace]
    exact h.taken

section Work

variable {input : Input} {op : Op} {next : op.Ret → Handler Unit}

/-- The registered session when the worker looks it up or exchanges its stop flag. -/
theorem still (h : Follows node uid begun state) {old : Sid}
    (hawaits : Awaits old state.world.trace)
    (hhead : state.world.trace.head? ≠ some ⟨.casStop old, true⟩)
    (hold : begun.onlineUsers uid = some old) :
    state.world.onlineUsers uid = some old ∧ state.world.uidOf old = begun.uidOf old ∧
      state.world.stopped old = begun.stopped old := by
  obtain ⟨hregistered, huid, hstopped⟩ := h.awaiting old hawaits hold
  exact ⟨hregistered, huid, hstopped.resolve_left hhead⟩

theorem awaiting_work (h : Follows node uid begun state) (huid : 0 < uid)
    (hwarrant : Warrants platform node state.world.trace op) {old : Sid}
    (hawaits : Awaits old (workStep platform input op next state).world.trace)
    (hold : begun.onlineUsers uid = some old) :
    (workStep platform input op next state).world.onlineUsers uid = some old ∧
      (workStep platform input op next state).world.uidOf old = begun.uidOf old ∧
      ((workStep platform input op next state).world.trace.head? = some ⟨.casStop old, true⟩ ∨
        (workStep platform input op next state).world.stopped old = begun.stopped old) := by
  rw [trace_workStep] at hawaits ⊢
  cases op with
  | loginUser username password => exact absurd hwarrant.2.1 h.loggingIn.ne_nil
  | getSessionByUid user =>
    obtain ⟨rfl, username, password, htrace⟩ := h.loggingIn.lookup hwarrant
    obtain ⟨hregistered, hsame, hstopped⟩ :=
      h.still (by rw [htrace]; trivial) (by rw [htrace]; simp) hold
    unfold workStep
    dsimp only
    refine ⟨?_, ?_, .inr ?_⟩
    · rcases getSessionByUid_cases huid state.world with ⟨_, -, -, heq⟩ | ⟨_, heq, -, -⟩
      · rw [World.onlineUsers_record, perform, heq]
        exact hregistered
      · have hnone : (UserManager.getSessionByUid user state.world).1 = some old := hawaits
        rw [heq] at hnone
        cases hnone
    · rw [World.uidOf_record, uidOf_perform _ _ _ _ _ (by simp) (by simp)]
      exact hsame
    · rw [World.stopped_record, stopped_perform _ _ _ _ _ (by simp)]
      exact hstopped
  | casStop other =>
    obtain ⟨rfl, hexchanged⟩ := hawaits
    obtain ⟨user, username, password, htrace⟩ := hwarrant
    obtain ⟨hregistered, hsame, -⟩ := h.awaiting other (by rw [htrace]; exact rfl) hold
    refine ⟨?_, ?_, .inl ?_⟩
    · exact hregistered
    · exact (uidOf_perform platform input (.casStop other) state.world other (by simp)
        (by simp)).trans hsame
    · rw [hexchanged]
      rfl
  | _ => exact hawaits.elim

theorem found_work (h : Follows node uid begun state)
    (hwarrant : Warrants platform node state.world.trace op) {old : Sid}
    (hmem : (⟨.getSessionByUid uid, some old⟩ : Call Op Op.Ret)
      ∈ (workStep platform input op next state).world.trace) : begun.onlineUsers uid = some old := by
  rw [trace_workStep] at hmem
  rcases List.mem_cons.mp hmem with heq | hmem
  · obtain ⟨rfl, hresult⟩ := Sigma.mk.inj heq
    obtain ⟨-, username, password, htrace⟩ := h.loggingIn.lookup hwarrant
    rw [← h.unasked (by rw [htrace]; rfl)]
    exact online_of_getSessionByUid (eq_of_heq hresult).symm
  · exact h.found old hmem

/-- A lookup that finds nothing has met an entry that has expired, so its session had been closed. -/
theorem unfound_work (h : Follows node uid begun state) (huid : 0 < uid)
    (hgrounded : Grounded platform state) (hwarrant : Warrants platform node state.world.trace op)
    (hmem : (⟨.getSessionByUid uid, none⟩ : Call Op Op.Ret)
      ∈ (workStep platform input op next state).world.trace) {old : Sid}
    (hold : begun.onlineUsers uid = some old) : begun.stopped old = true := by
  rw [trace_workStep] at hmem
  rcases List.mem_cons.mp hmem with heq | hmem
  · obtain ⟨rfl, hresult⟩ := Sigma.mk.inj heq
    obtain ⟨-, username, password, htrace⟩ := h.loggingIn.lookup hwarrant
    obtain ⟨hregistered, -, hstopped⟩ :=
      h.still (by rw [htrace]; trivial) (by rw [htrace]; simp) hold
    rw [← hstopped]
    apply hgrounded.expired
    rcases getSessionByUid_cases huid state.world with ⟨_, -, -, hsome⟩ | ⟨_, -, -, hexpired⟩
    · have hnone : none = (UserManager.getSessionByUid uid state.world).1 := eq_of_heq hresult
      rw [hsome] at hnone
      cases hnone
    · exact hexpired old hregistered
  · exact h.unfound hmem old hold

theorem exchanged_work (h : Follows node uid begun state)
    (hwarrant : Warrants platform node state.world.trace op) {old : Sid} {exchanged : Bool}
    (hmem : (⟨.casStop old, exchanged⟩ : Call Op Op.Ret)
      ∈ (workStep platform input op next state).world.trace) : exchanged = !begun.stopped old := by
  rw [trace_workStep] at hmem
  rcases List.mem_cons.mp hmem with heq | hmem
  · obtain ⟨rfl, hresult⟩ := Sigma.mk.inj heq
    obtain ⟨user, hlooked⟩ := hwarrant
    obtain rfl := h.loggingIn.looked hlooked
    obtain ⟨username, password, htrace⟩ := hlooked
    obtain ⟨-, -, hstopped⟩ := h.still (by rw [htrace]; exact rfl) (by rw [htrace]; simp)
      (h.found old (by rw [htrace]; exact List.mem_cons_self))
    rw [← hstopped]
    exact eq_of_heq hresult
  · exact h.exchanged old exchanged hmem

theorem taken_work (h : Follows node uid begun state)
    (hwarrant : Warrants platform node state.world.trace op) {old : Sid} {user : Int}
    (hmem : (⟨.takeLoginUid old, user⟩ : Call Op Op.Ret)
      ∈ (workStep platform input op next state).world.trace) : user = begun.uidOf old := by
  rw [trace_workStep] at hmem
  rcases List.mem_cons.mp hmem with heq | hmem
  · obtain ⟨rfl, hresult⟩ := Sigma.mk.inj heq
    obtain ⟨other, looked, ⟨username, password, rfl⟩, htrace⟩ := hwarrant
    have hlast : state.world.trace.getLast?
        = some ⟨.loginUser username password, (true, other)⟩ := by
      rw [htrace]
      rfl
    obtain rfl := h.loggingIn.last hlast
    obtain ⟨-, hsame, -⟩ := h.awaiting old (by rw [htrace]; exact ⟨rfl, rfl⟩)
      (h.found old (by rw [htrace]; simp))
    rw [← hsame]
    exact eq_of_heq hresult
  · exact h.taken old user hmem

theorem work (h : Follows node uid begun state) (huid : 0 < uid) (hgrounded : Grounded platform state)
    (hwarrant : Warrants platform node state.world.trace op) :
    Follows node uid begun (workStep platform input op next state) := by
  refine ⟨?_, ?_, ?_, fun old => h.awaiting_work huid hwarrant, fun old => h.found_work hwarrant,
    fun hmem old => h.unfound_work huid hgrounded hwarrant hmem,
    fun old exchanged => h.exchanged_work hwarrant, fun old user => h.taken_work hwarrant⟩
  · rw [history_workStep]
    exact h.served
  · rw [trace_workStep]
    exact h.loggingIn.cons _
  · intro hlength
    rw [trace_workStep, List.length_cons] at hlength
    exact absurd (List.eq_nil_of_length_eq_zero (by omega)) h.loggingIn.ne_nil

end Work

end Follows

/-! ### What the calls did -/

theorem LoggingIn.added {trace : CallTrace} {user : Int} {session : Sid} (h : LoggingIn uid trace)
    (hwarrant : Warrants platform node trace (.addOnlineUser user session)) :
    user = uid ∧ session = node.session := by
  obtain ⟨hsession, -, kicked, hkicked, rfl⟩ := hwarrant
  obtain ⟨_, _, hmem⟩ := loginIn_of_kicked hkicked
  have hsuffix : LoggingIn uid kicked :=
    LoggingIn.suffix [⟨.setLoginUid node.session user, ()⟩] h (List.ne_nil_of_mem hmem)
  exact ⟨hsuffix.kicked hkicked, hsession⟩

/-- What the calls of the login have done stays done, and what they do not touch stays as it was. -/
structure Leaves (node : LogicNode) (uid : Int) (begun : World) (state : State) : Prop where
  stopped : ∀ old exchanged, (⟨.casStop old, exchanged⟩ : Call Op Op.Ret) ∈ state.world.trace →
    state.world.stopped old = true
  loggedOut : ∀ old user, old ≠ node.session →
    (⟨.takeLoginUid old, user⟩ : Call Op Op.Ret) ∈ state.world.trace → state.world.uidOf old = 0
  removed : ∀ user, user ≠ uid → 0 < user →
    (⟨.removeOnlineUser user, ()⟩ : Call Op Op.Ret) ∈ state.world.trace →
      state.world.onlineUsers user ≠ some node.session
  identity : (⟨.setLoginUid node.session uid, ()⟩ : Call Op Op.Ret) ∈ state.world.trace →
    state.world.uidOf node.session = uid
  online : (⟨.addOnlineUser uid node.session, ()⟩ : Call Op Op.Ret) ∈ state.world.trace →
    state.world.onlineUsers uid = some node.session
  still_open : begun.onlineUsers uid ≠ some node.session →
    state.world.stopped node.session = false
  only : ∀ user, user ≠ uid → state.world.onlineUsers user = some node.session →
    begun.onlineUsers user = some node.session

namespace Leaves

variable {begun : World} {state state' : State}

theorem of_quiet (h : Leaves node uid begun state) (hquiet : Quiet state state') :
    Leaves node uid begun state' := by
  refine ⟨?_, ?_, ?_, ?_, ?_, ?_, ?_⟩
  · intro old
    rw [hquiet.trace, hquiet.stopped]
    exact h.stopped old
  · intro old
    rw [hquiet.trace, hquiet.uidOf]
    exact h.loggedOut old
  · rw [hquiet.trace, hquiet.onlineUsers]
    exact h.removed
  · rw [hquiet.trace, hquiet.uidOf]
    exact h.identity
  · rw [hquiet.trace, hquiet.onlineUsers]
    exact h.online
  · rw [hquiet.stopped]
    exact h.still_open
  · rw [hquiet.onlineUsers]
    exact h.only

theorem io (h : Leaves node uid begun state) {thread : Nat} {other : Sid} {pos : ClosePos}
    (hok : unhindered node.session uid (.io thread) state)
    (hcloser : state.closers thread = some (other, pos)) :
    Leaves node uid begun (ioStep platform thread other pos state) := by
  obtain ⟨hother, -, hremove⟩ := hok other pos hcloser
  have htrace := trace_ioStep platform thread other pos state
  have hset : ∀ old user, pos.op other ≠ .setLoginUid old user := by
    cases pos <;> simp [ClosePos.op]
  have hadd : ∀ user session, pos.op other ≠ .addOnlineUser user session := by
    cases pos <;> simp [ClosePos.op]
  have hget : pos.op other ≠ .getSessionByUid uid := by
    cases pos <;> simp [ClosePos.op]
  have hentry : ∀ user session, (ioStep platform thread other pos state).world.onlineUsers user
      = some session → state.world.onlineUsers user = some session := by
    intro user session hsome
    rcases onlineUsers_perform_eq_some platform .idle _ state.world hsome with ⟨heq, -⟩ | ⟨hold, -⟩
    · exact absurd heq (hadd user session)
    · exact hold
  refine ⟨?_, ?_, ?_, ?_, ?_, ?_, ?_⟩
  · intro old exchanged hmem
    rw [htrace] at hmem
    exact stopped_perform_mono platform .idle _ _ (h.stopped old exchanged hmem)
  · intro old user hne hmem
    rw [htrace] at hmem
    by_cases htake : pos.op other = .takeLoginUid old
    · unfold ioStep
      dsimp only
      rw [htake]
      exact uidOf_takeLoginUid platform .idle state.world old
    · exact (uidOf_perform platform .idle _ _ old (hset old) htake).trans
        (h.loggedOut old user hne hmem)
  · intro user hne hpos hmem hsome
    rw [htrace] at hmem
    exact h.removed user hne hpos hmem (hentry user _ hsome)
  · intro hmem
    rw [htrace] at hmem
    have htake : pos.op other ≠ .takeLoginUid node.session := by
      cases pos <;> simp [ClosePos.op, hother]
    exact (uidOf_perform platform .idle _ _ _ (hset _) htake).trans (h.identity hmem)
  · intro hmem
    rw [htrace] at hmem
    exact (entry_perform .idle _ _ uid (hadd uid) hremove hget).trans (h.online hmem)
  · intro hnot
    have hcas : pos.op other ≠ .casStop node.session := by
      cases pos <;> simp [ClosePos.op, hother]
    exact (stopped_perform platform .idle _ _ _ hcas).trans (h.still_open hnot)
  · intro user hne hsome
    exact h.only user hne (hentry user _ hsome)

section Work

variable {input : Input} {op : Op} {next : op.Ret → Handler Unit}

theorem loggedOut_work (h : Leaves node uid begun state)
    (hwarrant : Warrants platform node state.world.trace op) {old : Sid} {user : Int}
    (hne : old ≠ node.session) (hmem : (⟨.takeLoginUid old, user⟩ : Call Op Op.Ret)
      ∈ (workStep platform input op next state).world.trace) :
    (workStep platform input op next state).world.uidOf old = 0 := by
  rw [trace_workStep] at hmem
  by_cases htake : op = .takeLoginUid old
  · subst htake
    exact uidOf_takeLoginUid platform input state.world old
  · have hset : ∀ other, op ≠ .setLoginUid old other := by
      rintro other rfl
      exact hne hwarrant.1
    refine (uidOf_perform platform input op _ old hset htake).trans ?_
    rcases List.mem_cons.mp hmem with heq | hmem
    · exact absurd (Sigma.mk.inj heq).1.symm htake
    · exact h.loggedOut old user hne hmem

theorem identity_work (h : Leaves node uid begun state) (hlogging : LoggingIn uid state.world.trace)
    (hwarrant : Warrants platform node state.world.trace op)
    (hmem : (⟨.setLoginUid node.session uid, ()⟩ : Call Op Op.Ret)
      ∈ (workStep platform input op next state).world.trace) :
    (workStep platform input op next state).world.uidOf node.session = uid := by
  rw [trace_workStep] at hmem
  by_cases hset : ∃ user, op = .setLoginUid node.session user
  · obtain ⟨user, rfl⟩ := hset
    obtain rfl := hlogging.kicked hwarrant.2.2
    exact uidOf_setLoginUid platform input state.world node.session user
  · rcases List.mem_cons.mp hmem with heq | hmem
    · exact absurd ⟨uid, (Sigma.mk.inj heq).1.symm⟩ hset
    -- a kick takes its uid from the old session before the new one is set
    have htake : op ≠ .takeLoginUid node.session := by
      rintro rfl
      obtain ⟨user, looked, ⟨username, password, rfl⟩, htrace⟩ := hwarrant
      rw [htrace] at hmem
      simp at hmem
    exact (uidOf_perform platform input op _ _ (fun user heq => hset ⟨user, heq⟩) htake).trans
      (h.identity hmem)

theorem online_work (h : Leaves node uid begun state) (hlogging : LoggingIn uid state.world.trace)
    (huid : 0 < uid) (hwarrant : Warrants platform node state.world.trace op)
    (hmem : (⟨.addOnlineUser uid node.session, ()⟩ : Call Op Op.Ret)
      ∈ (workStep platform input op next state).world.trace) :
    (workStep platform input op next state).world.onlineUsers uid = some node.session := by
  rw [trace_workStep] at hmem
  by_cases hadd : ∃ user session, op = .addOnlineUser user session
  · obtain ⟨user, session, rfl⟩ := hadd
    obtain ⟨rfl, rfl⟩ := hlogging.added hwarrant
    unfold workStep
    dsimp only
    rw [World.onlineUsers_record, perform, onlineUsers_addOnlineUser huid]
    exact Function.update_self _ _ _
  · rcases List.mem_cons.mp hmem with heq | hmem
    · exact absurd ⟨uid, node.session, (Sigma.mk.inj heq).1.symm⟩ hadd
    -- the old entry is looked up and removed before the new one is made
    have hremove : op ≠ .removeOnlineUser uid := by
      rintro rfl
      obtain ⟨-, old, user, looked, ⟨username, password, rfl⟩, htrace⟩ := hwarrant
      rw [htrace] at hmem
      simp at hmem
    have hget : op ≠ .getSessionByUid uid := by
      rintro rfl
      obtain ⟨-, username, password, htrace⟩ := hlogging.lookup hwarrant
      rw [htrace] at hmem
      simp at hmem
    exact (entry_perform input op _ uid (fun session heq => hadd ⟨uid, session, heq⟩) hremove
      hget).trans (h.online hmem)

theorem work (h : Leaves node uid begun state) (hfollows : Follows node uid begun state)
    (huid : 0 < uid) (hwarrant : Warrants platform node state.world.trace op) :
    Leaves node uid begun (workStep platform input op next state) := by
  have hlogging := hfollows.loggingIn
  have hentry : ∀ user, user ≠ uid →
      (workStep platform input op next state).world.onlineUsers user = some node.session →
        state.world.onlineUsers user = some node.session ∧ (op = .removeOnlineUser user → user ≤ 0) := by
    intro user hne hsome
    rcases entry_workStep hsome with ⟨rfl, -⟩ | ⟨hold, hkept, -⟩
    · exact absurd (hlogging.added hwarrant).1 hne
    · exact ⟨hold, hkept⟩
  refine ⟨?_, fun old user => h.loggedOut_work hwarrant, ?_, h.identity_work hlogging hwarrant,
    h.online_work hlogging huid hwarrant, ?_, ?_⟩
  · intro old exchanged hmem
    rw [trace_workStep] at hmem
    rcases List.mem_cons.mp hmem with heq | hmem
    · obtain ⟨rfl, -⟩ := Sigma.mk.inj heq
      exact stopped_casStop platform input state.world old
    · exact stopped_perform_mono platform input op _ (h.stopped old exchanged hmem)
  · intro user hne hpos hmem hsome
    rw [trace_workStep] at hmem
    obtain ⟨hold, hkept⟩ := hentry user hne hsome
    rcases List.mem_cons.mp hmem with heq | hmem
    · exact absurd (hkept (Sigma.mk.inj heq).1.symm) (Int.not_le.mpr hpos)
    · exact h.removed user hne hpos hmem hold
  · intro hnot
    have hcas : op ≠ .casStop node.session := by
      rintro rfl
      obtain ⟨user, hlooked⟩ := hwarrant
      obtain rfl := hlogging.looked hlooked
      obtain ⟨username, password, htrace⟩ := hlooked
      exact hnot (hfollows.found node.session (by rw [htrace]; exact List.mem_cons_self))
    exact (stopped_perform platform input op _ _ hcas).trans (h.still_open hnot)
  · intro user hne hsome
    exact h.only user hne (hentry user hne hsome).1

end Work

end Leaves

end CoroutineServer
