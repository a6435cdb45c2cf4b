import CoroutineServer.Proof.Footprint

/-!
# Connections without a login

A session on which no login has succeeded is isolated in both directions: its requests reach nothing but the
users, through a registration, and its own send queue, and no request of another session, no kick and no push
reaches it.
-/

namespace CoroutineServer

open Program CSession

variable {platform : Platform} {node : LogicNode}

/-! ### Who has logged in -/

theorem lastLogin_cons {session : Sid} {event : Event} {history : List Event}
    (h : lastLogin session history ≠ none) : lastLogin session (event :: history) ≠ none := by
  cases event with
  | dispatched node => exact h
  | did call =>
    obtain ⟨op, result⟩ := call
    by_cases hlogin : ∃ username password, op = .loginUser username password
    · obtain ⟨username, password, rfl⟩ := hlogin
      obtain ⟨ok, uid⟩ := result
      rw [lastLogin_loginUser]
      split
      · simp
      · exact h
    · rw [lastLogin_did fun username password heq => hlogin ⟨username, password, heq⟩]
      exact h

/-- A session is registered, or found by a lookup, only behind a login on it. -/
structure Acquainted (world : World) : Prop where
  online : ∀ uid session, world.onlineUsers uid = some session → lastLogin session world.history ≠ none
  found : ∀ uid session, (⟨.getSessionByUid uid, some session⟩ : Call Op Op.Ret) ∈ world.trace →
    lastLogin session world.history ≠ none

theorem acquainted_perform {world : World} {input : Input} {op : Op} (hidentity : Identity world)
    (hserved : served world.history = some node) (hwarrant : Warrants platform node world.trace op)
    (h : Acquainted world) : Acquainted ((perform platform input op world).2.record
      (.did ⟨op, (perform platform input op world).1⟩)) := by
  have hhistory := perform_history platform input op world
  refine ⟨fun uid session hentry => ?_, fun uid session hmem => ?_⟩
  · rw [World.history_record, hhistory]
    apply lastLogin_cons
    rcases onlineUsers_perform_eq_some platform input op world hentry with ⟨rfl, -⟩ | ⟨hold, -⟩
    · -- the registration of a login
      obtain ⟨rfl, -, kicked, hkicked, htrace⟩ := hwarrant
      obtain ⟨username, password, hmem⟩ := loginIn_of_kicked hkicked
      obtain ⟨other, hother, hlast⟩ := hidentity.login uid ⟨username, password, by simp [htrace, hmem]⟩
      obtain rfl := Option.some.inj (hserved.symm.trans hother)
      rw [hlast]
      simp
    · exact h.online uid session hold
  · rw [World.history_record, hhistory]
    apply lastLogin_cons
    rw [World.trace_did, trace_perform] at hmem
    rcases List.mem_cons.mp hmem with heq | hmem
    · obtain ⟨rfl, heq⟩ := Sigma.mk.inj heq
      exact h.online uid session (online_of_getSessionByUid (eq_of_heq heq).symm)
    · exact h.found uid session hmem

theorem acquainted_of_reaches {ok : Label → State → Prop} {state : State}
    (hreach : Reaches platform ok state) : Acquainted state.world := by
  apply invariant_of_moves (fun state => Acquainted state.world) hreach (fun _ => id)
  · rintro _ ⟨db, -, rfl⟩
    refine ⟨fun uid session hentry => ?_, fun uid session hmem => ?_⟩
    · cases hentry
    · cases hmem
  · intro state state' h hquiet
    refine ⟨fun uid session hentry => ?_, fun uid session hmem => ?_⟩
    · rw [hquiet.onlineUsers] at hentry
      rw [hquiet.history]
      exact h.online uid session hentry
    · rw [hquiet.trace] at hmem
      rw [hquiet.history]
      exact h.found uid session hmem
  · intro state node rest _ h _
    exact ⟨h.online, fun uid session hmem => (by cases hmem)⟩
  · intro state input op next node hreached h _ _ hserved hwarrant
    exact acquainted_perform (identity_of_reaches hreached) hserved hwarrant h
  · intro state thread session pos _ h _ _
    refine ⟨fun uid other hentry => ?_, fun uid other hmem => ?_⟩
    · rw [history_ioStep]
      rcases onlineUsers_perform_eq_some platform .idle _ state.world hentry with ⟨heq, -⟩ | ⟨hold, -⟩
      · cases pos <;> cases heq
      · exact h.online uid other hold
    · rw [trace_ioStep] at hmem
      rw [history_ioStep]
      exact h.found uid other hmem

/-! ### What a stranger can do -/

/-- The operations that need no login, as a request of the session comes to them. -/
def Public (session : Sid) : Op → Prop
  | .getLoginUid _ => True
  | .registerUser _ _ => True
  | .loginUser _ _ => True
  | .loadStop other _ _ => other = session
  | .push other _ _ => other = session
  | _ => False

/-- Every other operation has a login on the session behind it. -/
theorem public_of_stranger {ok : Label → State → Prop} {state : State} {op : Op}
    (hreach : Reaches platform ok state) (hserved : served state.world.history = some node)
    (hwarrant : Warrants platform node state.world.trace op)
    (hstranger : lastLogin node.session state.world.history = none) : Public node.session op := by
  have hidentity := identity_of_reaches hreach
  have hread : ∀ uid : Int, uid ≠ 0 →
      (⟨.getLoginUid node.session, uid⟩ : Call Op Op.Ret) ∉ state.world.trace := by
    intro uid huid hmem
    cases hstranger.symm.trans (hidentity.captured node.session uid hmem huid)
  have hlogin : ∀ {uid : Int}, ¬LoginIn state.world.trace uid := by
    intro uid hin
    obtain ⟨other, hother, hlast⟩ := hidentity.login uid hin
    obtain rfl := Option.some.inj (hserved.symm.trans hother)
    cases hstranger.symm.trans hlast
  have hlooked : ∀ (later : CallTrace) {uid : Int} {found : Option Sid} {looked : CallTrace},
      Looked uid found looked → state.world.trace ≠ later ++ looked := by
    rintro later uid found looked hlooked htrace
    obtain ⟨username, password, hmem⟩ := loginIn_of_looked hlooked
    exact hlogin ⟨username, password, by rw [htrace]; exact List.mem_append_right _ hmem⟩
  have hkicked : ∀ (later : CallTrace) {uid : Int} {kicked : CallTrace}, Kicked uid kicked →
      state.world.trace ≠ later ++ kicked := by
    rintro later uid kicked hkicked htrace
    obtain ⟨username, password, hmem⟩ := loginIn_of_kicked hkicked
    exact hlogin ⟨username, password, by rw [htrace]; exact List.mem_append_right _ hmem⟩
  have hsends : ∀ (later : CallTrace) {before : CallTrace} {session : Sid} {payload : Payload} {msgid : Int},
      Sends platform node before session payload msgid → state.world.trace = later ++ before →
        session = node.session := by
    intro later before session payload msgid hsends htrace
    cases hsends with
    | friendPush hreq huid => exact absurd (by rw [htrace]; simp [friendTrace]) (hread _ huid)
    | chatPush hreq huid => exact absurd (by rw [htrace]; simp [chatTrace]) (hread _ huid)
    | _ => rfl
  cases op with
  | getLoginUid | registerUser | loginUser => trivial
  | setLoginUid session uid => exact absurd rfl (hkicked [] hwarrant.2.2)
  | takeLoginUid session =>
    obtain ⟨uid, looked, hfound, htrace⟩ := hwarrant
    exact absurd htrace (hlooked [_] hfound)
  | casStop session =>
    obtain ⟨uid, hfound⟩ := hwarrant
    exact absurd rfl (hlooked [] hfound)
  | loadStop session payload msgid => exact hsends [] hwarrant rfl
  | push session payload sent =>
    obtain ⟨msgid, msg, before, htrace, hsent, -⟩ := hwarrant
    exact hsends [_] hsent htrace
  | addOnlineUser uid session =>
    obtain ⟨-, -, kicked, hkick, htrace⟩ := hwarrant
    exact absurd htrace (hkicked [_] hkick)
  | removeOnlineUser uid =>
    obtain ⟨-, old, user, looked, hfound, htrace⟩ := hwarrant
    exact absurd htrace (hlooked [_, _] hfound)
  | getSessionByUid uid =>
    rcases hwarrant with ⟨username, password, htrace⟩ | ⟨owner, htrace⟩
      | ⟨msgId, fromUid, content, tm, -, htrace⟩
    · exact absurd ⟨username, password, by rw [htrace]; exact List.mem_cons_self⟩ hlogin
    · -- the friendship has been asked for by a user
      have hmem : (⟨.addFriend owner uid, true⟩ : Call Op Op.Ret) ∈ state.world.trace := by
        rw [htrace]
        exact List.mem_cons_self
      obtain ⟨later, before, -, hadd⟩ := warranted_of_mem hreach hserved hmem
      exact absurd (by rw [htrace]; simp [friendTrace]) (hread owner hadd.1)
    · have hmem : (⟨.saveMessage fromUid uid content (strftime tm), msgId⟩ : Call Op Op.Ret)
          ∈ state.world.trace := by
        rw [htrace]
        exact List.mem_cons_self
      obtain ⟨later, before, -, hsave⟩ := warranted_of_mem hreach hserved hmem
      exact absurd (by rw [htrace]; simp [chatTrace]) (hread fromUid hsave.1)
  | addFriend uid friendUid =>
    obtain ⟨huid, htrace⟩ := hwarrant
    exact absurd (by rw [htrace]; exact List.mem_cons_self) (hread uid huid)
  | getFriendList uid =>
    obtain ⟨huid, htrace⟩ := hwarrant
    exact absurd (by rw [htrace]; exact List.mem_cons_self) (hread uid huid)
  | saveMessage fromUid toUid content timestamp =>
    obtain ⟨huid, -, tm, -, htrace⟩ := hwarrant
    exact absurd (by rw [htrace]; simp) (hread fromUid huid)
  | getOfflineMessages uid =>
    rcases hwarrant with ⟨-, huid, htrace⟩ | ⟨-, -, kicked, hkick, htrace⟩
    · exact absurd (by rw [htrace]; exact List.mem_cons_self) (hread uid huid)
    · exact absurd htrace (hkicked [_, _] hkick)
  | now =>
    obtain ⟨uid, huid, htrace⟩ := hwarrant
    exact absurd (by rw [htrace]; exact List.mem_cons_self) (hread uid huid)

/-! ### Isolation -/

/-- A step that leaves everything to others as it is: at most users are added, and frames to the send queue
of the session itself. -/
structure Secluded (session : Sid) (world world' : World) : Prop where
  friends : world'.db.friends = world.db.friends
  messages : world'.db.messages = world.db.messages
  online : world'.onlineUsers = world.onlineUsers
  own : ∃ sendQue, world'.sessions session = { world.sessions session with sendQue }
  others : ∀ other, other ≠ session → world'.sessions other = world.sessions other

theorem Secluded.refl (session : Sid) (world : World) : Secluded session world world :=
  ⟨rfl, rfl, rfl, ⟨_, rfl⟩, fun _ _ => rfl⟩

theorem secluded_of_public {input : Input} {op : Op} {world : World} {session : Sid} (h : Public session op) :
    Secluded session world (perform platform input op world).2 := by
  cases op with
  | getLoginUid | loginUser | loadStop => exact .refl session world
  | registerUser username password =>
    rw [perform]
    rcases DBManager.registerUser_cases platform input.sqlite world.db username password with heq | heq <;>
      rw [heq]
    · exact .refl session world
    · exact ⟨rfl, rfl, rfl, ⟨_, rfl⟩, fun _ _ => rfl⟩
  | push other payload sent =>
    obtain rfl : other = session := h
    rw [perform]
    rcases pushFrame_eq world other ⟨sent, payload⟩ with heq | heq <;> rw [heq]
    · exact .refl other world
    · refine ⟨rfl, rfl, rfl, ?_, fun third hthird => ?_⟩
      · rw [World.sessions_updateSession, if_pos rfl]
        exact ⟨_, rfl⟩
      · rw [World.sessions_updateSession, if_neg hthird]
  | _ => exact h.elim

/-- The step is one of the session: of its request, of its connection, or of a `Close` of it. -/
def Concerns (session : Sid) (state : State) : Label → Prop
  | .accept other => other = session
  | .written other => other = session
  | .expire other => other = session
  | .work _ => (served state.world.history).map LogicNode.session = some session
  | .io thread => ∃ pos, state.closers thread = some (session, pos)
  | _ => False

theorem sessions_updateSession_of_ne {world : World} {session other : Sid} {change : Session → Session}
    (h : other ≠ session) : (world.updateSession other change).sessions session = world.sessions session := by
  rw [World.sessions_updateSession, if_neg h.symm]

/-- The operations that change a session, as a request of another one comes to them, have found it in the
online map. -/
theorem session_perform_of_stranger {ok : Label → State → Prop} {state : State} {session : Sid}
    {input : Input} {op : Op} (hreach : Reaches platform ok state)
    (hwarrant : Warrants platform node state.world.trace op)
    (hstranger : lastLogin session state.world.history = none) (hother : node.session ≠ session) :
    (perform platform input op state.world).2.sessions session = state.world.sessions session := by
  have hnotFound : ∀ uid, (⟨.getSessionByUid uid, some session⟩ : Call Op Op.Ret)
      ∉ state.world.trace := fun _ hmem => (acquainted_of_reaches hreach).found _ _ hmem hstranger
  have hnotLooked : ∀ {uid : Int} {looked : CallTrace} (later : CallTrace),
      Looked uid (some session) looked → state.world.trace ≠ later ++ looked := by
    rintro uid _ later ⟨username, password, rfl⟩ htrace
    exact hnotFound _ (by rw [htrace]; exact List.mem_append_right _ List.mem_cons_self)
  cases op with
  | setLoginUid third uid =>
    obtain ⟨rfl, -⟩ := hwarrant
    rw [perform, sessions_updateSession_of_ne hother]
  | takeLoginUid third =>
    obtain ⟨uid, looked, hlooked, htrace⟩ := hwarrant
    rw [perform, sessions_updateSession_of_ne]
    rintro rfl
    exact hnotLooked [_] hlooked htrace
  | casStop third =>
    obtain ⟨uid, hlooked⟩ := hwarrant
    rw [perform, sessions_updateSession_of_ne]
    rintro rfl
    exact hnotLooked [] hlooked rfl
  | push third payload sent =>
    obtain ⟨msgid, msg, before, htrace, hsends, -⟩ := hwarrant
    have hthird : third ≠ session := by
      rintro rfl
      cases hsends with
      | @friendPush _ friendUid =>
        exact hnotFound friendUid (by rw [htrace]; exact List.mem_cons_of_mem _ List.mem_cons_self)
      | @chatPush _ _ toUid =>
        exact hnotFound toUid (by rw [htrace]; exact List.mem_cons_of_mem _ List.mem_cons_self)
      | _ => exact hother rfl
    rw [perform]
    rcases pushFrame_eq state.world third ⟨sent, payload⟩ with heq | heq <;> rw [heq]
    exact sessions_updateSession_of_ne hthird
  | addOnlineUser uid third => rw [perform, (addOnlineUser_frame uid third state.world).2.1]
  | removeOnlineUser uid => rw [perform, (removeOnlineUser_frame uid state.world).2.1]
  | getSessionByUid uid => rw [perform, (getSessionByUid_frame uid state.world).2.1]
  | _ => rfl

/-- A step that is not one of a session without a login leaves that session as it is. -/
theorem session_of_step {label : Label} {state state' : State} {session : Sid}
    (hreach : Reaches platform (fun _ _ => True) state) (hstep : step platform label state = some state')
    (hstranger : lastLogin session state.world.history = none) (hnot : ¬Concerns session state label) :
    state'.world.sessions session = state.world.sessions session := by
  cases label with
  | accept other =>
    rw [step] at hstep
    split_ifs at hstep
    obtain rfl := Option.some.inj hstep
    rw [sessions_updateSession_of_ne hnot]
  | post other =>
    rw [step] at hstep
    split_ifs at hstep <;>
    · obtain rfl := Option.some.inj hstep
      rfl
  | dispatch =>
    rw [step] at hstep
    split at hstep
    · obtain rfl := Option.some.inj hstep
      rfl
    · cases hstep
  | work input =>
    rw [step] at hstep
    split at hstep
    · next op next hworker =>
      obtain rfl := Option.some.inj hstep
      obtain ⟨node, hserved, hwarrant⟩ := (grounded_of_reaches hreach).warrants hworker
      refine session_perform_of_stranger hreach hwarrant hstranger fun heq => hnot ?_
      rw [Concerns, hserved, ← heq]
      rfl
    · cases hstep
  | finish =>
    rw [step] at hstep
    split at hstep
    · obtain rfl := Option.some.inj hstep
      rfl
    · obtain rfl := Option.some.inj hstep
      rfl
    · cases hstep
  | closeCall thread other =>
    rw [step] at hstep
    split_ifs at hstep
    obtain rfl := Option.some.inj hstep
    rfl
  | io thread =>
    rw [step] at hstep
    split at hstep
    · next other pos hcloser =>
      obtain rfl := Option.some.inj hstep
      have hother : other ≠ session := by
        rintro rfl
        exact hnot ⟨pos, hcloser⟩
      change (perform platform .idle (pos.op other) state.world).2.sessions session = _
      cases pos with
      | exchange | take => rw [ClosePos.op, perform, sessions_updateSession_of_ne hother]
      | remove uid => rw [ClosePos.op, perform, (removeOnlineUser_frame uid state.world).2.1]
    · cases hstep
  | written other =>
    rw [step] at hstep
    split at hstep
    · cases hstep
    · obtain rfl := Option.some.inj hstep
      rw [sessions_updateSession_of_ne hnot]
  | expire other =>
    rw [step] at hstep
    split_ifs at hstep
    obtain rfl := Option.some.inj hstep
    rw [sessions_updateSession_of_ne hnot]

/-- **A connection without a login is isolated.** In every run, at each step: when the worker serves its
request, friendships, messages, the online map and all other sessions stay as they are, and of its own
session only the send queue can change; and a step that is not its own leaves its session as it is. -/
theorem strangers_isolated {label : Label} {state state' : State} {session : Sid}
    (hreach : Reaches platform (fun _ _ => True) state) (hstep : step platform label state = some state')
    (hstranger : lastLogin session state.world.history = none) :
    (∀ input, label = .work input → Concerns session state label →
      Secluded session state.world state'.world) ∧
    (¬Concerns session state label → state'.world.sessions session = state.world.sessions session) := by
  refine ⟨?_, session_of_step hreach hstep hstranger⟩
  rintro input rfl hconcerns
  rw [step] at hstep
  split at hstep
  · next op next hworker =>
    obtain rfl := Option.some.inj hstep
    obtain ⟨node, hserved, hwarrant⟩ := (grounded_of_reaches hreach).warrants hworker
    obtain ⟨other, hother, rfl⟩ := Option.map_eq_some_iff.mp hconcerns
    obtain rfl := Option.some.inj (hserved.symm.trans hother)
    have hsecluded : Secluded node.session state.world (perform platform input op state.world).2 :=
      secluded_of_public (public_of_stranger hreach hserved hwarrant hstranger)
    exact { hsecluded with }
  · cases hstep

theorem strangers_isolated_dan :
    Secluded 0 (Reach.after (step reference) [.dispatch] (played quietDb danScript)).world
        danRegistered.world ∧
      danRegistered.world.sessions 1 = (played quietDb danScript).world.sessions 1 := by
  obtain ⟨hplays, hdispatched, hworked, hstranger, hserved⟩ :
      plays (fun _ _ => true) quietDb danScript = true ∧
      (step reference .dispatch (played quietDb danScript)).isSome = true ∧
      (step reference (.work .idle)
        (Reach.after (step reference) [.dispatch] (played quietDb danScript))).isSome = true ∧
      (∀ session ∈ [0, 1], lastLogin session
        (Reach.after (step reference) [.dispatch] (played quietDb danScript)).world.history = none) ∧
      (served (Reach.after (step reference) [.dispatch] (played quietDb danScript)).world.history).map
        LogicNode.session = some 0 := by
    decide +kernel
  have hreach : Reaches reference (fun _ _ => True)
      (Reach.after (step reference) [.dispatch] (played quietDb danScript)) :=
    .next (reached_of_plays quietDb_wellFormed hplays) trivial (step_after .dispatch _ hdispatched)
  have hstep := step_after (.work .idle) _ hworked
  refine ⟨(strangers_isolated hreach hstep (hstranger 0 (by simp))).1 .idle rfl hserved, ?_⟩
  refine ((strangers_isolated hreach hstep (hstranger 1 (by simp))).2 fun hconcerns => ?_).trans ?_
  · cases hserved.symm.trans hconcerns
  · exact (strangers_isolated (reached_of_plays quietDb_wellFormed hplays) (step_after .dispatch _ hdispatched)
      (by decide +kernel)).2 id

end CoroutineServer
