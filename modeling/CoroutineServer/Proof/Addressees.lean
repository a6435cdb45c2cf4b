import CoroutineServer.Proof.Authenticity
import CoroutineServer.Scenario

/-!
# Who receives

A push goes to the session that the online map names, and the map and the last logins are kept by
different steps. They agree in every run in which no login registers an open session that the map still
holds under another uid; then each frame with somebody's messages or requests reaches a session whose
last login was theirs.
-/

namespace CoroutineServer

open Program CSession

variable {platform : Platform}

/-- The users whose messages, or friend requests, a body carries. -/
def Payload.addressees : Payload → List Int
  | .offlineMsgs _ rows => rows.map MessageRow.toUid
  | .friendRequestPush _ toUid => [toUid]
  | .chatMsgPush _ _ toUid _ _ => [toUid]
  | _ => []

/-- The condition: a session that a login registers is stopped, or is held under no other uid. -/
def RegistersOnce : Op → State → Prop
  | .addOnlineUser uid session, state => state.world.stopped session = true ∨
      ∀ other, other ≠ uid → state.world.onlineUsers other ≠ some session
  | _, _ => True

/-- A login has succeeded in this handler, and the session is not registered yet. -/
def Unregistered (trace : CallTrace) : Prop :=
  (∃ uid, LoginIn trace uid) ∧
    ∀ uid session, (⟨.addOnlineUser uid session, ()⟩ : Call Op Op.Ret) ∉ trace

/-- The invariant: what the entries of the online map, the lookups of the running handler and a frame on
its way into a queue say about the last logins. -/
structure Routed (world : World) : Prop where
  online : ∀ uid session, world.onlineUsers uid = some session → world.stopped session = false →
    lastLogin session world.history = some uid ∨
      (served world.history).map LogicNode.session = some session ∧ Unregistered world.trace
  found : ∀ uid session, (⟨.getSessionByUid uid, some session⟩ : Call Op Op.Ret) ∈ world.trace →
    (∀ user, ¬LoginIn world.trace user) → world.stopped session = false →
    lastLogin session world.history = some uid
  sending : ∀ session payload msgid before,
    world.trace = ⟨.loadStop session payload msgid, false⟩ :: before →
    ∀ uid ∈ payload.addressees, lastLogin session world.history = some uid

namespace Routed

variable {world world' : World}

/-- The invariant survives a change that leaves the history alone, removes entries and stops sessions. -/
theorem of_removal (h : Routed world) (hhistory : world'.history = world.history)
    (honline : ∀ uid session, world'.onlineUsers uid = some session →
      world.onlineUsers uid = some session)
    (hstopped : ∀ session, world'.stopped session = false → world.stopped session = false) :
    Routed world' := by
  have htrace : world'.trace = world.trace := by
    unfold World.trace
    rw [hhistory]
  refine ⟨fun uid session hentry hopen => ?_, fun uid session hmem hlogin hopen => ?_, ?_⟩
  · rw [hhistory, htrace]
    exact h.online uid session (honline uid session hentry) (hstopped session hopen)
  · rw [htrace] at hmem hlogin
    rw [hhistory]
    exact h.found uid session hmem hlogin (hstopped session hopen)
  · rw [hhistory, htrace]
    exact h.sending

theorem dispatched {node : LogicNode} (h : Routed world)
    (hfinished : ∀ node, served world.history = some node → Finished platform node world.trace) :
    Routed (world.record (.dispatched node)) := by
  refine ⟨fun uid session hentry hopen => .inl ?_, fun uid session hmem => ?_, ?_⟩
  · rcases h.online uid session hentry hopen with hlast | ⟨hserved, ⟨user, hlogin⟩, hnoAdd⟩
    · exact hlast
    · -- a finished login has registered its session
      obtain ⟨other, hother, -⟩ := Option.map_eq_some_iff.mp hserved
      obtain ⟨user, -, hadd⟩ := registered_of_finished (hfinished other hother) hlogin
      exact absurd hadd (hnoAdd _ _)
  · cases hmem
  · intro session payload msgid before htrace
    cases htrace

theorem loginUser {username password : Bytes} {ok : Bool} {uid : Int} (h : Routed world)
    (htrace : world.trace = []) :
    Routed (world.record (.did ⟨.loginUser username password, (ok, uid)⟩)) := by
  have hlast : ∀ session user, world.onlineUsers user = some session →
      world.stopped session = false → lastLogin session world.history = some user := by
    intro session user hentry hopen
    rcases h.online user session hentry hopen with hlast | ⟨-, ⟨other, _, _, hmem⟩, -⟩
    · exact hlast
    · rw [htrace] at hmem
      cases hmem
  refine ⟨fun user session hentry hopen => ?_, fun user session hmem => ?_, ?_⟩
  · rw [World.history_record, lastLogin_loginUser]
    split_ifs with hlogin
    · obtain ⟨rfl, hsame⟩ := hlogin
      refine .inr ⟨hsame, ⟨uid, username, password, List.mem_cons_self⟩, fun other user hmem => ?_⟩
      rw [World.trace_did, htrace] at hmem
      simp at hmem
    · exact .inl (hlast session user hentry hopen)
  · rw [World.trace_did, htrace] at hmem
    simp at hmem
  · intro session payload msgid before hhead
    rw [World.trace_did] at hhead
    cases (Sigma.mk.inj (List.cons.inj hhead).1).1

theorem addOnlineUser {node : LogicNode} {uid : Int} {session : Sid} (h : Routed world)
    (hidentity : Identity world) (hserved : served world.history = some node)
    (hwarrant : Warrants platform node world.trace (.addOnlineUser uid session))
    (honce : world.stopped session = true ∨
      ∀ other, other ≠ uid → world.onlineUsers other ≠ some session) :
    Routed ((UserManager.addOnlineUser uid session world).record
      (.did ⟨.addOnlineUser uid session, ()⟩)) := by
  obtain ⟨rfl, huid, kicked, hkicked, htrace⟩ := hwarrant
  obtain ⟨-, hsessions, hhistory⟩ := addOnlineUser_frame uid node.session world
  have hlogin : LoginIn world.trace uid := by
    rw [htrace]
    exact (loginIn_cons (by simp)).mpr (loginIn_of_kicked hkicked)
  have hlast : lastLogin node.session world.history = some uid := by
    obtain ⟨other, hother, hlast⟩ := hidentity.login uid hlogin
    obtain rfl := Option.some.inj (hserved.symm.trans hother)
    exact hlast
  have hstopped : ∀ other,
      (UserManager.addOnlineUser uid node.session world).stopped other = world.stopped other := by
    intro other
    unfold World.stopped
    rw [hsessions]
  refine ⟨fun user other hentry hopen => .inl ?_, fun user other hmem hnone => ?_, ?_⟩
  · rw [World.history_record, lastLogin_did (by simp), hhistory]
    rw [World.onlineUsers_record, onlineUsers_addOnlineUser huid, Function.update_apply] at hentry
    rw [World.stopped_record, hstopped] at hopen
    split_ifs at hentry with huser
    · obtain rfl := Option.some.inj hentry
      rw [huser]
      exact hlast
    · rcases h.online user other hentry hopen with hlast | ⟨hsame, -⟩
      · exact hlast
      · -- an entry of the session itself under another uid
        rw [hserved] at hsame
        obtain rfl := Option.some.inj hsame
        rcases honce with hstop | hother
        · rw [hstop] at hopen
          cases hopen
        · exact absurd hentry (hother user huser)
  · have hin : LoginIn (UserManager.addOnlineUser uid node.session world).trace uid := by
      unfold World.trace
      rw [hhistory]
      exact hlogin
    exact absurd ((loginIn_cons (by simp)).mpr hin) (hnone uid)
  · intro other payload msgid before hhead
    rw [World.trace_did] at hhead
    cases (Sigma.mk.inj (List.cons.inj hhead).1).1

theorem did {op : Op} {result : op.Ret} (h : Routed world) (hhistory : world'.history = world.history)
    (honline : ∀ uid session, world'.onlineUsers uid = some session →
      world.onlineUsers uid = some session)
    (hstopped : ∀ session, world'.stopped session = false → world.stopped session = false)
    (hlogin : ∀ username password, op ≠ .loginUser username password)
    (hadd : ∀ uid session, op ≠ .addOnlineUser uid session)
    (hfound : ∀ uid session, (⟨op, result⟩ : Call Op Op.Ret) = ⟨.getSessionByUid uid, some session⟩ →
      world.onlineUsers uid = some session)
    (hsending : ∀ session payload msgid,
      (⟨op, result⟩ : Call Op Op.Ret) = ⟨.loadStop session payload msgid, false⟩ →
      ∀ uid ∈ payload.addressees, lastLogin session world.history = some uid) :
    Routed (world'.record (.did ⟨op, result⟩)) := by
  have htrace : world'.trace = world.trace := by
    unfold World.trace
    rw [hhistory]
  refine ⟨fun uid session hentry hopen => ?_, fun uid session hmem hnone hopen => ?_, ?_⟩
  · rw [World.history_record, lastLogin_did hlogin, hhistory]
    rcases h.online uid session (honline uid session hentry) (hstopped session hopen)
      with hlast | ⟨hserves, ⟨user, hin⟩, hnoAdd⟩
    · exact .inl hlast
    · refine .inr ⟨hserves, ⟨user, ?_⟩, fun other who hmem => ?_⟩
      · rw [World.trace_did, htrace]
        exact (loginIn_cons hlogin).mpr hin
      · rw [World.trace_did, htrace] at hmem
        rcases List.mem_cons.mp hmem with heq | hmem
        · exact hadd _ _ (Sigma.mk.inj heq).1.symm
        · exact hnoAdd other who hmem
  · rw [World.history_record, lastLogin_did hlogin, hhistory]
    have hnone' : ∀ user, ¬LoginIn world.trace user := by
      intro user hin
      apply hnone user
      rw [World.trace_did, htrace]
      exact (loginIn_cons hlogin).mpr hin
    rw [World.trace_did, htrace] at hmem
    rcases List.mem_cons.mp hmem with heq | hmem
    · rcases h.online uid session (hfound uid session heq.symm) (hstopped session hopen)
        with hlast | ⟨-, ⟨user, hin⟩, -⟩
      · exact hlast
      · exact absurd hin (hnone' user)
    · exact h.found uid session hmem hnone' (hstopped session hopen)
  · intro session payload msgid before hhead uid huid
    rw [World.trace_did] at hhead
    rw [World.history_record, lastLogin_did hlogin, hhistory]
    exact hsending session payload msgid (List.cons.inj hhead).1 uid huid

end Routed

/-- **An open session that is sent to is the addressee's.** -/
theorem lastLogin_of_sends {world : World} {node : LogicNode} {session : Sid} {payload : Payload}
    {msgid uid : Int} (h : Routed world) (hidentity : Identity world)
    (hserved : served world.history = some node)
    (hadmitted : ∀ call ∈ world.trace, Admits call.1 call.2)
    (hsends : Sends platform node world.trace session payload msgid)
    (hopen : world.stopped session = false) (huid : uid ∈ payload.addressees) :
    lastLogin session world.history = some uid := by
  generalize htrace : world.trace = trace at hsends
  -- the rows of a batch are addressed to the user they were fetched for
  have hbatch : ∀ user rows, (⟨.getOfflineMessages user, rows⟩ : Call Op Op.Ret) ∈ world.trace →
      uid ∈ rows.map MessageRow.toUid → uid = user := by
    intro user rows hmem huid
    obtain ⟨row, hrow, rfl⟩ := List.mem_map.mp huid
    exact (hadmitted _ hmem row hrow).1
  cases hsends with
  | @loginBatch user rows kicked hreq huser hkicked hrows =>
    obtain rfl := hbatch user rows (by simp [htrace, loginTrace]) huid
    obtain ⟨username, password, hmem⟩ := loginIn_of_kicked hkicked
    obtain ⟨other, hother, hlast⟩ :=
      hidentity.login uid ⟨username, password, by simp [htrace, loginTrace, hmem]⟩
    obtain rfl := Option.some.inj (hserved.symm.trans hother)
    exact hlast
  | @offlineBatch user rows hreq huser =>
    obtain rfl := hbatch user rows (by simp [htrace]) huid
    exact hidentity.captured node.session uid (by simp [htrace]) huser
  | @friendPush owner friendUid friend hreq howner =>
    obtain rfl := List.mem_singleton.mp huid
    refine h.found uid session (by simp [htrace]) ?_ hopen
    rintro user ⟨_, _, hmem⟩
    simp [htrace, friendTrace] at hmem
  | @chatPush msgId fromUid toUid content tm recipient hreq hfrom hsaved =>
    obtain rfl := List.mem_singleton.mp huid
    refine h.found uid session (by simp [htrace]) ?_ hopen
    rintro user ⟨_, _, hmem⟩
    simp [htrace, chatTrace] at hmem
  | _ => simp [Payload.addressees, LogicSystem.errorResponse] at huid

theorem routed_perform {state : State} {node : LogicNode} (input : Input) (op : Op)
    (hground : Grounded platform state) (hidentity : Identity state.world) (h : Routed state.world)
    (honce : RegistersOnce op state) (hserved : served state.world.history = some node)
    (hwarrant : Warrants platform node state.world.trace op) :
    Routed ((perform platform input op state.world).2.record
      (.did ⟨op, (perform platform input op state.world).1⟩)) := by
  by_cases hlogin : ∃ username password, op = .loginUser username password
  · obtain ⟨username, password, rfl⟩ := hlogin
    exact h.loginUser hwarrant.2.1
  by_cases hadd : ∃ uid session, op = .addOnlineUser uid session
  · obtain ⟨uid, session, rfl⟩ := hadd
    exact h.addOnlineUser hidentity hserved hwarrant honce
  refine h.did (perform_history platform input op state.world) (fun uid session hentry => ?_)
    (fun session hopen => ?_) (fun username password heq => hlogin ⟨username, password, heq⟩)
    (fun uid session heq => hadd ⟨uid, session, heq⟩) ?_ ?_
  · rcases onlineUsers_perform_eq_some platform input op state.world hentry with ⟨heq, -⟩ | ⟨hold, -⟩
    · exact absurd ⟨uid, session, heq⟩ hadd
    · exact hold
  · by_contra hstop
    rw [stopped_perform_mono platform input op state.world (by simpa using hstop)] at hopen
    cases hopen
  · intro uid session heq
    obtain ⟨rfl, hresult⟩ := Sigma.mk.inj heq
    exact online_of_getSessionByUid (eq_of_heq hresult)
  · intro session payload msgid heq uid huid
    obtain ⟨rfl, hresult⟩ := Sigma.mk.inj heq
    exact lastLogin_of_sends h hidentity hserved hground.admitted hwarrant (eq_of_heq hresult) huid

theorem routed_io {world : World} (session : Sid) (pos : ClosePos) (h : Routed world) :
    Routed (perform platform .idle (pos.op session) world).2 := by
  refine h.of_removal (perform_history platform .idle (pos.op session) world)
    (fun uid other hentry => ?_) fun other hopen => ?_
  · rcases onlineUsers_perform_eq_some platform .idle _ world hentry with ⟨heq, -⟩ | ⟨hold, -⟩
    · cases pos <;> cases heq
    · exact hold
  · by_contra hstop
    rw [stopped_perform_mono platform .idle _ world (by simpa using hstop)] at hopen
    cases hopen

/-- The runs in which every registration meets the condition. -/
abbrev registersOnce : Label → State → Prop :=
  OpsMeet (fun _ op state => RegistersOnce op state) fun _ _ _ => True

theorem routed_of_reaches {state : State} (hreach : Reaches platform registersOnce state) :
    Routed state.world := by
  apply invariant_of_moves (fun state => Routed state.world) hreach (fun _ => id)
  · rintro _ ⟨db, -, rfl⟩
    refine ⟨fun uid session hentry => ?_, fun uid session hmem => ?_, ?_⟩
    · cases hentry
    · cases hmem
    · intro session payload msgid before htrace
      cases htrace
  · intro state state' h hquiet
    refine h.of_removal hquiet.history (fun uid session hentry => ?_) fun session hopen => ?_
    · rwa [hquiet.onlineUsers] at hentry
    · rwa [hquiet.stopped] at hopen
  · intro state node rest hreached h hidle
    exact h.dispatched ((grounded_of_reaches hreached).finished hidle)
  · intro state input op next node hreached h hok hworker hserved hwarrant
    exact routed_perform input op (grounded_of_reaches hreached) (identity_of_reaches hreached) h
      (hok op next hworker) hserved hwarrant
  · intro state thread session pos _ h _ _
    exact routed_io session pos h

/-- An event is addressed: a frame is pushed to a session of its addressee. -/
def Addressed (event : Event) (earlier : List Event) : Prop :=
  ∀ session payload sent accepted, event = .did ⟨.push session payload sent, accepted⟩ →
    ∀ uid ∈ payload.addressees, lastLogin session earlier = some uid

/-- **Messages reach only their addressee** when every registration meets the condition: each frame
that carries messages to a user, or a friend request to one, is pushed to a session whose last
successful login was that user's. -/
theorem frames_addressed {state : State} (hreach : Reaches platform registersOnce state) :
    ∀ later event earlier, state.world.history = later ++ event :: earlier →
      Addressed event earlier := by
  rw [← throughout_iff]
  apply throughout_of_moves _ hreach
  · intro node earlier session payload sent accepted heq
    cases heq
  · intro state input op next node hreached _ _ hserved hwarrant session payload sent accepted heq uid huid
    obtain ⟨rfl, -⟩ := Sigma.mk.inj (Event.did.inj heq)
    obtain ⟨msgid, msg, before, htrace, -⟩ := hwarrant
    exact (routed_of_reaches hreached).sending session payload msgid before htrace uid huid

/-- The users the pushed frames are for, each with the user the session was last logged in as. -/
def routes : List Event → List (Int × Option Int)
  | [] => []
  | .did ⟨.push session payload _, _⟩ :: earlier =>
      payload.addressees.map (·, lastLogin session earlier) ++ routes earlier
  | _ :: earlier => routes earlier

theorem routes_addressed {history : List Event}
    (h : ∀ later event earlier, history = later ++ event :: earlier → Addressed event earlier) :
    ∀ route ∈ routes history, route.2 = some route.1 := by
  rw [← throughout_iff] at h
  induction history with
  | nil => simp [routes]
  | cons event earlier ih =>
    have ih := ih h.2
    rw [routes.eq_def]
    split
    · contradiction
    · next heq =>
      obtain ⟨rfl, rfl⟩ := List.cons.inj heq
      intro route hroute
      rcases List.mem_append.mp hroute with hroute | hroute
      · obtain ⟨uid, huid, rfl⟩ := List.mem_map.mp hroute
        exact h.1 _ _ _ _ rfl uid huid
      · exact ih route hroute
    · next heq =>
      obtain ⟨-, rfl⟩ := List.cons.inj heq
      exact ih

def testRegistersOnce : Op → State → Bool
  | .addOnlineUser uid session, state => state.world.stopped session ||
      (registeredFor session state.world.history).all (· = uid)
  | _, _ => true

theorem registersOnce_of_test {label : Label} {state : State}
    (hidle : ∀ input, label = .work input → input = .idle)
    (hreach : Reaches reference registersOnce state)
    (htest : testOps testRegistersOnce (fun _ _ => true) label state = true) :
    registersOnce label state := by
  refine opsMeet_of_test (fun op hop => ?_) (fun _ _ _ => trivial) hidle htest
  cases op with
  | addOnlineUser uid session =>
    rw [testRegistersOnce, Bool.or_eq_true, List.all_eq_true] at hop
    refine hop.imp_right fun hall other hother hentry => hother ?_
    exact of_decide_eq_true (hall other (mem_registeredFor hreach hentry))
  | _ => trivial

theorem frames_addressed_chat :
    routes (played quietDb chatScript).world.history = [(1, some 1)] ∧
      ∀ later event earlier, (played quietDb chatScript).world.history = later ++ event :: earlier →
        Addressed event earlier := by
  obtain ⟨hplays, hroutes⟩ :
      plays (testOps testRegistersOnce fun _ _ => true) quietDb chatScript = true ∧
      routes (played quietDb chatScript).world.history = [(1, some 1)] := by decide +kernel
  have hreach := reaches_of_plays (fun _ _ => registersOnce_of_test) quietDb_wellFormed hplays
  exact ⟨hroutes, frames_addressed hreach⟩

/-- Ann and then bob log in on one session, and eve sends ann a message. -/
def reloginScript : List Act :=
  [.accept 0, .accept 1, .post 0 MSG_LOGIN_REQ (credentials "ann"), .serve 7,
    .post 0 MSG_LOGIN_REQ (credentials "bob"), .serve 7, .post 1 MSG_LOGIN_REQ (credentials "eve"),
    .serve 7, .post 1 MSG_SEND_CHAT_REQ (chatBody 1), .serve 8]

/-- Without the condition, a message for ann is pushed to a session that bob is logged in on. -/
theorem frames_misaddressed :
    ¬∀ state, Reaches reference (fun _ _ => True) state →
      ∀ later event earlier, state.world.history = later ++ event :: earlier →
        Addressed event earlier := by
  intro h
  obtain ⟨hplays, hroute⟩ : plays (fun _ _ => true) quietDb reloginScript = true ∧
      ((1, some 2) : Int × Option Int) ∈ routes (played quietDb reloginScript).world.history := by
    decide +kernel
  have hreach : Reaches reference (fun _ _ => True) (played quietDb reloginScript) :=
    reached_of_plays quietDb_wellFormed hplays
  exact absurd (routes_addressed (h _ hreach) _ hroute) (by decide)

end CoroutineServer
