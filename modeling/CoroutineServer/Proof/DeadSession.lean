import CoroutineServer.Proof.Ledger
import CoroutineServer.Proof.OnlineMap

/-!
# Requests of a dead session

The logic queue keeps the requests of a session after it has been closed. Without a login uid all of
them are refused but a login, which looks at the credentials only. As long as no login succeeds on a
session that is closed by then, the requests of closed sessions change nothing for anybody else.
-/

namespace CoroutineServer

open Program CSession

variable {platform : Platform}

/-- A `Close` in progress on an IO thread has yet to take the login uid. -/
def Taking (state : State) (session : Sid) : Prop :=
  ∃ thread, state.closers thread = some (session, .take)

/-- The call of `Close` that stopped the session has finished. Further calls may have begun; they find
the flag set. -/
def Dead (state : State) (session : Sid) : Prop :=
  state.world.stopped session = true ∧
    ∀ thread pos, state.closers thread = some (session, pos) → pos = .exchange

/-- The condition: a login on a dead session does not succeed, and a uid is set on a session that is
open, or whose `Close` will still take it. -/
def InertWhenDead (platform : Platform) : Input → Op → State → Prop
  | input, .loginUser username password, state =>
      (DBManager.loginUser platform input.sqlite username password state.world.db).1 = true →
        ∀ node, served state.world.history = some node → ¬Dead state node.session
  | _, .setLoginUid session _, state => state.world.stopped session = false ∨ Taking state session
  | _, _, _ => True

abbrev inertWhenDead (platform : Platform) : Label → State → Prop :=
  OpsMeet (InertWhenDead platform) fun _ _ _ => True

/-! ### Closed sessions are logged out -/

/-- The invariant: a stopped session has no login uid, unless its `Close` has yet to take it. -/
def LoggedOut (state : State) : Prop :=
  ∀ session, state.world.stopped session = true → state.world.uidOf session = 0 ∨
    Taking state session ∨ state.world.trace.head? = some ⟨.casStop session, true⟩

theorem midway_of_head_casStop {trace : CallTrace} {session : Sid}
    (h : trace.head? = some ⟨.casStop session, true⟩) : Midway trace := by
  obtain ⟨rest, rfl⟩ := List.head?_eq_some_iff.mp h
  exact rfl

theorem takeLoginUid_of_head_casStop {node : LogicNode} {trace : CallTrace} {op : Op} {session : Sid}
    (hwarrant : Warrants platform node trace op)
    (h : trace.head? = some ⟨.casStop session, true⟩) : op = .takeLoginUid session := by
  by_cases htake : ∃ other, op = .takeLoginUid other
  · obtain ⟨other, rfl⟩ := htake
    obtain ⟨uid, looked, -, rfl⟩ := hwarrant
    have hother := (Sigma.mk.inj (Option.some.inj h)).1
    rw [Op.casStop.inj hother]
  by_cases hremove : ∃ uid, op = .removeOnlineUser uid
  · obtain ⟨uid, rfl⟩ := hremove
    obtain ⟨-, old, user, looked, -, rfl⟩ := hwarrant
    cases (Sigma.mk.inj (Option.some.inj h)).1
  by_cases hadd : ∃ uid other, op = .addOnlineUser uid other
  · obtain ⟨uid, other, rfl⟩ := hadd
    obtain ⟨-, -, kicked, -, rfl⟩ := hwarrant
    cases (Sigma.mk.inj (Option.some.inj h)).1
  exact absurd (midway_of_head_casStop h) (not_midway_of_warrants hwarrant
    (fun other heq => htake ⟨other, heq⟩) (fun uid heq => hremove ⟨uid, heq⟩)
    (fun uid other heq => hadd ⟨uid, other, heq⟩))

theorem loggedOut_workStep {state : State} {node : LogicNode} {input : Input} {op : Op}
    {next : op.Ret → Handler Unit} (h : LoggedOut state)
    (hset : ∀ session uid, op = .setLoginUid session uid →
      state.world.stopped session = false ∨ Taking state session)
    (hwarrant : Warrants platform node state.world.trace op) :
    LoggedOut (workStep platform input op next state) := by
  intro session hstopped
  have hhead : (workStep platform input op next state).world.trace.head?
      = some ⟨op, (perform platform input op state.world).1⟩ := by
    rw [trace_workStep, List.head?_cons]
  unfold workStep at hstopped ⊢
  dsimp only at hstopped ⊢
  rw [World.stopped_record] at hstopped
  rw [World.uidOf_record]
  by_cases hcas : op = .casStop session
  · subst hcas
    cases hbefore : state.world.stopped session with
    | false =>
      refine .inr (.inr (hhead.trans ?_))
      have hexchanged : (perform platform input (.casStop session) state.world).1 = true := by
        change (!state.world.stopped session) = true
        rw [hbefore]
        rfl
      rw [hexchanged]
    | true =>
      rw [uidOf_perform platform input _ state.world session (by simp) (by simp)]
      refine (h session hbefore).imp_right fun hrest => .inl (hrest.resolve_right fun hmid => ?_)
      cases takeLoginUid_of_head_casStop hwarrant hmid
  have hbefore : state.world.stopped session = true :=
    (stopped_perform platform input op state.world session hcas).symm.trans hstopped
  by_cases htake : op = .takeLoginUid session
  · subst htake
    exact .inl (uidOf_takeLoginUid platform input state.world session)
  by_cases hsets : ∃ uid, op = .setLoginUid session uid
  · obtain ⟨uid, rfl⟩ := hsets
    refine .inr (.inl ((hset session uid rfl).resolve_left fun hopen => ?_))
    cases hbefore.symm.trans hopen
  rw [uidOf_perform platform input op state.world session (fun uid heq => hsets ⟨uid, heq⟩) htake]
  refine (h session hbefore).imp_right fun hrest => .inl (hrest.resolve_right fun hmid => ?_)
  exact htake (takeLoginUid_of_head_casStop hwarrant hmid)

theorem loggedOut_ioStep {state : State} {thread : Nat} {closing : Sid} {pos : ClosePos}
    (h : LoggedOut state) (hcloser : state.closers thread = some (closing, pos)) :
    LoggedOut (ioStep platform thread closing pos state) := by
  intro session hstopped
  by_cases htake : pos = .take ∧ closing = session
  · obtain ⟨rfl, rfl⟩ := htake
    exact .inl (uidOf_takeLoginUid platform .idle state.world closing)
  rw [trace_ioStep, uidOf_ioStep htake]
  have htaking : Taking state session → Taking (ioStep platform thread closing pos state) session := by
    rintro ⟨other, hother⟩
    refine ⟨other, ?_⟩
    rw [closers_ioStep, if_neg]
    · exact hother
    · rintro rfl
      obtain ⟨hsession, hpos⟩ := Prod.mk.inj (Option.some.inj (hcloser.symm.trans hother))
      exact htake ⟨hpos, hsession⟩
  by_cases hexchange : pos = .exchange ∧ closing = session
  · obtain ⟨rfl, rfl⟩ := hexchange
    cases hbefore : state.world.stopped closing with
    | false => exact .inr (.inl ⟨thread, closers_exchange hbefore⟩)
    | true => exact (h closing hbefore).imp_right (Or.imp_left htaking)
  · rw [stopped_ioStep hexchange] at hstopped
    exact (h session hstopped).imp_right (Or.imp_left htaking)

theorem loggedOut_of_reaches {state : State} (hreach : Reaches platform (inertWhenDead platform) state) :
    LoggedOut state := by
  apply invariant_of_moves LoggedOut hreach (fun _ => id)
  · rintro _ ⟨db, -, rfl⟩ session hstopped
    cases hstopped
  · intro state state' h hquiet session hstopped
    rw [hquiet.stopped] at hstopped
    rw [hquiet.uidOf, hquiet.trace]
    refine (h session hstopped).imp_right (Or.imp_left ?_)
    exact fun ⟨thread, htake⟩ => ⟨thread, hquiet.kept thread _ htake⟩
  · intro state node rest hreached h hidle session hstopped
    refine (h session hstopped).imp_right fun hrest => .inl (hrest.resolve_right fun hmid => ?_)
    exact (grounded_of_reaches hreached).not_midway_of_idle hidle (midway_of_head_casStop hmid)
  · intro state input op next node _ h hok hworker _ hwarrant
    refine loggedOut_workStep h (fun session uid heq => ?_) hwarrant
    subst heq
    exact hok _ next hworker
  · intro state thread session pos _ h _ hcloser
    exact loggedOut_ioStep h hcloser

/-! ### The handler of a request -/

/-- A call that a session without a login uid makes. -/
def Powerless : Call Op Op.Ret → Prop
  | ⟨.getLoginUid _, (uid : Int)⟩ => uid = 0
  | ⟨.loginUser _ _, (result : Bool × Int)⟩ => result.1 = false
  | ⟨.registerUser _ _, _⟩ => True
  | ⟨.loadStop _ _ _, _⟩ => True
  | ⟨.push _ _ _, _⟩ => True
  | _ => False

theorem powerless_of_warrants {node : LogicNode} {trace : CallTrace} {op : Op}
    (hwarrant : Warrants platform node trace op) (htrace : ∀ call ∈ trace, Powerless call) :
    (op = .getLoginUid node.session) ∨ (∃ username password, op = .registerUser username password) ∨
      (∃ username password, op = .loginUser username password) ∨
      (∃ session payload msgid, op = .loadStop session payload msgid) ∨
      ∃ session payload sent, op = .push session payload sent := by
  have huid : ∀ {uid : Int}, (⟨.getLoginUid node.session, uid⟩ : Call Op Op.Ret) ∈ trace → uid = 0 :=
    fun hmem => htrace _ hmem
  have hlogin : ∀ uid : Int, ¬LoginIn trace uid := by
    rintro uid ⟨username, password, hmem⟩
    exact Bool.false_ne_true (htrace _ hmem).symm
  cases op with
  | getLoginUid session =>
    obtain ⟨rfl, -⟩ := hwarrant
    exact .inl rfl
  | registerUser username password => exact .inr (.inl ⟨_, _, rfl⟩)
  | loginUser username password => exact .inr (.inr (.inl ⟨_, _, rfl⟩))
  | loadStop session payload msgid => exact .inr (.inr (.inr (.inl ⟨_, _, _, rfl⟩)))
  | push session payload sent => exact .inr (.inr (.inr (.inr ⟨_, _, _, rfl⟩)))
  | setLoginUid session uid => exact absurd (loginIn_of_kicked hwarrant.2.2) (hlogin uid)
  | takeLoginUid session =>
    obtain ⟨uid, looked, ⟨username, password, rfl⟩, rfl⟩ := hwarrant
    exact absurd ⟨username, password, by simp⟩ (hlogin uid)
  | casStop session =>
    obtain ⟨uid, hlooked⟩ := hwarrant
    exact absurd (loginIn_of_looked hlooked) (hlogin uid)
  | addOnlineUser uid session =>
    obtain ⟨-, -, kicked, hkicked, rfl⟩ := hwarrant
    exact absurd ((loginIn_cons (by simp)).mpr (loginIn_of_kicked hkicked)) (hlogin uid)
  | removeOnlineUser uid =>
    obtain ⟨-, old, user, looked, ⟨username, password, rfl⟩, rfl⟩ := hwarrant
    exact absurd ⟨username, password, by simp⟩ (hlogin user)
  | getSessionByUid uid =>
    rcases hwarrant with ⟨username, password, rfl⟩ | ⟨owner, rfl⟩ | ⟨msgId, fromUid, content, tm, -, rfl⟩
    · exact absurd ⟨username, password, List.mem_cons_self⟩ (hlogin uid)
    · exact (htrace _ List.mem_cons_self).elim
    · exact (htrace _ List.mem_cons_self).elim
  | addFriend uid friendUid =>
    obtain ⟨hne, rfl⟩ := hwarrant
    exact absurd (huid List.mem_cons_self) hne
  | getFriendList uid =>
    obtain ⟨hne, rfl⟩ := hwarrant
    exact absurd (huid List.mem_cons_self) hne
  | saveMessage fromUid toUid content timestamp =>
    obtain ⟨hne, -, tm, -, rfl⟩ := hwarrant
    exact absurd (huid (List.mem_cons_of_mem _ List.mem_cons_self)) hne
  | getOfflineMessages uid =>
    rcases hwarrant with ⟨-, hne, rfl⟩ | ⟨-, -, kicked, hkicked, rfl⟩
    · exact absurd (huid List.mem_cons_self) hne
    · exact absurd ((loginIn_cons (by simp)).mpr ((loginIn_cons (by simp)).mpr
        (loginIn_of_kicked hkicked))) (hlogin uid)
  | now =>
    obtain ⟨uid, hne, rfl⟩ := hwarrant
    exact absurd (huid List.mem_cons_self) hne

/-- What a request must not change for anybody else. -/
structure SameForOthers (world world' : World) : Prop where
  stopped : ∀ session, world'.stopped session = world.stopped session
  onlineUsers : world'.onlineUsers = world.onlineUsers
  messages : world'.db.messages = world.db.messages

theorem sameForOthers_perform {node : LogicNode} {trace : CallTrace} {op : Op}
    (hwarrant : Warrants platform node trace op) (htrace : ∀ call ∈ trace, Powerless call)
    (input : Input) (world : World) :
    SameForOthers world (perform platform input op world).2 ∧
      ∀ session, (perform platform input op world).2.uidOf session = world.uidOf session := by
  have hframe : (∀ session, op ≠ .casStop session) ∧ (∀ session uid, op ≠ .setLoginUid session uid) ∧
      (∀ session, op ≠ .takeLoginUid session) ∧ (∀ uid session, op ≠ .addOnlineUser uid session) ∧
      (∀ uid, op ≠ .removeOnlineUser uid) ∧ (∀ uid, op ≠ .getSessionByUid uid) ∧
      (∀ fromUid toUid content timestamp, op ≠ .saveMessage fromUid toUid content timestamp) ∧
      ∀ uid, op ≠ .getOfflineMessages uid := by
    rcases powerless_of_warrants hwarrant htrace with
      rfl | ⟨_, _, rfl⟩ | ⟨_, _, rfl⟩ | ⟨_, _, _, rfl⟩ | ⟨_, _, _, rfl⟩ <;> simp
  obtain ⟨hcas, hset, htake, hadd, hremove, hget, hsave, hoffline⟩ := hframe
  refine ⟨⟨fun session => ?_, ?_, ?_⟩, fun session => ?_⟩
  · exact stopped_perform platform input op world session (hcas session)
  · exact onlineUsers_perform platform input op world hadd hremove hget
  · exact (messages_perform platform input op world hsave hoffline).1
  · exact uidOf_perform platform input op world session (hset session) (htake session)

/-- The invariant of the handler: its session stays dead and logged out, and its calls powerless. -/
structure Inert (node : LogicNode) (state : State) : Prop where
  served : served state.world.history = some node
  dead : Dead state node.session
  uidOf : state.world.uidOf node.session = 0
  trace : ∀ call ∈ state.world.trace, Powerless call

theorem Inert.quiet {node : LogicNode} {state state' : State} (h : Inert node state)
    (hquiet : Quiet state state') : Inert node state' := by
  refine ⟨?_, ⟨?_, fun thread pos hcloser => ?_⟩, ?_, ?_⟩
  · rw [hquiet.history]
    exact h.served
  · rw [hquiet.stopped]
    exact h.dead.1
  · by_contra hpos
    exact hpos (h.dead.2 thread pos (hquiet.called thread _ pos hcloser hpos))
  · rw [hquiet.uidOf]
    exact h.uidOf
  · rw [hquiet.trace]
    exact h.trace

theorem Inert.work {node : LogicNode} {state : State} {input : Input} {op : Op}
    {next : op.Ret → Handler Unit} (h : Inert node state)
    (hok : InertWhenDead platform input op state)
    (hwarrant : Warrants platform node state.world.trace op) :
    Inert node (workStep platform input op next state) := by
  obtain ⟨hsame, huid⟩ := sameForOthers_perform hwarrant h.trace input state.world
  refine ⟨?_, ⟨?_, h.dead.2⟩, ?_, fun call hcall => ?_⟩
  · rw [history_workStep]
    exact h.served
  · exact (hsame.stopped node.session).trans h.dead.1
  · exact (huid node.session).trans h.uidOf
  · rw [trace_workStep] at hcall
    rcases List.mem_cons.mp hcall with rfl | hcall
    · rcases powerless_of_warrants hwarrant h.trace with
        rfl | ⟨_, _, rfl⟩ | ⟨username, password, rfl⟩ | ⟨_, _, _, rfl⟩ | ⟨_, _, _, rfl⟩
      · exact h.uidOf
      · trivial
      · exact Bool.eq_false_iff.mpr fun hsome => hok hsome node h.served h.dead
      · trivial
      · trivial
    · exact h.trace call hcall

theorem Inert.io {node : LogicNode} {state : State} {thread : Nat} {closing : Sid} {pos : ClosePos}
    (h : Inert node state) (hcloser : state.closers thread = some (closing, pos)) :
    Inert node (ioStep platform thread closing pos state) := by
  have htake : ¬(pos = .take ∧ closing = node.session) := by
    rintro ⟨rfl, rfl⟩
    cases h.dead.2 thread _ hcloser
  refine ⟨?_, ⟨?_, fun other otherPos hother => ?_⟩, (uidOf_ioStep htake).trans h.uidOf, ?_⟩
  · rw [history_ioStep]
    exact h.served
  · exact stopped_perform_mono platform .idle (pos.op closing) state.world h.dead.1
  · rw [closers_ioStep] at hother
    split_ifs at hother with hsame
    · -- another call of `Close` on the session has found the flag set, and returns
      obtain ⟨next, hnext, heq⟩ := Option.map_eq_some_iff.mp hother
      obtain ⟨rfl, rfl⟩ := Prod.mk.inj heq
      obtain rfl := h.dead.2 thread pos hcloser
      have hexchanged : (perform platform .idle (ClosePos.exchange.op node.session) state.world).1
          = false := by
        change (!state.world.stopped node.session) = false
        rw [h.dead.1]
        rfl
      rw [hexchanged] at hnext
      cases hnext
    · exact h.dead.2 other otherPos hother
  · rw [trace_ioStep]
    exact h.trace

/-- **Requests of a dead session are inert**, as long as no login succeeds on one. In every run whose
steps meet the condition, when a message is dispatched whose session is dead, each operation of its
handler leaves the stop flags, the online map and the messages table as they are, and the session has no
login uid. -/
theorem dead_requests_inert {start begun state : State} {node : LogicNode}
    (hreach : Reaches platform (inertWhenDead platform) start) (hdead : Dead start node.session)
    (hdispatch : step platform .dispatch start = some begun)
    (hserved : served begun.world.history = some node)
    (hhandling : Handling platform (inertWhenDead platform) begun state) :
    state.world.uidOf node.session = 0 ∧
      ∀ input after, step platform (.work input) state = some after →
        SameForOthers state.world after.world ∧ after.world.uidOf node.session = 0 := by
  have hreached : Reaches platform (fun _ _ => True) start :=
    hreach.mono (fun _ => id) fun _ _ _ => trivial
  have hbegun : Inert node begun := by
    have hbefore := loggedOut_of_reaches hreach node.session hdead.1
    simp only [step] at hdispatch
    split at hdispatch
    · next first rest hidle hque =>
      obtain rfl := Option.some.inj hdispatch
      refine ⟨hserved, hdead, ?_, fun call hcall => (by cases hcall)⟩
      rcases hbefore with huid | ⟨thread, htake⟩ | hmid
      · exact huid
      · cases hdead.2 thread _ htake
      · exact absurd (midway_of_head_casStop hmid)
          ((grounded_of_reaches hreached).not_midway_of_idle hidle)
    · cases hdispatch
  obtain ⟨hstate, hinert⟩ : Reaches platform (fun _ _ => True) state ∧ Inert node state := by
    apply hhandling.invariant (Inert node) (.next hreached trivial hdispatch) hbegun
    · exact fun _ h => h.served
    · exact fun _ _ h hquiet => h.quiet hquiet
    · exact fun _ _ _ _ _ h hok hworker hwarrant => h.work (hok _ _ hworker) hwarrant
    · exact fun _ _ _ _ h _ hcloser => h.io hcloser
  refine ⟨hinert.uidOf, fun input after hwork => ?_⟩
  simp only [step] at hwork
  split at hwork
  · next op next hworker =>
    obtain rfl := Option.some.inj hwork
    obtain ⟨other, hother, hwarrant⟩ := (grounded_of_reaches hstate).warrants hworker
    obtain rfl := Option.some.inj (hinert.served.symm.trans hother)
    obtain ⟨hsame, huid⟩ := sameForOthers_perform hwarrant hinert.trace input state.world
    exact ⟨⟨hsame.stopped, hsame.onlineUsers, hsame.messages⟩,
      (huid node.session).trans hinert.uidOf⟩
  · cases hwork

/-! ### A login on a dead session -/

/-- Bob and ann are logged in. His session is closed while his message to her is in the queue. -/
def closedChatScript : List Act :=
  [.accept 0, .accept 1, .post 0 MSG_LOGIN_REQ (credentials "bob"), .serve 7,
    .post 1 MSG_LOGIN_REQ (credentials "ann"), .serve 7, .post 0 MSG_SEND_CHAT_REQ (chatBody 1),
    .closeCall 0 0, .io 0 3]

theorem dead_of_ended {script : List Act} {session : Sid} (thread : Nat)
    (hstopped : (played quietDb script).world.stopped session = true)
    (hscript : ∀ act ∈ script, ∀ other session, act = .closeCall other session → other = thread)
    (hended : ((played quietDb script).closers thread).isNone = true) :
    Dead (played quietDb script) session := by
  refine ⟨hstopped, fun other pos hcloser => ?_⟩
  rw [closers_eq_none thread hscript hended other] at hcloser
  cases hcloser

def testInert : Op → State → Bool
  | .loginUser _ _, state => match served state.world.history with
      | some node => !state.world.stopped node.session
      | none => true
  | .setLoginUid session _, state => !state.world.stopped session
  | _, _ => true

theorem inertWhenDead_of_test {label : Label} {state : State}
    (hidle : ∀ input, label = .work input → input = .idle)
    (htest : testOps testInert (fun _ _ => true) label state = true) :
    inertWhenDead reference label state := by
  refine opsMeet_of_test (fun op hop => ?_) (fun _ _ _ => trivial) hidle htest
  cases op with
  | loginUser username password =>
    intro _ node hserved hdead
    rw [testInert, hserved] at hop
    simp [hdead.1] at hop
  | setLoginUid session uid => exact .inl (by simpa [testInert] using hop)
  | _ => trivial

/-- The handler of his message has found that nobody is logged in on its session. -/
def closedChatRefused : State :=
  Reach.after (step reference) [.work .idle]
    (Reach.after (step reference) [.dispatch] (played quietDb closedChatScript))

/-- His session is logged out, and ann stays logged in on hers, which her entry names. -/
theorem dead_requests_inert_chat :
    (closedChatRefused.world.stopped 1 = false ∧ closedChatRefused.world.uidOf 1 = 1 ∧
      closedChatRefused.world.onlineUsers 1 = some 1) ∧ closedChatRefused.world.uidOf 0 = 0 ∧
      ∃ after, step reference (.work .idle) closedChatRefused = some after ∧ after.world.stopped 1 = false ∧
        after.world.onlineUsers 1 = some 1 ∧ after.world.db.messages = [] ∧ after.world.uidOf 0 = 0 := by
  obtain ⟨hplays, hstopped, hended, hdispatched, hserved, hmeets, hworked, hann, hmessages⟩ :
      plays (testOps testInert fun _ _ => true) quietDb closedChatScript = true ∧
      (played quietDb closedChatScript).world.stopped 0 = true ∧
      ((played quietDb closedChatScript).closers 0).isNone = true ∧
      (step reference .dispatch (played quietDb closedChatScript)).isSome = true ∧
      served (Reach.after (step reference) [.dispatch] (played quietDb closedChatScript)).world.history
        = some ⟨0, MSG_SEND_CHAT_REQ, render (chatBody 1)⟩ ∧
      Reach.meets (step reference) (testOps testInert fun _ _ => true) [.work .idle]
        (Reach.after (step reference) [.dispatch] (played quietDb closedChatScript)) = true ∧
      (step reference (.work .idle) closedChatRefused).isSome = true ∧
      (closedChatRefused.world.stopped 1 = false ∧ closedChatRefused.world.uidOf 1 = 1 ∧
        closedChatRefused.world.onlineUsers 1 = some 1) ∧
      closedChatRefused.world.db.messages.length = 0 := by decide +kernel
  have hreach := reaches_of_plays (fun _ _ hidle _ => inertWhenDead_of_test hidle) quietDb_wellFormed hplays
  have hdead : Dead (played quietDb closedChatScript) 0 :=
    dead_of_ended 0 hstopped (by simp [closedChatScript]) hended
  have hdispatch := step_after .dispatch (played quietDb closedChatScript) hdispatched
  have hhandling : Handling reference (inertWhenDead reference)
      (Reach.after (step reference) [.dispatch] (played quietDb closedChatScript)) closedChatRefused :=
    handling_of_meets (fun label hlabel => by
      obtain rfl := List.mem_singleton.mp hlabel
      exact ⟨by simp, fun _ => inertWhenDead_of_test fun _ heq => (Label.work.inj heq).symm⟩) hmeets
  have hwork := step_after (.work .idle) closedChatRefused hworked
  obtain ⟨hout, hinert⟩ := @dead_requests_inert _ _ _ _ ⟨0, MSG_SEND_CHAT_REQ, render (chatBody 1)⟩
    hreach hdead hdispatch hserved hhandling
  obtain ⟨hsame, hstays⟩ := hinert _ _ hwork
  exact ⟨hann, hout, _, hwork, (hsame.stopped 1).trans hann.1,
    (congrFun hsame.onlineUsers 1).trans hann.2.2,
    hsame.messages.trans (List.eq_nil_of_length_eq_zero hmessages), hstays⟩

/-- Ann is logged in on one session. Another is closed while her login on it is in the queue. -/
def closedReloginScript : List Act :=
  [.accept 0, .accept 1, .post 0 MSG_LOGIN_REQ (credentials "ann"), .serve 7,
    .post 1 MSG_LOGIN_REQ (credentials "ann"), .closeCall 0 1, .io 0 2]

/-- Without the condition, the login is handled on the dead session and closes the other one. -/
theorem dead_login_closes :
    ¬∀ start begun state node, Reaches reference (fun _ _ => True) start → Dead start node.session →
      step reference .dispatch start = some begun → served begun.world.history = some node →
        Handling reference (fun _ _ => True) begun state →
          ∀ input after, step reference (.work input) state = some after →
            SameForOthers state.world after.world := by
  intro h
  obtain ⟨hplays, hstopped, hended, hdispatched, hserved, hmeets⟩ :
      plays (fun _ _ => true) quietDb closedReloginScript = true ∧
      (played quietDb closedReloginScript).world.stopped 1 = true ∧
      ((played quietDb closedReloginScript).closers 0).isNone = true ∧
      (step reference .dispatch (played quietDb closedReloginScript)).isSome = true ∧
      served (Reach.after (step reference) [.dispatch]
        (played quietDb closedReloginScript)).world.history
          = some ⟨1, MSG_LOGIN_REQ, render (credentials "ann")⟩ ∧
      Reach.meets (step reference) (fun _ _ => true) (List.replicate 2 (.work .idle))
        (Reach.after (step reference) [.dispatch] (played quietDb closedReloginScript)) = true := by
    decide +kernel
  have hreach := reached_of_plays quietDb_wellFormed hplays
  have hdead : Dead (played quietDb closedReloginScript) 1 :=
    dead_of_ended 0 hstopped (by simp [closedReloginScript]) hended
  have hdispatch := step_after .dispatch (played quietDb closedReloginScript) hdispatched
  have hhandling : Handling reference (fun _ _ => True) _ _ :=
    handling_of_meets (fun label hlabel => by
      obtain rfl := List.eq_of_mem_replicate hlabel
      exact ⟨fun h => (by cases h), fun _ _ => trivial⟩) hmeets
  have hwork := step_after (.work .idle) (Reach.after (step reference) (List.replicate 2 (.work .idle))
    (Reach.after (step reference) [.dispatch] (played quietDb closedReloginScript))) (by decide +kernel)
  have hsame := (h _ _ _ ⟨1, MSG_LOGIN_REQ, render (credentials "ann")⟩ hreach hdead hdispatch hserved
    hhandling _ _ hwork).stopped 0
  revert hsame
  decide +kernel

end CoroutineServer
