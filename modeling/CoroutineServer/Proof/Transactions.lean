import CoroutineServer.Scenario

/-!
# Requests as transactions

A request makes at most one call that can change the tables, and it makes it before it sends anything. So
wherever the process ends, a request has had its whole effect on the tables or none, and nobody has heard
of an effect that is not there. A request also comes to its end in a bounded number of operations.
-/

namespace CoroutineServer

open Program LogicSystem

variable {platform : Platform} {node : LogicNode}

/-! ### Calls before a change of the tables -/

/-- The methods of `DBManager` that insert or update. -/
def Op.writes : Op → Bool
  | .registerUser _ _ => true
  | .addFriend _ _ => true
  | .saveMessage _ _ _ _ => true
  | .getOfflineMessages _ => true
  | _ => false

/-- The operations of `Send`. -/
def Op.sends : Op → Bool
  | .loadStop _ _ _ => true
  | .push _ _ _ => true
  | _ => false

/-- Nothing has been written or sent. -/
def Silent (trace : CallTrace) : Prop := ∀ call ∈ trace, call.1.writes = false ∧ call.1.sends = false

theorem Silent.cons {op : Op} {result : op.Ret} {trace : CallTrace} (h : Silent trace)
    (hwrites : op.writes = false) (hsends : op.sends = false) : Silent (⟨op, result⟩ :: trace) := by
  intro call hcall
  rcases List.mem_cons.mp hcall with rfl | hcall
  · exact ⟨hwrites, hsends⟩
  · exact h call hcall

theorem Silent.nil : Silent [] := fun _ h => by cases h

theorem silent_looked {uid : Int} {found : Option Sid} {trace : CallTrace} (h : Looked uid found trace) :
    Silent trace := by
  obtain ⟨username, password, rfl⟩ := h
  exact (Silent.nil.cons rfl rfl).cons rfl rfl

theorem silent_kicked {uid : Int} {trace : CallTrace} (h : Kicked uid trace) : Silent trace := by
  cases h with
  | nobody hlooked => exact silent_looked hlooked
  | closed hpart hlooked =>
    have hbefore := silent_looked hlooked
    cases hpart with
    | already => exact hbefore.cons rfl rfl
    | loggedOut => exact (hbefore.cons rfl rfl).cons rfl rfl
    | removed => exact ((hbefore.cons rfl rfl).cons rfl rfl).cons rfl rfl

/-- A call that can write comes first of its kind, and before all that is sent. -/
theorem silent_of_writes {trace : CallTrace} {op : Op} (hwarrant : Warrants platform node trace op)
    (hwrites : op.writes = true) : Silent trace := by
  have hidentified : ∀ uid : Int, Silent [⟨.getLoginUid node.session, uid⟩] :=
    fun _ => Silent.nil.cons rfl rfl
  cases op with
  | registerUser username password =>
    obtain ⟨-, rfl⟩ := hwarrant
    exact .nil
  | addFriend uid friendUid =>
    obtain ⟨-, rfl⟩ := hwarrant
    exact hidentified uid
  | saveMessage fromUid toUid content timestamp =>
    obtain ⟨-, -, tm, -, rfl⟩ := hwarrant
    exact (hidentified fromUid).cons rfl rfl
  | getOfflineMessages uid =>
    rcases hwarrant with ⟨-, -, rfl⟩ | ⟨-, -, kicked, hkicked, rfl⟩
    · exact hidentified uid
    · exact ((silent_kicked hkicked).cons rfl rfl).cons rfl rfl
  | _ => cases hwrites

/-! ### All or nothing -/

theorem db_perform_of_not_writes (input : Input) {op : Op} (world : World) (hwrites : op.writes = false) :
    (perform platform input op world).2.db = world.db := by
  cases op with
  | registerUser | addFriend | saveMessage | getOfflineMessages => cases hwrites
  | _ => exact db_perform _ _ _ _ (by simp) (by simp) (by simp) (by simp)

/-- The tables are those of before, or what one call has made of them, before which nothing was sent. -/
inductive Atomic (platform : Platform) (before : Db) : CallTrace → Db → Prop where
  | untouched {trace : CallTrace} (htrace : ∀ call ∈ trace, call.1.writes = false) :
      Atomic platform before trace before
  | written {later earlier : CallTrace} {input : Input} {op : Op} {world : World}
      (hlater : ∀ call ∈ later, call.1.writes = false) (hwrites : op.writes = true)
      (hearlier : Silent earlier) (hworld : world.db = before) :
      Atomic platform before (later ++ ⟨op, (perform platform input op world).1⟩ :: earlier)
        (perform platform input op world).2.db

theorem Atomic.eq_of_silent {before after : Db} {trace : CallTrace} (h : Atomic platform before trace after)
    (hsilent : Silent trace) : after = before := by
  cases h with
  | untouched => rfl
  | @written _ _ _ op _ _ hwrites =>
    have hmem := (hsilent ⟨op, _⟩ (List.mem_append_right _ List.mem_cons_self)).1
    cases hwrites.symm.trans hmem

theorem Atomic.perform {before : Db} {world : World} (input : Input) (op : Op)
    (h : Atomic platform before world.trace world.db) (hwarrant : Warrants platform node world.trace op) :
    Atomic platform before (⟨op, (perform platform input op world).1⟩ :: world.trace)
      (perform platform input op world).2.db := by
  cases hwrites : op.writes with
  | true =>
    have hsilent := silent_of_writes hwarrant hwrites
    rw [← List.nil_append (⟨op, _⟩ :: world.trace)]
    exact .written (fun _ hcall => by cases hcall) hwrites hsilent (h.eq_of_silent hsilent)
  | false =>
    rw [db_perform_of_not_writes input world hwrites]
    generalize world.trace = trace at h
    generalize world.db = db at h
    cases h with
    | untouched htrace => exact .untouched (by simpa [hwrites] using htrace)
    | written hlater hwrites' hearlier hworld =>
      rw [← List.cons_append]
      exact .written (by simpa [hwrites] using hlater) hwrites' hearlier hworld

/-- **Requests are transactions.** From the dispatch of a request on, at every point of its handler and
until the next dispatch, whatever the other threads do: the tables are those of before the dispatch, and no
call has been made that can change them, or they are what one such call has made of them, and neither is
there a second one nor has anything been sent before it. -/
theorem request_all_or_nothing {before begun state : State}
    (hreach : Reaches platform (fun _ _ => True) before)
    (hdispatch : step platform .dispatch before = some begun)
    (hhandling : Handling platform (fun _ _ => True) begun state) :
    Atomic platform before.world.db state.world.trace state.world.db := by
  obtain ⟨node, hserved, htrace, hdb⟩ : ∃ node, served begun.world.history = some node ∧
      begun.world.trace = [] ∧ begun.world.db = before.world.db := by
    rw [step] at hdispatch
    split at hdispatch
    · next node rest hidle hque =>
      obtain rfl := Option.some.inj hdispatch
      exact ⟨node, rfl, rfl, rfl⟩
    · cases hdispatch
  have hbegun : Reaches platform (fun _ _ => True) begun := .next hreach trivial hdispatch
  have hstart : Atomic platform before.world.db begun.world.trace begun.world.db := by
    rw [htrace, hdb]
    exact .untouched fun _ hcall => (by cases hcall)
  refine (hhandling.invariant (fun state => served state.world.history = some node ∧
    Atomic platform before.world.db state.world.trace state.world.db) hbegun ⟨hserved, hstart⟩
    (fun _ h => h.1) ?_ ?_ ?_).2.2
  · intro state state' h hquiet
    rw [hquiet.history, hquiet.trace, hquiet.db]
    exact h
  · intro state input op next _ h _ _ hwarrant
    rw [history_workStep, trace_workStep]
    exact ⟨h.1, h.2.perform input op hwarrant⟩
  · intro state thread session pos h _ _
    rw [history_ioStep, trace_ioStep, db_ioStep]
    exact h

/-- Dan is about to register. -/
def danScript : List Act := [.accept 0, .post 0 MSG_REGISTER_REQ (credentials "dan")]

/-- His row is there, and the response has not been built. -/
def danRegistered : State :=
  Reach.after (step reference) [.work .idle]
    (Reach.after (step reference) [.dispatch] (played quietDb danScript))

theorem request_all_or_nothing_dan :
    Atomic reference quietDb danRegistered.world.trace danRegistered.world.db := by
  obtain ⟨hplays, hdispatched, hmeets⟩ :
      plays (fun _ _ => true) quietDb danScript = true ∧
      (step reference .dispatch (played quietDb danScript)).isSome = true ∧
      Reach.meets (step reference) (fun _ _ => true) [.work .idle]
        (Reach.after (step reference) [.dispatch] (played quietDb danScript)) = true := by
    decide +kernel
  exact request_all_or_nothing (reached_of_plays quietDb_wellFormed hplays) (step_after .dispatch _ hdispatched)
    (handling_of_meets (fun label hlabel => ⟨by simp [List.mem_singleton.mp hlabel], fun _ _ => trivial⟩)
      hmeets)

/-! ### The length of a request -/

theorem length_looked {uid : Int} {found : Option Sid} {trace : CallTrace} (h : Looked uid found trace) :
    trace.length = 2 := by
  obtain ⟨username, password, rfl⟩ := h
  rfl

theorem length_kicked {uid : Int} {trace : CallTrace} (h : Kicked uid trace) : trace.length ≤ 5 := by
  cases h with
  | nobody hlooked => simp [length_looked hlooked]
  | closed hpart hlooked =>
    rw [List.length_append, length_looked hlooked]
    cases hpart <;> simp

theorem length_loginTrace {session : Sid} {uid : Int} {rows : List MessageRow} {trace : CallTrace}
    (h : Kicked uid trace) : (loginTrace session uid rows trace).length ≤ 8 := by
  have := length_kicked h
  simp only [loginTrace, List.length_cons]
  omega

theorem length_sent {session : Sid} {payload : Payload} {msgid : Int} {part : CallTrace}
    (h : Sent platform session payload msgid part) : part.length ≤ 2 := by
  cases h <;> simp

theorem length_of_sends {trace : CallTrace} {session : Sid} {payload : Payload} {msgid : Int}
    (h : Sends platform node trace session payload msgid) : trace.length ≤ 10 := by
  cases h with
  | refusal _ huntouched =>
    rcases huntouched with rfl | ⟨uid, rfl⟩ <;> simp
  | loginBatch _ _ hkicked | loginNoBatch _ _ hkicked =>
    exact (length_loginTrace hkicked).trans (by decide)
  | loginAfterBatch _ _ hkicked _ hpart =>
    rw [List.length_append]
    exact Nat.add_le_add (length_sent hpart) (length_loginTrace hkicked)
  | friendAfterPush _ _ hpart =>
    have := length_sent hpart
    simp only [friendTrace, List.length_append, List.length_cons, List.length_nil]
    omega
  | chatAfterPush _ _ _ hpart =>
    have := length_sent hpart
    simp only [chatTrace, List.length_append, List.length_cons, List.length_nil]
    omega
  | _ => simp [friendTrace, chatTrace]

theorem length_of_warrants {trace : CallTrace} {op : Op} (h : Warrants platform node trace op) :
    trace.length ≤ 11 := by
  cases op with
  | getLoginUid | registerUser | loginUser => simp [Warrants] at h; simp [h]
  | setLoginUid session uid =>
    obtain ⟨-, -, hkicked⟩ := h
    exact (length_kicked hkicked).trans (by decide)
  | takeLoginUid session =>
    obtain ⟨uid, looked, hlooked, rfl⟩ := h
    simp [length_looked hlooked]
  | casStop session =>
    obtain ⟨uid, hlooked⟩ := h
    simp [length_looked hlooked]
  | loadStop session payload msgid => exact (length_of_sends h).trans (by decide)
  | push session payload sent =>
    obtain ⟨msgid, msg, before, rfl, hsends, -⟩ := h
    exact Nat.succ_le_succ (length_of_sends hsends)
  | addOnlineUser uid session =>
    obtain ⟨-, -, kicked, hkicked, rfl⟩ := h
    exact (Nat.succ_le_succ (length_kicked hkicked)).trans (by decide)
  | removeOnlineUser uid =>
    obtain ⟨-, old, user, looked, hlooked, rfl⟩ := h
    simp [length_looked hlooked]
  | getSessionByUid uid =>
    rcases h with ⟨username, password, rfl⟩ | ⟨owner, rfl⟩ | ⟨msgId, fromUid, content, tm, -, rfl⟩
    · simp
    · simp [friendTrace]
    · simp [chatTrace]
  | addFriend uid friendUid =>
    obtain ⟨-, rfl⟩ := h
    simp
  | getFriendList uid =>
    obtain ⟨-, rfl⟩ := h
    simp
  | saveMessage fromUid toUid content timestamp =>
    obtain ⟨-, -, tm, -, rfl⟩ := h
    simp
  | getOfflineMessages uid =>
    rcases h with ⟨-, -, rfl⟩ | ⟨-, -, kicked, hkicked, rfl⟩
    · simp
    · have := length_kicked hkicked
      simp only [List.length_cons]
      omega
  | now =>
    obtain ⟨uid, -, rfl⟩ := h
    simp

theorem length_of_finished {trace : CallTrace} (h : Finished platform node trace) : trace.length ≤ 12 := by
  rcases h with ⟨rfl, -⟩ | ⟨part, before, session, payload, msgid, rfl, hpart, hsends, -⟩
  · simp
  · rw [List.length_append]
    exact Nat.add_le_add (length_sent hpart) (length_of_sends hsends)

/-! ### The work of the worker -/

/-- The steps of the worker thread. -/
def Label.onWorker : Label → Bool
  | .dispatch => true
  | .work _ => true
  | .finish => true
  | _ => false

def Label.isPost : Label → Bool
  | .post _ => true
  | _ => false

/-- The steps a request can take: its dispatch, its operations and the return of its handler. -/
def stepsPerRequest : Nat := 14

/-- A bound on the steps of the worker that are left: those of each message in the queue, and what remains
to the handler that runs. -/
def State.workLeft (state : State) : Nat :=
  stepsPerRequest * state.msgQue.length + if state.worker.isSome then 13 - state.world.trace.length else 0

theorem trace_le_of_running {state : State} {handler : Handler Unit} (h : Grounded platform state)
    (hworker : state.worker = some handler) : state.world.trace.length ≤ 12 := by
  obtain ⟨node, -, houtline⟩ := h.running handler hworker
  cases handler with
  | ret value => exact length_of_finished houtline
  | throw what => exact houtline.elim
  | perform op next => exact (length_of_warrants houtline.1).trans (by decide)

/-- A step of the worker takes from the work that is left, and only a post adds to it. -/
theorem workLeft_step {label : Label} {state state' : State} (h : Grounded platform state)
    (hstep : step platform label state = some state') :
    state'.workLeft + label.onWorker.toNat ≤ state.workLeft + stepsPerRequest * label.isPost.toNat := by
  have hsame : ∀ {state' : State}, state'.msgQue = state.msgQue → state'.worker = state.worker →
      state'.world.trace = state.world.trace → state'.workLeft = state.workLeft := fun hque hworker htrace => by
    unfold State.workLeft
    rw [hque, hworker, htrace]
  cases label with
  | accept session =>
    rw [step] at hstep
    split_ifs at hstep
    obtain rfl := Option.some.inj hstep
    exact Nat.le_of_eq (hsame rfl rfl rfl)
  | post node =>
    rw [step] at hstep
    split_ifs at hstep
    · obtain rfl := Option.some.inj hstep
      exact Nat.le_add_right _ _
    · obtain rfl := Option.some.inj hstep
      simp only [State.workLeft, stepsPerRequest, List.length_append, List.length_singleton, Label.onWorker,
        Label.isPost, Bool.toNat_false, Bool.toNat_true]
      omega
  | dispatch =>
    rw [step] at hstep
    split at hstep
    · next node rest hidle hque =>
      obtain rfl := Option.some.inj hstep
      have htrace : (state.world.record (.dispatched node)).trace = [] := rfl
      simp only [State.workLeft, hidle, hque, htrace, List.length_cons, List.length_nil, Label.onWorker,
        Label.isPost, Bool.toNat_true, Option.isSome_none, stepsPerRequest]
      split_ifs <;> omega
    · cases hstep
  | work input =>
    rw [step] at hstep
    split at hstep
    · next op next hworker =>
      obtain rfl := Option.some.inj hstep
      obtain ⟨node, -, hwarrant⟩ := h.warrants hworker
      have hlength := length_of_warrants hwarrant
      have hleft : (workStep platform input op next state).workLeft
          = stepsPerRequest * state.msgQue.length + (13 - (state.world.trace.length + 1)) := by
        unfold State.workLeft
        rw [trace_workStep]
        rfl
      rw [hleft]
      simp only [State.workLeft, hworker, Option.isSome_some, if_true, Label.onWorker, Label.isPost,
        Bool.toNat_true]
      omega
    · cases hstep
  | finish =>
    have hended : ∀ {handler : Handler Unit}, state.worker = some handler →
        ({ state with worker := none } : State).workLeft + 1 ≤ state.workLeft := fun hworker => by
      have hlength := trace_le_of_running h hworker
      simp only [State.workLeft, hworker, Option.isSome_some, Option.isSome_none, if_true]
      simp
      omega
    rw [step] at hstep
    split at hstep
    · next hworker =>
      obtain rfl := Option.some.inj hstep
      exact hended hworker
    · next hworker =>
      obtain rfl := Option.some.inj hstep
      exact hended hworker
    · cases hstep
  | closeCall thread session =>
    rw [step] at hstep
    split_ifs at hstep
    obtain rfl := Option.some.inj hstep
    exact Nat.le_of_eq (hsame rfl rfl rfl)
  | io thread =>
    rw [step] at hstep
    split at hstep
    · obtain rfl := Option.some.inj hstep
      exact Nat.le_of_eq (hsame rfl rfl (trace_ioStep _ _ _ _ _))
    · cases hstep
  | written session =>
    rw [step] at hstep
    split at hstep
    · cases hstep
    · obtain rfl := Option.some.inj hstep
      exact Nat.le_of_eq (hsame rfl rfl rfl)
  | expire session =>
    rw [step] at hstep
    split_ifs at hstep
    obtain rfl := Option.some.inj hstep
    exact Nat.le_of_eq (hsame rfl rfl rfl)

/-- While work is left, the worker can take a step. -/
theorem worker_enabled {state : State} (hleft : 0 < state.workLeft) :
    ∃ label, label.onWorker = true ∧ (step platform label state).isSome = true := by
  cases hworker : state.worker with
  | none =>
    cases hque : state.msgQue with
    | nil => simp [State.workLeft, hworker, hque] at hleft
    | cons node rest => exact ⟨.dispatch, rfl, by simp [step, hworker, hque]⟩
  | some handler =>
    cases handler with
    | ret value => exact ⟨.finish, rfl, by simp [step, hworker]⟩
    | throw what => exact ⟨.finish, rfl, by simp [step, hworker]⟩
    | perform op next => exact ⟨.work .idle, rfl, by simp [step, hworker]⟩

/-- **The worker comes to the end of its work.** From any reached state on, in any run, whatever the other
threads do and whatever SQLite answers, the worker takes at most fourteen steps for each message that is
posted, beyond those that were left at first; and as long as there is a message in the queue or a handler
that has not returned, it can take its next step. -/
theorem worker_finishes {start state : State} {labels : List Label}
    (hreach : Reaches platform (fun _ _ => True) start)
    (htrail : Reach.Trail (step platform) start labels state) :
    state.workLeft + labels.countP Label.onWorker
        ≤ start.workLeft + stepsPerRequest * labels.countP Label.isPost ∧
      (state.msgQue ≠ [] ∨ state.worker.isSome = true →
        ∃ label, label.onWorker = true ∧ (step platform label state).isSome = true) := by
  refine ⟨htrail.charged _ _ _ _ fun label _ _ hrest => workLeft_step (grounded_of_reaches (hreach.follow hrest)),
    fun hbusy => worker_enabled ?_⟩
  have hgrounded := grounded_of_reaches (hreach.follow htrail.reaches)
  rcases hbusy with hque | hworker
  · have := List.length_pos_iff.mpr hque
    simp only [State.workLeft, stepsPerRequest]
    omega
  · obtain ⟨handler, hhandler⟩ := Option.isSome_iff_exists.mp hworker
    have := trace_le_of_running hgrounded hhandler
    simp only [State.workLeft, hworker, if_true]
    omega

/-- Dan is about to register, and ann's login waits behind his request. -/
def queuedScript : List Act :=
  [.accept 0, .accept 1, .post 0 MSG_REGISTER_REQ (credentials "dan"),
    .post 1 MSG_LOGIN_REQ (credentials "ann")]

/-- His request has been handled from its dispatch to the return of its handler. -/
def danServed : State := Reach.after (step reference) (.dispatch :: serving 3) (played quietDb queuedScript)

theorem worker_finishes_dan :
    danServed.workLeft + 5 ≤ (played quietDb queuedScript).workLeft ∧
      danServed.worker.isNone = true ∧ danServed.msgQue.length = 1 ∧
      ∃ label, label.onWorker = true ∧ (step reference label danServed).isSome = true := by
  obtain ⟨hplays, hmeets, hidle, hwaiting⟩ : plays (fun _ _ => true) quietDb queuedScript = true ∧
      Reach.meets (step reference) (fun _ _ => true) (.dispatch :: serving 3) (played quietDb queuedScript)
        = true ∧
      danServed.worker.isNone = true ∧ danServed.msgQue.length = 1 := by decide +kernel
  obtain ⟨hsteps, henabled⟩ := worker_finishes (reached_of_plays quietDb_wellFormed hplays)
    (.of_meets .nil hmeets)
  have hque : danServed.msgQue ≠ [] := List.ne_nil_of_length_eq_add_one hwaiting
  exact ⟨hsteps, hidle, hwaiting, henabled (.inl hque)⟩

end CoroutineServer
