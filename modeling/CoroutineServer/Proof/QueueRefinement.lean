import CoroutineServer.Calls
import CoroutineServer.Library.Simulation
import CoroutineServer.Scenario
import CoroutineServer.Proof.QueueOrder
import CoroutineServer.Proof.Runs

/-!
# The logic queue and the server's queue

The server hands messages to its worker in one step, while `PostMsgToQue` and `DealMsg` go through a mutex, a
condition variable and a stop flag. Seen from outside the two are one queue: what is posted, whether it is
accepted, and what the worker gets come in the same orders. A run of the server is followed by the queue
with its worker awake; a run of the queue is followed by the server, which accepts a connection when a
message needs one and lets a handler run to its end when the worker comes back.
-/

namespace CoroutineServer

namespace LogicQueue

variable {platform : Platform} {queue queue' : Queue} {state state' : State}

/-! ### What is seen of a queue -/

/-- A message is posted, and accepted or dropped, or the worker gets it. -/
inductive Seen where
  | posted (msg : LogicNode) (accepted : Bool)
  | taken (msg : LogicNode)
  deriving DecidableEq

def seen : Label → Queue → Queue → List Seen
  | .post _ msg, queue, queue' =>
      [.posted msg (decide (queue.msgQue.length < queue'.msgQue.length))]
  | .take, _, queue' => match queue'.worker with
      | .running msg => [.taken msg]
      | _ => []
  | _, _, _ => []

def seenOfServer : CoroutineServer.Label → State → State → List Seen
  | .post node, state, state' =>
      [.posted node (decide (state.msgQue.length < state'.msgQue.length))]
  | .dispatch, _, state' => (served state'.world.history).toList.map .taken
  | _, _, _ => []

/-- What is posted is what a read loop completes. -/
def PostsMeet : Label → Queue → Prop
  | .post _ msg, _ => Postable msg
  | _, _ => True

/-- The runs of the queue, and those of the server on a database, with what is seen of them. -/
abbrev QueueRun (events : List Seen) (queue : Queue) : Prop :=
  Reach.Traced step seen PostsMeet .initial events queue

abbrev ServerRun (platform : Platform) (db : Db) (events : List Seen) (state : State) : Prop :=
  Reach.Traced (CoroutineServer.step platform) seenOfServer (fun _ _ => True) (.initial db) events state

theorem msgQue_postMsgToQue (msg : LogicNode) (queue : Queue) :
    (postMsgToQue msg queue).msgQue
      = if queue.msgQue.length ≥ MAX_RECVQUE then queue.msgQue else queue.msgQue ++ [msg] := by
  unfold postMsgToQue
  dsimp only
  split_ifs
  · rfl
  · exact (notifyOne_frame _).1
  · rfl

/-- A notification does not touch a worker that runs a handler. -/
theorem running_of_notifyOne {msg : LogicNode} (h : queue.worker = .running msg) :
    (notifyOne queue).worker = .running msg := by
  unfold notifyOne
  rw [if_neg (by simp [h])]
  exact h

theorem worker_postMsgToQue_of_testing {msg : LogicNode} (h : queue.worker = .testing) :
    (postMsgToQue msg queue).worker = .testing := by
  unfold postMsgToQue notifyOne
  dsimp only
  split_ifs
  · exact h
  · rfl
  · exact h
  · exact h

theorem running_of_postMsgToQue {msg other : LogicNode} (h : queue.worker = .running other) :
    (postMsgToQue msg queue).worker = .running other := by
  unfold postMsgToQue
  dsimp only
  split_ifs
  · exact h
  · exact running_of_notifyOne h
  · exact h

/-! ### The server follows the queue -/

/-- The server stands as the queue does. Until the worker comes back, its handler may be anywhere. -/
structure Serves (queue : Queue) (state : State) : Prop where
  msgQue : state.msgQue = queue.msgQue
  idle : (∀ msg, queue.worker ≠ .running msg) → state.worker = none

/-- The server follows a step, and shows the same. -/
abbrev ServerFollows (platform : Platform) : List Seen → Queue → State → Prop :=
  Reach.Echoed (CoroutineServer.step platform) seenOfServer (fun _ _ => True) Serves

theorem Serves.congr (h : Serves queue state) (hque : queue'.msgQue = queue.msgQue)
    (hworker : ∀ msg, queue.worker = .running msg → queue'.worker = .running msg) : Serves queue' state :=
  ⟨h.msgQue.trans hque.symm, fun hidle => h.idle fun msg hrunning => hidle msg (hworker msg hrunning)⟩

theorem serves_post_started {msg : LogicNode} (thread : Nat) (h : Serves queue state)
    (hstarted : (state.world.sessions msg.session).started = true) (hpostable : Postable msg) :
    ServerFollows platform (seen (.post thread msg) queue (postMsgToQue msg queue)) (postMsgToQue msg queue)
      state := by
  have hstep : CoroutineServer.step platform (.post msg) state
      = some { state with msgQue := (postMsgToQue msg queue).msgQue } := by
    rw [CoroutineServer.step, if_pos ⟨hstarted, hpostable⟩, msgQue_postMsgToQue, h.msgQue]
    split_ifs
    · rw [← h.msgQue]
    · rfl
  have hseen : seenOfServer (.post msg) state { state with msgQue := (postMsgToQue msg queue).msgQue }
      = seen (.post thread msg) queue (postMsgToQue msg queue) := by
    rw [seenOfServer, seen, h.msgQue]
  refine ⟨{ state with msgQue := (postMsgToQue msg queue).msgQue }, ?_, rfl,
    fun hidle => h.idle fun other hrunning => ?_⟩
  · rw [← hseen]
    exact .single trivial hstep
  · exact hidle other (running_of_postMsgToQue hrunning)

/-- A post is followed on a connection that is accepted first if need be. -/
theorem serves_post {msg : LogicNode} (thread : Nat) (h : Serves queue state) (hpostable : Postable msg) :
    ServerFollows platform (seen (.post thread msg) queue (postMsgToQue msg queue)) (postMsgToQue msg queue)
      state := by
  by_cases hstarted : (state.world.sessions msg.session).started = true
  · exact serves_post_started thread h hstarted hpostable
  · have haccept : CoroutineServer.step platform (.accept msg.session) state = some { state with
        world := state.world.updateSession msg.session fun s => { s with started := true } } :=
      if_neg hstarted
    refine .trans (.single trivial haccept) (serves_post_started thread ⟨h.msgQue, h.idle⟩ ?_ hpostable)
    rw [World.sessions_updateSession, if_pos rfl]

theorem serves_take (h : Serves queue state) (hpassed : queue.worker = .passed) :
    ServerFollows platform (seen .take queue (takeFront queue)) (takeFront queue) state := by
  have hidle : state.worker = none := h.idle fun msg => by simp [hpassed]
  unfold takeFront
  split
  · next hque =>
    have hnothing : seen .take queue
        { queue with worker := if queue.bStop then .exited else .undefinedFront } = [] := by
      unfold seen
      split_ifs <;> rfl
    rw [hnothing]
    exact .stay ⟨h.msgQue, fun _ => hidle⟩
  · next msg rest hque =>
    have hdispatch : CoroutineServer.step platform .dispatch state = some { state with
        world := state.world.record (.dispatched msg)
        msgQue := rest
        worker := LogicSystem.callback platform msg } := by
      simp only [CoroutineServer.step, hidle, h.msgQue.trans hque]
    exact ⟨_, .single trivial hdispatch, rfl, fun hworker => absurd rfl (hworker msg)⟩

/-- The worker of the server runs alone without touching the queue. -/
theorem msgQue_of_alone {label : CoroutineServer.Label} (halone : Alone label state)
    (hstep : CoroutineServer.step platform label state = some state') : state'.msgQue = state.msgQue := by
  rcases halone with rfl | ⟨input, rfl⟩
  · simp only [CoroutineServer.step] at hstep
    split at hstep
    · obtain rfl := Option.some.inj hstep
      rfl
    · obtain rfl := Option.some.inj hstep
      rfl
    · cases hstep
  · simp only [CoroutineServer.step] at hstep
    split at hstep
    · obtain rfl := Option.some.inj hstep
      rfl
    · cases hstep

/-- The worker comes back when its handler has run to its end. -/
theorem serves_finish (h : Serves queue state) :
    ServerFollows platform [] { queue with worker := .testing } state := by
  obtain ⟨ended, hended, hidle⟩ := handling_ends platform state
  have hsilent : Reach.Traced (CoroutineServer.step platform) seenOfServer (fun _ _ => True) state []
      ended := by
    refine .mono (.of_silent hended fun label _ _ halone _ => ?_) fun _ _ _ => trivial
    rcases halone.1 with rfl | ⟨input, rfl⟩ <;> rfl
  have hque : ended.msgQue = state.msgQue := by
    apply Reach.Reaches.invariant hended (fun _ => True) (fun _ _ => trivial)
    · rintro _ rfl
      rfl
    · exact fun before after label _ hbefore halone hstep =>
        (msgQue_of_alone halone.1 hstep).trans hbefore
  exact ⟨ended, hsilent, hque.trans h.msgQue, fun _ => hidle⟩

/-- Every step of the queue is followed. -/
theorem serves_step {label : Label} (h : Serves queue state) (hposts : PostsMeet label queue)
    (hstep : step label queue = some queue') :
    ServerFollows platform (seen label queue queue') queue' state := by
  cases label with
  | post thread msg =>
    simp only [step, Option.ite_none_left_eq_some, Option.some.injEq] at hstep
    obtain ⟨-, rfl⟩ := hstep
    exact serves_post thread h hposts
  | test =>
    simp only [step, Option.ite_none_right_eq_some, Option.some.injEq] at hstep
    obtain ⟨htesting, rfl⟩ := hstep
    exact .stay (h.congr rfl fun msg hrunning => absurd hrunning (by simp [htesting]))
  | take =>
    simp only [step, Option.ite_none_right_eq_some, Option.some.injEq] at hstep
    obtain ⟨hpassed, rfl⟩ := hstep
    exact serves_take h hpassed
  | finish outcome =>
    simp only [step] at hstep
    split at hstep
    · obtain rfl := Option.some.inj hstep
      exact serves_finish h
    · cases hstep
  | spurious =>
    simp only [step, Option.ite_none_right_eq_some, Option.some.injEq] at hstep
    obtain ⟨hblocked, rfl⟩ := hstep
    exact .stay (h.congr rfl fun msg hrunning => absurd hrunning (by simp [hblocked]))
  | stop =>
    obtain rfl := Option.some.inj hstep
    exact .stay (h.congr rfl fun _ hrunning => hrunning)
  | stopNotify =>
    simp only [step, Option.ite_none_right_eq_some, Option.some.injEq] at hstep
    obtain ⟨-, rfl⟩ := hstep
    exact .stay (h.congr (notifyOne_frame queue).1 fun _ hrunning => running_of_notifyOne hrunning)

/-! ### The queue follows the server -/

/-- The queue stands as the server shows it between two steps, with its worker awake. -/
structure Shows (state : State) (queue : Queue) : Prop where
  msgQue : queue.msgQue = state.msgQue
  idle : state.worker = none → queue.worker = .testing
  busy : state.worker ≠ none → ∃ msg, queue.worker = .running msg

/-- The queue follows a step, and shows the same. -/
abbrev QueueFollows : List Seen → State → Queue → Prop := Reach.Echoed step seen PostsMeet Shows

theorem Shows.worker (h : Shows state queue) :
    queue.worker = .testing ∨ ∃ msg, queue.worker = .running msg := by
  by_cases hidle : state.worker = none
  · exact .inl (h.idle hidle)
  · exact .inr (h.busy hidle)

theorem Shows.congr (h : Shows state queue) (hque : state'.msgQue = state.msgQue)
    (hworker : state'.worker = none ↔ state.worker = none) : Shows state' queue :=
  ⟨h.msgQue.trans hque.symm, fun hidle => h.idle (hworker.mp hidle),
    fun hbusy => h.busy fun hidle => hbusy (hworker.mpr hidle)⟩

theorem shows_post {node : LogicNode} (h : Shows state queue)
    (hstep : CoroutineServer.step platform (.post node) state = some state') :
    QueueFollows (seenOfServer (.post node) state state') state' queue := by
  simp only [CoroutineServer.step, Option.ite_none_right_eq_some] at hstep
  obtain ⟨⟨-, hpostable⟩, hstep⟩ := hstep
  have hpost : step (.post 0 node) queue = some (postMsgToQue node queue) := by
    apply if_neg
    rcases h.worker with htesting | ⟨msg, hrunning⟩
    · simp [htesting]
    · simp [hrunning]
  have hafter : state' = { state with msgQue := (postMsgToQue node queue).msgQue } := by
    rw [msgQue_postMsgToQue, h.msgQue]
    split_ifs at hstep ⊢
    · exact (Option.some.inj hstep).symm
    · exact (Option.some.inj hstep).symm
  subst hafter
  have hseen : seen (.post 0 node) queue (postMsgToQue node queue)
      = seenOfServer (.post node) state { state with msgQue := (postMsgToQue node queue).msgQue } := by
    rw [seen, seenOfServer, h.msgQue]
  refine ⟨_, ?_, rfl, fun hidle => ?_, fun hbusy => ?_⟩
  · rw [← hseen]
    exact .single hpostable hpost
  · exact worker_postMsgToQue_of_testing (h.idle hidle)
  · obtain ⟨msg, hrunning⟩ := h.busy hbusy
    exact ⟨msg, running_of_postMsgToQue hrunning⟩

theorem shows_dispatch (h : Shows state queue)
    (hstep : CoroutineServer.step platform .dispatch state = some state') :
    QueueFollows (seenOfServer .dispatch state state') state' queue := by
  simp only [CoroutineServer.step] at hstep
  split at hstep
  · next node rest hidle hque =>
    obtain rfl := Option.some.inj hstep
    have htesting := h.idle hidle
    rw [← h.msgQue] at hque
    have htest : step .test queue = some { queue with worker := .passed } := by
      simp [step, htesting, ready, hque]
    have htake : step .take { queue with worker := .passed } = some { queue with
        msgQue := rest, worker := .running node, taken := queue.taken ++ [node] } := by
      simp [step, takeFront, hque]
    refine .trans (.single trivial htest) (.trans (.single trivial htake) ?_)
    cases hcallback : LogicSystem.callback platform node with
    | none =>
      have hfinish : step (.finish .unregistered) { queue with
          msgQue := rest, worker := .running node, taken := queue.taken ++ [node] }
          = some { queue with msgQue := rest, worker := .testing, taken := queue.taken ++ [node] } := rfl
      exact ⟨_, .single trivial hfinish, rfl, fun _ => rfl, fun hbusy => absurd rfl hbusy⟩
    | some handler => exact .stay ⟨rfl, fun hnone => (by cases hnone), fun _ => ⟨node, rfl⟩⟩
  · cases hstep

theorem shows_finish (h : Shows state queue)
    (hstep : CoroutineServer.step platform .finish state = some state') :
    QueueFollows [] state' queue := by
  obtain ⟨hbusy, rfl⟩ : state.worker ≠ none ∧ state' = { state with worker := none } := by
    simp only [CoroutineServer.step] at hstep
    split at hstep
    · next hworker => exact ⟨by simp [hworker], (Option.some.inj hstep).symm⟩
    · next hworker => exact ⟨by simp [hworker], (Option.some.inj hstep).symm⟩
    · cases hstep
  obtain ⟨msg, hrunning⟩ := h.busy hbusy
  have hfinish : step (.finish .returned) queue = some { queue with worker := .testing } := by
    simp [step, hrunning]
  exact ⟨_, .single trivial hfinish, h.msgQue, fun _ => rfl, fun hnone => absurd rfl hnone⟩

/-- Every step of the server is followed; the steps of the other threads, and those of a handler, leave the
queue as it is. -/
theorem shows_step {label : CoroutineServer.Label} (h : Shows state queue)
    (hstep : CoroutineServer.step platform label state = some state') :
    QueueFollows (seenOfServer label state state') state' queue := by
  cases label with
  | post node => exact shows_post h hstep
  | dispatch => exact shows_dispatch h hstep
  | finish => exact shows_finish h hstep
  | work input =>
    simp only [CoroutineServer.step] at hstep
    split at hstep
    · next op next hworker =>
      obtain rfl := Option.some.inj hstep
      refine .stay (h.congr rfl ?_)
      rw [hworker]
      exact ⟨fun hnone => (by cases hnone), fun hnone => (by cases hnone)⟩
    · cases hstep
  | accept session =>
    simp only [CoroutineServer.step, Option.ite_none_left_eq_some, Option.some.injEq] at hstep
    obtain ⟨-, rfl⟩ := hstep
    exact .stay (h.congr rfl Iff.rfl)
  | closeCall thread session =>
    simp only [CoroutineServer.step, Option.ite_none_right_eq_some, Option.some.injEq] at hstep
    obtain ⟨-, rfl⟩ := hstep
    exact .stay (h.congr rfl Iff.rfl)
  | expire session =>
    simp only [CoroutineServer.step, Option.ite_none_right_eq_some, Option.some.injEq] at hstep
    obtain ⟨-, rfl⟩ := hstep
    exact .stay (h.congr rfl Iff.rfl)
  | io thread =>
    simp only [CoroutineServer.step] at hstep
    split at hstep
    · obtain rfl := Option.some.inj hstep
      exact .stay (h.congr rfl Iff.rfl)
    · cases hstep
  | written session =>
    simp only [CoroutineServer.step] at hstep
    split at hstep
    · cases hstep
    · obtain rfl := Option.some.inj hstep
      exact .stay (h.congr rfl Iff.rfl)

/-! ### Agreement -/

/-- **The queue and the server show the same.** Whatever is posted, in whatever order and on whatever threads,
accepted or dropped, and whatever the worker gets in between: a sequence of these is one of the queue with its
mutex, its condition variable and its stop flag exactly when it is one of the server, on any database, and then
the same messages wait behind it. -/
theorem queues_agree (platform : Platform) (db : Db) (events : List Seen) (waiting : List LogicNode) :
    (∃ queue, QueueRun events queue ∧ queue.msgQue = waiting) ↔
      ∃ state, ServerRun platform db events state ∧ state.msgQue = waiting := by
  constructor
  · rintro ⟨queue, hrun, rfl⟩
    have hstart : Serves .initial (.initial db) := ⟨rfl, fun _ => rfl⟩
    obtain ⟨state, hstate, h⟩ := hrun.simulated Serves hstart
      fun _ _ _ _ h hposts hstep => serves_step h hposts hstep
    exact ⟨state, hstate, h.msgQue⟩
  · rintro ⟨state, hrun, rfl⟩
    have hstart : Shows (.initial db) .initial := ⟨rfl, fun _ => rfl, fun hbusy => absurd rfl hbusy⟩
    obtain ⟨queue, hqueue, h⟩ := hrun.simulated Shows hstart fun _ _ _ _ h _ hstep => shows_step h hstep
    exact ⟨queue, hqueue, h.msgQue⟩

def hello (session : Sid) : LogicNode := ⟨session, MSG_HELLO_WORLD, ascii "hello"⟩

/-- The worker is woken for the first of two messages, and the server is stopped before the second. -/
def twoPostsRun : List Label :=
  [.test, .post 0 (hello 0), .test, .take, .post 1 (hello 1), .stop, .finish (.threw []), .stopNotify]

def testPosts : Label → Queue → Bool
  | .post _ msg, _ => decide (Postable msg)
  | _, _ => true

theorem queues_agree_stopped :
    ∃ state, ServerRun reference .empty [.posted (hello 0) true, .taken (hello 0), .posted (hello 1) true]
      state ∧ state.msgQue = [hello 1] := by
  apply (queues_agree reference .empty _ _).mp
  have hmeets : Reach.meets step testPosts twoPostsRun .initial = true := by decide
  have hposts : ∀ label queue, testPosts label queue = true → PostsMeet label queue := by
    intro label queue htest
    cases label with
    | post thread msg =>
      have hpostable : Postable msg := of_decide_eq_true htest
      exact hpostable
    | _ => trivial
  have hrun : QueueRun (Reach.seenAlong step seen twoPostsRun .initial)
    (Reach.after step twoPostsRun .initial) := .of_meets hposts hmeets
  exact ⟨_, hrun, by decide⟩

end LogicQueue

end CoroutineServer
