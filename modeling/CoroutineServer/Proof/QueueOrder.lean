import CoroutineServer.LogicQueue

/-!
# The order of the logic queue

The messages taken are those accepted, in their order, and the worker never sleeps on a message: a
notification is only left out for a message that is pushed on others, and with others in the queue the
worker is awake already.
-/

namespace CoroutineServer

namespace LogicQueue

variable {queue queue' : Queue} {label : Label}

structure Inv (queue : Queue) : Prop where
  order : queue.taken ++ queue.msgQue = queue.accepted
  awake : queue.worker = .blocked → queue.msgQue = []
  passed : queue.worker = .passed → queue.msgQue ≠ [] ∨ queue.bStop = true
  front : queue.worker ≠ .undefinedFront
  bounded : queue.msgQue.length ≤ MAX_RECVQUE

theorem inv_initial : Inv .initial :=
  ⟨rfl, fun _ => rfl, fun h => (by cases h), fun h => (by cases h), Nat.zero_le _⟩

theorem notifyOne_worker (queue : Queue) :
    (notifyOne queue).worker ≠ .blocked ∧
      ((notifyOne queue).worker = queue.worker ∨ (notifyOne queue).worker = .testing) := by
  unfold notifyOne
  split_ifs with hblocked
  · exact ⟨fun h => (by cases h), .inr rfl⟩
  · exact ⟨hblocked, .inl rfl⟩

theorem notifyOne_frame (queue : Queue) :
    (notifyOne queue).msgQue = queue.msgQue ∧ (notifyOne queue).bStop = queue.bStop ∧
      (notifyOne queue).accepted = queue.accepted ∧ (notifyOne queue).taken = queue.taken := by
  unfold notifyOne
  split_ifs <;> exact ⟨rfl, rfl, rfl, rfl⟩

theorem Inv.notifyOne (h : Inv queue) : Inv (notifyOne queue) := by
  obtain ⟨hque, hstop, haccepted, htaken⟩ := notifyOne_frame queue
  obtain ⟨hawake, hworker⟩ := notifyOne_worker queue
  refine ⟨?_, fun hblocked => absurd hblocked hawake, fun hpassed => ?_, fun hfront => ?_, ?_⟩
  · rw [hque, haccepted, htaken]
    exact h.order
  · rw [hque, hstop]
    rcases hworker with hsame | htesting
    · exact h.passed (hsame.symm.trans hpassed)
    · cases htesting.symm.trans hpassed
  · rcases hworker with hsame | htesting
    · exact h.front (hsame.symm.trans hfront)
    · cases htesting.symm.trans hfront
  · rw [hque]
    exact h.bounded

theorem Inv.postMsgToQue (h : Inv queue) (hfree : queue.worker ≠ .passed) (msg : LogicNode) :
    Inv (postMsgToQue msg queue) := by
  unfold LogicQueue.postMsgToQue
  dsimp only
  split_ifs with hfull hone
  · exact h
  · -- the first message: the push is followed by the notification
    obtain ⟨hque, hstop, haccepted, htaken⟩ := notifyOne_frame { queue with
      msgQue := queue.msgQue ++ [msg], accepted := queue.accepted ++ [msg] }
    obtain ⟨hawake, hworker⟩ := notifyOne_worker { queue with
      msgQue := queue.msgQue ++ [msg], accepted := queue.accepted ++ [msg] }
    refine ⟨?_, fun hblocked => absurd hblocked hawake, fun _ => .inl ?_, fun hfront => ?_, ?_⟩
    · rw [hque, haccepted, htaken, ← h.order, List.append_assoc]
    · rw [hque]
      exact List.append_ne_nil_of_right_ne_nil _ (List.cons_ne_nil _ _)
    · rcases hworker with hsame | htesting
      · exact h.front (hsame.symm.trans hfront)
      · cases htesting.symm.trans hfront
    · rw [hque, hone]
      decide
  · -- the worker is not blocked, for the queue was not empty
    refine ⟨?_, fun hblocked => ?_, fun hpassed => absurd hpassed hfree, h.front, ?_⟩
    · rw [← h.order, List.append_assoc]
    · rw [h.awake hblocked] at hone
      exact absurd rfl hone
    · rw [List.length_append]
      exact Nat.not_le.mp hfull

theorem Inv.takeFront (h : Inv queue) (hpassed : queue.worker = .passed) : Inv (takeFront queue) := by
  unfold LogicQueue.takeFront
  cases hque : queue.msgQue with
  | nil =>
    have hstop : queue.bStop = true := (h.passed hpassed).resolve_left fun hne => hne hque
    have horder := h.order
    rw [hque] at horder
    dsimp only
    rw [hstop, if_pos rfl]
    exact ⟨horder, fun _ => rfl, fun hexited => (by cases hexited), fun hexited => (by cases hexited),
      Nat.zero_le _⟩
  | cons msg rest =>
    have horder := h.order
    have hbounded := h.bounded
    rw [hque] at horder hbounded
    refine ⟨?_, fun hrunning => (by cases hrunning), fun hrunning => (by cases hrunning),
      fun hrunning => (by cases hrunning), Nat.le_of_succ_le hbounded⟩
    rw [← horder, List.append_assoc]
    rfl

theorem Inv.testing (h : Inv queue) : Inv { queue with worker := .testing } :=
  ⟨h.order, fun htesting => (by cases htesting), fun htesting => (by cases htesting),
    fun htesting => (by cases htesting), h.bounded⟩

theorem Inv.step (h : Inv queue) (hstep : step label queue = some queue') : Inv queue' := by
  cases label with
  | post thread msg =>
    simp only [LogicQueue.step, Option.ite_none_left_eq_some, Option.some.injEq] at hstep
    obtain ⟨hfree, rfl⟩ := hstep
    exact h.postMsgToQue hfree msg
  | test =>
    simp only [LogicQueue.step, Option.ite_none_right_eq_some, Option.some.injEq] at hstep
    obtain ⟨-, rfl⟩ := hstep
    unfold ready
    refine ⟨h.order, fun hblocked => ?_, fun hpassed => ?_, fun hfront => ?_, h.bounded⟩
    · cases hque : queue.msgQue with
      | nil => rfl
      | cons msg rest => simp [hque] at hblocked
    · cases hque : queue.msgQue with
      | nil => exact .inr (by simpa [hque] using hpassed)
      | cons msg rest => exact .inl (List.cons_ne_nil _ _)
    · dsimp only at hfront
      split at hfront <;> cases hfront
  | take =>
    simp only [LogicQueue.step, Option.ite_none_right_eq_some, Option.some.injEq] at hstep
    obtain ⟨hpassed, rfl⟩ := hstep
    exact h.takeFront hpassed
  | finish outcome =>
    simp only [LogicQueue.step] at hstep
    split at hstep
    · obtain rfl := Option.some.inj hstep
      exact h.testing
    · cases hstep
  | spurious =>
    simp only [LogicQueue.step, Option.ite_none_right_eq_some, Option.some.injEq] at hstep
    obtain ⟨-, rfl⟩ := hstep
    exact h.testing
  | stop =>
    obtain rfl := Option.some.inj hstep
    exact ⟨h.order, h.awake, fun _ => .inr rfl, h.front, h.bounded⟩
  | stopNotify =>
    simp only [LogicQueue.step, Option.ite_none_right_eq_some, Option.some.injEq] at hstep
    obtain ⟨-, rfl⟩ := hstep
    exact h.notifyOne

theorem inv_of_reaches (hreach : Reaches queue) : Inv queue := by
  refine hreach.invariant (fun _ => True) (fun _ _ => trivial) ?_ fun _ _ _ _ h _ hstep => h.step hstep
  rintro _ rfl
  exact inv_initial

theorem exited_of_step (hstep : step label queue = some queue') (hexited : queue'.worker = .exited) :
    queue.worker = .exited ∨ queue.msgQue = [] := by
  have hnotify : ∀ queue, (notifyOne queue).worker = .exited → queue.worker = .exited := by
    intro queue hexited
    rcases (notifyOne_worker queue).2 with hsame | htesting
    · exact hsame.symm.trans hexited
    · cases htesting.symm.trans hexited
  cases label with
  | post thread msg =>
    simp only [step, Option.ite_none_left_eq_some, Option.some.injEq] at hstep
    obtain ⟨-, rfl⟩ := hstep
    unfold postMsgToQue at hexited
    dsimp only at hexited
    split_ifs at hexited
    · exact .inl hexited
    · have hpushed := hnotify _ hexited
      exact .inl hpushed
    · exact .inl hexited
  | test =>
    simp only [step, Option.ite_none_right_eq_some, Option.some.injEq] at hstep
    obtain ⟨-, rfl⟩ := hstep
    dsimp only at hexited
    split at hexited <;> cases hexited
  | take =>
    simp only [step, Option.ite_none_right_eq_some, Option.some.injEq] at hstep
    obtain ⟨-, rfl⟩ := hstep
    unfold takeFront at hexited
    split at hexited
    · next hque => exact .inr hque
    · cases hexited
  | finish outcome =>
    simp only [step] at hstep
    split at hstep
    · obtain rfl := Option.some.inj hstep
      cases hexited
    · cases hstep
  | spurious =>
    simp only [step, Option.ite_none_right_eq_some, Option.some.injEq] at hstep
    obtain ⟨-, rfl⟩ := hstep
    cases hexited
  | stop =>
    obtain rfl := Option.some.inj hstep
    exact .inl hexited
  | stopNotify =>
    simp only [step, Option.ite_none_right_eq_some, Option.some.injEq] at hstep
    obtain ⟨-, rfl⟩ := hstep
    exact .inl (hnotify _ hexited)

/-- **The logic queue** loses, repeats and reorders nothing that it has accepted, and the worker never
sleeps on it. In every reachable state the messages taken are a prefix of those accepted, the rest of
which is queued; a worker that is blocked without a notification has an empty queue before it; `front` is
never called on an empty queue; and the loop is left only when the queue is empty. -/
theorem logic_queue_order (hreach : Reaches queue) :
    queue.taken <+: queue.accepted ∧
    (∀ msg, queue.taken.count msg + queue.msgQue.count msg = queue.accepted.count msg) ∧
    (queue.worker = .blocked → queue.msgQue = []) ∧
    queue.worker ≠ .undefinedFront ∧
    ∀ label queue', step label queue = some queue' → queue'.worker = .exited →
      queue.worker = .exited ∨ queue.msgQue = [] := by
  have h := inv_of_reaches hreach
  refine ⟨⟨queue.msgQue, h.order⟩, fun msg => ?_, h.awake, h.front, fun _ _ => exited_of_step⟩
  rw [← h.order, List.count_append]

/-- The worker blocks, two threads post, a callback throws, and the loop is left at the stop. -/
def crowded : Queue :=
  Reach.after step
    [.test, .post 0 ⟨0, MSG_LOGIN_REQ, []⟩, .post 1 ⟨1, MSG_HELLO_WORLD, []⟩, .test, .take,
      .finish (.threw []), .test, .take, .stop, .finish .returned, .test, .take] .initial

theorem logic_queue_order_crowded :
    crowded.taken = [⟨0, MSG_LOGIN_REQ, []⟩, ⟨1, MSG_HELLO_WORLD, []⟩] ∧ crowded.worker = .exited ∧
      crowded.taken <+: crowded.accepted := by
  obtain ⟨htaken, hexited⟩ : crowded.taken = [⟨0, MSG_LOGIN_REQ, []⟩, ⟨1, MSG_HELLO_WORLD, []⟩] ∧
      crowded.worker = .exited := by decide
  exact ⟨htaken, hexited, (logic_queue_order (.of_enabled rfl (by decide))).1⟩

end LogicQueue

end CoroutineServer
