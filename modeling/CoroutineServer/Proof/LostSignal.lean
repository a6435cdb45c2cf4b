import CoroutineServer.StopSignal
import CoroutineServer.Proof.QueueOrder

/-!
# The signal that is lost

A notification wakes a worker that is blocked, and is worth nothing to one that is about to block. The
destructor notifies once, so the worker must not stand between the predicate and the block when it does.
-/

namespace CoroutineServer

namespace StopSignal

open LogicQueue

variable {signal signal' : Signal} {label : Label} {ok : Label → Signal → Prop}

/-- The destructor does not notify while the worker is about to block. -/
def NotifiesAwake (label : Label) (signal : Signal) : Prop :=
  label = .notify → signal.parking = false

instance : DecidableRel NotifiesAwake := fun label signal =>
  match label with
  | .notify => decidable_of_iff (signal.parking = false) ⟨fun h _ => h, fun h => h rfl⟩
  | .post .. | .evaluate | .block | .take | .finish _ | .spurious | .setFlag | .join => .isTrue nofun

/-! ### Every run -/

/-- The branches in which a step is enabled, with their guards. -/
inductive Steps (signal : Signal) : Label → Signal → Prop where
  | post {thread : Nat} {msg : LogicNode} (hparking : signal.parking = false)
      (hpassed : signal.queue.worker ≠ .passed) :
      Steps signal (.post thread msg) { signal with queue := postMsgToQue msg signal.queue }
  | passed (htesting : signal.queue.worker = .testing) (hparking : signal.parking = false)
      (hready : ready signal.queue = true) :
      Steps signal .evaluate { signal with queue := { signal.queue with worker := .passed } }
  | parked (htesting : signal.queue.worker = .testing) (hparking : signal.parking = false)
      (hready : ready signal.queue = false) :
      Steps signal .evaluate { signal with parking := true }
  | block (hparking : signal.parking = true) : Steps signal .block { signal with
      queue := { signal.queue with worker := .blocked }
      parking := false }
  | take (hpassed : signal.queue.worker = .passed) :
      Steps signal .take { signal with queue := takeFront signal.queue }
  | finish {outcome : Outcome} {msg : LogicNode} (hrunning : signal.queue.worker = .running msg) :
      Steps signal (.finish outcome) { signal with queue := { signal.queue with worker := .testing } }
  | spurious (hblocked : signal.queue.worker = .blocked) :
      Steps signal .spurious { signal with queue := { signal.queue with worker := .testing } }
  | setFlag (hnot : signal.destructor = .notCalled) : Steps signal .setFlag { signal with
      queue := { signal.queue with bStop := true }
      destructor := .flagSet }
  | notify (hset : signal.destructor = .flagSet) : Steps signal .notify { signal with
      queue := notifyOne signal.queue
      destructor := .joining }
  | join (hjoining : signal.destructor = .joining) (hexited : signal.queue.worker = .exited) :
      Steps signal .join { signal with destructor := .joined }

theorem steps_of_step (hstep : step label signal = some signal') : Steps signal label signal' := by
  cases label with
  | post thread msg =>
    simp only [step, Option.ite_none_left_eq_some, Option.some.injEq] at hstep
    obtain ⟨hlocked, rfl⟩ := hstep
    obtain ⟨hparking, hpassed⟩ : signal.parking = false ∧ signal.queue.worker ≠ .passed := by
      simpa [Signal.locked] using hlocked
    exact .post hparking hpassed
  | evaluate =>
    simp only [step, Option.ite_none_right_eq_some] at hstep
    obtain ⟨⟨htesting, hparking⟩, hstep⟩ := hstep
    split_ifs at hstep with hready
    · obtain rfl := Option.some.inj hstep
      exact .passed htesting hparking hready
    · obtain rfl := Option.some.inj hstep
      exact .parked htesting hparking (Bool.eq_false_iff.mpr hready)
  | finish outcome =>
    simp only [step] at hstep
    split at hstep
    · next hrunning =>
      obtain rfl := Option.some.inj hstep
      exact .finish hrunning
    · cases hstep
  | join =>
    simp only [step, Option.ite_none_right_eq_some, Option.some.injEq] at hstep
    obtain ⟨⟨hjoining, hexited⟩, rfl⟩ := hstep
    exact .join hjoining hexited
  | block | take | spurious | setFlag | notify =>
    simp only [step, Option.ite_none_right_eq_some, Option.some.injEq] at hstep
    obtain ⟨hguard, rfl⟩ := hstep
    constructor
    exact hguard

/-- The worker parks on the way from the test to the block, and the flag is set when the destructor has
been called. -/
structure Inv (signal : Signal) : Prop where
  parking : signal.parking = true → signal.queue.worker = .testing
  flag : signal.queue.bStop = true ↔ signal.destructor ≠ .notCalled

theorem postMsgToQue_bStop (msg : LogicNode) (queue : Queue) :
    (postMsgToQue msg queue).bStop = queue.bStop := by
  unfold postMsgToQue
  dsimp only
  split_ifs
  · rfl
  · exact (notifyOne_frame _).2.1
  · rfl

theorem takeFront_bStop (queue : Queue) : (takeFront queue).bStop = queue.bStop := by
  unfold takeFront
  split <;> rfl

theorem Inv.step (h : Inv signal) (hstep : step label signal = some signal') : Inv signal' := by
  cases steps_of_step hstep with
  | post hparking =>
    refine ⟨fun hpark => ?_, by rw [postMsgToQue_bStop, h.flag]⟩
    cases hparking.symm.trans hpark
  | passed _ hparking =>
    refine ⟨fun hpark => ?_, h.flag⟩
    cases hparking.symm.trans hpark
  | parked htesting => exact ⟨fun _ => htesting, h.flag⟩
  | block => exact ⟨fun hpark => (by cases hpark), h.flag⟩
  | take hpassed =>
    refine ⟨fun hpark => ?_, by rw [takeFront_bStop, h.flag]⟩
    cases hpassed.symm.trans (h.parking hpark)
  | finish | spurious => exact ⟨fun _ => rfl, h.flag⟩
  | setFlag => exact ⟨h.parking, by simp⟩
  | notify hset =>
    refine ⟨fun hpark => ?_, ?_⟩
    · rcases (notifyOne_worker signal.queue).2 with hsame | htesting
      · exact hsame.trans (h.parking hpark)
      · exact htesting
    · rw [(notifyOne_frame signal.queue).2.1, h.flag, hset]
      simp
  | join hjoining =>
    refine ⟨h.parking, ?_⟩
    rw [h.flag, hjoining]
    simp

theorem inv_of_reaches (hreach : Reaches ok signal) : Inv signal := by
  refine hreach.invariant (fun _ => True) (fun _ _ => trivial) ?_ fun _ _ _ _ h _ hstep => h.step hstep
  rintro _ rfl
  exact ⟨nofun, ⟨nofun, fun h => absurd rfl h⟩⟩

/-! ### Runs in which the notification is not missed -/

/-- Past the notification the worker is neither blocked nor about to be. -/
def Heard (signal : Signal) : Prop :=
  signal.destructor = .joining → signal.parking = false ∧ signal.queue.worker ≠ .blocked

theorem postMsgToQue_worker (msg : LogicNode) (queue : Queue) (h : queue.worker ≠ .blocked) :
    (postMsgToQue msg queue).worker ≠ .blocked := by
  unfold postMsgToQue
  dsimp only
  split_ifs
  · exact h
  · exact (notifyOne_worker _).1
  · exact h

theorem takeFront_worker (queue : Queue) : (takeFront queue).worker ≠ .blocked := by
  unfold takeFront
  split
  · dsimp only
    split_ifs <;> exact nofun
  · exact nofun

theorem Heard.step (h : Heard signal) (hinv : Inv signal) (hok : NotifiesAwake label signal)
    (hstep : step label signal = some signal') : Heard signal' := by
  cases steps_of_step hstep with
  | post => exact fun hjoining => ⟨(h hjoining).1, postMsgToQue_worker _ _ (h hjoining).2⟩
  | passed _ hparking => exact fun _ => ⟨hparking, by simp⟩
  | parked _ _ hready =>
    -- the flag is set by then, so the predicate holds
    intro hjoining
    have hflag : signal.queue.bStop = true := by
      apply hinv.flag.mpr
      intro hnot
      cases hnot.symm.trans hjoining
    simp [ready, hflag] at hready
  | block hparking =>
    intro hjoining
    cases hparking.symm.trans (h hjoining).1
  | take => exact fun hjoining => ⟨(h hjoining).1, takeFront_worker signal.queue⟩
  | finish | spurious => exact fun hjoining => ⟨(h hjoining).1, by simp⟩
  | notify => exact fun _ => ⟨hok rfl, (notifyOne_worker signal.queue).1⟩
  | setFlag | join =>
    intro hjoining
    cases hjoining

/-- **The stop signal is heard** in every run whose destructor does not notify between the test of the
predicate and the block. -/
theorem stop_signal_heard (hreach : Reaches NotifiesAwake signal) : ¬ Lost signal := by
  have hheard : Heard signal := by
    refine hreach.invariant Inv (fun _ => inv_of_reaches) ?_
      fun _ _ _ hinv h hok hstep => h.step hinv hok hstep
    rintro _ rfl
    intro hjoining
    cases hjoining
  rintro ⟨hjoining, hblocked, -⟩
  exact (hheard hjoining).2 hblocked

/-- The worker blocks, a message wakes it, and the destructor runs while it serves the message. -/
def heardRun (msg : LogicNode) : List Label :=
  [.evaluate, .block, .post 0 msg, .evaluate, .take, .setFlag, .notify, .finish .returned, .evaluate]

theorem stop_signal_heard_busy :
    ¬ Lost (Reach.after step (heardRun ⟨0, MSG_LOGIN_REQ, []⟩) .initial) := by
  have hmeets : Reach.meets step (fun label signal => decide (NotifiesAwake label signal))
      (heardRun ⟨0, MSG_LOGIN_REQ, []⟩) .initial = true := by decide
  exact stop_signal_heard (.of_meets rfl (fun _ _ _ _ h => of_decide_eq_true h) hmeets)

/-- The destructor sets the flag and notifies behind the test and before the block. -/
def missedRun : List Label := [.evaluate, .setFlag, .notify, .block]

theorem stop_signal_missed :
    ¬ ∀ signal, Reaches (fun _ _ => True) signal → ¬ Lost signal := by
  intro hheard
  have hmeets : Reach.meets step (fun _ _ => true) missedRun .initial = true := by decide
  exact hheard _ (.of_enabled rfl hmeets) (by decide)

/-- A notification that finds the worker about to block is lost with the next step. -/
theorem lost_of_notify_parking (hreach : Reaches ok signal) (hparking : signal.parking = true)
    (hset : signal.destructor = .flagSet) :
    ∃ middle signal', step .notify signal = some middle ∧ step .block middle = some signal' ∧
      Lost signal' := by
  have hflag : signal.queue.bStop = true := by
    apply (inv_of_reaches hreach).flag.mpr
    rw [hset]
    exact nofun
  refine ⟨_, _, if_pos hset, if_pos hparking, rfl, rfl, ?_⟩
  exact (notifyOne_frame signal.queue).2.1.trans hflag

/-- Nothing but a late message or a spurious wakeup ends the wait. -/
theorem lost_step (hlost : Lost signal) (hparking : signal.parking = false)
    (hstep : step label signal = some signal') :
    (∃ thread msg, label = .post thread msg) ∨ label = .spurious := by
  obtain ⟨hjoining, hblocked, -⟩ := hlost
  cases label with
  | post thread msg => exact .inl ⟨thread, msg, rfl⟩
  | spurious => exact .inr rfl
  | evaluate | block | take | finish | setFlag | notify | join =>
    simp [StopSignal.step, hjoining, hblocked, hparking] at hstep

/-! ### The logic queue behind it -/

/-- A worker that is about to block counts as blocked. -/
def Signal.settled (signal : Signal) : Queue :=
  if signal.parking then { signal.queue with worker := .blocked } else signal.queue

theorem settled_of_not_parking (h : signal.parking = false) : signal.settled = signal.queue := by
  unfold Signal.settled
  rw [h]
  exact if_neg Bool.false_ne_true

theorem settled_step_of_free {label' : LogicQueue.Label} (hbefore : signal.parking = false)
    (hafter : signal'.parking = false)
    (hstep : LogicQueue.step label' signal.queue = some signal'.queue) :
    LogicQueue.step label' signal.settled = some signal'.settled := by
  rw [settled_of_not_parking hbefore, settled_of_not_parking hafter]
  exact hstep

theorem settled_step (hinv : Inv signal) (hstep : step label signal = some signal') :
    signal'.settled = signal.settled ∨
      ∃ label', LogicQueue.step label' signal.settled = some signal'.settled := by
  have hfree : ∀ {pos : WorkerPos}, signal.queue.worker = pos → pos ≠ .testing →
      signal.parking = false := by
    intro pos hworker hpos
    by_contra hpark
    exact hpos (hworker.symm.trans (hinv.parking (by simpa using hpark)))
  cases steps_of_step hstep with
  | @post thread msg hparking hpassed =>
    exact .inr ⟨.post thread msg, settled_step_of_free hparking hparking (if_neg hpassed)⟩
  | passed htesting hparking hready =>
    refine .inr ⟨.test, settled_step_of_free hparking hparking ?_⟩
    simp [LogicQueue.step, htesting, hready]
  | parked htesting hparking hready =>
    refine .inr ⟨.test, ?_⟩
    rw [settled_of_not_parking hparking]
    simp [LogicQueue.step, htesting, hready, Signal.settled]
  | block hparking =>
    left
    simp [Signal.settled, hparking]
  | take hpassed =>
    have hparking := hfree hpassed (by simp)
    exact .inr ⟨.take, settled_step_of_free hparking hparking (if_pos hpassed)⟩
  | @finish outcome msg hrunning =>
    have hparking := hfree hrunning (by simp)
    refine .inr ⟨.finish outcome, settled_step_of_free hparking hparking ?_⟩
    simp [LogicQueue.step, hrunning]
  | spurious hblocked =>
    have hparking := hfree hblocked (by simp)
    exact .inr ⟨.spurious, settled_step_of_free hparking hparking (if_pos hblocked)⟩
  | setFlag =>
    refine .inr ⟨.stop, ?_⟩
    unfold Signal.settled
    dsimp only
    split_ifs <;> rfl
  | notify hset =>
    have hflag : signal.queue.bStop = true := by
      apply hinv.flag.mpr
      rw [hset]
      intro hnot
      cases hnot
    by_cases hparking : signal.parking = true
    · -- the notification that is missed
      left
      have htesting := hinv.parking hparking
      simp [Signal.settled, hparking, notifyOne, htesting]
    · rw [Bool.not_eq_true] at hparking
      exact .inr ⟨.stopNotify, settled_step_of_free hparking hparking (if_pos hflag)⟩
  | join => exact .inl rfl

/-- **Refinement.** With the test and the block taken for one step, every run is a run of the logic queue;
a notification that is missed is no step of it. -/
theorem settled_reaches (hreach : Reaches ok signal) : LogicQueue.Reaches signal.settled := by
  induction hreach with
  | initial h =>
    rw [h]
    exact .initial rfl
  | next hprior _ hstep ih =>
    rcases settled_step (inv_of_reaches hprior) hstep with hsame | ⟨label', hnext⟩
    · rw [hsame]
      exact ih
    · exact .next ih trivial hnext

/-- A lost signal finds the queue empty: the worker sleeps on no message. -/
theorem msgQue_of_lost (hreach : Reaches ok signal) (hlost : Lost signal) :
    signal.queue.msgQue = [] := by
  have hinv := LogicQueue.inv_of_reaches (settled_reaches hreach)
  have hparking : signal.parking = false := by
    by_contra hpark
    have htesting := (inv_of_reaches hreach).parking (by simpa using hpark)
    cases hlost.2.1.symm.trans htesting
  rw [settled_of_not_parking hparking] at hinv
  exact hinv.awake hlost.2.1

end StopSignal

end CoroutineServer
