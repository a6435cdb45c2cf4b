import CoroutineServer.Library.RoundRobin
import CoroutineServer.Proof.Shutdown

/-!
# The contexts of the pool

How `GetIOService` deals the contexts out, which of them can run out of work, and what still runs once `Stop`
has joined their threads.
-/

namespace CoroutineServer

namespace AsioIOServicePool

open Lifecycle RoundRobin

variable {pool : PoolSize} {host host' : Host} {label : Label}

/-- The period of the counter, a `std::size_t`. -/
def wrap : Nat := 2 ^ 64

/-- The sessions made on a context, and the acceptor on the first. -/
def Host.load (host : Host) (context : Nat) : Nat :=
  (if context = acceptorContext then 1 else 0)
    + Nat.count (fun session => host.contextOf session = context) host.created

/-- The thread of a context has been joined. -/
def Host.joined (host : Host) (context : Nat) : Prop := match host.stop with
  | .joining next => context < next
  | .returned => True
  | _ => False

/-- The contexts are dealt out in turn, and a thread does not end while `HandleAccept` runs on it or before it
is joined. -/
structure Dealt (pool : PoolSize) (host : Host) : Prop where
  counter : host.nextIOService = (host.created + 1) % wrap
  context : ∀ session < host.created, host.contextOf session = slot wrap pool.size (session + 1)
  within : ∀ session, host.contextOf session < pool.size
  rearming : ∀ session, host.accept = .rearming session → host.exited (host.contextOf session) = false
  joined : ∀ context < pool.size, host.joined context → host.exited context = true

theorem dealt_startAccept (h : Dealt pool host) : Dealt pool (startAccept pool host) where
  counter := by
    have hcounter := h.counter
    unfold startAccept
    unfold wrap at hcounter ⊢
    dsimp only
    unfold toSizeT
    omega
  context session hsession := by
    unfold startAccept at hsession ⊢
    dsimp only at hsession ⊢
    by_cases hnew : session = host.created
    · rw [hnew, Function.update_self, getIOService, h.counter, slot]
    · rw [Function.update_of_ne hnew]
      exact h.context session (by omega)
  within session := by
    unfold startAccept
    dsimp only
    by_cases hnew : session = host.created
    · rw [hnew, Function.update_self]
      exact Nat.mod_lt _ pool.pos
    · rw [Function.update_of_ne hnew]
      exact h.within session
  rearming _ haccept := by cases haccept
  joined := h.joined

theorem dealt_initial : Dealt pool (.initial pool) := by
  apply dealt_startAccept
  exact ⟨rfl, fun _ h => absurd h (Nat.not_lt_zero _), fun _ => pool.pos, fun _ _ => rfl,
    fun _ _ h => h.elim⟩

theorem Dealt.step (h : Dealt pool host) (hstep : step pool label host = some host') : Dealt pool host' := by
  cases label with
  | acceptDone done =>
    simp only [AsioIOServicePool.step] at hstep
    split at hstep
    · simp only [Option.ite_none_left_eq_some, Option.some.injEq] at hstep
      obtain ⟨-, rfl⟩ := hstep
      exact { h with rearming := fun _ haccept => (by cases haccept) }
    · cases hstep
  | handleAccept =>
    simp only [AsioIOServicePool.step] at hstep
    split at hstep
    · next session done haccept =>
      simp only [Option.ite_none_left_eq_some] at hstep
      obtain ⟨halive, hstep⟩ := hstep
      have hnot : host.exited (host.contextOf session) = false := by simpa using halive
      split_ifs at hstep
      · obtain ⟨conn, -, rfl⟩ := Option.map_eq_some_iff.mp hstep
        exact { h with rearming := fun other hother => AcceptPos.rearming.inj hother ▸ hnot }
      · obtain rfl := Option.some.inj hstep
        exact { h with rearming := fun other hother => AcceptPos.rearming.inj hother ▸ hnot }
    · cases hstep
  | startAccept =>
    simp only [AsioIOServicePool.step] at hstep
    split at hstep
    · simp only [Option.ite_none_left_eq_some, Option.some.injEq] at hstep
      obtain ⟨-, rfl⟩ := hstep
      exact dealt_startAccept h
    · cases hstep
  | conn session act =>
    obtain ⟨-, conn, -, rfl⟩ := conn_cases hstep
    exact { h with }
  | stop =>
    simp only [AsioIOServicePool.step, Option.ite_none_right_eq_some, Option.some.injEq] at hstep
    obtain ⟨-, rfl⟩ := hstep
    exact { h with joined := fun _ _ hjoined => hjoined.elim }
  | resetGuard =>
    simp only [AsioIOServicePool.step] at hstep
    split at hstep
    · obtain rfl := Option.some.inj hstep
      refine { h with joined := fun context _ hjoined => ?_ }
      unfold Host.joined at hjoined
      dsimp only at hjoined
      split_ifs at hjoined
      · exact hjoined.elim
      · exact absurd hjoined (Nat.not_lt_zero _)
    · cases hstep
  | join =>
    simp only [AsioIOServicePool.step] at hstep
    split at hstep
    · next next hstop =>
      simp only [Option.ite_none_right_eq_some, Option.some.injEq] at hstep
      obtain ⟨hexited, rfl⟩ := hstep
      refine { h with joined := fun context hcontext hjoined => ?_ }
      unfold Host.joined at hjoined
      dsimp only at hjoined ⊢
      have hbefore : context < next → host.exited context = true := fun hlt =>
        h.joined context hcontext (by unfold Host.joined; rw [hstop]; exact hlt)
      have hle : context ≤ next := by
        split_ifs at hjoined with hmore
        · exact Nat.le_of_lt_succ hjoined
        · omega
      rcases Nat.lt_or_eq_of_le hle with hlt | rfl
      · exact hbefore hlt
      · exact hexited
    · cases hstep
  | exit context =>
    simp only [AsioIOServicePool.step, Option.ite_none_right_eq_some, Option.some.injEq] at hstep
    obtain ⟨⟨-, hready, -⟩, rfl⟩ := hstep
    refine { h with rearming := fun session haccept => ?_, joined := fun other hother hjoined => ?_ }
    · -- the context would still have `HandleAccept` to run
      have hne : host.contextOf session ≠ context := by
        rintro rfl
        apply hready
        left
        unfold Host.acceptReady
        rw [haccept]
        exact decide_eq_true rfl
      exact (Function.update_of_ne hne _ _).trans (h.rearming session haccept)
    · by_cases hsame : other = context
      · rw [hsame]
        exact Function.update_self _ _ _
      · exact (Function.update_of_ne hsame _ _).trans (h.joined other hother hjoined)

theorem dealt_of_reaches (hreach : Reaches pool host) : Dealt pool host := by
  refine hreach.invariant (fun _ => True) (fun _ _ => trivial) ?_ fun _ _ _ _ h _ hstep => h.step hstep
  rintro _ rfl
  exact dealt_initial

/-- The steps of `Stop`, in the signal handler. -/
def onSignal : Label → Bool
  | .stop => true
  | .resetGuard => true
  | .join => true
  | _ => false

/-- Only the signal handler moves `Stop` on, and a thread ends by its own step. -/
theorem frame_of_step (hstep : step pool label host = some host') :
    (onSignal label = false → host'.stop = host.stop) ∧
      ((∀ context, label ≠ .exit context) → host'.exited = host.exited) := by
  cases label with
  | acceptDone done =>
    simp only [step] at hstep
    split at hstep
    · simp only [Option.ite_none_left_eq_some, Option.some.injEq] at hstep
      obtain ⟨-, rfl⟩ := hstep
      exact ⟨fun _ => rfl, fun _ => rfl⟩
    · cases hstep
  | handleAccept =>
    simp only [step] at hstep
    split at hstep
    · simp only [Option.ite_none_left_eq_some] at hstep
      obtain ⟨-, hstep⟩ := hstep
      split_ifs at hstep
      · obtain ⟨conn, -, rfl⟩ := Option.map_eq_some_iff.mp hstep
        exact ⟨fun _ => rfl, fun _ => rfl⟩
      · obtain rfl := Option.some.inj hstep
        exact ⟨fun _ => rfl, fun _ => rfl⟩
    · cases hstep
  | startAccept =>
    simp only [step] at hstep
    split at hstep
    · simp only [Option.ite_none_left_eq_some, Option.some.injEq] at hstep
      obtain ⟨-, rfl⟩ := hstep
      exact ⟨fun _ => rfl, fun _ => rfl⟩
    · cases hstep
  | conn session act =>
    obtain ⟨-, conn, -, rfl⟩ := conn_cases hstep
    exact ⟨fun _ => rfl, fun _ => rfl⟩
  | stop =>
    simp only [step, Option.ite_none_right_eq_some, Option.some.injEq] at hstep
    obtain ⟨-, rfl⟩ := hstep
    exact ⟨fun h => (by cases h), fun _ => rfl⟩
  | resetGuard =>
    simp only [step] at hstep
    split at hstep
    · obtain rfl := Option.some.inj hstep
      exact ⟨fun h => (by cases h), fun _ => rfl⟩
    · cases hstep
  | join =>
    simp only [step] at hstep
    split at hstep
    · simp only [Option.ite_none_right_eq_some, Option.some.injEq] at hstep
      obtain ⟨-, rfl⟩ := hstep
      exact ⟨fun h => (by cases h), fun _ => rfl⟩
    · cases hstep
  | exit context =>
    simp only [step, Option.ite_none_right_eq_some, Option.some.injEq] at hstep
    obtain ⟨-, rfl⟩ := hstep
    exact ⟨fun _ => rfl, fun h => absurd rfl (h context)⟩

theorem stop_of_returned (hstop : host.stop = .returned) (hstep : step pool label host = some host') :
    host'.stop = .returned := by
  cases label with
  | stop | resetGuard | join => simp [step, hstop] at hstep
  | acceptDone | handleAccept | startAccept | conn | exit =>
    exact ((frame_of_step hstep).1 rfl).trans hstop

/-! ### Round robin -/

theorem load_eq (h : Dealt pool host) (context : Nat) :
    host.load context = dealt wrap pool.size context (host.created + 1) := by
  have hsessions : Nat.count (fun session => host.contextOf session = context) host.created
      = Nat.count (fun session => slot wrap pool.size (session + 1) = context) host.created :=
    count_congr fun session hsession => by rw [h.context session hsession]
  have hacceptor : slot wrap pool.size 0 = acceptorContext := Nat.zero_mod _
  unfold Host.load dealt
  rw [Nat.count_succ', hsessions, hacceptor, Nat.add_comm]
  simp only [eq_comm]

/-- **The contexts are dealt out evenly.** In every run, of the acceptor and the sessions made so far two
contexts have numbers that differ by one at most, and where the size of the pool does not divide `2 ^ 64` by
one more for each time the counter has wrapped. -/
theorem contexts_balanced {context other : Nat} (hreach : Reaches pool host) (hcontext : context < pool.size)
    (hother : other < pool.size) :
    host.load context
      ≤ host.load other + 1 + if pool.size ∣ wrap then 0 else (host.created + 1) / wrap := by
  have hdealt := dealt_of_reaches hreach
  rw [load_eq hdealt, load_eq hdealt]
  exact dealt_balanced (by decide) hcontext hother _

theorem contexts_balanced_connected :
    (Reach.after (step twoContexts) connectedRun (.initial twoContexts)).load 0
      ≤ (Reach.after (step twoContexts) connectedRun (.initial twoContexts)).load 1 + 1
        + if 2 ∣ wrap then 0
          else ((Reach.after (step twoContexts) connectedRun (.initial twoContexts)).created + 1) / wrap := by
  have hreach : Reaches twoContexts (Reach.after (step twoContexts) connectedRun (.initial twoContexts)) :=
    .of_enabled rfl (by decide)
  exact contexts_balanced hreach (by decide) (by decide)

/-! ### What runs behind `Stop` -/

/-- The steps that a thread of the pool takes for the acceptor or for a session. -/
def onPool : Label → Bool
  | .acceptDone _ => true
  | .handleAccept => true
  | .startAccept => true
  | .conn _ act => onContext act
  | _ => false

/-- With all threads ended there is none to take a step of the pool. -/
theorem step_eq_none_of_exited (h : Dealt pool host)
    (hexited : ∀ context < pool.size, host.exited context = true) (hlabel : onPool label = true) :
    step pool label host = none := by
  have hcontext : ∀ session, host.exited (host.contextOf session) = true := fun session =>
    hexited _ (h.within session)
  cases label with
  | acceptDone done =>
    simp only [step]
    split
    · exact if_pos (hexited _ pool.pos)
    · rfl
  | handleAccept =>
    simp only [step]
    split
    · exact if_pos (hcontext _)
    · rfl
  | startAccept =>
    simp only [step]
    split
    · next session haccept => cases (h.rearming session haccept).symm.trans (hcontext session)
    · rfl
  | conn session act =>
    have hguard : onContext act = true ∧ host.exited (host.contextOf session) = true :=
      ⟨hlabel, hcontext session⟩
    cases act <;> first | rfl | exact if_pos hguard
  | stop | resetGuard | join | exit => cases hlabel

/-- **Nothing runs behind `Stop`.** From the moment `Stop` returns no thread accepts a connection or runs a
handler of a session, whatever the worker goes on to do: what `main` destroys next, the `CServer` that the
handlers refer to among it, is not used again. -/
theorem no_handler_after_stop {later : Host} (hreach : Reaches pool host) (hstop : host.stop = .returned)
    (hlater : ReachesFrom pool (fun _ => True) host later) (hlabel : onPool label = true) :
    step pool label later = none := by
  have hlaterReach : Reaches pool later :=
    hreach.follow (hlater.mono (fun _ h => h) fun _ _ _ => trivial)
  have hreturned : later.stop = .returned :=
    hlater.invariant (fun _ => True) (fun _ _ => trivial) (fun _ h => h ▸ hstop)
      fun _ _ _ _ hstop _ hstep => stop_of_returned hstop hstep
  have hdealt := dealt_of_reaches hlaterReach
  refine step_eq_none_of_exited hdealt (fun context hcontext => hdealt.joined context hcontext ?_) hlabel
  unfold Host.joined
  rw [hreturned]
  trivial

/-- The signal comes while a client connects: the thread of the acceptor ends before its accept is armed
again, and the other one when the client has gone. -/
def stoppedRun : List Label :=
  [.acceptDone true, .stop, .resetGuard, .resetGuard, .exit 0, .join, .handleAccept, .conn 0 .insert,
    .startAccept, .conn 0 .run, .conn 0 .run, .conn 0 (.readDone none), .conn 0 .run, .conn 0 .run,
    .conn 0 .run, .exit 1, .join]

theorem no_handler_after_stop_stopped :
    (Reach.after (step twoContexts) stoppedRun (.initial twoContexts)).stop = .returned ∧
      step twoContexts (.acceptDone true)
        (Reach.after (step twoContexts) stoppedRun (.initial twoContexts)) = none := by
  have hreach : Reaches twoContexts (Reach.after (step twoContexts) stoppedRun (.initial twoContexts)) :=
    .of_enabled rfl (by decide)
  have hstop : (Reach.after (step twoContexts) stoppedRun (.initial twoContexts)).stop = .returned := by
    decide
  exact ⟨hstop, no_handler_after_stop hreach hstop (.initial rfl) rfl⟩

/-! ### A pool of one -/

/-- The thread of the acceptor ends only while `HandleAccept` is due on another context: at any other time an
accept is outstanding there, or `HandleAccept` itself. -/
theorem accept_of_acceptor_exit (hstep : step pool (.exit acceptorContext) host = some host') :
    ∃ session, host.contextOf session ≠ acceptorContext ∧
      (host.accept = .rearming session ∨ ∃ done, host.accept = .completed session done) := by
  simp only [step, Option.ite_none_right_eq_some] at hstep
  obtain ⟨⟨-, hready, houtstanding⟩, -⟩ := hstep
  cases haccept : host.accept with
  | pending session =>
    refine absurd (.inl ?_) houtstanding
    unfold Host.acceptOutstanding
    rw [haccept]
    rfl
  | completed session done =>
    refine ⟨session, fun hcontext => hready (.inl ?_), .inr ⟨done, rfl⟩⟩
    unfold Host.acceptReady
    rw [haccept]
    exact decide_eq_true hcontext
  | rearming session =>
    refine ⟨session, fun hcontext => hready (.inl ?_), .inl rfl⟩
    unfold Host.acceptReady
    rw [haccept]
    exact decide_eq_true hcontext

theorem acceptor_of_step (hsize : pool.size = 1) (hdealt : Dealt pool host)
    (hexited : host.exited acceptorContext = false) (hstep : step pool label host = some host') :
    host'.exited acceptorContext = false := by
  by_cases hlabel : ∀ context, label ≠ .exit context
  · exact (congrFun ((frame_of_step hstep).2 hlabel) _).trans hexited
  · obtain ⟨context, rfl⟩ := not_forall_not.mp hlabel
    by_cases hacceptor : context = acceptorContext
    · subst hacceptor
      obtain ⟨session, hother, -⟩ := accept_of_acceptor_exit hstep
      have hwithin := hdealt.within session
      rw [hsize] at hwithin
      exact absurd (Nat.lt_one_iff.mp hwithin) hother
    · simp only [step, Option.ite_none_right_eq_some, Option.some.injEq] at hstep
      obtain ⟨-, rfl⟩ := hstep
      exact (Function.update_of_ne (Ne.symm hacceptor) _ _).trans hexited

/-- **A pool of one never stops.** On a machine that reports one hardware thread, in every run and whatever the
clients do, the one thread of the pool does not end, and `Stop` does not return. -/
theorem pool_of_one_never_stops (hsize : pool.size = 1) (hreach : Reaches pool host) :
    host.exited acceptorContext = false ∧ host.stop ≠ .returned := by
  have hexited : host.exited acceptorContext = false := by
    induction hreach with
    | initial h =>
      rw [h]
      rfl
    | next hprior _ hstep ih => exact acceptor_of_step hsize (dealt_of_reaches hprior) ih hstep
  refine ⟨hexited, fun hstop => ?_⟩
  have hjoined : host.joined acceptorContext := by
    unfold Host.joined
    rw [hstop]
    trivial
  cases hexited.symm.trans ((dealt_of_reaches hreach).joined acceptorContext pool.pos hjoined)

def oneContext : PoolSize := ⟨1, by decide⟩

theorem pool_of_one_never_stops_waiting :
    (Reach.after (step oneContext) [.acceptDone true, .stop, .resetGuard] (.initial oneContext)).stop
        ≠ .returned := by
  have hreach : Reaches oneContext
      (Reach.after (step oneContext) [.acceptDone true, .stop, .resetGuard] (.initial oneContext)) :=
    .of_enabled rfl (by decide)
  exact (pool_of_one_never_stops rfl hreach).2

end AsioIOServicePool

end CoroutineServer
