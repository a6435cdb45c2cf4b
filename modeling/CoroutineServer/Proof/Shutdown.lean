import CoroutineServer.AsioIOServicePool

/-!
# Shutdown

`Stop` resets the guards and joins the threads, and nothing closes the acceptor or the sessions. The
accept is always armed, or about to be armed again by the handler of the last one, so the context of the
acceptor never runs out of work by itself.
-/

namespace CoroutineServer

namespace AsioIOServicePool

open Lifecycle

variable {pool : PoolSize} {host host' : Host} {label : Label} {ok : Label → Prop}

/-! ### The invariant -/

/-- The session of an accept that has not been handled. -/
def AcceptPos.fresh? : AcceptPos → Option Sid
  | .pending session => some session
  | .completed session _ => some session
  | .rearming _ => none

/-- A session is untouched until its accept is handled, and a thread ends only when its guard is gone. -/
structure Inv (host : Host) : Prop where
  fresh : ∀ session, host.accept.fresh? = some session →
    session < host.created ∧ host.sessions session = .initial
  later : ∀ session, host.created ≤ session → host.sessions session = .initial
  guarded : ∀ context, host.exited context = true → host.guarded context = false
  waiting : host.stop = .notCalled ∨ host.stop = .resetting 0 →
    ∀ context, host.guarded context = true

/-- Nothing but `Start` happens to a session that has not been accepted. -/
theorem step_initial {act : Act} (hact : act ≠ .start) : Lifecycle.step act .initial = none := by
  cases act with
  | start => exact absurd rfl hact
  | insert | run | readDone | throw | push | startWrite | writeDone | handle | kick | kickStep => rfl

theorem sessions_setConn_of_initial {session other : Sid} {conn : Conn} {act : Act}
    (hact : act ≠ .start) (hstep : Lifecycle.step act (host.sessions session) = some conn)
    (hother : host.sessions other = .initial) : (host.setConn session conn).sessions other = .initial := by
  have hne : other ≠ session := by
    rintro rfl
    rw [hother, step_initial hact] at hstep
    cases hstep
  exact (Function.update_of_ne hne _ _).trans hother

theorem inv_startAccept (h : Inv host) : Inv (startAccept pool host) where
  fresh session hsession := by
    obtain rfl := Option.some.inj hsession
    exact ⟨Nat.lt_succ_self _, h.later _ (Nat.le_refl _)⟩
  later session hsession := h.later session (Nat.le_of_succ_le hsession)
  guarded := h.guarded
  waiting := h.waiting

theorem inv_initial : Inv (.initial pool) :=
  inv_startAccept ⟨nofun, fun _ _ => rfl, nofun, fun _ _ => rfl⟩

/-- What `step` does for an act of a session. -/
theorem conn_cases {session : Sid} {act : Act} (hstep : step pool (.conn session act) host = some host') :
    act ≠ .start ∧ ∃ conn, Lifecycle.step act (host.sessions session) = some conn ∧
      host' = host.setConn session conn := by
  have hact : act ≠ .start := by
    rintro rfl
    cases hstep
  have heq : step pool (.conn session act) host =
      if onContext act = true ∧ host.exited (host.contextOf session) = true then none
      else (Lifecycle.step act (host.sessions session)).map (host.setConn session) := by
    cases act <;> first | rfl | exact absurd rfl hact
  rw [heq] at hstep
  simp only [Option.ite_none_left_eq_some, Option.map_eq_some_iff] at hstep
  obtain ⟨-, conn, hconn, rfl⟩ := hstep
  exact ⟨hact, conn, hconn, rfl⟩

theorem Inv.step (h : Inv host) (hstep : step pool label host = some host') : Inv host' := by
  cases label with
  | acceptDone done =>
    simp only [AsioIOServicePool.step] at hstep
    split at hstep
    · next session haccept =>
      simp only [Option.ite_none_left_eq_some, Option.some.injEq] at hstep
      obtain ⟨-, rfl⟩ := hstep
      refine { h with fresh := fun other hother => h.fresh other ?_ }
      rw [haccept]
      exact hother
    · cases hstep
  | handleAccept =>
    simp only [AsioIOServicePool.step] at hstep
    split at hstep
    · next session done haccept =>
      simp only [Option.ite_none_left_eq_some] at hstep
      obtain ⟨-, hstep⟩ := hstep
      split_ifs at hstep
      · obtain ⟨conn, -, rfl⟩ := Option.map_eq_some_iff.mp hstep
        have hold : session < host.created := by
          apply (h.fresh session _).1
          rw [haccept]
          rfl
        refine { h with fresh := nofun, later := fun other hother => ?_ }
        have hne : other ≠ session := Nat.ne_of_gt (Nat.lt_of_lt_of_le hold hother)
        exact (Function.update_of_ne hne _ _).trans (h.later other hother)
      · obtain rfl := Option.some.inj hstep
        exact { h with fresh := nofun }
    · cases hstep
  | startAccept =>
    simp only [AsioIOServicePool.step] at hstep
    split at hstep
    · simp only [Option.ite_none_left_eq_some, Option.some.injEq] at hstep
      obtain ⟨-, rfl⟩ := hstep
      exact inv_startAccept h
    · cases hstep
  | conn session act =>
    obtain ⟨hact, conn, hconn, rfl⟩ := conn_cases hstep
    exact { h with
      fresh := fun other hother => ⟨(h.fresh other hother).1,
        sessions_setConn_of_initial hact hconn (h.fresh other hother).2⟩
      later := fun other hother => sessions_setConn_of_initial hact hconn (h.later other hother) }
  | stop =>
    simp only [AsioIOServicePool.step, Option.ite_none_right_eq_some, Option.some.injEq] at hstep
    obtain ⟨hnot, rfl⟩ := hstep
    exact { h with waiting := fun _ => h.waiting (.inl hnot) }
  | resetGuard =>
    simp only [AsioIOServicePool.step] at hstep
    split at hstep
    · next context hstop =>
      obtain rfl := Option.some.inj hstep
      refine { h with guarded := fun other hexited => ?_, waiting := fun hwaiting => ?_ }
      · by_cases hother : other = context
        · subst hother
          exact Function.update_self _ _ _
        · exact (Function.update_of_ne hother _ _).trans (h.guarded other hexited)
      · dsimp only at hwaiting
        split_ifs at hwaiting <;> simp at hwaiting
    · cases hstep
  | join =>
    simp only [AsioIOServicePool.step] at hstep
    split at hstep
    · next context hstop =>
      simp only [Option.ite_none_right_eq_some, Option.some.injEq] at hstep
      obtain ⟨-, rfl⟩ := hstep
      refine { h with waiting := fun hwaiting => ?_ }
      dsimp only at hwaiting
      split_ifs at hwaiting <;> simp at hwaiting
    · cases hstep
  | exit context =>
    simp only [AsioIOServicePool.step, Option.ite_none_right_eq_some, Option.some.injEq] at hstep
    obtain ⟨⟨hguard, -, -⟩, rfl⟩ := hstep
    refine { h with guarded := fun other hexited => ?_ }
    by_cases hother : other = context
    · subst hother
      exact hguard
    · exact h.guarded other ((Function.update_of_ne hother _ _).symm.trans hexited)

theorem inv_of_reaches (hreach : Reaches pool host) : Inv host := by
  refine hreach.invariant (fun _ => True) (fun _ _ => trivial) ?_ fun _ _ _ _ h _ hstep => h.step hstep
  rintro _ rfl
  exact inv_initial

/-! ### The handlers run out -/

def leaveRank : LeavePos → Nat
  | .exchange => 3
  | .shutdown => 2
  | .clear => 1

def handlerRank : HandlerPos → Nat
  | .idle => 0
  | .inserting => 1
  | .leaving pos => leaveRank pos

def coroutineRank : CoroPos → Nat
  | .spawned => 2
  | .posting _ => 2
  | .loopTest => 1
  | .leaving pos => leaveRank pos
  | _ => 0

/-- The steps that the handlers of a session have before them. -/
def rank (conn : Conn) : Nat := handlerRank conn.handler + coroutineRank conn.coroutine

theorem leave_frame (conn : Conn) (pos : LeavePos) :
    (pos.step conn).1.handler = conn.handler ∧ (pos.step conn).1.coroutine = conn.coroutine := by
  cases pos with
  | exchange =>
    unfold LeavePos.step
    split_ifs <;> exact ⟨rfl, rfl⟩
  | shutdown | clear => exact ⟨rfl, rfl⟩

theorem leaveRank_next (conn : Conn) {pos next : LeavePos} (h : (pos.step conn).2 = some next) :
    leaveRank next < leaveRank pos := by
  cases pos with
  | exchange =>
    unfold LeavePos.step at h
    split_ifs at h <;> cases h <;> decide
  | shutdown =>
    cases h
    decide
  | clear => cases h

theorem leaveRank_pos (pos : LeavePos) : 0 < leaveRank pos := by
  cases pos <;> decide

theorem handle_rank {conn conn' : Conn} {pos : LeavePos} (hhandler : conn.handler = .leaving pos)
    (hstep : Lifecycle.step .handle conn = some conn') : rank conn' < rank conn := by
  simp only [Lifecycle.step, hhandler, Option.some.injEq] at hstep
  subst hstep
  have hcoroutine := (leave_frame conn pos).2
  unfold rank
  dsimp only
  rw [hcoroutine, hhandler]
  apply Nat.add_lt_add_right
  cases hnext : (pos.step conn).2 with
  | none => exact leaveRank_pos pos
  | some next => exact leaveRank_next conn hnext

theorem run_rank {conn conn' : Conn} (hhandler : conn.handler = .idle)
    (hstep : Lifecycle.step .run conn = some conn') : rank conn' < rank conn := by
  rw [show Lifecycle.step .run conn = runCoroutine conn from if_pos hhandler] at hstep
  cases hcoroutine : conn.coroutine with
  | notStarted | readHead | readBody | finished => simp [runCoroutine, hcoroutine] at hstep
  | spawned | posting =>
    simp only [runCoroutine, hcoroutine, Option.some.injEq] at hstep
    subst hstep
    simp [rank, hcoroutine, coroutineRank]
  | loopTest =>
    simp only [runCoroutine, hcoroutine, Option.some.injEq] at hstep
    subst hstep
    unfold rank
    dsimp only
    rw [hcoroutine]
    apply Nat.add_lt_add_left
    split_ifs <;> decide
  | leaving pos =>
    simp only [runCoroutine, hcoroutine, Option.some.injEq] at hstep
    subst hstep
    have hsame := (leave_frame conn pos).1
    unfold rank
    dsimp only
    rw [hsame, hcoroutine]
    apply Nat.add_lt_add_left
    cases hnext : (pos.step conn).2 with
    | none => exact leaveRank_pos pos
    | some next => exact leaveRank_next conn hnext

/-- A handler that is ready can take a step, and has fewer before it then. -/
theorem exists_step_of_ready {conn : Conn} (hready : ready conn = true) :
    ∃ act conn', (act = .insert ∨ act = .handle ∨ act = .run) ∧
      Lifecycle.step act conn = some conn' ∧ rank conn' < rank conn := by
  cases hhandler : conn.handler with
  | inserting =>
    refine ⟨.insert, _, .inl rfl, if_pos hhandler, ?_⟩
    simp [rank, hhandler, handlerRank]
  | leaving pos =>
    obtain ⟨conn', hstep⟩ : ∃ conn', Lifecycle.step .handle conn = some conn' :=
      Option.isSome_iff_exists.mp (by simp [Lifecycle.step, hhandler])
    exact ⟨.handle, conn', .inr (.inl rfl), hstep, handle_rank hhandler hstep⟩
  | idle =>
    have hsome : (runCoroutine conn).isSome = true := by
      cases hcoroutine : conn.coroutine with
      | notStarted | readHead | readBody | finished =>
        simp [ready, hhandler, hcoroutine, CoroPos.running] at hready
      | spawned | posting | loopTest | leaving => simp [runCoroutine, hcoroutine]
    obtain ⟨conn', hrun⟩ := Option.isSome_iff_exists.mp hsome
    have hstep : Lifecycle.step .run conn = some conn' := (if_pos hhandler).trans hrun
    exact ⟨.run, conn', .inr (.inr rfl), hstep, run_rank hhandler hstep⟩

variable (pool) in
/-- The steps of the handlers of one session, with the rest of the server standing still. -/
theorem drain_conn (session : Sid) (halive : host.exited (host.contextOf session) = false) :
    ∃ conn, ready conn = false ∧ ReachesFrom pool Local host (host.setConn session conn) := by
  induction hrank : rank (host.sessions session) using Nat.strong_induction_on generalizing host with
  | _ n ih =>
    cases hready : ready (host.sessions session) with
    | false =>
      refine ⟨host.sessions session, hready, .initial ?_⟩
      exact congrArg (fun sessions => { host with sessions }) (Function.update_eq_self _ _)
    | true =>
      obtain ⟨act, conn', hact, hstep, hlt⟩ := exists_step_of_ready hready
      have hnext : step pool (.conn session act) host = some (host.setConn session conn') := by
        rcases hact with rfl | rfl | rfl <;> simp [step, halive, hstep]
      have hlocal : Local (.conn session act) := by
        rcases hact with rfl | rfl | rfl <;> trivial
      have hconn : (host.setConn session conn').sessions session = conn' := Function.update_self _ _ _
      have halive' : (host.setConn session conn').exited
          ((host.setConn session conn').contextOf session) = false := halive
      obtain ⟨conn, hquiet, hreach⟩ := ih _ (hrank ▸ hlt) halive' (by rw [hconn])
      refine ⟨conn, hquiet, ?_⟩
      have hsame : (host.setConn session conn').setConn session conn = host.setConn session conn := by
        simp [Host.setConn]
      rw [hsame] at hreach
      exact hreach.after hlocal hnext

variable (pool) in
theorem drain (halive : ∀ context, host.exited context = false) (n : Nat) :
    ∃ sessions, (∀ session < n, ready (sessions session) = false) ∧
      ReachesFrom pool Local host { host with sessions } := by
  induction n with
  | zero => exact ⟨host.sessions, fun _ h => absurd h (Nat.not_lt_zero _), .initial rfl⟩
  | succ n ih =>
    obtain ⟨sessions, hquiet, hreach⟩ := ih
    have halive' : ({ host with sessions } : Host).exited (host.contextOf n) = false := halive _
    obtain ⟨conn, hconn, hlast⟩ := drain_conn pool n halive'
    refine ⟨Function.update sessions n conn, fun session hsession => ?_, hreach.trans hlast⟩
    by_cases hn : session = n
    · subst hn
      rw [Function.update_self]
      exact hconn
    · rw [Function.update_of_ne hn]
      exact hquiet session (by omega)

variable (pool) in
/-- `HandleAccept` always ends in `StartAccept`. -/
theorem rearm_rearming {session : Sid} (halive : ∀ context, host.exited context = false)
    (haccept : host.accept = .rearming session) :
    ∃ host', ReachesFrom pool Local host host' ∧ (∃ fresh, host'.accept = .pending fresh) ∧
      host'.stop = host.stop ∧ host'.exited = host.exited := by
  obtain ⟨conn, hconn, hreach⟩ := drain_conn pool session (halive (host.contextOf session))
  have hidle : conn.handler ≠ .inserting := by
    intro hinserting
    simp [ready, hinserting] at hconn
  have hhandler : ((host.setConn session conn).sessions session).handler ≠ .inserting := by
    rw [show (host.setConn session conn).sessions session = conn from Function.update_self _ _ _]
    exact hidle
  refine ⟨startAccept pool (host.setConn session conn), ?_, ⟨_, rfl⟩, rfl, rfl⟩
  have hrearming : (host.setConn session conn).accept = .rearming session := haccept
  have hstep : step pool .startAccept (host.setConn session conn)
      = some (startAccept pool (host.setConn session conn)) := by
    simp [step, hrearming, hhandler]
  have hlocal : Local .startAccept := trivial
  exact hreach.next hlocal hstep

variable (pool) in
theorem rearm (hinv : Inv host) (halive : ∀ context, host.exited context = false) :
    ∃ host', ReachesFrom pool Local host host' ∧ (∃ fresh, host'.accept = .pending fresh) ∧
      host'.stop = host.stop ∧ host'.exited = host.exited := by
  cases haccept : host.accept with
  | pending session => exact ⟨host, .initial rfl, ⟨session, haccept⟩, rfl, rfl⟩
  | rearming session => exact rearm_rearming pool halive haccept
  | completed session done =>
    have hfresh : host.sessions session = .initial := by
      apply (hinv.fresh session _).2
      rw [haccept]
      rfl
    obtain ⟨middle, hstep, hmiddle, hstop, hexited⟩ : ∃ middle,
        step pool .handleAccept host = some middle ∧ middle.accept = .rearming session ∧
        middle.stop = host.stop ∧ middle.exited = host.exited := by
      cases done with
      | true =>
        obtain ⟨conn, hstart⟩ : ∃ conn, Lifecycle.step .start .initial = some conn := ⟨_, rfl⟩
        refine ⟨{ host.setConn session conn with accept := .rearming session }, ?_, rfl, rfl, rfl⟩
        simp [step, haccept, halive, hfresh, hstart]
      | false =>
        refine ⟨{ host with accept := .rearming session }, ?_, rfl, rfl, rfl⟩
        simp [step, haccept, halive]
    have halive' : ∀ context, middle.exited context = false := by
      rw [hexited]
      exact halive
    obtain ⟨host', hreach, hpending, hstop', hexited'⟩ := rearm_rearming pool halive' hmiddle
    have hlocal : Local .handleAccept := trivial
    exact ⟨host', hreach.after hlocal hstep, hpending, hstop'.trans hstop, hexited'.trans hexited⟩

/-! ### Stop -/

variable (pool) in
/-- `Stop` resets its guards without waiting for anything. -/
theorem reset_guards {context : Nat} (hstop : host.stop = .resetting context) :
    ∃ guarded, ReachesFrom pool Local host { host with guarded, stop := .joining 0 } := by
  have hlocal : Local .resetGuard := trivial
  induction hleft : pool.size - context generalizing host context with
  | zero =>
    have hlast : ¬ context + 1 < pool.size := by omega
    have hstep : step pool .resetGuard host = some { host with
        guarded := Function.update host.guarded context false
        stop := .joining 0 } := by simp [step, hstop, hlast]
    exact ⟨_, .next (.initial rfl) hlocal hstep⟩
  | succ left ih =>
    by_cases hnext : context + 1 < pool.size
    · have hstep : step pool .resetGuard host = some { host with
          guarded := Function.update host.guarded context false
          stop := .resetting (context + 1) } := by simp [step, hstop, hnext]
      have hmiddle : ({ host with
        guarded := Function.update host.guarded context false
        stop := .resetting (context + 1) } : Host).stop = .resetting (context + 1) := rfl
      obtain ⟨guarded, hreach⟩ := ih hmiddle (by omega)
      exact ⟨guarded, hreach.after hlocal hstep⟩
    · have hstep : step pool .resetGuard host = some { host with
          guarded := Function.update host.guarded context false
          stop := .joining 0 } := by simp [step, hstop, hnext]
      exact ⟨_, .next (.initial rfl) hlocal hstep⟩

/-- `Stop` waits for a context without a handler to run, whose accept only a peer can complete. -/
structure Waits (host : Host) : Prop where
  blocked : Blocked host acceptorContext
  idle : ¬ Ready host acceptorContext
  outstanding : host.acceptOutstanding acceptorContext = true

/-- Whatever is open when `Stop` is called, the server can come to wait without anything else happening. -/
theorem stop_reaches_waits (hreach : Reaches pool host) (hstop : host.stop = .resetting 0) :
    ∃ later, ReachesFrom pool Local host later ∧ Waits later := by
  have hinv := inv_of_reaches hreach
  have halive : ∀ context, host.exited context = false := by
    intro context
    by_contra hexited
    have hguard := hinv.guarded context (by simpa using hexited)
    cases hguard.symm.trans (hinv.waiting (.inr hstop) context)
  obtain ⟨armed, harmed, ⟨fresh, hpending⟩, hstop', hexited⟩ := rearm pool hinv halive
  obtain ⟨sessions, hquiet, hdrained⟩ := drain pool
    (show ∀ context, armed.exited context = false from fun context => hexited ▸ halive context)
    armed.created
  obtain ⟨guarded, hreset⟩ := reset_guards pool
    (show ({ armed with sessions } : Host).stop = .resetting 0 from hstop'.trans hstop)
  refine ⟨_, (harmed.trans hdrained).trans hreset, ⟨rfl, ?_⟩, ?_, ?_⟩
  · exact (congrFun hexited acceptorContext).trans (halive acceptorContext)
  · rintro (haccept | ⟨session, hsession, -, hready⟩)
    · simp [Host.acceptReady, hpending] at haccept
    · cases (hquiet session hsession).symm.trans hready
  · simp [Host.acceptOutstanding, hpending]

/-- From here on `Stop` never waits for a context that only a remote peer can move, and no handler arms an
accept behind the last guard. -/
def ShutsDown (pool : PoolSize) (host : Host) : Prop :=
  ∀ later, ReachesFrom pool (fun _ => True) host later →
    (∀ context, Blocked later context → Ready later context ∨ ¬ Outstanding later context) ∧
    ((∀ context < pool.size, later.guarded context = false) → step pool .startAccept later = none)

theorem Waits.not_fine (h : Waits host) :
    ¬ ∀ context, Blocked host context → Ready host context ∨ ¬ Outstanding host context := by
  intro hfine
  rcases hfine acceptorContext h.blocked with hready | hnone
  · exact h.idle hready
  · exact hnone (.inl h.outstanding)

/-- **Shutdown waits for the outside world**: in no run does the server shut down by itself. Whatever has
happened before the signal handler calls `Stop`, and whatever connections are open, a state can be reached
in which `Stop` waits for a peer. -/
theorem stop_waits_for_peer (hreach : Reaches pool host) (hstop : host.stop = .resetting 0) :
    ¬ ShutsDown pool host := by
  obtain ⟨later, hlater, hwaits⟩ := stop_reaches_waits hreach hstop
  intro hshuts
  have hfree : ReachesFrom pool (fun _ => True) host later :=
    hlater.mono (fun _ h => h) fun _ _ _ => trivial
  exact hwaits.not_fine (hshuts later hfree).1

def twoContexts : PoolSize := ⟨2, by decide⟩

/-- A client has connected, and the server waits for its first message when the signal comes. -/
def connectedRun : List Label :=
  [.acceptDone true, .handleAccept, .conn 0 .insert, .startAccept, .conn 0 .run, .conn 0 .run, .stop]

theorem stop_waits_for_peer_connected :
    ¬ ShutsDown twoContexts
      (Reach.after (step twoContexts) connectedRun (.initial twoContexts)) := by
  have hreach : Reaches twoContexts
      (Reach.after (step twoContexts) connectedRun (.initial twoContexts)) :=
    .of_enabled rfl (by decide)
  exact stop_waits_for_peer hreach (by decide)

/-- The signal comes before any client does: `Stop` resets the two guards and waits for an accept. -/
theorem idle_server_waits : ¬ ∀ pool host, Reaches pool host → host.stop = .resetting 0 →
    ShutsDown pool host := by
  intro h
  have hstop : step twoContexts .stop (.initial twoContexts)
      = some (Reach.after (step twoContexts) [.stop] (.initial twoContexts)) := rfl
  have hcalled : Reaches twoContexts
      (Reach.after (step twoContexts) [.stop] (.initial twoContexts)) :=
    .next (.initial rfl) trivial hstop
  have hmeets : Reach.meets (step twoContexts) (fun _ _ => true) [.resetGuard, .resetGuard]
      (Reach.after (step twoContexts) [.stop] (.initial twoContexts)) = true := by decide
  have hfine := (h twoContexts _ hcalled (by decide) _ (.of_enabled rfl hmeets)).1
  rcases hfine acceptorContext (by decide) with hready | hnone
  · exact absurd hready (by decide)
  · exact hnone (by decide)

/-! ### For as long as nobody connects -/

/-- `Stop` waits for the thread of the acceptor, and the accept is armed. -/
structure Stuck (host : Host) : Prop where
  blocked : Blocked host acceptorContext
  armed : ∃ session, host.accept = .pending session

theorem Stuck.step (h : Stuck host) (hlabel : ∀ done, label ≠ .acceptDone done)
    (hstep : step pool label host = some host') : Stuck host' := by
  obtain ⟨⟨hstop, hexited⟩, session, haccept⟩ := h
  cases label with
  | acceptDone done => exact absurd rfl (hlabel done)
  | handleAccept | startAccept | resetGuard | stop =>
    simp [AsioIOServicePool.step, haccept, hstop] at hstep
  | join => simp [AsioIOServicePool.step, hstop, hexited] at hstep
  | conn other act =>
    obtain ⟨-, conn, -, rfl⟩ := conn_cases hstep
    exact ⟨⟨hstop, hexited⟩, session, haccept⟩
  | exit context =>
    simp only [AsioIOServicePool.step, Option.ite_none_right_eq_some, Option.some.injEq] at hstep
    obtain ⟨⟨-, -, hnone⟩, rfl⟩ := hstep
    have hne : acceptorContext ≠ context := by
      rintro rfl
      exact hnone (.inl (by simp [Host.acceptOutstanding, haccept]))
    exact ⟨⟨hstop, (Function.update_of_ne hne _ _).trans hexited⟩, session, haccept⟩

/-- Until the next client connects the signal handler stays in its first `join`. -/
theorem stuck_of_no_accept {later : Host} (h : Stuck host)
    (hlater : ReachesFrom pool (fun label => ∀ done, label ≠ .acceptDone done) host later) :
    Stuck later := by
  induction hlater with
  | initial hsame =>
    rw [hsame]
    exact h
  | next _ hlabel hstep ih => exact ih.step hlabel hstep

end AsioIOServicePool

end CoroutineServer
