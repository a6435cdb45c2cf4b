import CoroutineServer.Statics
import CoroutineServer.Scenario

/-!
# Handlers on destroyed singletons

`LogicSystem` is constructed before its handlers can use the other two, so it is destroyed last, and its
worker is still at work when they go. A handler is safe only if it does not call what has gone.
-/

namespace CoroutineServer

open Program CSession

namespace Statics

variable {platform : Platform} {process process' : Process} {label : Label}
  {ok : Label → Process → Prop} {single : Singleton}

/-- Neither the handler that runs nor one of a queued message calls a singleton. -/
structure Clear (platform : Platform) (single : Singleton) (state : State) : Prop where
  worker : ∀ handler, state.worker = some handler → ¬ MayCall single handler
  queued : ∀ node ∈ state.msgQue, ∀ handler, LogicSystem.callback platform node = some handler →
    ¬ MayCall single handler

/-- A singleton is only destroyed when the work that is left does not call it. -/
def Spared (platform : Platform) (label : Label) (process : Process) : Prop :=
  label = .destroy → ∀ single, process.built.head? = some single → single ≠ .logicSystem →
    Clear platform single process.server

/-- The work that is left behind `main` only gets less. -/
theorem Clear.step {state state' : State} {label : CoroutineServer.Label}
    (h : Clear platform single state) (hlabel : afterMain label = true)
    (hstep : CoroutineServer.step platform label state = some state') :
    Clear platform single state' := by
  cases label with
  | accept | post | written => cases hlabel
  | dispatch =>
    simp only [CoroutineServer.step] at hstep
    split at hstep
    · next node rest _ hque =>
      obtain rfl := Option.some.inj hstep
      exact ⟨h.queued node (hque ▸ List.mem_cons_self),
        fun other hother => h.queued other (hque ▸ List.mem_cons_of_mem _ hother)⟩
    · cases hstep
  | work input =>
    simp only [CoroutineServer.step] at hstep
    split at hstep
    · next op next hworker =>
      obtain rfl := Option.some.inj hstep
      refine ⟨fun handler hhandler hcall => ?_, h.queued⟩
      obtain rfl := Option.some.inj hhandler
      exact h.worker _ hworker (.inr ⟨_, hcall⟩)
    · cases hstep
  | finish =>
    simp only [CoroutineServer.step] at hstep
    split at hstep
    · obtain rfl := Option.some.inj hstep
      refine ⟨fun handler hhandler => ?_, h.queued⟩
      cases hhandler
    · obtain rfl := Option.some.inj hstep
      refine ⟨fun handler hhandler => ?_, h.queued⟩
      cases hhandler
    · cases hstep
  | closeCall thread session =>
    simp only [CoroutineServer.step, Option.ite_none_right_eq_some, Option.some.injEq] at hstep
    obtain ⟨-, rfl⟩ := hstep
    exact ⟨h.worker, h.queued⟩
  | io thread =>
    simp only [CoroutineServer.step] at hstep
    split at hstep
    · obtain rfl := Option.some.inj hstep
      exact ⟨h.worker, h.queued⟩
    · cases hstep
  | expire session =>
    simp only [CoroutineServer.step, Option.ite_none_right_eq_some, Option.some.injEq] at hstep
    obtain ⟨-, rfl⟩ := hstep
    exact ⟨h.worker, h.queued⟩

theorem use_frame (process : Process) (used : Option Singleton) :
    (process.use used).destroyed = process.destroyed ∧ (process.use used).phase = process.phase := by
  cases used with
  | none => exact ⟨rfl, rfl⟩
  | some single =>
    unfold Process.use Process.getInstance
    dsimp only
    split_ifs <;> exact ⟨rfl, rfl⟩

/-- What has been destroyed is not called by the work that is left. -/
structure Safe (platform : Platform) (process : Process) : Prop where
  clear : ∀ single ∈ process.destroyed, single ≠ .logicSystem → Clear platform single process.server
  running : process.phase = .running → process.destroyed = []

theorem Safe.step (h : Safe platform process) (hok : Spared platform label process)
    (hstep : step platform label process = some process') : Safe platform process' := by
  cases label with
  | server label =>
    simp only [Statics.step, Option.ite_none_left_eq_some, Option.map_eq_some_iff] at hstep
    obtain ⟨hlabel, server, hserver, rfl⟩ := hstep
    obtain ⟨hdestroyed, hphase⟩ := use_frame process (usedBy process.server label)
    refine ⟨fun single hsingle hne => ?_, fun hrunning => ?_⟩
    · dsimp only at hsingle
      rw [hdestroyed] at hsingle
      have hexiting : process.phase ≠ .running := by
        intro hrunning
        rw [h.running hrunning] at hsingle
        cases hsingle
      have hafter : afterMain label = true := by
        by_contra hnot
        exact hlabel ⟨hexiting, by simpa using hnot⟩
      exact (h.clear single hsingle hne).step hafter hserver
    · dsimp only at hrunning ⊢
      rw [hdestroyed, h.running (hphase.symm.trans hrunning)]
  | mainReturns =>
    simp only [Statics.step, Option.ite_none_right_eq_some, Option.some.injEq] at hstep
    obtain ⟨-, rfl⟩ := hstep
    refine ⟨h.clear, fun hrunning => ?_⟩
    cases hrunning
  | destroy =>
    simp only [Statics.step, Option.ite_none_right_eq_some] at hstep
    obtain ⟨hexiting, hstep⟩ := hstep
    split at hstep
    · cases hstep
    · obtain rfl := Option.some.inj hstep
      refine ⟨h.clear, fun hrunning => ?_⟩
      cases hrunning
    · next single rest hne hbuilt =>
      obtain rfl := Option.some.inj hstep
      refine ⟨fun other hother hlogic => ?_, fun hrunning => ?_⟩
      · rcases List.mem_cons.mp hother with rfl | hother
        · exact hok rfl other (by rw [hbuilt]; rfl) hlogic
        · exact h.clear other hother hlogic
      · cases hexiting.symm.trans hrunning
  | join =>
    simp only [Statics.step, Option.ite_none_right_eq_some, Option.some.injEq] at hstep
    obtain ⟨-, rfl⟩ := hstep
    refine ⟨fun other hother hlogic => ?_, fun hrunning => ?_⟩
    · exact h.clear other ((List.mem_cons.mp hother).resolve_left hlogic) hlogic
    · cases hrunning

theorem singleton_ne_logicSystem (op : Op) : singleton op ≠ some .logicSystem := by
  cases op <;> exact nofun

/-- **No handler runs on a destroyed singleton** in a run that destroys one only when neither the running
handler nor the queued messages can still call it. -/
theorem calls_alive (hreach : Reaches platform (Spared platform) process) : CallsAlive process := by
  have hsafe : Safe platform process := by
    refine hreach.invariant (fun _ => True) (fun _ _ => trivial) ?_
      fun _ _ _ _ h hok hstep => h.step hok hstep
    rintro _ ⟨db, -, rfl⟩
    exact ⟨nofun, fun _ => rfl⟩
  intro op next single hworker hop hdestroyed
  have hlogic : single ≠ .logicSystem := by
    rintro rfl
    exact singleton_ne_logicSystem op hop
  exact (hsafe.clear single hdestroyed hlogic).worker _ hworker (.inl hop)

/-! ### Two ways to leave main -/

/-- Dan registers, and his message is served to the end. -/
def registration : List Label :=
  [.server (.accept 0), .server (.post ⟨0, MSG_REGISTER_REQ, render (credentials "dan")⟩),
    .server .dispatch] ++ (serving 3).map .server

/-- Nothing is left to do when `main` returns. -/
def quietExit : List Label := registration ++ [.mainReturns, .destroy, .destroy, .join]

/-- A second message waits when `main` returns, and is served by the draining worker. -/
def busyExit : List Label :=
  registration ++ [.server (.post ⟨0, MSG_REGISTER_REQ, render (credentials "dan")⟩), .mainReturns,
    .destroy, .destroy, .server .dispatch]

/-- Nothing runs and nothing is queued. -/
def atRest (process : Process) : Bool :=
  process.server.worker.isNone && process.server.msgQue.isEmpty

theorem clear_of_atRest (h : atRest process = true) : Clear platform single process.server := by
  obtain ⟨hworker, hque⟩ : process.server.worker = none ∧ process.server.msgQue = [] := by
    simpa [atRest] using h
  refine ⟨fun handler hhandler => ?_, fun node hnode => ?_⟩
  · cases hworker.symm.trans hhandler
  · rw [hque] at hnode
    cases hnode

def restsAtDestroy : Label → Process → Bool
  | .destroy, process => atRest process
  | _, _ => true

theorem calls_alive_quiet :
    CallsAlive (Reach.after (step reference) quietExit (.initial quietDb)) := by
  have hmeets : Reach.meets (step reference) restsAtDestroy quietExit (.initial quietDb) = true := by
    decide +kernel
  have hok : ∀ label ∈ quietExit, ∀ process, Reaches reference (Spared reference) process →
      restsAtDestroy label process = true → Spared reference label process := by
    rintro label - process - htest rfl single - -
    exact clear_of_atRest htest
  exact calls_alive (.of_meets ⟨quietDb, quietDb_wellFormed, rfl⟩ hok hmeets)

theorem call_of_usedBy {state : State} {input : Input} (h : usedBy state (.work input) = some single) :
    ∃ op next, state.worker = some (.perform op next) ∧ singleton op = some single := by
  simp only [usedBy] at h
  split at h
  · next op next hworker => exact ⟨op, next, hworker, h⟩
  · cases h

theorem busy_exit_calls_destroyed :
    ¬ ∀ process, Reaches reference (fun _ _ => True) process → CallsAlive process := by
  intro h
  have hreach : Reaches reference (fun _ _ => True)
      (Reach.after (step reference) busyExit (.initial quietDb)) :=
    .of_enabled ⟨quietDb, quietDb_wellFormed, rfl⟩ (by decide +kernel)
  have hused : usedBy (Reach.after (step reference) busyExit (.initial quietDb)).server
      (.work .idle) = some .dbManager := by decide +kernel
  have hdestroyed : .dbManager ∈ (Reach.after (step reference) busyExit
      (.initial quietDb)).destroyed := by decide +kernel
  obtain ⟨op, next, hworker, hop⟩ := call_of_usedBy hused
  exact h _ hreach op next _ hworker hop hdestroyed

/-! ### The order of construction -/

/-- Nobody has logged in, and the worker has had nothing to do. -/
structure Untouched (state : State) : Prop where
  worker : state.worker = none
  msgQue : state.msgQue = []
  loginUid : ∀ session, (state.world.sessions session).loginUid = 0
  closers : ∀ thread session uid, state.closers thread ≠ some (session, .remove uid)

theorem untouched_initial (db : Db) : Untouched (.initial db) :=
  ⟨rfl, rfl, fun _ => rfl, fun _ _ _ => nofun⟩

theorem Untouched.usedBy {state : State} {label : CoroutineServer.Label} (h : Untouched state)
    (hlabel : ∀ node, label ≠ .post node) : usedBy state label = none := by
  cases label with
  | post node => exact absurd rfl (hlabel node)
  | work input => simp [Statics.usedBy, h.worker]
  | io thread =>
    cases hcloser : state.closers thread with
    | none => simp [Statics.usedBy, hcloser]
    | some closer =>
      obtain ⟨session, pos⟩ := closer
      cases pos with
      | exchange | take => simp [Statics.usedBy, hcloser, ClosePos.op, singleton]
      | remove uid => exact absurd hcloser (h.closers thread session uid)
  | accept | dispatch | finish | closeCall | written | expire => rfl

/-- A `Close` that finds nobody logged in does not get to the online users. -/
theorem Untouched.ioStep {state : State} {thread : Nat} {session : Sid} {pos : ClosePos}
    (h : Untouched state) (hcloser : state.closers thread = some (session, pos)) :
    Untouched (ioStep platform thread session pos state) := by
  have hclosers : ∀ next : Option (Sid × ClosePos), (∀ target uid, next ≠ some (target, .remove uid)) →
      ∀ other target uid, Function.update state.closers thread next other ≠ some (target, .remove uid) := by
    intro next hnext other target uid
    by_cases hother : other = thread
    · subst hother
      rw [Function.update_self]
      exact hnext target uid
    · rw [Function.update_of_ne hother]
      exact h.closers other target uid
  cases pos with
  | exchange =>
    refine ⟨h.worker, h.msgQue, fun other => ?_, hclosers _ ?_⟩
    · simp only [CoroutineServer.ioStep, ClosePos.op, perform, World.sessions_updateSession]
      split_ifs <;> exact h.loginUid _
    · intro target uid
      simp only [ClosePos.op, ClosePos.next, perform]
      split_ifs <;> simp
  | take =>
    refine ⟨h.worker, h.msgQue, fun other => ?_, hclosers _ ?_⟩
    · simp only [CoroutineServer.ioStep, ClosePos.op, perform, World.sessions_updateSession]
      split_ifs
      · rfl
      · exact h.loginUid other
    · intro target uid
      simp [ClosePos.op, ClosePos.next, perform, h.loginUid]
  | remove uid => exact absurd hcloser (h.closers thread session uid)

theorem Untouched.step {state state' : State} {label : CoroutineServer.Label} (h : Untouched state)
    (hlabel : ∀ node, label ≠ .post node)
    (hstep : CoroutineServer.step platform label state = some state') : Untouched state' := by
  have hupdate : ∀ session (change : Session → Session), (∀ s, (change s).loginUid = s.loginUid) →
      Untouched { state with world := state.world.updateSession session change } := by
    refine fun session change hchange => ⟨h.worker, h.msgQue, fun other => ?_, h.closers⟩
    dsimp only
    rw [World.sessions_updateSession]
    split_ifs with hother
    · exact (hchange _).trans (h.loginUid _)
    · exact h.loginUid other
  cases label with
  | post node => exact absurd rfl (hlabel node)
  | dispatch => simp [CoroutineServer.step, h.msgQue] at hstep
  | work | finish => simp [CoroutineServer.step, h.worker] at hstep
  | accept session =>
    simp only [CoroutineServer.step, Option.ite_none_left_eq_some, Option.some.injEq] at hstep
    obtain ⟨-, rfl⟩ := hstep
    exact hupdate session _ fun _ => rfl
  | closeCall thread session =>
    simp only [CoroutineServer.step, Option.ite_none_right_eq_some, Option.some.injEq] at hstep
    obtain ⟨-, rfl⟩ := hstep
    refine ⟨h.worker, h.msgQue, h.loginUid, fun other target uid => ?_⟩
    by_cases hother : other = thread
    · subst hother
      simp
    · simp [Function.update_of_ne hother, h.closers]
  | written session =>
    simp only [CoroutineServer.step] at hstep
    split at hstep
    · cases hstep
    · obtain rfl := Option.some.inj hstep
      exact hupdate session _ fun _ => rfl
  | expire session =>
    simp only [CoroutineServer.step, Option.ite_none_right_eq_some, Option.some.injEq] at hstep
    obtain ⟨-, rfl⟩ := hstep
    exact hupdate session _ fun _ => rfl
  | io thread =>
    simp only [CoroutineServer.step] at hstep
    split at hstep
    · next session pos hcloser =>
      obtain rfl := Option.some.inj hstep
      exact h.ioStep hcloser
    · cases hstep

/-- Until `main` returns, all that has been constructed lies above `LogicSystem`. -/
structure Founded (process : Process) : Prop where
  destroyed : process.destroyed = []
  built : (process.built = [] ∧ Untouched process.server) ∨
    ∃ above, process.built = above ++ [.logicSystem]

theorem getInstance_built (process : Process) (single : Singleton) :
    (process.getInstance single).built = process.built ∨
      (process.getInstance single).built = single :: process.built := by
  unfold Process.getInstance
  split_ifs
  · exact .inl rfl
  · exact .inr rfl

theorem Founded.server {label : CoroutineServer.Label} {server : State} (h : Founded process)
    (hserver : CoroutineServer.step platform label process.server = some server) :
    Founded { process.use (usedBy process.server label) with server } := by
  refine ⟨(use_frame process _).1.trans h.destroyed, ?_⟩
  rcases h.built with ⟨hnone, huntouched⟩ | ⟨above, habove⟩
  · by_cases hpost : ∃ node, label = .post node
    · -- the first message constructs `LogicSystem`
      obtain ⟨node, rfl⟩ := hpost
      refine .inr ⟨[], ?_⟩
      simp [usedBy, Process.use, Process.getInstance, hnone, h.destroyed]
    · have hlabel : ∀ node, label ≠ .post node := fun node heq => hpost ⟨node, heq⟩
      left
      dsimp only
      rw [huntouched.usedBy hlabel]
      exact ⟨hnone, huntouched.step hlabel hserver⟩
  · right
    cases hused : usedBy process.server label with
    | none => exact ⟨above, habove⟩
    | some single =>
      rcases getInstance_built process single with hsame | hnew
      · exact ⟨above, hsame.trans habove⟩
      · refine ⟨single :: above, hnew.trans ?_⟩
        rw [habove, List.cons_append]

/-- **The order of construction.** In every run `LogicSystem` is the first of the three to be constructed,
and so its destructor is the last to run: the worker goes on behind the others. -/
theorem logicSystem_first (hreach : Reaches platform ok process) (hrunning : process.phase = .running) :
    process.built = [] ∨ ∃ above, process.built = above ++ [.logicSystem] := by
  have hfounded : process.phase = .running → Founded process := by
    clear hrunning
    induction hreach with
    | initial h =>
      obtain ⟨db, -, rfl⟩ := h
      exact fun _ => ⟨rfl, .inl ⟨rfl, untouched_initial db⟩⟩
    | @next process process' label _ _ hstep ih =>
      intro hrunning
      cases label with
      | server label =>
        simp only [Statics.step, Option.ite_none_left_eq_some, Option.map_eq_some_iff] at hstep
        obtain ⟨-, server, hserver, rfl⟩ := hstep
        exact (ih ((use_frame process _).2.symm.trans hrunning)).server hserver
      | mainReturns =>
        simp only [Statics.step, Option.ite_none_right_eq_some, Option.some.injEq] at hstep
        obtain ⟨-, rfl⟩ := hstep
        cases hrunning
      | destroy =>
        simp only [Statics.step, Option.ite_none_right_eq_some] at hstep
        obtain ⟨hexiting, hstep⟩ := hstep
        split at hstep
        · cases hstep
        · obtain rfl := Option.some.inj hstep
          cases hrunning
        · obtain rfl := Option.some.inj hstep
          cases hexiting.symm.trans hrunning
      | join =>
        simp only [Statics.step, Option.ite_none_right_eq_some, Option.some.injEq] at hstep
        obtain ⟨-, rfl⟩ := hstep
        cases hrunning
  exact (hfounded hrunning).built.imp_left And.left

end Statics

end CoroutineServer
