import CoroutineServer.Proof.Transactions

/-!
# One close of a session at a time

The exchange of the stop flag lets one caller of `Close` pass, on whatever thread it is, so the socket is
closed and the login uid taken by one thread only.
-/

namespace CoroutineServer

open Program CSession

variable {platform : Platform} {node : LogicNode} {state state' : State}

/-- An IO thread is past the exchange in a `Close` of the session. -/
def IoCloses (state : State) (session : Sid) (thread : Nat) : Prop :=
  ∃ pos, state.closers thread = some (session, pos) ∧ pos ≠ .exchange

/-- The worker is past the exchange in a `Close` of the session: it has not taken the login uid yet, or not
removed the entry of the uid it has taken. -/
def WorkerCloses (state : State) (session : Sid) : Prop :=
  ∃ before, state.world.trace = ⟨.casStop session, true⟩ :: before ∨
    ∃ uid : Int, uid ≠ 0 ∧
      state.world.trace = ⟨.takeLoginUid session, uid⟩ :: ⟨.casStop session, true⟩ :: before

structure OneCloser (state : State) : Prop where
  stopped : ∀ session, WorkerCloses state session → state.world.stopped session = true
  worker : ∀ session, WorkerCloses state session → ∀ thread, ¬IoCloses state session thread
  io : ∀ session thread other, IoCloses state session thread → IoCloses state session other →
    thread = other

theorem exchanged_of_casStop (platform : Platform) (input : Input) (world : World) (session : Sid)
    (h : (perform platform input (.casStop session) world).1 = true) : world.stopped session = false := by
  unfold World.stopped
  simpa [perform] using h

namespace OneCloser

theorem quiet (h : OneCloser state) (hquiet : Quiet state state') : OneCloser state' := by
  have hworker : ∀ {session}, WorkerCloses state' session → WorkerCloses state session := by
    rintro session ⟨before, hbefore⟩
    rw [hquiet.trace] at hbefore
    exact ⟨before, hbefore⟩
  have hio : ∀ {session thread}, IoCloses state' session thread → IoCloses state session thread := by
    rintro session thread ⟨pos, hcloser, hpos⟩
    exact ⟨pos, hquiet.called thread session pos hcloser hpos, hpos⟩
  refine ⟨fun session hcloses => ?_, fun session hcloses thread hthread => ?_, ?_⟩
  · rw [hquiet.stopped]
    exact h.stopped session (hworker hcloses)
  · exact h.worker session (hworker hcloses) thread (hio hthread)
  · exact fun session thread other hthread hother => h.io session thread other (hio hthread) (hio hother)

/-- The worker gets past the exchange when nobody else is, and takes the uid of the session it has stopped. -/
theorem work {input : Input} {op : Op} {next : op.Ret → Handler Unit} (h : OneCloser state)
    (hground : Grounded platform state) (hwarrant : Warrants platform node state.world.trace op) :
    OneCloser (workStep platform input op next state) := by
  have hcases : ∀ session, WorkerCloses (workStep platform input op next state) session →
      (op = .casStop session ∧ state.world.stopped session = false) ∨ WorkerCloses state session := by
    rintro session ⟨before, hbefore⟩
    rw [trace_workStep] at hbefore
    rcases hbefore with hcas | ⟨uid, -, htake⟩
    · obtain ⟨hcall, -⟩ := List.cons.inj hcas
      obtain ⟨rfl, hresult⟩ := Sigma.mk.inj hcall
      exact .inl ⟨rfl, exchanged_of_casStop platform input state.world session (eq_of_heq hresult)⟩
    · obtain ⟨-, hrest⟩ := List.cons.inj htake
      exact .inr ⟨before, .inl hrest⟩
  refine ⟨fun session hcloses => ?_, fun session hcloses thread hthread => ?_, h.io⟩
  · rcases hcases session hcloses with ⟨rfl, -⟩ | hcloses
    · exact stopped_casStop platform input state.world session
    · exact stopped_perform_mono platform input op state.world (h.stopped session hcloses)
  · rcases hcases session hcloses with ⟨-, hopen⟩ | hcloses
    · obtain ⟨pos, hcloser, hpos⟩ := hthread
      cases hopen.symm.trans (hground.closing thread session pos hcloser hpos)
    · exact h.worker session hcloses thread hthread

end OneCloser

end CoroutineServer
