import CoroutineServer.Lifecycle

/-!
# Finished sessions are unregistered

Every way out of the read loop but one ends with `ClearSession`. The loop condition is the exception:
when the worker has closed the session while its coroutine was not suspended in a read, the coroutine
just returns, and unless a write is outstanding whose error clears the session, nothing does.
-/

namespace CoroutineServer

namespace Lifecycle

variable {conn conn' : Conn} {act : Act}

/-- A session whose coroutine has finished, with no write outstanding, is not in the session map. -/
def Clean (conn : Conn) : Prop :=
  conn.coroutine = .finished → conn.outstanding = false → conn.registered = false

/-- The condition on a step: the loop condition does not find a registered session stopped, unless a
write is outstanding; and the last write outstanding does not succeed after that. -/
def Settled : Act → Conn → Prop
  | .run, conn => conn.coroutine = .loopTest → conn.bStop = true → conn.registered = true →
      conn.outstanding = true
  | .writeDone true, conn => conn.sendQue ≤ 1 → conn.coroutine = .finished → conn.registered = false
  | _, _ => True

/-- The invariant. -/
structure Inv (conn : Conn) : Prop where
  clean : conn.coroutine = .finished → conn.outstanding = true ∨ conn.registered = false
  inserting : conn.handler = .inserting → conn.coroutine = .spawned

theorem Inv.isClean (h : Inv conn) : Clean conn := by
  intro hfinished houtstanding
  apply (h.clean hfinished).resolve_left
  intro hwriting
  rw [houtstanding] at hwriting
  cases hwriting

/-! ### One step -/

/-- A step on the way out keeps all but the stop flag and the key, and the last one is
`ClearSession`. -/
theorem leave_cases {pos : LeavePos} {left : Conn} {next : Option LeavePos}
    (h : pos.step conn = (left, next)) :
    (∃ bStop registered, left = { conn with bStop, registered } ∧
      (registered = true → conn.registered = true)) ∧ (next = none → left.registered = false) := by
  cases pos with
  | exchange =>
    unfold LeavePos.step at h
    split_ifs at h
    · obtain ⟨rfl, rfl⟩ := Prod.mk.inj h
      exact ⟨⟨conn.bStop, conn.registered, rfl, id⟩, fun hnone => (by cases hnone)⟩
    · obtain ⟨rfl, rfl⟩ := Prod.mk.inj h
      exact ⟨⟨true, conn.registered, rfl, id⟩, fun hnone => (by cases hnone)⟩
  | shutdown =>
    obtain ⟨rfl, rfl⟩ := Prod.mk.inj h
    exact ⟨⟨conn.bStop, conn.registered, rfl, id⟩, fun hnone => (by cases hnone)⟩
  | clear =>
    obtain ⟨rfl, rfl⟩ := Prod.mk.inj h
    exact ⟨⟨conn.bStop, false, rfl, Bool.false_ne_true.elim⟩, fun _ => rfl⟩

theorem afterHead_ne (data : Option Bytes) : afterHead data ≠ .finished := by
  unfold afterHead
  split
  · exact fun h => (by cases h)
  · split_ifs
    · exact fun h => (by cases h)
    · split <;> exact fun h => (by cases h)

theorem afterBody_ne (node : RecvNode) (data : Option Bytes) : afterBody node data ≠ .finished := by
  unfold afterBody
  split
  · exact fun h => (by cases h)
  · split_ifs <;> exact fun h => (by cases h)

theorem inv_runCoroutine (hidle : conn.handler = .idle) (hok : Settled .run conn)
    (hstep : runCoroutine conn = some conn') : Inv conn' := by
  unfold runCoroutine at hstep
  split at hstep
  · obtain rfl := Option.some.inj hstep
    exact ⟨fun hfinished => (by cases hfinished), fun hinserting => (by cases hidle.symm.trans hinserting)⟩
  · next hloop =>
    obtain rfl := Option.some.inj hstep
    refine ⟨fun hfinished => ?_, fun hinserting => (by cases hidle.symm.trans hinserting)⟩
    dsimp only at hfinished
    split_ifs at hfinished with hstop
    by_cases hregistered : conn.registered = true
    · exact .inl (hok hloop hstop hregistered)
    · exact .inr (Bool.eq_false_iff.mpr hregistered)
  · obtain rfl := Option.some.inj hstep
    exact ⟨fun hfinished => (by cases hfinished), fun hinserting => (by cases hidle.symm.trans hinserting)⟩
  · next pos hleaving =>
    cases hleft : pos.step conn with
    | mk left next =>
      rw [hleft] at hstep
      obtain rfl := Option.some.inj hstep
      obtain ⟨⟨bStop, registered, rfl, -⟩, hcleared⟩ := leave_cases hleft
      refine ⟨fun hfinished => ?_, fun hinserting => (by cases hidle.symm.trans hinserting)⟩
      cases next with
      | none => exact .inr (hcleared rfl)
      | some next => cases hfinished
  · cases hstep

theorem inv_popWritten (h : Inv conn) (hok : Settled (.writeDone true) conn)
    (hwriting : conn.writing = true) : Inv (popWritten conn) := by
  unfold popWritten
  split
  · refine ⟨fun _ => .inl ?_, h.inserting⟩
    unfold Conn.outstanding
    dsimp only
    rw [hwriting, Bool.true_or]
  · next hlast =>
    refine ⟨fun hfinished => .inr (hok ?_ hfinished), h.inserting⟩
    exact Nat.not_lt.mp fun hlt => hlast (conn.sendQue - 2) (by omega)

theorem Inv.step (h : Inv conn) (hok : Settled act conn) (hstep : step act conn = some conn') :
    Inv conn' := by
  cases act with
  | start =>
    simp only [Lifecycle.step, Option.ite_none_right_eq_some, Option.some.injEq] at hstep
    obtain ⟨-, rfl⟩ := hstep
    exact ⟨fun hfinished => (by cases hfinished), fun _ => rfl⟩
  | insert =>
    simp only [Lifecycle.step, Option.ite_none_right_eq_some, Option.some.injEq] at hstep
    obtain ⟨hinserting, rfl⟩ := hstep
    refine ⟨fun hfinished => ?_, fun hidle => (by cases hidle)⟩
    cases (h.inserting hinserting).symm.trans hfinished
  | run =>
    simp only [Lifecycle.step, Option.ite_none_right_eq_some] at hstep
    exact inv_runCoroutine hstep.1 hok hstep.2
  | readDone data =>
    simp only [Lifecycle.step, Option.ite_none_right_eq_some] at hstep
    obtain ⟨hidle, hstep⟩ := hstep
    split at hstep
    · obtain rfl := Option.some.inj hstep
      exact ⟨fun hfinished => absurd hfinished (afterHead_ne data),
        fun hinserting => (by cases hidle.symm.trans hinserting)⟩
    · obtain rfl := Option.some.inj hstep
      exact ⟨fun hfinished => absurd hfinished (afterBody_ne _ data),
        fun hinserting => (by cases hidle.symm.trans hinserting)⟩
    · cases hstep
  | throw =>
    simp only [Lifecycle.step] at hstep
    split at hstep
    · next node hposting =>
      obtain rfl := Option.some.inj hstep
      refine ⟨fun hfinished => (by cases hfinished), fun hinserting => ?_⟩
      cases hposting.symm.trans (h.inserting hinserting)
    · cases hstep
  | push =>
    simp only [Lifecycle.step, Option.ite_none_right_eq_some, Option.some.injEq] at hstep
    obtain ⟨-, rfl⟩ := hstep
    exact ⟨h.clean, h.inserting⟩
  | startWrite =>
    simp only [Lifecycle.step, Option.ite_none_right_eq_some, Option.some.injEq] at hstep
    obtain ⟨-, rfl⟩ := hstep
    exact ⟨fun _ => .inl rfl, h.inserting⟩
  | writeDone ok =>
    simp only [Lifecycle.step, Option.ite_none_right_eq_some] at hstep
    obtain ⟨⟨hwriting, -⟩, hstep⟩ := hstep
    cases ok with
    | true =>
      obtain rfl := Option.some.inj hstep
      exact inv_popWritten h hok hwriting
    | false =>
      obtain rfl := Option.some.inj hstep
      exact ⟨fun _ => .inl (Bool.or_true _), fun hinserting => (by cases hinserting)⟩
  | handle =>
    simp only [Lifecycle.step] at hstep
    split at hstep
    · next pos hleaving =>
      cases hleft : pos.step conn with
      | mk left next =>
        rw [hleft] at hstep
        obtain rfl := Option.some.inj hstep
        cases next with
        | none => exact ⟨fun _ => .inr ((leave_cases hleft).2 rfl), fun hidle => (by cases hidle)⟩
        | some next => exact ⟨fun _ => .inl (Bool.or_true _), fun hgone => (by cases hgone)⟩
    · cases hstep
  | kick =>
    simp only [Lifecycle.step, Option.ite_none_right_eq_some, Option.some.injEq] at hstep
    obtain ⟨-, rfl⟩ := hstep
    exact ⟨h.clean, h.inserting⟩
  | kickStep =>
    simp only [Lifecycle.step] at hstep
    split at hstep
    · next pos hkick =>
      cases hleft : pos.step conn with
      | mk left next =>
        rw [hleft] at hstep
        obtain rfl := Option.some.inj hstep
        obtain ⟨⟨bStop, registered, rfl, hregistered⟩, -⟩ := leave_cases hleft
        refine ⟨fun hfinished => (h.clean hfinished).imp id fun hkept => ?_, h.inserting⟩
        exact Bool.eq_false_iff.mpr fun htrue => (by cases hkept.symm.trans (hregistered htrue))
    · cases hstep

/-- A step that breaks the condition leaves the session finished and registered, with no write
outstanding. -/
theorem settled_of_clean (hclean : Clean conn') (hstep : step act conn = some conn') :
    Settled act conn := by
  cases act with
  | run =>
    intro hloop hstop hregistered
    simp only [step, runCoroutine, hloop, hstop, if_true, Option.ite_none_right_eq_some,
      Option.some.injEq] at hstep
    obtain ⟨-, rfl⟩ := hstep
    by_contra hwriting
    cases hregistered.symm.trans (hclean rfl (Bool.eq_false_iff.mpr hwriting))
  | writeDone ok =>
    cases ok with
    | false => trivial
    | true =>
      intro hlast hfinished
      simp only [step, if_true, Option.ite_none_right_eq_some, Option.some.injEq] at hstep
      obtain ⟨⟨-, hidle, -⟩, rfl⟩ := hstep
      have hpopped : popWritten conn = { conn with sendQue := 0, writing := false } := by
        unfold popWritten
        split
        · omega
        · rfl
      rw [hpopped] at hclean
      exact hclean hfinished (by simp [Conn.outstanding, hidle])
  | _ => trivial

/-! ### Runs -/

/-- The condition on a run: each step of each session meets it. -/
def settled : Sid × Act → Sessions → Prop
  | (session, act), sessions => Settled act (sessions session)

theorem serverStep_eq_some {label : Sid × Act} {sessions sessions' : Sessions}
    (hstep : serverStep label sessions = some sessions') :
    ∃ conn', step label.2 (sessions label.1) = some conn' ∧
      sessions' = Function.update sessions label.1 conn' := by
  obtain ⟨conn', hconn, rfl⟩ := Option.map_eq_some_iff.mp hstep
  exact ⟨conn', hconn, rfl⟩

theorem inv_of_reaches {sessions : Sessions} (hreach : Reaches settled sessions) (session : Sid) :
    Inv (sessions session) := by
  induction hreach with
  | initial h =>
    rw [h]
    exact ⟨fun hfinished => (by cases hfinished), fun hinserting => (by cases hinserting)⟩
  | @next sessions sessions' label _ hok hstep ih =>
    obtain ⟨conn', hconn, rfl⟩ := serverStep_eq_some hstep
    by_cases hsession : session = label.1
    · subst hsession
      rw [Function.update_self]
      exact ih.step hok hconn
    · rwa [Function.update_of_ne hsession]

/-- **Finished sessions are unregistered**, exactly as long as each step meets the condition. In every
run whose steps do, a session whose coroutine has finished and that has no write outstanding is no key of
the session map; and the first step that does not leaves a session for which this is false. -/
theorem finished_sessions_unregistered {sessions : Sessions} (hreach : Reaches settled sessions) :
    (∀ session, (sessions session).coroutine = .finished → (sessions session).outstanding = false →
      (sessions session).registered = false) ∧
    ∀ label sessions', serverStep label sessions = some sessions' → ¬settled label sessions →
      ∃ session, (sessions' session).coroutine = .finished ∧
        (sessions' session).outstanding = false ∧ (sessions' session).registered = true := by
  refine ⟨fun session => (inv_of_reaches hreach session).isClean, ?_⟩
  intro label sessions' hstep hok
  obtain ⟨conn', hconn, rfl⟩ := serverStep_eq_some hstep
  have hunclean : ¬Clean conn' := fun hclean => hok (settled_of_clean hclean hconn)
  unfold Clean at hunclean
  push Not at hunclean
  obtain ⟨hfinished, hwriting, hregistered⟩ := hunclean
  refine ⟨label.1, ?_⟩
  rw [Function.update_self]
  exact ⟨hfinished, hwriting, by simpa using hregistered⟩

/-! ### A kick -/

/-- A session is accepted and reads a request. -/
def acceptedActs : List Act :=
  [.start, .insert, .run, .run, .readDone (some (shortBytes MSG_LOGIN_REQ ++ shortBytes 2)),
    .readDone (some (ascii "\x7b\x7d"))]

/-- Then it is kicked. -/
def kickedActs (beforeKick afterKick : List Act) : List (Sid × Act) :=
  (acceptedActs ++ beforeKick ++ [Act.kick, .kickStep, .kickStep] ++ afterKick).map fun act => (0, act)

/-- The coroutine is reading: its read ends with an exception, and it leaves by the catch block. -/
def kickedReading : List (Sid × Act) :=
  kickedActs [.run, .run] [.readDone none, .run, .run]

/-- The coroutine is posting: it goes on to the loop condition. -/
def kickedPosting : List (Sid × Act) := kickedActs [] [.run, .run]

theorem run_of_meets {ok : Sid × Act → Sessions → Prop} {test : Sid × Act → Sessions → Bool}
    {labels : List (Sid × Act)} (hok : ∀ label sessions, test label sessions = true → ok label sessions)
    (hmeets : Reach.meets serverStep test labels (fun _ => .initial) = true) :
    Reaches ok (Reach.after serverStep labels fun _ => .initial) :=
  .of_meets rfl (fun label _ sessions _ => hok label sessions) hmeets

/-- The loop condition finds no session stopped, and no write completes. -/
def neverStopped : Sid × Act → Sessions → Bool
  | (session, .run), sessions => !((sessions session).coroutine = .loopTest ∧ (sessions session).bStop)
  | (_, .writeDone _), _ => false
  | _, _ => true

theorem finished_sessions_unregistered_reading :
    (Reach.after serverStep kickedReading (fun _ => .initial) 0).registered = false := by
  have hok : ∀ label sessions, neverStopped label sessions = true → settled label sessions := by
    rintro ⟨session, act⟩ sessions htest
    cases act with
    | run =>
      intro hloop hstop
      simp [neverStopped, hloop, hstop] at htest
    | writeDone ok => cases htest
    | _ => trivial
  have hreach := run_of_meets hok (by decide +kernel : Reach.meets serverStep neverStopped
    kickedReading (fun _ => .initial) = true)
  exact (finished_sessions_unregistered hreach).1 0 (by decide +kernel) (by decide +kernel)

/-- Without the condition: a session that is kicked while it posts stays in the map for ever. -/
theorem finished_session_registered :
    ¬∀ sessions, Reaches (fun _ _ => True) sessions → ∀ session,
      (sessions session).coroutine = .finished → (sessions session).outstanding = false →
        (sessions session).registered = false := by
  intro h
  have hmeets : Reach.meets serverStep (fun _ _ => true) kickedPosting (fun _ => .initial) = true := by
    decide +kernel
  have hreach : Reaches (fun _ _ => True) (Reach.after serverStep kickedPosting fun _ => .initial) :=
    run_of_meets (fun _ _ _ => trivial) hmeets
  have hcleared := h _ hreach 0 (by decide +kernel) (by decide +kernel)
  exact absurd hcleared (by decide +kernel)

end Lifecycle

end CoroutineServer
