import CoroutineServer.Proof.ClientSteps

/-!
# The login behind a reconnect

`/reconnect` calls `DoLogin`, which sends its login request and waits for the answer, before the receive
thread is started, so nobody puts anything into the queue it looks at.
-/

namespace CoroutineServer.TestClient

variable {client client' : Client} {label : Label} {request : Request}

/-- `main` is in the login that follows a reconnect. -/
def MainPos.auto : MainPos → Bool
  | .checking _ auto => auto
  | .waiting _ auto => auto
  | .woken _ auto => auto
  | .returned _ auto _ => auto
  | _ => false

/-- There is no receive thread and nothing in the queue, and the wait has brought nothing. -/
structure Deaf (client : Client) : Prop where
  recv : client.recv = .notStarted
  recvQueue : client.recvQueue = []
  nothing : ∀ request rsp, client.main = .returned request true rsp → rsp = none

theorem Deaf.search {auto : Bool} (h : Deaf client) : Deaf (client.search request auto) := by
  unfold Client.search
  rw [h.recvQueue]
  simp only [drain]
  split_ifs
  · exact ⟨h.recv, rfl, nofun⟩
  · refine ⟨h.recv, rfl, fun other rsp hreturned => ?_⟩
    exact (MainPos.returned.inj hreturned).2.2.symm

theorem auto_search (client : Client) (request : Request) (auto : Bool) :
    (client.search request auto).main.auto = auto := by
  unfold Client.search
  dsimp only
  split
  · rfl
  · split_ifs <;> rfl

theorem auto_notify (client : Client) : client.notify.main.auto = client.main.auto := by
  unfold Client.notify
  split
  · next hmain => simp only [hmain, MainPos.auto]
  · rfl

theorem auto_handleFrame (client : Client) (msg : ReceivedMsg) :
    (client.handleFrame msg).main.auto = client.main.auto := by
  unfold Client.handleFrame
  dsimp only
  split_ifs
  · rw [auto_notify]
  · rfl

/-- Every step into the login clears the queue, and no thread fills it. -/
theorem deaf_step (h : client.main.auto = true → Deaf client)
    (hstep : step label client = some client') (hauto : client'.main.auto = true) : Deaf client' := by
  have hrecv : ∀ {pos : RecvPos}, client.recv = pos → pos ≠ .notStarted → client.main.auto ≠ true :=
    fun hpos hne hbefore => hne (hpos.symm.trans (h hbefore).recv)
  cases steps_of_step hstep with
  | answer | push | batch | deliver | peerCloses => exact { h hauto with }
  | recvTest hpos => exact absurd hauto (hrecv hpos (fun heq => by cases heq))
  | recvRead hpos => exact absurd hauto (hrecv hpos (fun heq => by cases heq))
  | recvFail hpos =>
    rw [auto_notify] at hauto
    exact absurd hauto (hrecv hpos (fun heq => by cases heq))
  | recvHandle hpos =>
    rw [auto_handleFrame] at hauto
    exact absurd hauto (hrecv hpos (fun heq => by cases heq))
  | prompted | disconnected | send | sendFails | otherLine | manualReconnect | quit | startRecv | threw
  | handled | joinEnded | joinNotStarted | autoLoginFails | reconnect => cases hauto
  | @check request auto hmain =>
    rw [auto_search] at hauto
    refine (h ?_).search
    rcases hmain with hmain | hmain <;> rw [hmain] <;> exact hauto
  | @timeout request auto hmain =>
    have hdeaf : Deaf client := by
      apply h
      rcases hmain with hmain | hmain <;> rw [hmain] <;> exact hauto
    refine ⟨hdeaf.recv, hdeaf.recvQueue, fun other rsp hreturned => ?_⟩
    exact (MainPos.returned.inj hreturned).2.2.symm
  | spurious hmain =>
    have hdeaf := h (by rw [hmain]; exact hauto)
    exact ⟨hdeaf.recv, hdeaf.recvQueue, fun _ _ hreturned => (by cases hreturned)⟩
  | autoLogin => exact ⟨rfl, rfl, fun _ _ hreturned => (by cases hreturned)⟩

/-- **The login behind a reconnect is never answered**: while it waits there is no receive thread and
nothing in the queue, and it comes to nothing. -/
theorem auto_login_unheard {ok : Label → Client → Prop} (hreach : Reaches ok client) :
    client.main.auto = true → Deaf client := by
  induction hreach with
  | initial h =>
    rw [h]
    exact nofun
  | next _ _ hstep ih => exact deaf_step ih hstep

/-- A login is accepted, and the user asks for a new connection. -/
def reconnectedRun : List Label :=
  [.mainTest, .send .login, .answer 0 .null, .deliver, .recvTest, .recvRead, .recvHandle, .check,
    .handle .accepted, .mainTest, .manualReconnect, .mainTest, .recvTest, .join, .reconnect true]

theorem auto_login_unheard_reconnected : Deaf (Reach.after step reconnectedRun .initial) := by
  have hreach : Reaches (fun _ _ => True) (Reach.after step reconnectedRun .initial) :=
    .of_enabled rfl (by decide)
  exact auto_login_unheard hreach (by decide)

end CoroutineServer.TestClient
