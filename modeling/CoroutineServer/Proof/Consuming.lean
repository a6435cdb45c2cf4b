import CoroutineServer.Library.Simulation
import CoroutineServer.Proof.Responding
import CoroutineServer.WaitForResponse

/-!
# What `WaitForResponse` takes from the queue

The inner loop keeps the last match and drops the earlier ones, so a round that finds one match takes just
that, and a round that finds two takes both. The calls of the loop of the client are calls of this kind.
-/

namespace CoroutineServer.TestClient

namespace WaitForResponse

variable {expected : Int} {recvQueue : List ReceivedMsg} {connected : Bool}
  {ok : Label → Wait → Prop} {wait wait' : Wait} {label : Label}

/-- The call has not returned. -/
def Pos.inside : Pos → Bool
  | .returned _ => false
  | _ => true

/-! ### One round -/

theorem earliest_iff {msg : ReceivedMsg} {temp : List ReceivedMsg}
    (hdrain : drain expected recvQueue none [] = (some msg, temp)) :
    Earliest expected recvQueue msg temp ↔
      (recvQueue.filter fun msg => decide (msg.msgId = expected)).length ≤ 1 := by
  rw [drain_eq] at hdrain
  obtain ⟨hlast, rfl⟩ := Prod.mk.inj hdrain
  rw [Option.or_none] at hlast
  constructor
  · rintro ⟨-, earlier, later, hqueue, hrest, -⟩
    have hparts : recvQueue.length = _ :=
      List.length_eq_length_filter_add fun msg : ReceivedMsg => decide (msg.msgId = expected)
    have hnegated : (recvQueue.filter fun msg => !decide (msg.msgId = expected)).length
        = (earlier ++ later).length := by
      rw [← hrest, List.nil_append]
      simp
    rw [hnegated, hqueue] at hparts
    simp only [List.length_append, List.length_cons] at hparts
    rw [hqueue]
    omega
  · intro hsingle
    have hmatches : (recvQueue.filter fun msg => decide (msg.msgId = expected)) = [msg] := by
      cases hfilter : recvQueue.filter fun msg => decide (msg.msgId = expected) with
      | nil =>
        rw [hfilter] at hlast
        cases hlast
      | cons first rest =>
        rw [hfilter, List.length_cons, Nat.succ_le_succ_iff, Nat.le_zero, List.length_eq_zero_iff] at hsingle
        rw [hfilter, hsingle, List.getLast?_singleton] at hlast
        rw [hsingle, Option.some.inj hlast]
    obtain ⟨earlier, later, hqueue, hearlier, hmsg, hlater⟩ := List.filter_eq_cons_iff.mp hmatches
    have hother : ∀ other ∈ earlier, other.msgId ≠ expected := by simpa using hearlier
    have hown : msg.msgId = expected := of_decide_eq_true hmsg
    rw [List.filter_eq_nil_iff] at hlater
    refine ⟨hown, earlier, later, hqueue, ?_, hother⟩
    calc [] ++ recvQueue.filter (fun msg => decide (msg.msgId ≠ expected))
      _ = earlier.filter (fun msg => decide (msg.msgId ≠ expected)) ++
            later.filter (fun msg => decide (msg.msgId ≠ expected)) := by
          rw [hqueue, List.nil_append, List.filter_append, List.filter_cons_of_neg (by simpa using hown)]
      _ = earlier ++ later := by
          rw [List.filter_eq_self.mpr (by simpa using hother), List.filter_eq_self.mpr (by simpa using hlater)]

/-- A round without a match leaves the queue as it was. -/
theorem search_of_none {temp : List ReceivedMsg}
    (hdrain : drain expected wait.recvQueue none [] = (none, temp)) :
    wait.search expected
      = { wait with pos := if wait.connected then .waiting else .returned none } := by
  obtain ⟨rfl, -⟩ := drain_none hdrain
  unfold Wait.search
  rw [hdrain]
  dsimp only
  split <;> rfl

theorem search_of_some {msg : ReceivedMsg} {temp : List ReceivedMsg}
    (hdrain : drain expected wait.recvQueue none [] = (some msg, temp)) :
    wait.search expected = { wait with recvQueue := temp, pos := .returned (some msg) } := by
  unfold Wait.search
  rw [hdrain]

/-! ### One call -/

/-- What one step does. -/
inductive Steps (expected : Int) (wait : Wait) : Label → Wait → Prop where
  | arrive (msg : ReceivedMsg) (hinside : wait.pos.inside = true) :
      Steps expected wait (.arrive msg) (wait.push msg).notify
  | disconnect (hinside : wait.pos.inside = true) :
      Steps expected wait .disconnect { wait with connected := false }
  | wake (hpos : wait.pos = .waiting) : Steps expected wait .wake { wait with pos := .woken }
  | check (hpos : wait.pos = .checking ∨ wait.pos = .woken) :
      Steps expected wait .check (wait.search expected)
  | timeout (hpos : wait.pos = .waiting ∨ wait.pos = .woken) :
      Steps expected wait .timeout { wait with pos := .returned none }

theorem steps_of_step (hstep : step expected label wait = some wait') :
    Steps expected wait label wait' := by
  cases label with
  | arrive msg | disconnect =>
    simp only [step] at hstep
    split at hstep
    · cases hstep
    · next hreturned =>
      obtain rfl := Option.some.inj hstep
      constructor
      cases hpos : wait.pos with
      | returned rsp => exact absurd hpos (hreturned rsp)
      | _ => rfl
  | wake =>
    simp only [step] at hstep
    split at hstep
    · next hpos =>
      obtain rfl := Option.some.inj hstep
      rw [Wait.notify, hpos]
      exact .wake hpos
    · cases hstep
  | check | timeout =>
    simp only [step] at hstep
    split at hstep
    · next hpos =>
      obtain rfl := Option.some.inj hstep
      constructor
      exact .inl hpos
    · next hpos =>
      obtain rfl := Option.some.inj hstep
      constructor
      exact .inr hpos
    · cases hstep

/-- A notification changes where the call stands, and does not end it. -/
theorem notify_frame (wait : Wait) : wait.notify.recvQueue = wait.recvQueue ∧
    wait.notify.connected = wait.connected ∧ wait.notify.arrived = wait.arrived ∧
      wait.notify.pos.inside = wait.pos.inside := by
  unfold Wait.notify
  split
  · next hpos => exact ⟨rfl, rfl, rfl, by rw [hpos]; rfl⟩
  · exact ⟨rfl, rfl, rfl, rfl⟩

/-- A call that has returned takes no step. -/
theorem Steps.inside (hsteps : Steps expected wait label wait') : wait.pos.inside = true := by
  cases hsteps with
  | arrive _ hinside => exact hinside
  | disconnect hinside => exact hinside
  | wake hpos =>
    rw [hpos]
    rfl
  | check hpos | timeout hpos => rcases hpos with hpos | hpos <;> rw [hpos] <;> rfl

/-- Until the call returns, nothing but the arrivals changes the queue. -/
theorem recvQueue_of_reaches (hreach : Reaches expected recvQueue connected ok wait)
    (hinside : wait.pos.inside = true) : wait.recvQueue = recvQueue ++ wait.arrived := by
  induction hreach with
  | initial h =>
    rw [h]
    exact (List.append_nil _).symm
  | @next wait _ _ _ _ hstep ih =>
    have hsteps := steps_of_step hstep
    have hqueue := ih hsteps.inside
    cases hsteps with
    | arrive msg _ =>
      rw [(notify_frame _).1, (notify_frame _).2.2.1, Wait.push, hqueue, List.append_assoc]
    | disconnect | wake => exact hqueue
    | check _ =>
      cases hdrain : drain expected wait.recvQueue none [] with
      | mk result temp =>
        cases result with
        | none =>
          rw [search_of_none hdrain]
          exact hqueue
        | some msg =>
          rw [search_of_some hdrain] at hinside
          cases hinside
    | timeout => cases hinside

theorem consumes_of_inside (hinside : wait.pos.inside = true) : Consumes expected recvQueue wait := by
  unfold Consumes
  cases hpos : wait.pos with
  | returned =>
    rw [hpos] at hinside
    cases hinside
  | _ => trivial

/-- A step from any reached point keeps what is to hold if and only if it meets the condition. -/
theorem consumes_iff (hreach : Reaches expected recvQueue connected ok wait)
    (hstep : step expected label wait = some wait') :
    Consumes expected recvQueue wait' ↔ Single expected label wait := by
  have hsteps := steps_of_step hstep
  have hqueue := recvQueue_of_reaches hreach hsteps.inside
  cases hsteps with
  | arrive msg hinside =>
    refine iff_of_true (consumes_of_inside ?_) trivial
    rw [(notify_frame _).2.2.2]
    exact hinside
  | disconnect hinside => exact iff_of_true (consumes_of_inside hinside) trivial
  | wake => exact iff_of_true trivial trivial
  | check _ =>
    cases hdrain : drain expected wait.recvQueue none [] with
    | mk result temp =>
      cases result with
      | none =>
        have hmatches : (wait.recvQueue.filter fun msg => decide (msg.msgId = expected)) = [] := by
          simpa using (drain_none hdrain).2
        refine iff_of_true ?_ (by rw [Single, hmatches]; exact Nat.zero_le 1)
        rw [search_of_none hdrain]
        unfold Consumes
        split
        · next hreturned =>
          split at hreturned <;> cases hreturned
        · exact hqueue
        · trivial
      | some msg =>
        rw [search_of_some hdrain]
        unfold Consumes Single
        rw [← hqueue]
        exact earliest_iff hdrain
  | timeout _ => exact iff_of_true hqueue trivial

/-- What a call has taken of all the messages that it found and that came before its return: the last of those
with the id, at the price of the others, or nothing at all. -/
def Takes (expected : Int) (all left : List ReceivedMsg) : Pos → Prop
  | .returned (some msg) => (all.filter fun msg => decide (msg.msgId = expected)).getLast? = some msg ∧
      left = all.filter fun msg => decide (msg.msgId ≠ expected)
  | _ => left = all

theorem takes_of_inside (hreach : Reaches expected recvQueue connected ok wait)
    (hinside : wait.pos.inside = true) :
    Takes expected (recvQueue ++ wait.arrived) wait.recvQueue wait.pos := by
  have hqueue := recvQueue_of_reaches hreach hinside
  cases hpos : wait.pos with
  | returned =>
    rw [hpos] at hinside
    cases hinside
  | _ => exact hqueue

theorem takes_of_reaches (hreach : Reaches expected recvQueue connected ok wait) :
    Takes expected (recvQueue ++ wait.arrived) wait.recvQueue wait.pos := by
  by_cases hinside : wait.pos.inside = true
  · exact takes_of_inside hreach hinside
  cases hreach with
  | initial h =>
    rw [h] at hinside
    exact absurd rfl hinside
  | @next before _ _ hprior _ hstep =>
    -- the call has just returned
    have hsteps := steps_of_step hstep
    have hqueue := recvQueue_of_reaches hprior hsteps.inside
    cases hsteps with
    | arrive msg hbefore => exact absurd ((notify_frame (before.push msg)).2.2.2.trans hbefore) hinside
    | disconnect hbefore => exact absurd hbefore hinside
    | wake => exact absurd rfl hinside
    | timeout => exact hqueue
    | check =>
      cases hdrain : drain expected before.recvQueue none [] with
      | mk result temp =>
        cases result with
        | none =>
          rw [search_of_none hdrain]
          dsimp only
          split <;> exact hqueue
        | some msg =>
          rw [search_of_some hdrain]
          rw [drain_eq, Option.or_none, hqueue] at hdrain
          obtain ⟨hlast, rfl⟩ := Prod.mk.inj hdrain
          exact ⟨hlast, rfl⟩

/-- **`WaitForResponse` consumes only what it returns**, exactly as long as no round finds two messages
with the awaited id. In every run whose rounds meet the condition the call has taken what it returns and
nothing else, and a further step keeps this if and only if it meets the condition. -/
theorem consumes_only_result (hreach : Reaches expected recvQueue connected (Single expected) wait) :
    Consumes expected recvQueue wait ∧ ∀ label wait', step expected label wait = some wait' →
      (Consumes expected recvQueue wait' ↔ Single expected label wait) := by
  refine ⟨?_, fun _ _ => consumes_iff hreach⟩
  cases hreach with
  | initial h =>
    rw [h]
    trivial
  | next hprior hok hstep => exact (consumes_iff hprior hstep).mpr hok

/-! ### Runs -/

/-- The response to a chat message. -/
def chatRsp (msgId : Int) : ReceivedMsg :=
  ⟨MSG_SEND_CHAT_RSP, .object [(ascii "msg_id", .number msgId), (ascii "status", .number 0)], none⟩

def friendsRsp : ReceivedMsg := ⟨MSG_GET_FRIEND_LIST_RSP, .object [(ascii "friends", .array [])], none⟩

/-- Nothing is found, then two frames arrive of which the second is the response. -/
def secondRun : List Label :=
  [.check, .arrive friendsRsp, .arrive (chatRsp 7), .check]

def testSingle (expected : Int) : Label → Wait → Bool
  | .check, wait => decide ((wait.recvQueue.filter fun msg => decide (msg.msgId = expected)).length ≤ 1)
  | _, _ => true

theorem single_of_test (htest : testSingle expected label wait = true) : Single expected label wait := by
  cases label with
  | check => simpa [testSingle, Single] using htest
  | _ => trivial

theorem consumes_only_result_second :
    Consumes MSG_SEND_CHAT_RSP [friendsRsp]
      (Reach.after (step MSG_SEND_CHAT_RSP) secondRun (.initial [friendsRsp] true)) := by
  have hmeets : Reach.meets (step MSG_SEND_CHAT_RSP) (testSingle MSG_SEND_CHAT_RSP) secondRun
      (.initial [friendsRsp] true) = true := by decide
  exact (consumes_only_result (.of_meets rfl (fun _ _ _ _ => single_of_test) hmeets)).1

/-- Two responses to chat messages are queued: the later one is returned, and both are gone. -/
theorem earlier_result_lost :
    ∃ wait, Reaches MSG_SEND_CHAT_RSP [chatRsp 7, chatRsp 8] true (fun _ _ => True) wait ∧
      wait.pos = .returned (some (chatRsp 8)) ∧ wait.recvQueue = [] ∧
        ¬Consumes MSG_SEND_CHAT_RSP [chatRsp 7, chatRsp 8] wait := by
  have hcheck : step MSG_SEND_CHAT_RSP .check (.initial [chatRsp 7, chatRsp 8] true)
      = some ⟨[], true, .returned (some (chatRsp 8)), []⟩ := rfl
  refine ⟨_, .next (.initial rfl) trivial hcheck, rfl, rfl, fun h => ?_⟩
  obtain ⟨-, earlier, later, hqueue, hrest, -⟩ := h
  obtain ⟨rfl, rfl⟩ := List.append_eq_nil_iff.mp hrest.symm
  simp at hqueue

end WaitForResponse

/-! ### The calls of the client -/

/-- Where a call of `WaitForResponse` stands, for which request. -/
def MainPos.call : MainPos → Option (Request × WaitForResponse.Pos)
  | .checking request _ => some (request, .checking)
  | .waiting request _ => some (request, .waiting)
  | .woken request _ => some (request, .woken)
  | .returned request _ rsp => some (request, .returned rsp)
  | _ => none

/-- The frames that a step adds to `g_recv_queue`. -/
def arrivals : Label → Client → Client → List ReceivedMsg
  | .recvHandle, client, _ => match client.recv with
      | .holding msg => if routed msg then [msg] else []
      | _ => []
  | _, _, _ => []

/-- `main` does not go on with what the call has given back. -/
def DuringCall : Label → Client → Prop
  | .handle _, _ => False
  | _, _ => True

/-- The call for a request that was begun in an earlier client, beside a call of `WaitForResponse` by itself
from the queue and the connection that were found there. The frames that have come since are those that the
call has seen, and behind its return those that are behind what it has left. -/
structure InCall (begun : Client) (request : Request) (arrived : List ReceivedMsg) (client : Client)
    (wait : WaitForResponse.Wait) (behind : List ReceivedMsg) : Prop where
  run : WaitForResponse.Reaches request.command.rspId begun.recvQueue begun.connected (fun _ _ => True) wait
  stands : client.main.call = some (request, wait.pos)
  arrived : arrived = wait.arrived ++ behind
  recvQueue : client.recvQueue = wait.recvQueue ++ behind
  inside : wait.pos.inside = true → behind = [] ∧ client.connected = wait.connected

def Carried (begun : Client) (request : Request) (arrived : List ReceivedMsg) (client : Client) : Prop :=
  ∃ wait behind, InCall begun request arrived client wait behind

namespace Carried

variable {begun client client' : Client} {request : Request} {arrived : List ReceivedMsg} {label : Label}

theorem begin {auto : Bool} (hbegun : begun.main = .checking request auto) :
    Carried begun request [] begun := by
  refine ⟨.initial begun.recvQueue begun.connected, [], .initial rfl, ?_, rfl, ?_, fun _ => ⟨rfl, rfl⟩⟩
  · rw [hbegun]
    rfl
  · exact (List.append_nil _).symm

/-- The client stands in the call of this request. -/
theorem not_outside (h : Carried begun request arrived client) : client.main.call ≠ none := by
  obtain ⟨wait, behind, h⟩ := h
  rw [h.stands]
  exact Option.some_ne_none _

theorem request_eq (h : Carried begun request arrived client) {other : Request}
    {pos : WaitForResponse.Pos} (hcall : client.main.call = some (other, pos)) : other = request := by
  obtain ⟨wait, behind, h⟩ := h
  rw [h.stands] at hcall
  exact (Prod.mk.inj (Option.some.inj hcall)).1.symm

/-- A step that the call does not see. -/
theorem of_eq (h : Carried begun request arrived client) (hmain : client'.main = client.main)
    (hqueue : client'.recvQueue = client.recvQueue) (hconnected : client'.connected = client.connected) :
    Carried begun request arrived client' := by
  obtain ⟨wait, behind, h⟩ := h
  refine ⟨wait, behind, h.run, ?_, h.arrived, ?_, ?_⟩
  · rw [hmain]
    exact h.stands
  · rw [hqueue]
    exact h.recvQueue
  · rw [hconnected]
    exact h.inside

/-- A step of the call before its return. -/
theorem next (h : Carried begun request arrived client) {pos pos' : WaitForResponse.Pos}
    {new : List ReceivedMsg} (label : WaitForResponse.Label)
    (hcall : client.main.call = some (request, pos)) (hinside : pos.inside = true)
    (hcall' : client'.main.call = some (request, pos'))
    (hstep : WaitForResponse.step request.command.rspId label
      ⟨client.recvQueue, client.connected, pos, arrived⟩
        = some ⟨client'.recvQueue, client'.connected, pos', arrived ++ new⟩) :
    Carried begun request (arrived ++ new) client' := by
  obtain ⟨⟨queue, up, stands, heard⟩, behind, h⟩ := h
  obtain rfl : stands = pos := (Prod.mk.inj (Option.some.inj (h.stands.symm.trans hcall))).2
  obtain ⟨rfl, hup⟩ := h.inside hinside
  have hqueue : client.recvQueue = queue := h.recvQueue.trans (List.append_nil _)
  have hheard : arrived = heard := h.arrived.trans (List.append_nil _)
  have hrun := h.run
  rw [← hqueue, ← hheard, ← show client.connected = up from hup] at hrun
  exact ⟨_, [], .next hrun trivial hstep, hcall', (List.append_nil _).symm, (List.append_nil _).symm,
    fun _ => ⟨rfl, rfl⟩⟩

/-- A step of the call at which no frame comes. -/
theorem silent (h : Carried begun request arrived client) {pos pos' : WaitForResponse.Pos}
    (label : WaitForResponse.Label) (hcall : client.main.call = some (request, pos))
    (hinside : pos.inside = true) (hcall' : client'.main.call = some (request, pos'))
    (hstep : WaitForResponse.step request.command.rspId label
      ⟨client.recvQueue, client.connected, pos, arrived⟩
        = some ⟨client'.recvQueue, client'.connected, pos', arrived⟩) :
    Carried begun request arrived client' := by
  have hnext : Carried begun request (arrived ++ []) client' :=
    h.next label hcall hinside hcall' (by rwa [List.append_nil])
  rwa [List.append_nil] at hnext

/-- Behind the return the receive thread goes on. -/
theorem returned (h : Carried begun request arrived client) {rsp : Option ReceivedMsg}
    {new : List ReceivedMsg} (hcall : client.main.call = some (request, .returned rsp))
    (hcall' : client'.main.call = some (request, .returned rsp))
    (hqueue : client'.recvQueue = client.recvQueue ++ new) :
    Carried begun request (arrived ++ new) client' := by
  obtain ⟨wait, behind, h⟩ := h
  have hpos : wait.pos = .returned rsp :=
    (Prod.mk.inj (Option.some.inj (h.stands.symm.trans hcall))).2
  refine ⟨wait, behind ++ new, h.run, ?_, ?_, ?_, fun hinside => ?_⟩
  · rw [hpos]
    exact hcall'
  · rw [h.arrived, List.append_assoc]
  · rw [hqueue, h.recvQueue, List.append_assoc]
  · rw [hpos] at hinside
    cases hinside

theorem notify (h : Carried begun request arrived client) : Carried begun request arrived client.notify := by
  unfold Client.notify
  split
  · next other auto hmain =>
    obtain rfl := h.request_eq (congrArg MainPos.call hmain)
    exact h.silent .wake (congrArg MainPos.call hmain) rfl rfl rfl
  · exact h

theorem disconnect (h : Carried begun request arrived client) :
    Carried begun request arrived { client with connected := false } := by
  cases hmain : client.main with
  | checking | waiting | woken =>
    obtain rfl := h.request_eq (congrArg MainPos.call hmain)
    exact h.silent .disconnect (congrArg MainPos.call hmain) rfl rfl rfl
  | returned =>
    obtain rfl := h.request_eq (congrArg MainPos.call hmain)
    rw [← List.append_nil arrived]
    exact h.returned (congrArg MainPos.call hmain) rfl (List.append_nil _).symm
  | _ => exact absurd (congrArg MainPos.call hmain) h.not_outside

theorem handleFrame (h : Carried begun request arrived client) {msg : ReceivedMsg}
    (hrecv : client.recv = .holding msg) :
    Carried begun request (arrived ++ arrivals .recvHandle client (client.handleFrame msg))
      (client.handleFrame msg) := by
  have hnew : arrivals .recvHandle client (client.handleFrame msg) = if routed msg then [msg] else [] := by
    simp only [arrivals, hrecv]
  rw [hnew]
  unfold Client.handleFrame
  split_ifs
  · unfold Client.notify
    dsimp only
    cases hmain : client.main with
    | checking | waiting | woken =>
      obtain rfl := h.request_eq (congrArg MainPos.call hmain)
      exact h.next (.arrive msg) (congrArg MainPos.call hmain) rfl rfl rfl
    | returned =>
      obtain rfl := h.request_eq (congrArg MainPos.call hmain)
      exact h.returned (congrArg MainPos.call hmain) rfl rfl
    | _ => exact absurd (congrArg MainPos.call hmain) h.not_outside
  · rw [List.append_nil]
    exact h.of_eq rfl rfl rfl

theorem search (h : Carried begun request arrived client) {auto : Bool}
    (hmain : client.main = .checking request auto ∨ client.main = .woken request auto) :
    Carried begun request arrived (client.search request auto) := by
  obtain ⟨pos', hcall', hround⟩ : ∃ pos', (client.search request auto).main.call = some (request, pos') ∧
      ∀ pos, WaitForResponse.Wait.search request.command.rspId
        ⟨client.recvQueue, client.connected, pos, arrived⟩
          = ⟨(client.search request auto).recvQueue, (client.search request auto).connected, pos',
            arrived⟩ := by
    unfold Client.search WaitForResponse.Wait.search
    dsimp only
    cases drain request.command.rspId client.recvQueue none [] with
    | mk result temp =>
      cases result with
      | some msg => exact ⟨_, rfl, fun _ => rfl⟩
      | none =>
        dsimp only
        split_ifs
        · exact ⟨_, rfl, fun _ => rfl⟩
        · exact ⟨_, rfl, fun _ => rfl⟩
  rcases hmain with hmain | hmain
  · exact h.silent .check (congrArg MainPos.call hmain) rfl hcall' (congrArg some (hround _))
  · exact h.silent .check (congrArg MainPos.call hmain) rfl hcall' (congrArg some (hround _))

theorem timeout (h : Carried begun request arrived client) {auto : Bool}
    (hmain : client.main = .waiting request auto ∨ client.main = .woken request auto) :
    Carried begun request arrived (client.giveBack request auto none) := by
  rcases hmain with hmain | hmain
  · exact h.silent .timeout (congrArg MainPos.call hmain) rfl rfl rfl
  · exact h.silent .timeout (congrArg MainPos.call hmain) rfl rfl rfl

theorem spurious (h : Carried begun request arrived client) {auto : Bool}
    (hmain : client.main = .waiting request auto) :
    Carried begun request arrived { client with main := .woken request auto } := by
  exact h.silent .wake (congrArg MainPos.call hmain) rfl rfl rfl

/-- A step of the client while the call lasts: one of the call itself, one that it does not see, or one of the
receive thread behind its return. -/
theorem step (h : Carried begun request arrived client) (hduring : DuringCall label client)
    (hstep : step label client = some client') :
    Carried begun request (arrived ++ arrivals label client client') client' := by
  have hsteps := steps_of_step hstep
  by_cases hframe : label = .recvHandle
  · subst hframe
    cases hsteps with
    | recvHandle hrecv => exact h.handleFrame hrecv
  have hnone : arrivals label client client' = [] := by
    cases label with
    | recvHandle => exact absurd rfl hframe
    | _ => rfl
  rw [hnone, List.append_nil]
  cases hsteps with
  | answer | push | batch | deliver | peerCloses | recvTest | recvRead => exact h.of_eq rfl rfl rfl
  | recvFail =>
    have hended : Carried begun request arrived { client with recv := .ended } := h.of_eq rfl rfl rfl
    exact hended.disconnect.notify
  | recvHandle => exact absurd rfl hframe
  | check hmain =>
    obtain rfl : _ = request := hmain.elim (fun hmain => h.request_eq (congrArg MainPos.call hmain))
      fun hmain => h.request_eq (congrArg MainPos.call hmain)
    exact h.search hmain
  | timeout hmain =>
    obtain rfl : _ = request := hmain.elim (fun hmain => h.request_eq (congrArg MainPos.call hmain))
      fun hmain => h.request_eq (congrArg MainPos.call hmain)
    exact h.timeout hmain
  | spurious hmain =>
    obtain rfl := h.request_eq (congrArg MainPos.call hmain)
    exact h.spurious hmain
  | startRecv | threw | handled => exact hduring.elim
  | quit hmain =>
    rcases hmain with hmain | hmain <;> exact absurd (congrArg MainPos.call hmain) h.not_outside
  | prompted hmain | disconnected hmain | send hmain | sendFails hmain | otherLine hmain
  | manualReconnect hmain | joinEnded hmain | joinNotStarted hmain | autoLogin hmain
  | autoLoginFails hmain | reconnect hmain => exact absurd (congrArg MainPos.call hmain) h.not_outside

end Carried

/-- **Every call that the client makes is one of `WaitForResponse` by itself.** From a client that begins a
call on, in any run until `main` goes on with what the call has given back, the call stands where a call by
itself can stand that began on the same queue and connection and has seen the frames that have come since, in
their order, up to its return; what came later is behind what it has left. So it has given back the last
message with the awaited id of those that it found or saw, and dropped the others with that id, or it has
taken nothing. -/
theorem call_carried {begun client : Client} {request : Request} {auto : Bool} {arrived : List ReceivedMsg}
    (hbegun : begun.main = .checking request auto)
    (htraced : Reach.Traced step arrivals DuringCall begun arrived client) :
    ∃ wait behind, InCall begun request arrived client wait behind ∧
      WaitForResponse.Takes request.command.rspId (begun.recvQueue ++ wait.arrived) wait.recvQueue
        wait.pos := by
  have hcarried : Carried begun request arrived client := by
    induction htraced with
    | nil => exact .begin hbegun
    | next _ hduring hstep ih => exact ih.step hduring hstep
  obtain ⟨wait, behind, h⟩ := hcarried
  exact ⟨wait, behind, h, WaitForResponse.takes_of_reaches h.run⟩

/-- The answer to a chat message, by the number of its request. -/
def chatAnswer (number : Nat) : ReceivedMsg :=
  ⟨MSG_SEND_CHAT_RSP, .object [(ascii "status", .number 0)], some number⟩

/-- The answer to a first message comes after its time is up, and the client sends a second one. -/
def lateBegun : Client :=
  Reach.after step
    [.mainTest, .send .chat, .check, .timeout, .handle .refused, .answer 0 (chatAnswer 0).json, .deliver,
      .recvTest, .recvRead, .recvHandle, .mainTest, .send .chat] .initial

/-- Its answer comes as well, before the queue is searched. -/
def lateRun : List Label :=
  [.answer 0 (chatAnswer 1).json, .deliver, .recvTest, .recvRead, .recvHandle, .check]

def testDuringCall : Label → Client → Bool
  | .handle _, _ => false
  | _, _ => true

theorem call_carried_late :
    lateBegun.recvQueue = [chatAnswer 0] ∧ (Reach.after step lateRun lateBegun).recvQueue = [] ∧
      ∃ wait, InCall lateBegun ⟨1, .chat⟩ [chatAnswer 1] (Reach.after step lateRun lateBegun) wait [] ∧
        wait.pos = .returned (some (chatAnswer 1)) := by
  have hduring : ∀ label client, testDuringCall label client = true → DuringCall label client := by
    intro label client htest
    cases label with
    | handle => cases htest
    | _ => trivial
  have htraced : Reach.Traced step arrivals DuringCall lateBegun [chatAnswer 1]
      (Reach.after step lateRun lateBegun) := by
    have hseen : Reach.seenAlong step arrivals lateRun lateBegun = [chatAnswer 1] := rfl
    rw [← hseen]
    exact .of_meets hduring rfl
  obtain ⟨wait, behind, h, -⟩ := call_carried rfl htraced
  obtain rfl : behind = [] := (List.append_eq_nil_iff.mp h.recvQueue.symm).2
  exact ⟨rfl, rfl, wait, h, (Prod.mk.inj (Option.some.inj h.stands)).2.symm⟩

end CoroutineServer.TestClient
