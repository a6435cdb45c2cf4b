import CoroutineServer.Proof.ClientSteps

/-!
# Requests and responses of the test client

Responses carry no number, so a response belongs to its request only as long as no other one with its id
is due; and it reaches the waiting command only on the way through the receive thread and the queue.
-/

namespace CoroutineServer.TestClient

variable {client client' : Client} {label : Label} {request : Request} {command : Command}

/-! ### The condition on the runs -/

/-- What the receive thread has read and not handled. -/
def RecvPos.hand : RecvPos → List ReceivedMsg
  | .holding msg => [msg]
  | _ => []

namespace Client

/-- The frames on this side of the connection. -/
def here (client : Client) : List ReceivedMsg := client.socket ++ client.recv.hand ++ client.recvQueue

/-- Every frame that can still reach `WaitForResponse`. -/
def coming (client : Client) : List ReceivedMsg := client.inFlight ++ client.here

end Client

/-- `WaitForResponse` takes the frame for the response to a command. -/
def isFor (command : Command) (msg : ReceivedMsg) : Bool :=
  routed msg && decide (msg.msgId = command.rspId)

/-- A response to an earlier request of the kind is still to come, or lies in the queue. -/
def Due (client : Client) (command : Command) : Prop :=
  (∃ request ∈ client.requests, request.command = command) ∨
    ∃ msg ∈ client.coming, isFor command msg = true

instance (client : Client) (command : Command) : Decidable (Due client command) :=
  inferInstanceAs (Decidable (_ ∨ _))

/-- A command is not given while a response to an earlier one of its kind is due; an `/offline` that waits
is not answered with messages; and a wait does not time out on a live connection while a frame with the
awaited id lies in the socket, in the hands of the receive thread or, behind a notification, in the queue. -/
def Disciplined : Label → Client → Prop
  | .send command, client => ¬ Due client command
  | .answer index json, client => ∀ request, client.main.awaits = some request →
      client.requests[index]? = some request → request.command = .offline →
      json.contains "messages" = false
  | .timeout, client => client.alive = true → match client.main with
      | .waiting request _ => ∀ msg ∈ client.socket ++ client.recv.hand,
          isFor request.command msg = false
      | .woken request _ => ∀ msg ∈ client.here, isFor request.command msg = false
      | _ => True
  | _, _ => True

/-! ### The search of the queue -/

theorem drain_eq (expected : Int) (queue : List ReceivedMsg) (result : Option ReceivedMsg)
    (temp : List ReceivedMsg) :
    drain expected queue result temp
      = (((queue.filter fun msg => decide (msg.msgId = expected)).getLast?).or result,
        temp ++ queue.filter fun msg => decide (msg.msgId ≠ expected)) := by
  induction queue generalizing result temp with
  | nil => simp [drain]
  | cons msg queue ih =>
    unfold drain
    by_cases hid : msg.msgId = expected
    · rw [if_pos hid, ih]
      simp only [hid, decide_true, List.filter_cons_of_pos, List.getLast?_cons, ne_eq, not_true_eq_false,
        decide_false, Bool.false_eq_true, not_false_eq_true, List.filter_cons_of_neg]
      cases (queue.filter fun msg => decide (msg.msgId = expected)).getLast? <;> rfl
    · rw [if_neg hid, ih]
      simp [hid]

theorem mem_of_drain {expected : Int} {queue temp : List ReceivedMsg} {msg : ReceivedMsg}
    (h : drain expected queue none [] = (some msg, temp)) : msg ∈ queue ∧ msg.msgId = expected := by
  rw [drain_eq] at h
  have hlast := (Prod.mk.inj h).1
  rw [Option.or_none] at hlast
  have hmem := List.mem_of_getLast? hlast
  simpa using hmem

theorem drain_none {expected : Int} {queue temp : List ReceivedMsg}
    (h : drain expected queue none [] = (none, temp)) :
    temp = queue ∧ ∀ msg ∈ queue, msg.msgId ≠ expected := by
  rw [drain_eq] at h
  obtain ⟨hlast, rfl⟩ := Prod.mk.inj h
  rw [Option.or_none, List.getLast?_eq_none_iff, List.filter_eq_nil_iff] at hlast
  have hnone : ∀ msg ∈ queue, msg.msgId ≠ expected := by simpa using hlast
  refine ⟨?_, hnone⟩
  rw [List.nil_append, List.filter_eq_self]
  simpa using hnone

theorem subset_of_drain {expected : Int} {queue temp : List ReceivedMsg} {result : Option ReceivedMsg}
    (h : drain expected queue none [] = (result, temp)) : ∀ msg ∈ temp, msg ∈ queue := by
  rw [drain_eq] at h
  obtain ⟨-, rfl⟩ := Prod.mk.inj h
  intro msg hmsg
  exact (List.mem_filter.mp hmsg).1

/-! ### The invariant -/

/-- The awaited request: nothing else that is due can be taken for its response, and the response is on
this side once it has been delivered. -/
structure Own (request : Request) (client : Client) : Prop where
  number : request.number < client.sent
  requests : ∀ other ∈ client.requests,
    other.command = request.command ∨ other.number = request.number → other = request
  frames : ∀ msg ∈ client.coming, isFor request.command msg = true →
    msg.answers = some request.number
  reply : ∀ msg ∈ client.inFlight, msg.answers = some request.number →
    isFor request.command msg = true
  delivered : request.number ∈ client.delivered →
    ∃ msg ∈ client.here, isFor request.command msg = true

/-- `main` is at a connection that it has seen up. -/
def MainPos.online : MainPos → Bool
  | .looping => false
  | .joining => false
  | .offline => false
  | .exited => false
  | _ => true

structure Inv (client : Client) : Prop where
  numbered : ∀ request ∈ client.requests, request.number < client.sent
  answered : ∀ msg ∈ client.coming, ∀ n, msg.answers = some n → n < client.sent
  past : ∀ n ∈ client.delivered, n < client.sent
  queued : ∀ msg ∈ client.recvQueue, routed msg = true
  socketOpen : client.main.online = true ∨ client.main = .looping → client.socketClosed = false
  up : client.main.online = true → client.connected = false → client.alive = false
  own : ∀ request, client.main.awaits = some request → Own request client
  searched : ∀ request auto, client.main = .waiting request auto →
    ∀ msg ∈ client.recvQueue, msg.msgId ≠ request.command.rspId
  matched : ∀ entry ∈ client.returns, entry.Matched

theorem inv_initial : Inv .initial where
  numbered := nofun
  answered := nofun
  past := nofun
  queued := nofun
  socketOpen := fun _ => rfl
  up := nofun
  own := nofun
  searched := nofun
  matched := nofun

/-- Nothing new is on its way to `main`. -/
structure Shrinks (client client' : Client) : Prop where
  requests : ∀ request ∈ client'.requests, request ∈ client.requests
  coming : ∀ msg ∈ client'.coming, msg ∈ client.coming
  sent : client'.sent = client.sent
  delivered : client'.delivered = client.delivered

/-- Besides, no response on this side goes astray. -/
structure Towards (client client' : Client) : Prop extends Shrinks client client' where
  inFlight : ∀ msg ∈ client'.inFlight, msg ∈ client.inFlight
  here : ∀ msg ∈ client.here, routed msg = true → msg ∈ client'.here

theorem Towards.of_eq (hrequests : client'.requests = client.requests)
    (hinFlight : client'.inFlight = client.inFlight) (hhere : client'.here = client.here)
    (hsent : client'.sent = client.sent) (hdelivered : client'.delivered = client.delivered) :
    Towards client client' where
  requests _ h := hrequests ▸ h
  coming msg h := by
    unfold Client.coming at h ⊢
    rwa [hinFlight, hhere] at h
  inFlight _ h := hinFlight ▸ h
  sent := hsent
  delivered := hdelivered
  here _ h _ := hhere ▸ h

theorem routed_of_isFor {msg : ReceivedMsg} (h : isFor command msg = true) : routed msg = true :=
  (Bool.and_eq_true_iff.mp h).1

theorem msgId_of_isFor {msg : ReceivedMsg} (h : isFor command msg = true) :
    msg.msgId = command.rspId := of_decide_eq_true (Bool.and_eq_true_iff.mp h).2

theorem Own.towards (h : Own request client) (htowards : Towards client client') :
    Own request client' where
  number := htowards.sent ▸ h.number
  requests other hother := h.requests other (htowards.requests other hother)
  frames msg hmsg := h.frames msg (htowards.coming msg hmsg)
  reply msg hmsg := h.reply msg (htowards.inFlight msg hmsg)
  delivered hdelivered := by
    rw [htowards.delivered] at hdelivered
    obtain ⟨msg, hmsg, hfor⟩ := h.delivered hdelivered
    exact ⟨msg, htowards.here msg hmsg (routed_of_isFor hfor), hfor⟩

/-- The places of `main`, with the flags and the queue it has looked at. -/
structure Placed (client : Client) : Prop where
  queued : ∀ msg ∈ client.recvQueue, routed msg = true
  socketOpen : client.main.online = true ∨ client.main = .looping → client.socketClosed = false
  up : client.main.online = true → client.connected = false → client.alive = false
  searched : ∀ request auto, client.main = .waiting request auto →
    ∀ msg ∈ client.recvQueue, msg.msgId ≠ request.command.rspId
  matched : ∀ entry ∈ client.returns, entry.Matched

theorem Inv.shrinks (h : Inv client) (hshrinks : Shrinks client client') (hplaced : Placed client')
    (hown : ∀ request, client'.main.awaits = some request → Own request client') : Inv client' where
  numbered request hrequest := hshrinks.sent ▸ h.numbered request (hshrinks.requests request hrequest)
  answered msg hmsg n hn := hshrinks.sent ▸ h.answered msg (hshrinks.coming msg hmsg) n hn
  past n hn := by
    rw [hshrinks.delivered] at hn
    exact hshrinks.sent ▸ h.past n hn
  queued := hplaced.queued
  socketOpen := hplaced.socketOpen
  up := hplaced.up
  own := hown
  searched := hplaced.searched
  matched := hplaced.matched

theorem Inv.towards (h : Inv client) (htowards : Towards client client') (hplaced : Placed client')
    (hawaits : ∀ request, client'.main.awaits = some request → client.main.awaits = some request) :
    Inv client' :=
  h.shrinks htowards.toShrinks hplaced fun request hrequest =>
    (h.own request (hawaits request hrequest)).towards htowards

/-! ### The server and the network -/

theorem rspId_injective {first second : Command} (h : first.rspId = second.rspId) : first = second := by
  cases first <;> cases second <;> first | rfl | exact absurd h (by decide)

theorem rspId_ne_push (command : Command) :
    command.rspId ≠ MSG_CHAT_MSG_PUSH ∧ command.rspId ≠ MSG_FRIEND_REQUEST_PUSH := by
  cases command <;> decide

theorem eq_offline_of_rspId (h : command.rspId = MSG_OFFLINE_MSG_RSP) : command = .offline :=
  rspId_injective h

/-- A response goes to the queue, unless it answers an `/offline` with messages. -/
theorem routed_response {json : Json} {answers : Option Nat}
    (h : command = .offline → json.contains "messages" = false) :
    routed ⟨command.rspId, json, answers⟩ = true := by
  obtain ⟨hchat, hfriend⟩ := rspId_ne_push command
  unfold routed
  rw [if_neg hchat, if_neg hfriend, if_neg]
  rintro ⟨hoffline, hmessages⟩
  cases (h (eq_offline_of_rspId hoffline)).symm.trans hmessages

theorem Inv.answer {index : Nat} {json : Json} (h : Inv client)
    (hok : Disciplined (.answer index json) client) (hrequest : client.requests[index]? = some request) :
    Inv { client with
      requests := client.requests.eraseIdx index
      inFlight := client.inFlight ++ [⟨request.command.rspId, json, some request.number⟩] } := by
  have hmem : request ∈ client.requests := List.mem_of_getElem? hrequest
  have hcoming : ∀ msg ∈ ({ client with
      requests := client.requests.eraseIdx index
      inFlight := client.inFlight ++ [⟨request.command.rspId, json, some request.number⟩] } :
      Client).coming, msg ∈ client.coming ∨ msg = ⟨request.command.rspId, json, some request.number⟩ := by
    intro msg hmsg
    simp only [Client.coming, Client.here, List.mem_append, List.mem_singleton] at hmsg ⊢
    tauto
  refine { h with numbered := ?_, answered := ?_, own := ?_ }
  · exact fun other hother => h.numbered other (List.mem_of_mem_eraseIdx hother)
  · intro msg hmsg n hn
    rcases hcoming msg hmsg with hold | rfl
    · exact h.answered msg hold n hn
    · exact Option.some.inj hn ▸ h.numbered request hmem
  · intro awaited hawaits
    have hown := h.own awaited hawaits
    refine { hown with requests := ?_, frames := ?_, reply := ?_ }
    · exact fun other hother => hown.requests other (List.mem_of_mem_eraseIdx hother)
    · intro msg hmsg hfor
      rcases hcoming msg hmsg with hold | rfl
      · exact hown.frames msg hold hfor
      · have hcommand := rspId_injective (msgId_of_isFor hfor)
        rw [hown.requests request hmem (.inl hcommand)]
    · intro msg hmsg hanswers
      rcases List.mem_append.mp hmsg with hold | hnew
      · exact hown.reply msg hold hanswers
      · obtain rfl := List.mem_singleton.mp hnew
        obtain rfl := hown.requests request hmem (.inr (Option.some.inj hanswers))
        have hrouted : routed ⟨request.command.rspId, json, some request.number⟩ = true :=
          routed_response (hok request hawaits hrequest)
        simp [isFor, hrouted]

/-- A frame that answers nothing and is printed changes nothing for `main`. -/
theorem Inv.unsolicited {msg : ReceivedMsg} (h : Inv client) (hanswers : msg.answers = none)
    (hrouted : routed msg = false) : Inv { client with inFlight := client.inFlight ++ [msg] } := by
  have hcoming : ∀ other ∈ ({ client with inFlight := client.inFlight ++ [msg] } : Client).coming,
      other ∈ client.coming ∨ other = msg := by
    intro other hother
    simp only [Client.coming, Client.here, List.mem_append, List.mem_singleton] at hother ⊢
    tauto
  refine { h with answered := ?_, own := ?_ }
  · intro other hother n hn
    rcases hcoming other hother with hold | rfl
    · exact h.answered other hold n hn
    · cases hanswers.symm.trans hn
  · intro awaited hawaits
    have hown := h.own awaited hawaits
    refine { hown with frames := ?_, reply := ?_ }
    · intro other hother hfor
      rcases hcoming other hother with hold | rfl
      · exact hown.frames other hold hfor
      · cases hrouted.symm.trans (routed_of_isFor hfor)
    · intro other hother hnumber
      rcases List.mem_append.mp hother with hold | hnew
      · exact hown.reply other hold hnumber
      · obtain rfl := List.mem_singleton.mp hnew
        cases hanswers.symm.trans hnumber

theorem Inv.deliver {msg : ReceivedMsg} {rest : List ReceivedMsg} (h : Inv client)
    (hflight : client.inFlight = msg :: rest) :
    Inv { client with
      inFlight := rest
      socket := client.socket ++ [msg]
      delivered := msg.answers.toList ++ client.delivered } := by
  have hfirst : msg ∈ client.inFlight := hflight ▸ List.mem_cons_self
  have hrest : ∀ other ∈ rest, other ∈ client.inFlight := fun other hother =>
    hflight ▸ List.mem_cons_of_mem _ hother
  have hcoming : ∀ other ∈ ({ client with
      inFlight := rest
      socket := client.socket ++ [msg]
      delivered := msg.answers.toList ++ client.delivered } : Client).coming, other ∈ client.coming := by
    intro other hother
    simp only [Client.coming, Client.here, hflight, List.mem_append, List.mem_cons] at hother ⊢
    tauto
  refine { h with answered := fun other hother => h.answered other (hcoming other hother),
                  past := ?_, own := ?_ }
  · intro n hn
    rcases List.mem_append.mp hn with hnew | hold
    · exact h.answered msg (List.mem_append_left _ hfirst) n (Option.mem_toList.mp hnew)
    · exact h.past n hold
  · intro awaited hawaits
    have hown := h.own awaited hawaits
    refine { hown with
      frames := fun other hother => hown.frames other (hcoming other hother)
      reply := fun other hother => hown.reply other (hrest other hother)
      delivered := fun hdelivered => ?_ }
    rcases List.mem_append.mp hdelivered with hnew | hold
    · refine ⟨msg, ?_, hown.reply msg hfirst (Option.mem_toList.mp hnew)⟩
      simp [Client.here]
    · obtain ⟨other, hother, hfor⟩ := hown.delivered hold
      refine ⟨other, ?_, hfor⟩
      simp only [Client.here, List.mem_append] at hother ⊢
      tauto

/-! ### The steps of the client -/

/-- A new request of a kind of which nothing is due becomes the awaited one. -/
theorem Inv.sendRequest {auto : Bool} (h : Inv client) (hprompt : client.main = .prompt)
    (hdue : ¬ Due client command) : Inv (client.sendRequest command auto) := by
  have hrequests : ∀ other ∈ (client.sendRequest command auto).requests,
      other ∈ client.requests ∨ other = ⟨client.sent, command⟩ := by
    intro other hother
    exact (List.mem_append.mp hother).imp_right List.mem_singleton.mp
  refine { numbered := ?_, answered := ?_, past := ?_, queued := h.queued, socketOpen := ?_, up := ?_,
           own := ?_, searched := nofun, matched := h.matched }
  · intro other hother
    rcases hrequests other hother with hold | rfl
    · exact Nat.lt_succ_of_lt (h.numbered other hold)
    · exact Nat.lt_succ_self _
  · exact fun msg hmsg n hn => Nat.lt_succ_of_lt (h.answered msg hmsg n hn)
  · exact fun n hn => Nat.lt_succ_of_lt (h.past n hn)
  · exact fun _ => h.socketOpen (.inl (by rw [hprompt]; rfl))
  · exact fun _ => h.up (by rw [hprompt]; rfl)
  · intro awaited hawaits
    obtain rfl := Option.some.inj hawaits
    refine ⟨Nat.lt_succ_self _, ?_, ?_, ?_, ?_⟩
    · intro other hother hsame
      rcases hrequests other hother with hold | rfl
      · rcases hsame with hcommand | hnumber
        · exact absurd (.inl ⟨other, hold, hcommand⟩) hdue
        · exact absurd hnumber (Nat.ne_of_lt (h.numbered other hold))
      · rfl
    · exact fun msg hmsg hfor => absurd (.inr ⟨msg, hmsg, hfor⟩) hdue
    · intro msg hmsg hanswers
      exact absurd (h.answered msg (List.mem_append_left _ hmsg) _ hanswers) (Nat.lt_irrefl _)
    · intro hdelivered
      exact absurd (h.past _ hdelivered) (Nat.lt_irrefl _)

/-- A step of `main` that leaves the frames and the connection alone. -/
theorem Inv.moveMain {main : MainPos} {connected cached : Bool} (h : Inv client)
    (hsocket : main.online = true ∨ main = .looping → client.socketClosed = false)
    (hup : main.online = true → connected = false → client.alive = false)
    (hawaits : ∀ request, main.awaits = some request → client.main.awaits = some request)
    (hsearched : ∀ request auto, main = .waiting request auto →
      ∀ msg ∈ client.recvQueue, msg.msgId ≠ request.command.rspId) :
    Inv { client with main, connected, cached } :=
  h.towards (Towards.of_eq rfl rfl rfl rfl rfl) ⟨h.queued, hsocket, hup, hsearched, h.matched⟩ hawaits

theorem online_of_awaits (hawaits : client.main.awaits = some request) : client.main.online = true := by
  cases hmain : client.main with
  | checking | waiting | woken => rfl
  | looping | prompt | returned | joining | offline | exited =>
    rw [hmain] at hawaits
    cases hawaits

theorem Inv.giveBack {auto : Bool} {rsp : Option ReceivedMsg} (h : Inv client)
    (hawaits : client.main.awaits = some request)
    (hmatched : Return.Matched ⟨request, rsp, client.alive, decide (request.number ∈ client.delivered)⟩) :
    Inv (client.giveBack request auto rsp) := by
  have honline := online_of_awaits hawaits
  refine h.towards (Towards.of_eq rfl rfl rfl rfl rfl) ⟨h.queued, ?_, ?_, nofun, ?_⟩ nofun
  · exact fun _ => h.socketOpen (.inl honline)
  · exact fun _ => h.up honline
  · intro entry hentry
    rcases List.mem_cons.mp hentry with rfl | hold
    · exact hmatched
    · exact h.matched entry hold

theorem Inv.search {auto : Bool} (h : Inv client) (hawaits : client.main.awaits = some request) :
    Inv (client.search request auto) := by
  have hown := h.own request hawaits
  unfold Client.search
  generalize hdrain : drain request.command.rspId client.recvQueue none [] = drained
  obtain ⟨result, temp⟩ := drained
  have hsubset := subset_of_drain hdrain
  cases result with
  | some msg =>
    obtain ⟨hmsg, hid⟩ := mem_of_drain hdrain
    have hcoming : ∀ other ∈ ({ client with recvQueue := temp } : Client).coming,
        other ∈ client.coming := by
      intro other hother
      simp only [Client.coming, Client.here, List.mem_append] at hother ⊢
      have := hsubset other
      tauto
    have hanswers : msg.answers = some request.number := by
      apply hown.frames msg
      · simp [Client.coming, Client.here, hmsg]
      · simp [isFor, h.queued msg hmsg, hid]
    have honline := online_of_awaits hawaits
    refine h.shrinks ⟨fun _ hother => hother, hcoming, rfl, rfl⟩ ⟨?_, ?_, ?_, nofun, ?_⟩ nofun
    · exact fun other hother => h.queued other (hsubset other hother)
    · exact fun _ => h.socketOpen (.inl honline)
    · exact fun _ => h.up honline
    · intro entry hentry
      rcases List.mem_cons.mp hentry with rfl | hold
      · exact ⟨fun other hother => Option.some.inj hother ▸ hanswers, nofun⟩
      · exact h.matched entry hold
  | none =>
    obtain ⟨rfl, hnone⟩ := drain_none hdrain
    have honline := online_of_awaits hawaits
    dsimp only
    split_ifs with hconnected
    · have hsame : ∀ other, (MainPos.waiting request auto).awaits = some other →
          client.main.awaits = some other := fun other hother => hawaits.trans hother
      refine h.moveMain (fun _ => h.socketOpen (.inl honline)) (fun _ => h.up honline) hsame ?_
      intro other _ hwaiting msg hmsg
      obtain ⟨rfl, -⟩ := MainPos.waiting.inj hwaiting
      exact hnone msg hmsg
    · -- the connection has been lost, so nothing is promised
      refine h.giveBack hawaits ⟨nofun, fun _ halive => ?_⟩
      have hdead := h.up honline (by simpa using hconnected)
      cases hdead.symm.trans halive

/-- A wait that times out has nothing to miss. -/
theorem Inv.timeout {auto : Bool} (h : Inv client) (hok : Disciplined .timeout client)
    (hmain : client.main = .waiting request auto ∨ client.main = .woken request auto) :
    Inv (client.giveBack request auto none) := by
  have hawaits : client.main.awaits = some request := by
    rcases hmain with hmain | hmain <;> rw [hmain] <;> rfl
  refine h.giveBack hawaits ⟨nofun, fun _ halive => ?_⟩
  by_contra hdelivered
  obtain ⟨msg, hmsg, hfor⟩ := (h.own request hawaits).delivered (by simpa using hdelivered)
  have hclear := hok halive
  rcases hmain with hmain | hmain
  · rw [hmain] at hclear
    rcases List.mem_append.mp hmsg with hbefore | hqueue
    · cases (hclear msg hbefore).symm.trans hfor
    · -- nobody has notified the thread, so the queue holds no match
      exact h.searched request auto hmain msg hqueue (msgId_of_isFor hfor)
  · rw [hmain] at hclear
    cases (hclear msg hmsg).symm.trans hfor

/-- A notification takes `main` out of its wait, and nothing else changes. -/
theorem notify_eq (client : Client) : ∃ main, client.notify = { client with main } ∧
    (∀ request auto, main ≠ .waiting request auto) ∧ main.awaits = client.main.awaits ∧
    main.online = client.main.online ∧ (main = .looping → client.main = .looping) := by
  unfold Client.notify
  split
  · next request auto hmain =>
    refine ⟨.woken request auto, rfl, fun _ _ => nofun, ?_, ?_, nofun⟩
    · rw [hmain]
      rfl
    · rw [hmain]
      rfl
  · next hmain => exact ⟨client.main, rfl, hmain, rfl, rfl, id⟩

/-- The receive thread hands a frame over, or prints it. -/
theorem Inv.handleFrame {msg : ReceivedMsg} (h : Inv client) (hrecv : client.recv = .holding msg) :
    Inv (client.handleFrame msg) := by
  unfold Client.handleFrame
  dsimp only
  split_ifs with hrouted
  · obtain ⟨main, hnotify, hwaiting, hawaits, honline, hlooping⟩ := notify_eq
      { client with recv := .looping, recvQueue := client.recvQueue ++ [msg] }
    rw [hnotify]
    refine h.towards ⟨⟨fun _ => id, ?_, rfl, rfl⟩, fun _ => id, ?_⟩ ⟨?_, ?_, ?_, ?_, h.matched⟩ ?_
    · intro other hother
      simp only [Client.coming, Client.here, hrecv, RecvPos.hand, List.mem_append, List.mem_singleton,
        List.not_mem_nil] at hother ⊢
      tauto
    · intro other hother _
      simp only [Client.here, hrecv, RecvPos.hand, List.mem_append, List.mem_singleton,
        List.not_mem_nil] at hother ⊢
      tauto
    · intro other hother
      rcases List.mem_append.mp hother with hold | hnew
      · exact h.queued other hold
      · rw [List.mem_singleton.mp hnew]
        exact hrouted
    · exact fun hplace => h.socketOpen (hplace.imp (fun hmain => honline ▸ hmain) hlooping)
    · exact fun hplace => h.up (honline ▸ hplace)
    · exact fun request auto hmain => absurd hmain (hwaiting request auto)
    · exact fun request hrequest => hawaits ▸ hrequest
  · refine h.towards ⟨⟨fun _ => id, ?_, rfl, rfl⟩, fun _ => id, ?_⟩
      ⟨h.queued, h.socketOpen, h.up, h.searched, h.matched⟩ fun _ => id
    · intro other hother
      simp only [Client.coming, Client.here, hrecv, RecvPos.hand, List.mem_append, List.mem_singleton,
        List.not_mem_nil] at hother ⊢
      tauto
    · intro other hother hroutes
      have hne : other ≠ msg := by
        rintro rfl
        exact hrouted hroutes
      simp only [Client.here, hrecv, RecvPos.hand, List.mem_append, List.mem_singleton,
        List.not_mem_nil] at hother ⊢
      tauto

theorem Inv.recvRead {msg : ReceivedMsg} {rest : List ReceivedMsg} (h : Inv client)
    (hrecv : client.recv = .reading) (hsocket : client.socket = msg :: rest) :
    Inv { client with socket := rest, recv := .holding msg } := by
  refine h.towards ⟨⟨fun _ => id, ?_, rfl, rfl⟩, fun _ => id, ?_⟩
    ⟨h.queued, h.socketOpen, h.up, h.searched, h.matched⟩ fun _ => id
  · intro other hother
    simp only [Client.coming, Client.here, hrecv, hsocket, RecvPos.hand, List.mem_append, List.mem_cons,
      List.not_mem_nil] at hother ⊢
    tauto
  · intro other hother _
    simp only [Client.here, hrecv, hsocket, RecvPos.hand, List.mem_append, List.mem_cons,
      List.not_mem_nil] at hother ⊢
    tauto

/-- A step of the receive thread without a frame. -/
theorem Inv.moveRecv {recv : RecvPos} (h : Inv client) (hbefore : client.recv.hand = [])
    (hafter : recv.hand = []) : Inv { client with recv } := by
  have hhere : ({ client with recv } : Client).here = client.here := by
    simp only [Client.here, hbefore, hafter]
  exact h.towards (Towards.of_eq rfl rfl hhere rfl rfl)
    ⟨h.queued, h.socketOpen, h.up, h.searched, h.matched⟩ fun _ => id

theorem Inv.recvFail (h : Inv client) (hrecv : client.recv = .reading)
    (hdown : client.alive = false ∨ client.socketClosed = true) :
    Inv { client with connected := false, recv := .ended }.notify := by
  obtain ⟨main, hnotify, hwaiting, hawaits, honline, hlooping⟩ := notify_eq
    { client with connected := false, recv := .ended }
  rw [hnotify]
  have hhere : ({ client with connected := false, recv := .ended, main } : Client).here = client.here := by
    simp only [Client.here, hrecv, RecvPos.hand]
  refine h.towards (Towards.of_eq rfl rfl hhere rfl rfl) ⟨h.queued, ?_, ?_, ?_, h.matched⟩ ?_
  · exact fun hplace => h.socketOpen (hplace.imp (fun hmain => honline ▸ hmain) hlooping)
  · intro hplace _
    rcases hdown with hdead | hclosed
    · exact hdead
    · cases hclosed.symm.trans (h.socketOpen (.inl (honline ▸ hplace)))
  · exact fun request auto hmain => absurd hmain (hwaiting request auto)
  · exact fun request hrequest => hawaits ▸ hrequest

/-- The start of a new connection. -/
theorem Inv.fresh {main : MainPos} {connected : Bool} {recv : RecvPos} (h : Inv client)
    (hhand : recv.hand = []) (hup : connected = true ∨ main.online = false)
    (hawaits : main.awaits = none) : Inv { client.fresh with main, connected, recv } := by
  refine h.shrinks ⟨nofun, ?_, rfl, rfl⟩ ⟨nofun, fun _ => rfl, ?_, ?_, h.matched⟩ ?_
  · intro msg hmsg
    simp [Client.coming, Client.here, Client.fresh, hhand] at hmsg
  · intro honline hconnected
    rcases hup with htrue | hoff
    · cases htrue.symm.trans hconnected
    · cases hoff.symm.trans honline
  · exact fun _ _ _ _ hmsg => absurd hmsg List.not_mem_nil
  · intro request hrequest
    cases hawaits.symm.trans hrequest

theorem Inv.startRecv (h : Inv client) (honline : client.main.online = true) : Inv client.startRecv := by
  refine h.shrinks ⟨fun _ => id, ?_, rfl, rfl⟩
    ⟨h.queued, fun _ => h.socketOpen (.inl honline), nofun, nofun, h.matched⟩ nofun
  intro msg hmsg
  simp only [Client.coming, Client.here, Client.startRecv, RecvPos.hand, List.mem_append,
    List.not_mem_nil] at hmsg ⊢
  tauto

/-- The login request of a reconnect: nothing is due on a new connection. -/
theorem Inv.autoLogin (h : Inv client) : Inv (client.fresh.sendRequest .login true) := by
  have hprompt : Inv { client.fresh with main := .prompt, connected := true, recv := .notStarted } :=
    h.fresh rfl (.inl rfl) rfl
  refine hprompt.sendRequest rfl ?_
  rintro (⟨other, hother, -⟩ | ⟨msg, hmsg, -⟩)
  · cases hother
  · cases hmsg

/-! ### Whole runs -/

theorem Inv.step (h : Inv client) (hok : Disciplined label client)
    (hstep : step label client = some client') : Inv client' := by
  cases steps_of_step hstep with
  | answer _ hrequest => exact h.answer hok hrequest
  | push _ hid =>
    refine h.unsolicited rfl ?_
    unfold routed
    rcases hid with rfl | rfl <;> rfl
  | batch _ hmessages => exact h.unsolicited rfl (by simp [routed, hmessages])
  | deliver hflight _ => exact h.deliver hflight
  | peerCloses =>
    exact h.towards (Towards.of_eq rfl rfl rfl rfl rfl)
      ⟨h.queued, h.socketOpen, fun _ _ => rfl, h.searched, h.matched⟩ fun _ => id
  | recvTest hrecv =>
    refine h.moveRecv (by rw [hrecv]; rfl) ?_
    split_ifs <;> rfl
  | recvRead hrecv hsocket _ => exact h.recvRead hrecv hsocket
  | recvFail hrecv hdown => exact h.recvFail hrecv hdown
  | recvHandle hrecv => exact h.handleFrame hrecv
  | prompted hmain hconnected =>
    refine h.moveMain (fun _ => h.socketOpen (.inr hmain)) (fun _ hdown => ?_) nofun nofun
    cases hconnected.symm.trans hdown
  | disconnected _ _ =>
    exact h.towards (Towards.of_eq rfl rfl rfl rfl rfl)
      ⟨h.queued, fun hplace => hplace.elim nofun nofun, nofun, nofun, h.matched⟩ nofun
  | send hmain => exact h.sendRequest hmain hok
  | sendFails hmain | otherLine hmain | manualReconnect hmain =>
    exact h.moveMain (fun _ => h.socketOpen (.inl (by rw [hmain]; rfl))) nofun nofun nofun
  | quit _ | threw _ => exact h.moveMain (fun hplace => hplace.elim nofun nofun) nofun nofun nofun
  | check hmain =>
    apply h.search
    rcases hmain with hmain | hmain <;> rw [hmain] <;> rfl
  | timeout hmain => exact h.timeout hok hmain
  | spurious hmain =>
    have honline : client.main.online = true := by
      rw [hmain]
      rfl
    refine h.moveMain (fun _ => h.socketOpen (.inl honline)) (fun _ => h.up honline) ?_ nofun
    intro other hother
    rw [hmain]
    exact hother
  | startRecv hmain => exact h.startRecv (by rw [hmain]; rfl)
  | handled hmain _ =>
    exact h.moveMain (fun _ => h.socketOpen (.inl (by rw [hmain]; rfl))) nofun nofun nofun
  | joinEnded _ hrecv =>
    have hmoved : Inv { client with recv := .notStarted } := h.moveRecv (by rw [hrecv]; rfl) rfl
    exact hmoved.moveMain (fun hplace => hplace.elim nofun nofun) nofun nofun nofun
  | joinNotStarted _ _ =>
    exact h.moveMain (fun hplace => hplace.elim nofun nofun) nofun nofun nofun
  | autoLogin _ _ => exact h.autoLogin
  | autoLoginFails _ _ => exact h.fresh rfl (.inr rfl) rfl
  | reconnect _ _ => exact h.fresh rfl (.inl rfl) rfl

/-- **Requests and responses stay matched** in the disciplined runs: what `WaitForResponse` returns is the
response to the request of the command, and it returns that response if it was delivered on a live
connection. -/
theorem responses_matched (hreach : Reaches Disciplined client) :
    ∀ entry ∈ client.returns, entry.Matched := by
  have hinv : Inv client := by
    refine hreach.invariant (fun _ => True) (fun _ _ => trivial) ?_
      fun _ _ _ _ h hok hstep => h.step hok hstep
    rintro _ rfl
    exact inv_initial
  exact hinv.matched

/-! ### Runs -/

instance : DecidablePred Return.Matched := fun entry => match hrsp : entry.rsp with
  | some msg => decidable_of_iff (msg.answers = some entry.request.number)
      ⟨fun h => ⟨fun other hother => Option.some.inj (hrsp.symm.trans hother) ▸ h,
        fun hnone => (by cases hrsp.symm.trans hnone)⟩, fun h => h.own msg hrsp⟩
  | none => decidable_of_iff (entry.alive = true → entry.delivered = false)
      ⟨fun h => ⟨fun other hother => (by cases hrsp.symm.trans hother), fun _ => h⟩, fun h => h.found hrsp⟩

/-- A test for the discipline: no wait times out, and no answer has messages. -/
def keepsDiscipline : Label → Client → Bool
  | .send command, client => !decide (Due client command)
  | .answer _ json, _ => !json.contains "messages"
  | .timeout, _ => false
  | _, _ => true

theorem disciplined_of_test (htest : keepsDiscipline label client = true) : Disciplined label client := by
  cases label with
  | send command =>
    have hdue : ¬ Due client command := by simpa [keepsDiscipline] using htest
    exact hdue
  | answer index json => exact fun _ _ _ _ => by simpa [keepsDiscipline] using htest
  | timeout => cases htest
  | _ => trivial

/-- A command is given, answered and displayed, with a push in between. -/
def answeredRun : List Label :=
  [.recvTest, .mainTest, .send .login, .push MSG_CHAT_MSG_PUSH .null, .deliver, .recvRead, .check,
    .recvHandle, .recvTest, .answer 0 .null, .deliver, .recvRead, .recvHandle, .check,
    .handle .accepted]

theorem responses_matched_answered :
    (Reach.after step answeredRun .initial).returns.length = 1 ∧
      ∀ entry ∈ (Reach.after step answeredRun .initial).returns, entry.Matched := by
  have hmeets : Reach.meets step keepsDiscipline answeredRun .initial = true := by decide
  exact ⟨by decide,
    responses_matched (.of_meets rfl (fun _ _ _ _ h => disciplined_of_test h) hmeets)⟩

/-- `/friends` times out, is answered late, and is given again: the old response is taken for the new one. -/
def staleRun : List Label :=
  [.recvTest, .mainTest, .send .friends, .check, .timeout, .handle .refused, .answer 0 .null, .deliver,
    .recvRead, .recvHandle, .mainTest, .send .friends, .check]

/-- `/offline` is answered with messages, which the receive thread prints. -/
def swallowedRun : List Label :=
  [.recvTest, .mainTest, .send .offline, .check,
    .answer 0 (.object [(ascii "messages", .array [])]), .deliver, .recvRead, .recvHandle, .timeout]

/-- A client that has logged in loses its connection, and logs in again behind the reconnect. -/
def unheardRun : List Label :=
  [.recvTest, .mainTest, .send .login, .answer 0 .null, .deliver, .recvRead, .recvHandle, .check,
    .handle .accepted, .peerCloses, .recvTest, .recvFail, .mainTest, .join, .reconnect true, .check,
    .answer 0 .null, .deliver, .timeout]

/-- A run with a return that is not matched. -/
def Mismatches (run : List Label) : Prop :=
  Reaches (fun _ _ => True) (Reach.after step run .initial) ∧
    ¬ ∀ entry ∈ (Reach.after step run .initial).returns, entry.Matched

theorem mismatches_of_decide {run : List Label}
    (hmeets : Reach.meets step (fun _ _ => true) run .initial = true)
    (hreturns : ¬ ∀ entry ∈ (Reach.after step run .initial).returns, entry.Matched) :
    Mismatches run := ⟨.of_enabled rfl hmeets, hreturns⟩

/-- Each of the three runs by itself has a return that is not matched. -/
theorem responses_mismatched :
    Mismatches staleRun ∧ Mismatches swallowedRun ∧ Mismatches unheardRun ∧
      ¬ ∀ client, Reaches (fun _ _ => True) client → ∀ entry ∈ client.returns, entry.Matched := by
  have hstale : Mismatches staleRun := mismatches_of_decide (by decide) (by decide)
  have hswallowed : Mismatches swallowedRun := mismatches_of_decide (by decide) (by decide)
  have hunheard : Mismatches unheardRun := mismatches_of_decide (by decide) (by decide)
  exact ⟨hstale, hswallowed, hunheard, fun hmatched => hstale.2 (hmatched _ hstale.1)⟩

end CoroutineServer.TestClient
