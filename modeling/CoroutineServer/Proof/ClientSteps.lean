import CoroutineServer.ClientLoop

/-!
# What one step of the test client does

The step function read backwards: each branch in which a step is enabled, with its guards and the state it
leads to. The arguments about runs go through these and not through the function.
-/

namespace CoroutineServer.TestClient

variable {client client' : Client} {label : Label}

inductive Steps (client : Client) : Label → Client → Prop where
  | answer {index : Nat} {json : Json} {request : Request} (halive : client.alive = true)
      (hrequest : client.requests[index]? = some request) :
      Steps client (.answer index json) { client with
        requests := client.requests.eraseIdx index
        inFlight := client.inFlight ++ [⟨request.command.rspId, json, some request.number⟩] }
  | push {msgId : Int} {json : Json} (halive : client.alive = true)
      (hid : msgId = MSG_CHAT_MSG_PUSH ∨ msgId = MSG_FRIEND_REQUEST_PUSH) :
      Steps client (.push msgId json)
        { client with inFlight := client.inFlight ++ [⟨msgId, json, none⟩] }
  | batch {json : Json} (halive : client.alive = true)
      (hmessages : json.contains "messages" = true) :
      Steps client (.batch json)
        { client with inFlight := client.inFlight ++ [⟨MSG_OFFLINE_MSG_RSP, json, none⟩] }
  | deliver {msg : ReceivedMsg} {rest : List ReceivedMsg} (hflight : client.inFlight = msg :: rest)
      (hopen : client.socketClosed = false) :
      Steps client .deliver { client with
        inFlight := rest
        socket := client.socket ++ [msg]
        delivered := msg.answers.toList ++ client.delivered }
  | peerCloses : Steps client .peerCloses { client with alive := false }
  | recvTest (hrecv : client.recv = .looping) :
      Steps client .recvTest { client with recv := if client.stopRecv then .ended else .reading }
  | recvRead {msg : ReceivedMsg} {rest : List ReceivedMsg} (hrecv : client.recv = .reading)
      (hsocket : client.socket = msg :: rest) (hopen : client.socketClosed = false) :
      Steps client .recvRead { client with socket := rest, recv := .holding msg }
  | recvFail (hrecv : client.recv = .reading)
      (hdown : client.alive = false ∨ client.socketClosed = true) :
      Steps client .recvFail { client with connected := false, recv := .ended }.notify
  | recvHandle {msg : ReceivedMsg} (hrecv : client.recv = .holding msg) :
      Steps client .recvHandle (client.handleFrame msg)
  | prompted (hmain : client.main = .looping) (hconnected : client.connected = true) :
      Steps client .mainTest { client with main := .prompt }
  | disconnected (hmain : client.main = .looping) (hconnected : client.connected = false) :
      Steps client .mainTest { client with stopRecv := true, socketClosed := true, main := .joining }
  | send {command : Command} (hmain : client.main = .prompt) :
      Steps client (.send command) (client.sendRequest command false)
  | sendFails (hmain : client.main = .prompt) :
      Steps client .sendFails { client with connected := false, main := .looping }
  | otherLine (hmain : client.main = .prompt) :
      Steps client .otherLine { client with main := .looping }
  | manualReconnect (hmain : client.main = .prompt) :
      Steps client .manualReconnect { client with connected := false, main := .looping }
  | quit (hmain : client.main = .prompt ∨ client.main = .offline) :
      Steps client .quit { client with main := .exited }
  | check {request : Request} {auto : Bool}
      (hmain : client.main = .checking request auto ∨ client.main = .woken request auto) :
      Steps client .check (client.search request auto)
  | timeout {request : Request} {auto : Bool}
      (hmain : client.main = .waiting request auto ∨ client.main = .woken request auto) :
      Steps client .timeout (client.giveBack request auto none)
  | spurious {request : Request} {auto : Bool} (hmain : client.main = .waiting request auto) :
      Steps client .spurious { client with main := .woken request auto }
  | startRecv {outcome : Handled} {request : Request} {rsp : Option ReceivedMsg}
      (hmain : client.main = .returned request true rsp) : Steps client (.handle outcome) client.startRecv
  | threw {outcome : Handled} {request : Request} {auto : Bool} {rsp : Option ReceivedMsg}
      (hmain : client.main = .returned request auto rsp) :
      Steps client (.handle outcome) { client with main := .exited }
  | handled {outcome : Handled} {request : Request} {rsp : Option ReceivedMsg} {cached : Bool}
      (hmain : client.main = .returned request false rsp)
      (hcached : cached = true → client.cached = true ∨ request.command = .login) :
      Steps client (.handle outcome) { client with cached, main := .looping }
  | joinEnded (hmain : client.main = .joining) (hrecv : client.recv = .ended) :
      Steps client .join { client with main := .offline, recv := .notStarted }
  | joinNotStarted (hmain : client.main = .joining) (hrecv : client.recv = .notStarted) :
      Steps client .join { client with main := .offline }
  | autoLogin (hmain : client.main = .offline) (hcached : client.cached = true) :
      Steps client (.reconnect true) (client.fresh.sendRequest .login true)
  | autoLoginFails (hmain : client.main = .offline) (hcached : client.cached = true) :
      Steps client (.reconnect false) { client.fresh with connected := false }.startRecv
  | reconnect {sends : Bool} (hmain : client.main = .offline) (hcached : client.cached = false) :
      Steps client (.reconnect sends) client.fresh.startRecv

theorem steps_of_step (hstep : step label client = some client') : Steps client label client' := by
  cases label with
  | answer index json =>
    simp only [step] at hstep
    split at hstep
    · next request hrequest =>
      simp only [Option.ite_none_right_eq_some, Option.some.injEq] at hstep
      obtain ⟨halive, rfl⟩ := hstep
      exact .answer halive hrequest
    · cases hstep
  | push msgId json =>
    simp only [step, Option.ite_none_right_eq_some, Option.some.injEq] at hstep
    obtain ⟨⟨halive, hid⟩, rfl⟩ := hstep
    exact .push halive hid
  | batch json =>
    simp only [step, Option.ite_none_right_eq_some, Option.some.injEq] at hstep
    obtain ⟨⟨halive, hmessages⟩, rfl⟩ := hstep
    exact .batch halive hmessages
  | deliver =>
    simp only [step] at hstep
    split at hstep
    · next msg rest hflight =>
      simp only [Option.ite_none_left_eq_some, Option.some.injEq, Bool.not_eq_true] at hstep
      obtain ⟨hopen, rfl⟩ := hstep
      exact .deliver hflight hopen
    · cases hstep
  | peerCloses =>
    obtain rfl := Option.some.inj hstep
    exact .peerCloses
  | recvRead =>
    simp only [step] at hstep
    split at hstep
    · next msg rest hrecv hsocket =>
      simp only [Option.ite_none_left_eq_some, Option.some.injEq, Bool.not_eq_true] at hstep
      obtain ⟨hopen, rfl⟩ := hstep
      exact .recvRead hrecv hsocket hopen
    · cases hstep
  | recvFail =>
    simp only [step] at hstep
    split at hstep
    · next hrecv =>
      simp only [Option.ite_none_right_eq_some, Option.some.injEq] at hstep
      obtain ⟨hdown, rfl⟩ := hstep
      exact .recvFail hrecv hdown
    · cases hstep
  | mainTest =>
    simp only [step] at hstep
    split at hstep
    · next hmain =>
      obtain rfl := Option.some.inj hstep
      split_ifs with hconnected
      · exact .prompted hmain hconnected
      · exact .disconnected hmain (by simpa using hconnected)
    · cases hstep
  | recvTest | recvHandle | send | sendFails | otherLine | manualReconnect | spurious =>
    simp only [step] at hstep
    split at hstep
    · next hpos =>
      obtain rfl := Option.some.inj hstep
      constructor
      exact hpos
    · cases hstep
  | quit | check | timeout =>
    simp only [step] at hstep
    split at hstep
    · next hmain =>
      obtain rfl := Option.some.inj hstep
      constructor
      exact .inl hmain
    · next hmain =>
      obtain rfl := Option.some.inj hstep
      constructor
      exact .inr hmain
    · cases hstep
  | handle outcome =>
    simp only [step] at hstep
    split at hstep
    · next hmain =>
      obtain rfl := Option.some.inj hstep
      exact .startRecv hmain
    · next hmain =>
      obtain rfl := Option.some.inj hstep
      split_ifs
      · exact .threw hmain
      · exact .startRecv hmain
    · next hmain =>
      obtain rfl := Option.some.inj hstep
      split_ifs
      · exact .threw hmain
      · exact .handled hmain .inl
    · next hmain =>
      obtain rfl := Option.some.inj hstep
      split_ifs
      · exact .threw hmain
      · refine .handled hmain fun hcached => ?_
        exact (Bool.or_eq_true_iff.mp hcached).imp_right fun h => (of_decide_eq_true h).1
    · cases hstep
  | join =>
    simp only [step] at hstep
    split at hstep
    · next hmain hrecv =>
      obtain rfl := Option.some.inj hstep
      exact .joinEnded hmain hrecv
    · next hmain hrecv =>
      obtain rfl := Option.some.inj hstep
      exact .joinNotStarted hmain hrecv
    · cases hstep
  | reconnect sends =>
    simp only [step] at hstep
    split at hstep
    · next hmain =>
      obtain rfl := Option.some.inj hstep
      split_ifs with hcached hsends
      · rw [hsends]
        exact .autoLogin hmain hcached
      · rw [Bool.eq_false_iff.mpr hsends]
        exact .autoLoginFails hmain hcached
      · exact .reconnect hmain (by simpa using hcached)
    · cases hstep

end CoroutineServer.TestClient
