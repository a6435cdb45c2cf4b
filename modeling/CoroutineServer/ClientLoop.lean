import CoroutineServer.Const
import CoroutineServer.Json
import CoroutineServer.Library.Reach

/-!
# The loop of the test client

`main`, `RecvThreadFunc` and `WaitForResponse` of the client against a server that answers each request
with one frame, at any time and in any order, and pushes frames in between. A frame carries the number of
the request it answers for the statements; the client does not see it.
-/

namespace CoroutineServer.TestClient

inductive Command where
  | register
  | login
  | friends
  | addFriend
  | chat
  | offline
  deriving DecidableEq

def Command.rspId : Command → Int
  | .register => MSG_REGISTER_RSP
  | .login => MSG_LOGIN_RSP
  | .friends => MSG_GET_FRIEND_LIST_RSP
  | .addFriend => MSG_ADD_FRIEND_RSP
  | .chat => MSG_SEND_CHAT_RSP
  | .offline => MSG_OFFLINE_MSG_RSP

/-- A request that `SendMsg` has sent, by the order of sending. -/
structure Request where
  number : Nat
  command : Command
  deriving DecidableEq

/-- A frame from the server, as `RecvOneMessage` and the parser read it. -/
structure ReceivedMsg where
  msgId : Int
  json : Json
  answers : Option Nat

/-- Where `RecvThreadFunc` stands. -/
inductive RecvPos where
  /-- There is no thread. -/
  | notStarted
  /-- Before the test of `g_stop_recv`. -/
  | looping
  | reading
  /-- Behind `RecvOneMessage`. -/
  | holding (msg : ReceivedMsg)
  | ended

/-- Where `main` stands. `auto` is for the login behind a reconnect. -/
inductive MainPos where
  /-- At the head of the loop. -/
  | looping
  /-- Waiting for a line, on a connection that was up at the head of the loop. -/
  | prompt
  /-- In `WaitForResponse`, before the queue is searched for the first time. -/
  | checking (request : Request) (auto : Bool)
  /-- In `wait_for`, without a notification. -/
  | waiting (request : Request) (auto : Bool)
  /-- In `wait_for`, notified. -/
  | woken (request : Request) (auto : Bool)
  /-- `WaitForResponse` has returned. -/
  | returned (request : Request) (auto : Bool) (rsp : Option ReceivedMsg)
  /-- The connection was lost: the socket is closed, and the thread is joined. -/
  | joining
  /-- Waiting for `/reconnect` or `/quit`. -/
  | offline
  | exited

/-- The request whose response is waited for. -/
def MainPos.awaits : MainPos → Option Request
  | .checking request _ => some request
  | .waiting request _ => some request
  | .woken request _ => some request
  | _ => none

/-- What `WaitForResponse` returned, and whether the response had been delivered on a live connection. -/
structure Return where
  request : Request
  rsp : Option ReceivedMsg
  alive : Bool
  delivered : Bool

/-- The client with its connection. `requests` are with the server, `inFlight` the frames on the way to the
client and `socket` those delivered; `cached` says that there are credentials from an earlier login. -/
structure Client where
  requests : List Request
  inFlight : List ReceivedMsg
  socket : List ReceivedMsg
  alive : Bool
  socketClosed : Bool
  recvQueue : List ReceivedMsg
  stopRecv : Bool
  connected : Bool
  cached : Bool
  recv : RecvPos
  main : MainPos
  sent : Nat
  delivered : List Nat
  returns : List Return

/-- The client behind its first `TryConnect`, with its receive thread. -/
def Client.initial : Client where
  requests := []
  inFlight := []
  socket := []
  alive := true
  socketClosed := false
  recvQueue := []
  stopRecv := false
  connected := true
  cached := false
  recv := .looping
  main := .looping
  sent := 0
  delivered := []
  returns := []

/-- What the body of a response to a login, or an exception while it is printed, decides. -/
inductive Handled where
  | accepted
  | refused
  | threw
  deriving DecidableEq

inductive Label where
  /-- The server answers a request. -/
  | answer (index : Nat) (json : Json)
  | push (msgId : Int) (json : Json)
  /-- The offline batch that the server sends at a login. -/
  | batch (json : Json)
  | deliver
  /-- The connection breaks, or the server closes it. -/
  | peerCloses
  | recvTest
  | recvRead
  /-- `RecvOneMessage` returns false. -/
  | recvFail
  | recvHandle
  | mainTest
  /-- A command whose `SendMsg` succeeds, or fails. -/
  | send (command : Command)
  | sendFails
  /-- A line that sends nothing. -/
  | otherLine
  | manualReconnect
  | quit
  | check
  | timeout
  | spurious
  | handle (outcome : Handled)
  | join
  /-- `/reconnect` behind a lost connection; the login request can fail to be sent. -/
  | reconnect (sends : Bool)

/-- The frame goes to `g_recv_queue`, rather than to the screen. -/
def routed (msg : ReceivedMsg) : Bool :=
  if msg.msgId = MSG_CHAT_MSG_PUSH then false
  else if msg.msgId = MSG_FRIEND_REQUEST_PUSH then false
  else if msg.msgId = MSG_OFFLINE_MSG_RSP ∧ msg.json.contains "messages" = true then false
  else true

/-- The inner loop of `WaitForResponse`: a later match replaces an earlier one. -/
def drain (expected : Int) : List ReceivedMsg → Option ReceivedMsg → List ReceivedMsg →
    Option ReceivedMsg × List ReceivedMsg
  | [], result, temp => (result, temp)
  | msg :: queue, result, temp =>
      if msg.msgId = expected then drain expected queue (some msg) temp
      else drain expected queue result (temp ++ [msg])

namespace Client

/-- A notification of `g_recv_cv`, on which only `main` waits. -/
def notify (client : Client) : Client := match client.main with
  | .waiting request auto => { client with main := .woken request auto }
  | _ => client

/-- `SendMsg` hands a request to the server, and `WaitForResponse` begins. -/
def sendRequest (client : Client) (command : Command) (auto : Bool) : Client :=
  { client with
    requests := client.requests ++ [⟨client.sent, command⟩]
    sent := client.sent + 1
    main := .checking ⟨client.sent, command⟩ auto }

def giveBack (client : Client) (request : Request) (auto : Bool) (rsp : Option ReceivedMsg) : Client :=
  { client with
    main := .returned request auto rsp
    returns := ⟨request, rsp, client.alive, decide (request.number ∈ client.delivered)⟩ ::
      client.returns }

/-- One round of `WaitForResponse` under the mutex. -/
def search (client : Client) (request : Request) (auto : Bool) : Client :=
  let (result, temp) := drain request.command.rspId client.recvQueue none []
  let client := { client with recvQueue := temp }
  match result with
  | some msg => client.giveBack request auto (some msg)
  | none =>
      if client.connected then { client with main := .waiting request auto }
      else client.giveBack request auto none

/-- The rest of the receive thread's loop for a frame. -/
def handleFrame (client : Client) (msg : ReceivedMsg) : Client :=
  let client := { client with recv := .looping }
  if routed msg then { client with recvQueue := client.recvQueue ++ [msg] }.notify else client

/-- A new socket, a new connection and an empty queue; the receive thread is not there yet. -/
def fresh (client : Client) : Client :=
  { client with
    requests := []
    inFlight := []
    socket := []
    alive := true
    socketClosed := false
    recvQueue := []
    stopRecv := false
    connected := true
    recv := .notStarted }

def startRecv (client : Client) : Client := { client with recv := .looping, main := .looping }

end Client

def step : Label → Client → Option Client
  | .answer index json, client => match client.requests[index]? with
      | some request =>
          if client.alive then some { client with
            requests := client.requests.eraseIdx index
            inFlight := client.inFlight ++ [⟨request.command.rspId, json, some request.number⟩] }
          else none
      | none => none
  | .push msgId json, client =>
      if client.alive = true ∧ (msgId = MSG_CHAT_MSG_PUSH ∨ msgId = MSG_FRIEND_REQUEST_PUSH) then
        some { client with inFlight := client.inFlight ++ [⟨msgId, json, none⟩] }
      else none
  | .batch json, client =>
      if client.alive = true ∧ json.contains "messages" = true then
        some { client with inFlight := client.inFlight ++ [⟨MSG_OFFLINE_MSG_RSP, json, none⟩] }
      else none
  | .deliver, client => match client.inFlight with
      | msg :: rest => if client.socketClosed then none
          else some { client with
            inFlight := rest
            socket := client.socket ++ [msg]
            delivered := msg.answers.toList ++ client.delivered }
      | [] => none
  | .peerCloses, client => some { client with alive := false }
  | .recvTest, client => match client.recv with
      | .looping => some { client with recv := if client.stopRecv then .ended else .reading }
      | _ => none
  | .recvRead, client => match client.recv, client.socket with
      | .reading, msg :: rest => if client.socketClosed then none
          else some { client with socket := rest, recv := .holding msg }
      | _, _ => none
  | .recvFail, client => match client.recv with
      | .reading =>
          if client.alive = false ∨ client.socketClosed = true then
            some { client with connected := false, recv := .ended }.notify
          else none
      | _ => none
  | .recvHandle, client => match client.recv with
      | .holding msg => some (client.handleFrame msg)
      | _ => none
  | .mainTest, client => match client.main with
      | .looping => some
          (if client.connected then { client with main := .prompt }
          else { client with stopRecv := true, socketClosed := true, main := .joining })
      | _ => none
  | .send command, client => match client.main with
      | .prompt => some (client.sendRequest command false)
      | _ => none
  | .sendFails, client => match client.main with
      | .prompt => some { client with connected := false, main := .looping }
      | _ => none
  | .otherLine, client => match client.main with
      | .prompt => some { client with main := .looping }
      | _ => none
  | .manualReconnect, client => match client.main with
      | .prompt => some { client with connected := false, main := .looping }
      | _ => none
  | .quit, client => match client.main with
      | .prompt => some { client with main := .exited }
      | .offline => some { client with main := .exited }
      | _ => none
  | .check, client => match client.main with
      | .checking request auto => some (client.search request auto)
      | .woken request auto => some (client.search request auto)
      | _ => none
  | .timeout, client => match client.main with
      -- the status of `wait_for` tells the time, also when the thread was notified
      | .waiting request auto => some (client.giveBack request auto none)
      | .woken request auto => some (client.giveBack request auto none)
      | _ => none
  | .spurious, client => match client.main with
      | .waiting request auto => some { client with main := .woken request auto }
      | _ => none
  | .handle outcome, client => match client.main with
      | .returned _ true none => some client.startRecv
      | .returned _ true (some _) => some
          (if outcome = .threw then { client with main := .exited } else client.startRecv)
      | .returned request false none => some { client with
          -- `value` of a null response throws, and `/login` does not test for null
          main := if request.command = .login then .exited else .looping }
      | .returned request false (some _) => some
          (if outcome = .threw then { client with main := .exited }
          else { client with
            cached := client.cached || decide (request.command = .login ∧ outcome = .accepted)
            main := .looping })
      | _ => none
  | .join, client => match client.main, client.recv with
      | .joining, .ended => some { client with main := .offline, recv := .notStarted }
      | .joining, .notStarted => some { client with main := .offline }
      | _, _ => none
  | .reconnect sends, client => match client.main with
      | .offline => some
          (if client.cached then
            if sends then client.fresh.sendRequest .login true
            else { client.fresh with connected := false }.startRecv
          else client.fresh.startRecv)
      | _ => none

/-- The runs whose steps all meet a condition. -/
abbrev Reaches (ok : Label → Client → Prop) : Client → Prop :=
  Reach.Reaches step (fun client => client = .initial) ok

/-! ### What is to hold -/

/-- The response is the one to the request, and there is one if it was delivered on a live connection. -/
structure Return.Matched (entry : Return) : Prop where
  own : ∀ msg, entry.rsp = some msg → msg.answers = some entry.request.number
  found : entry.rsp = none → entry.alive = true → entry.delivered = false

end CoroutineServer.TestClient
