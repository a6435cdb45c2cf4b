import Mathlib.Logic.Function.Basic
import CoroutineServer.Server
import CoroutineServer.Library.Reach

/-!
# The send queue of a session

`Send` on any number of threads, `HandleWrite` on the thread of the session and `Close` on any thread,
with the writes they start. The mutex is released before `async_write` is called, so a front node can be
in the hands of a thread that has not started its write yet. Sessions are held by `shared_ptr` only, so
`shared_from_this` does not throw.
-/

namespace CoroutineServer

namespace SendQueue

/-- Where a call of `Send` stands. -/
inductive SendPos where
  | idle
  /-- `_b_stop` was false and the length is in range; the mutex is not taken yet. -/
  | checked (node : SendNode)
  /-- Past `unlock`, holding the front node, before `async_write`. -/
  | starting (node : SendNode)
  deriving DecidableEq

/-- Where the thread of the session stands in `HandleWrite`. -/
inductive HandlerPos where
  | idle
  /-- Past `unlock`, holding the front node, before `async_write`. -/
  | starting (node : SendNode)
  /-- After an error, before `Close`. -/
  | leaving
  /-- `pop` was called on an empty queue, which is undefined. -/
  | undefinedPop
  deriving DecidableEq

/-- An `async_write`, from the call until `HandleWrite` has taken the mutex. It has put `sent` bytes of
its buffer on the socket, and `result` is there once it has completed. -/
structure Write where
  node : SendNode
  sent : Nat
  result : Option Bool
  deriving DecidableEq

namespace Write

def buffer (write : Write) : Bytes := write.node.wire

def start (node : SendNode) : Write := ⟨node, 0, none⟩

end Write

/-- What the threads share. `accepted` are the nodes that `Send` has pushed, `given` the buffers that
`async_write` was called with, `wire` the bytes on the socket, and `failed` says that a write has
completed with an error. -/
structure Channel where
  bStop : Bool
  closing : Bool
  isOpen : Bool
  sendQue : List SendNode
  senders : Nat → SendPos
  handler : HandlerPos
  writes : List Write
  accepted : List SendNode
  given : List Bytes
  wire : Bytes
  failed : Bool

def Channel.initial : Channel where
  bStop := false
  closing := false
  isOpen := true
  sendQue := []
  senders := fun _ => .idle
  handler := .idle
  writes := []
  accepted := []
  given := []
  wire := []
  failed := false

inductive Label where
  /-- `Send` is called: the stop flag is read and the length checked. -/
  | send (thread : Nat) (msg : Bytes) (msgid : Int)
  /-- The section of `Send` under the mutex. -/
  | push (thread : Nat)
  /-- `async_write` at the end of `Send`, or of `HandleWrite`. -/
  | startWrite (thread : Nat)
  | startNext
  /-- A write puts `n` more bytes on the socket. -/
  | transfer (index n : Nat)
  | complete (index : Nat) (ok : Bool)
  /-- `HandleWrite` runs for a completed write, up to the end of its section. -/
  | handleWrite (index : Nat)
  /-- `HandleWrite` calls `Close` after an error. -/
  | leave
  /-- `Close` exchanges the stop flag, and then closes the socket. -/
  | close
  | closeSocket

namespace Channel

def setSender (channel : Channel) (thread : Nat) (pos : SendPos) : Channel :=
  { channel with senders := Function.update channel.senders thread pos }

@[simp]
theorem senders_setSender_self (channel : Channel) (thread : Nat) (pos : SendPos) :
    (channel.setSender thread pos).senders thread = pos := Function.update_self _ _ _

@[simp]
theorem senders_setSender_of_ne (channel : Channel) {thread other : Nat} (pos : SendPos)
    (h : other ≠ thread) : (channel.setSender thread pos).senders other = channel.senders other :=
  Function.update_of_ne h _ _

def startWrite (channel : Channel) (node : SendNode) : Channel :=
  { channel with
    writes := channel.writes ++ [.start node]
    given := channel.given ++ [node.wire] }

/-- `_b_stop.compare_exchange_strong(expected, true)`; whoever wins goes on to close the socket. -/
def exchange (channel : Channel) : Channel :=
  { channel with bStop := true, closing := channel.closing || !channel.bStop }

/-- The section of `Send`: the node is pushed unless the queue is full, and the thread keeps the front
if the queue was empty. -/
def push (channel : Channel) (thread : Nat) (node : SendNode) : Channel :=
  if channel.sendQue.length > MAX_SENDQUE then channel.setSender thread .idle
  else
    let pushed := { channel with
      sendQue := channel.sendQue ++ [node]
      accepted := channel.accepted ++ [node] }
    match channel.sendQue with
    | [] => pushed.setSender thread (.starting node)
    | _ :: _ => pushed.setSender thread .idle

/-- The section of `HandleWrite` without an error: the front is popped, the next one kept. -/
def pop (channel : Channel) : Channel :=
  match channel.sendQue with
  | [] => { channel with handler := .undefinedPop }
  | [_] => { channel with sendQue := [] }
  | _ :: next :: rest => { channel with sendQue := next :: rest, handler := .starting next }

end Channel

def step : Label → Channel → Option Channel
  | .send thread msg msgid, channel =>
      if channel.senders thread = .idle then
        if channel.bStop then some channel
        else match sendNode msg msgid with
          | some (.ok node) => some (channel.setSender thread (.checked node))
          | _ => some channel
      else none
  | .push thread, channel => match channel.senders thread with
      | .checked node => some (channel.push thread node)
      | _ => none
  | .startWrite thread, channel => match channel.senders thread with
      | .starting node => some ((channel.startWrite node).setSender thread .idle)
      | _ => none
  | .startNext, channel => match channel.handler with
      | .starting node => some { channel.startWrite node with handler := .idle }
      | _ => none
  | .transfer index n, channel => match channel.writes[index]? with
      | some ⟨node, sent, none⟩ =>
          if channel.isOpen = true ∧ sent + n ≤ node.wire.length then some { channel with
            writes := channel.writes.set index ⟨node, sent + n, none⟩
            wire := channel.wire ++ (node.wire.drop sent).take n }
          else none
      | _ => none
  | .complete index ok, channel => match channel.writes[index]? with
      | some ⟨node, sent, none⟩ =>
          -- a write completes without an error only when the whole buffer has been written
          if ok = true → sent = node.wire.length then some { channel with
            writes := channel.writes.set index ⟨node, sent, some ok⟩
            failed := channel.failed || !ok }
          else none
      | _ => none
  | .handleWrite index, channel => match channel.handler, channel.writes[index]? with
      | .idle, some ⟨_, _, some ok⟩ =>
          let taken := { channel with writes := channel.writes.eraseIdx index }
          some (if ok then taken.pop else { taken with handler := .leaving })
      | _, _ => none
  | .leave, channel => match channel.handler with
      | .leaving => some { channel.exchange with handler := .idle }
      | _ => none
  | .close, channel => some channel.exchange
  | .closeSocket, channel =>
      if channel.closing then some { channel with closing := false, isOpen := false } else none

abbrev Reaches : Channel → Prop :=
  Reach.Reaches step (fun channel => channel = .initial) fun _ _ => True

end SendQueue

end CoroutineServer
