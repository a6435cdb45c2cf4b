import CoroutineServer.MsgNode

/-!
# The read loop

`CSession::Start` reads a header and a body in turn, checks the header between the two, and hands
each complete message to the logic queue. The peer's bytes come as a list of TCP segments followed by
the end of the stream.
-/

namespace CoroutineServer

/-! ### Reading from the socket -/

/-- Receiving until exactly `n` bytes have come; the end of the stream throws. -/
def readExactly (n : Nat) : List Bytes → Option (Bytes × List Bytes)
  | [] => if n = 0 then some ([], []) else none
  | segment :: segments =>
      if n ≤ segment.length then some (segment.take n, segment.drop n :: segments)
      else (readExactly (n - segment.length) segments).map fun (bytes, rest) =>
        (segment ++ bytes, rest)

/-- `async_read` of `request` bytes into a buffer of `capacity` bytes, `none` for a thrown error. The
socket refuses to receive into memory the buffer does not have. -/
def asyncRead (capacity request : Nat) (socket : List Bytes) : Option (Bytes × List Bytes) :=
  if request ≤ capacity then readExactly request socket else none

/-! ### The header checks -/

inductive HeaderOutcome where
  /-- One of the two range checks fails: the session is closed and cleared. -/
  | reject
  /-- The constructor of `RecvNode` throws: the catch block closes and clears. -/
  | throws
  /-- The body read starts, into the buffer of `node`. -/
  | readBody (node : RecvNode)
  deriving DecidableEq, Repr

def HeaderOutcome.ofConstructor : Except Fault RecvNode → HeaderOutcome
  | .error _ => .throws
  | .ok node => .readBody node

/-- What happens between the two reads, given the header buffer. -/
def headerOutcome (header : Bytes) : HeaderOutcome :=
  let msgId := networkShort header 0
  if msgId < MSG_HELLO_WORLD ∨ msgId > MAX_MSG_ID then .reject
  else
    let msgLen := networkShort header HEAD_ID_LEN
    if msgLen > MAX_LENGTH then .reject
    else .ofConstructor (RecvNode.new msgLen msgId)

/-- The number of bytes the body read asks for. -/
def RecvNode.bodyRequest (node : RecvNode) : Nat := toSizeT node.totalLen

/-! ### The loop -/

/-- What the coroutine reads and writes: the reused header buffer, the socket, the messages posted so
far in order, the stop flag, and whether the session's uuid is a key of `CServer::_sessions`. -/
structure ReadState where
  recvHeadNode : MsgNode
  socket : List Bytes
  posted : List RecvNode
  bStop : Bool
  registered : Bool

namespace ReadState

/-- `Close(); _server->ClearSession(_uuid);`, the way every exit of the loop ends. -/
def closeAndClear (state : ReadState) : ReadState :=
  { state with bStop := true, registered := false }

/-- The state of a session `CServer::HandleAccept` has just started and registered. -/
def accepted (socket : List Bytes) : ReadState :=
  { recvHeadNode := ⟨0, HEAD_TOTAL_LEN, List.replicate (HEAD_TOTAL_LEN + 1) 0⟩
    socket, posted := [], bStop := false, registered := true }

def remaining (state : ReadState) : Nat := state.socket.flatten.length

end ReadState

/-- A turn of the loop either ends the coroutine or goes back to the loop condition. -/
inductive Turn where
  | finished (state : ReadState)
  | again (state : ReadState)

/-- `_data[_total_len] = '\0'; _cur_len = _total_len;` after a body has been read into the node. -/
def RecvNode.complete (node : RecvNode) (body : Bytes) : RecvNode :=
  { node with
    data := (node.fill body).data.set (toSizeT node.totalLen) 0
    curLen := node.totalLen }

/-- The end of a turn: the body is read into its node, and the node is posted. -/
def bodyTurn (state : ReadState) (node : RecvNode) : Turn :=
  match asyncRead node.data.length node.bodyRequest state.socket with
  | none => .finished state.closeAndClear
  | some (body, socket) =>
      if body.length = 0 then .finished { state with socket }.closeAndClear
      else .again { state with socket, posted := state.posted ++ [node.complete body] }

/-- The middle of a turn, by the outcome of the checks on the header that has been read. -/
def HeaderOutcome.turn (state : ReadState) : HeaderOutcome → Turn
  | .reject => .finished state.closeAndClear
  | .throws => .finished state.closeAndClear
  | .readBody node => bodyTurn state node

def headerTurn (state : ReadState) : Turn :=
  (headerOutcome state.recvHeadNode.data).turn state

def readTurn (state : ReadState) : Turn :=
  match asyncRead state.recvHeadNode.clear.data.length HEAD_TOTAL_LEN state.socket with
  | none => .finished { state with recvHeadNode := state.recvHeadNode.clear }.closeAndClear
  | some (header, socket) =>
      if header.length = 0 then .finished { state with socket }.closeAndClear
      else headerTurn { state with recvHeadNode := state.recvHeadNode.clear.fill header, socket }

/-! ### Reads and segments -/

/-- Where the bytes are cut into segments makes no difference to a read. -/
theorem readExactly_eq_some {n : Nat} {socket : List Bytes} (h : n ≤ socket.flatten.length) :
    ∃ rest, readExactly n socket = some (socket.flatten.take n, rest) ∧
      rest.flatten = socket.flatten.drop n := by
  induction socket generalizing n with
  | nil =>
    have hzero : n = 0 := by simpa using h
    subst hzero
    exact ⟨[], rfl, rfl⟩
  | cons segment segments ih =>
    unfold readExactly
    by_cases hfits : n ≤ segment.length
    · refine ⟨segment.drop n :: segments, ?_, ?_⟩
      · rw [if_pos hfits, List.flatten_cons, List.take_append_of_le_length hfits]
      · rw [List.flatten_cons, List.flatten_cons, List.drop_append_of_le_length hfits]
    · rw [List.flatten_cons, List.length_append] at h
      obtain ⟨rest, hread, hrest⟩ := ih (n := n - segment.length) (by omega)
      refine ⟨rest, ?_, ?_⟩
      · rw [if_neg hfits, hread, List.flatten_cons, Option.map_some, List.take_append,
          List.take_of_length_le (l := segment) (by omega)]
      · rw [hrest, List.flatten_cons, List.drop_append,
          List.drop_of_length_le (l := segment) (by omega)]
        rfl

theorem readExactly_eq_none {n : Nat} {socket : List Bytes} (h : socket.flatten.length < n) :
    readExactly n socket = none := by
  induction socket generalizing n with
  | nil =>
    unfold readExactly
    rw [if_neg (by simp at h; omega)]
  | cons segment segments ih =>
    rw [List.flatten_cons, List.length_append] at h
    unfold readExactly
    rw [if_neg (by omega), ih (by omega)]
    rfl

theorem asyncRead_eq_some {capacity n : Nat} {socket : List Bytes} {bytes : Bytes}
    {rest : List Bytes} (h : asyncRead capacity n socket = some (bytes, rest)) :
    n ≤ socket.flatten.length ∧ bytes = socket.flatten.take n ∧
      rest.flatten = socket.flatten.drop n := by
  unfold asyncRead at h
  split at h
  · by_cases henough : n ≤ socket.flatten.length
    · obtain ⟨rest', hread, hrest⟩ := readExactly_eq_some henough
      rw [hread] at h
      obtain ⟨rfl, rfl⟩ := Prod.mk.inj (Option.some.inj h)
      exact ⟨henough, rfl, hrest⟩
    · rw [readExactly_eq_none (by omega)] at h
      cases h
  · cases h

theorem remaining_le_of_bodyTurn {state next : ReadState} {node : RecvNode}
    (h : bodyTurn state node = .again next) : next.remaining ≤ state.remaining := by
  unfold bodyTurn at h
  split at h
  · cases h
  · rename_i body socket hbody
    obtain ⟨-, -, hsocket⟩ := asyncRead_eq_some hbody
    split at h
    · cases h
    · obtain rfl := Turn.again.inj h
      unfold ReadState.remaining
      rw [hsocket, List.length_drop]
      exact Nat.sub_le _ _

theorem remaining_le_of_headerTurn {state next : ReadState}
    (h : headerTurn state = .again next) : next.remaining ≤ state.remaining := by
  unfold headerTurn at h
  cases houtcome : headerOutcome state.recvHeadNode.data with
  | reject =>
    rw [houtcome] at h
    cases h
  | throws =>
    rw [houtcome] at h
    cases h
  | readBody node =>
    rw [houtcome] at h
    exact remaining_le_of_bodyTurn h

/-- Every turn that goes on has consumed a whole header. -/
theorem remaining_lt_of_again {state next : ReadState} (h : readTurn state = .again next) :
    next.remaining < state.remaining := by
  unfold readTurn at h
  split at h
  · cases h
  · rename_i header socket hheader
    obtain ⟨henough, -, hsocket⟩ := asyncRead_eq_some hheader
    split at h
    · cases h
    · have hle := remaining_le_of_headerTurn h
      have hpos : 0 < HEAD_TOTAL_LEN := by decide
      unfold ReadState.remaining at hle ⊢
      rw [hsocket, List.length_drop] at hle
      omega

/-- `for (; !_b_stop;)`. Only the loop itself sets the flag here. -/
def readLoop (state : ReadState) : ReadState :=
  if state.bStop then state
  else match _hturn : readTurn state with
    | .finished final => final
    | .again next => readLoop next
termination_by state.remaining
decreasing_by exact remaining_lt_of_again _hturn

/-- `CSession::Start` on the segments the peer sends before it ends the stream. -/
def start (socket : List Bytes) : ReadState := readLoop (ReadState.accepted socket)

end CoroutineServer
