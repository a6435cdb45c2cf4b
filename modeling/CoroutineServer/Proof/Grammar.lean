import CoroutineServer.Proof.Buffers

/-!
# The read loop accepts the frame grammar

One turn of the loop decodes one frame of the grammar off the stream, or closes the session when the
stream starts with none. The whole loop therefore posts the longest prefix of the stream that is a
concatenation of frames.
-/

namespace CoroutineServer

open Wire

/-- The reused header buffer keeps its size. -/
def HeadBuffer (node : MsgNode) : Prop :=
  node.totalLen = (HEAD_TOTAL_LEN : Nat) ∧ node.data.length = HEAD_TOTAL_LEN + 1

theorem length_clear_headBuffer {node : MsgNode} (h : HeadBuffer node) :
    node.clear.data.length = HEAD_TOTAL_LEN + 1 := by
  obtain ⟨htotal, hlength⟩ := h
  unfold MsgNode.clear
  rw [htotal, toSizeT_natCast (by decide), List.length_append, List.length_replicate,
    List.length_drop, hlength]
  rfl

theorem headBuffer_fill {node : MsgNode} (h : HeadBuffer node) {header : Bytes}
    (hlength : header.length = HEAD_TOTAL_LEN) : HeadBuffer (node.clear.fill header) := by
  refine ⟨h.1, ?_⟩
  unfold MsgNode.fill
  rw [List.length_append, List.length_drop, length_clear_headBuffer h, hlength]
  rfl

/-! ### One turn -/

/-- The state a refused stream ends in: nothing more posted, closed and cleared. -/
def EndsAfter (state final : ReadState) : Prop :=
  final.posted = state.posted ∧ final.bStop = true ∧ final.registered = false

theorem endsAfter_closeAndClear (state : ReadState) : EndsAfter state state.closeAndClear :=
  ⟨rfl, rfl, rfl⟩

theorem readTurn_of_header {state : ReadState} (hbuffer : HeadBuffer state.recvHeadNode)
    {idHigh idLow lenHigh lenLow : UInt8} {rest : Bytes}
    (hstream : state.socket.flatten = idHigh :: idLow :: lenHigh :: lenLow :: rest) :
    ∃ next : ReadState, readTurn state = headerTurn next ∧
      HeadBuffer next.recvHeadNode ∧ next.socket.flatten = rest ∧ next.posted = state.posted ∧
      next.bStop = state.bStop ∧
      networkShort next.recvHeadNode.data 0 = toShort (unsigned16 idHigh idLow : Nat) ∧
      networkShort next.recvHeadNode.data HEAD_ID_LEN
        = toShort (unsigned16 lenHigh lenLow : Nat) := by
  have henough : HEAD_TOTAL_LEN ≤ state.socket.flatten.length := by
    rw [hstream]
    simp [HEAD_TOTAL_LEN]
  obtain ⟨socket, hread, hsocket⟩ := readExactly_eq_some henough
  have htake : state.socket.flatten.take HEAD_TOTAL_LEN = [idHigh, idLow, lenHigh, lenLow] := by
    rw [hstream]
    rfl
  rw [htake] at hread
  refine ⟨{ state with
    recvHeadNode := state.recvHeadNode.clear.fill [idHigh, idLow, lenHigh, lenLow], socket },
    ?_, headBuffer_fill hbuffer rfl, ?_, rfl, rfl, rfl, rfl⟩
  · unfold readTurn asyncRead
    rw [length_clear_headBuffer hbuffer, if_pos (by decide), hread]
    dsimp only
    rw [if_neg (by simp)]
  · rw [hsocket, hstream]
    rfl

theorem readTurn_of_short {state : ReadState} (hshort : state.socket.flatten.length < HEAD_TOTAL_LEN) :
    ∃ final, readTurn state = .finished final ∧ EndsAfter state final := by
  refine ⟨{ state with recvHeadNode := state.recvHeadNode.clear }.closeAndClear, ?_,
    endsAfter_closeAndClear _⟩
  unfold readTurn asyncRead
  rw [readExactly_eq_none hshort, ite_self]

theorem bodyTurn_of_throws {state : ReadState} {node : RecvNode}
    (h : asyncRead node.data.length node.bodyRequest state.socket = none) :
    bodyTurn state node = .finished state.closeAndClear := by
  unfold bodyTurn
  rw [h]

theorem asyncRead_of_capacity_lt {capacity request : Nat} {socket : List Bytes}
    (h : capacity < request) : asyncRead capacity request socket = none :=
  if_neg (by omega)

/-- The message of a node whose body has been read is that body, NUL bytes included. -/
theorem message_complete {len : Nat} {msgId : Int} {body : Bytes} (hlen : body.length = len)
    (hmax : len ≤ MAX_LENGTH) :
    (RecvNode.complete { curLen := 0, totalLen := len, data := List.replicate (len + 1) 0, msgId }
      body).message = (msgId, body) := by
  have hmax' : len ≤ 2048 := hmax
  have hsize : toSizeT (len : Int) = len := toSizeT_natCast (by omega)
  unfold RecvNode.complete RecvNode.message MsgNode.fill
  dsimp only
  rw [hsize, List.take_set_of_le (Nat.le_refl _), List.take_left' hlen]

theorem bodyTurn_of_range (state : ReadState) (msgId : Int) {len : Nat} (hpos : 1 ≤ len)
    (hmax : len ≤ MAX_LENGTH) :
    let node : RecvNode :=
      { curLen := 0, totalLen := len, data := List.replicate (len + 1) 0, msgId }
    if len ≤ state.socket.flatten.length then
      ∃ next, bodyTurn state node = .again next ∧ next.recvHeadNode = state.recvHeadNode ∧
        next.socket.flatten = state.socket.flatten.drop len ∧ next.bStop = state.bStop ∧
        next.posted.map RecvNode.message
          = state.posted.map RecvNode.message ++ [(msgId, state.socket.flatten.take len)]
    else bodyTurn state node = .finished state.closeAndClear := by
  intro node
  have hmax' : len ≤ 2048 := hmax
  have hrequest : node.bodyRequest = len := toSizeT_natCast (by omega)
  have hcapacity : node.data.length = len + 1 := List.length_replicate
  split
  · rename_i hfits
    obtain ⟨socket, hread, hsocket⟩ := readExactly_eq_some hfits
    have hbody : (state.socket.flatten.take len).length = len := List.length_take_of_le hfits
    refine ⟨{ state with socket, posted := state.posted ++ [node.complete
      (state.socket.flatten.take len)] }, ?_, rfl, hsocket, rfl, ?_⟩
    · unfold bodyTurn asyncRead
      rw [hrequest, hcapacity, if_pos (by omega), hread]
      dsimp only
      rw [if_neg (by omega)]
    · rw [List.map_append, List.map_singleton, message_complete hbody hmax]
  · rename_i hshort
    apply bodyTurn_of_throws
    unfold asyncRead
    rw [hrequest, hcapacity, if_pos (by omega), readExactly_eq_none (by omega)]

/-- A body of no bytes is read as no bytes, which the loop takes for a closed peer. -/
theorem bodyTurn_of_zero {state : ReadState} {node : RecvNode} (hzero : node.bodyRequest = 0) :
    ∃ final, bodyTurn state node = .finished final ∧ EndsAfter state final := by
  obtain ⟨socket, hread, -⟩ := readExactly_eq_some (Nat.zero_le state.socket.flatten.length)
  refine ⟨{ state with socket }.closeAndClear, ?_, endsAfter_closeAndClear _⟩
  unfold bodyTurn asyncRead
  rw [hzero, if_pos (Nat.zero_le _), hread]
  rfl

theorem headerTurn_of_outcome {state : ReadState} {outcome : HeaderOutcome}
    (h : headerOutcome state.recvHeadNode.data = outcome) :
    headerTurn state = outcome.turn state := by
  unfold headerTurn
  rw [h]

/-- The checks on a header and the read after it, against the unsigned fields of the grammar. -/
theorem headerTurn_spec {state : ReadState} {id len : Nat} (hid : id < 65536) (hlen : len < 65536)
    (hidField : networkShort state.recvHeadNode.data 0 = toShort id)
    (hlenField : networkShort state.recvHeadNode.data HEAD_ID_LEN = toShort len) :
    if 1001 ≤ id ∧ id ≤ 9999 ∧ 1 ≤ len ∧ len ≤ MAX_LENGTH ∧ len ≤ state.socket.flatten.length then
      ∃ next, headerTurn state = .again next ∧ next.recvHeadNode = state.recvHeadNode ∧
        next.socket.flatten = state.socket.flatten.drop len ∧ next.bStop = state.bStop ∧
        next.posted.map RecvNode.message
          = state.posted.map RecvNode.message ++ [((id : Int), state.socket.flatten.take len)]
    else ∃ final, headerTurn state = .finished final ∧ EndsAfter state final := by
  have hmaxEq : MAX_LENGTH = 2048 := rfl
  by_cases hidRange : 1001 ≤ id ∧ id ≤ 9999
  · have hidShort : networkShort state.recvHeadNode.data 0 = id := by
      rw [hidField, toShort_natCast_of_lt (by omega)]
    by_cases hnonneg : len < 32768
    · have hlenShort : networkShort state.recvHeadNode.data HEAD_ID_LEN = len := by
        rw [hlenField, toShort_natCast_of_lt hnonneg]
      by_cases hmax : len ≤ MAX_LENGTH
      · rw [headerTurn_of_outcome (headerOutcome_of_nonneg (by omega) (by omega) hlenShort hmax)]
        unfold HeaderOutcome.turn
        by_cases hpos : 1 ≤ len
        · have hbody := bodyTurn_of_range state id hpos hmax
          rw [hidShort]
          split at hbody
          · rename_i hfits
            rw [if_pos ⟨hidRange.1, hidRange.2, hpos, hmax, hfits⟩]
            exact hbody
          · rename_i hshort
            rw [if_neg (fun h => hshort h.2.2.2.2)]
            exact ⟨_, hbody, endsAfter_closeAndClear _⟩
        · obtain rfl : len = 0 := by omega
          rw [if_neg (by omega)]
          exact bodyTurn_of_zero rfl
      · rw [headerTurn_of_outcome (headerOutcome_of_long (by omega)), if_neg (by omega)]
        exact ⟨_, rfl, endsAfter_closeAndClear _⟩
    · have hlenShort : networkShort state.recvHeadNode.data HEAD_ID_LEN = (len : Int) - 65536 := by
        rw [hlenField, toShort_natCast_of_le (by omega) hlen]
      rw [if_neg (by omega)]
      by_cases hwrap : len = 65535
      · -- the request is larger than the empty buffer
        have hminus : networkShort state.recvHeadNode.data HEAD_ID_LEN = -1 := by omega
        rw [headerTurn_of_outcome (headerOutcome_of_neg_one (by omega) (by omega) hminus)]
        have hrequest : (0 : Nat) < toSizeT (-1) := by decide
        unfold HeaderOutcome.turn
        refine ⟨_, bodyTurn_of_throws ?_, endsAfter_closeAndClear _⟩
        exact asyncRead_of_capacity_lt hrequest
      · rw [headerTurn_of_outcome
          (headerOutcome_of_throws (by omega) (by omega) (by omega))]
        exact ⟨_, rfl, endsAfter_closeAndClear _⟩
  · have hreject : networkShort state.recvHeadNode.data 0 < 1001 ∨
        networkShort state.recvHeadNode.data 0 > 9999 := by
      rw [hidField]
      unfold toShort
      split <;> omega
    rw [headerTurn_of_outcome (headerOutcome_of_id hreject), if_neg (fun h => hidRange ⟨h.1, h.2.1⟩)]
    exact ⟨_, rfl, endsAfter_closeAndClear _⟩

/-! ### The whole loop -/

/-- **One turn is one frame.** A turn posts the frame the grammar decodes and goes on behind it, or
closes and clears the session when there is none. -/
theorem readTurn_spec {state : ReadState} (hbuffer : HeadBuffer state.recvHeadNode) :
    match serverCode.decode state.socket.flatten with
    | some (frame, rest) => ∃ next, readTurn state = .again next ∧
        HeadBuffer next.recvHeadNode ∧ next.socket.flatten = rest ∧ next.bStop = state.bStop ∧
        next.posted.map RecvNode.message
          = state.posted.map RecvNode.message ++ [((frame.1 : Int), frame.2)]
    | none => ∃ final, readTurn state = .finished final ∧ EndsAfter state final := by
  match hstream : state.socket.flatten with
  | idHigh :: idLow :: lenHigh :: lenLow :: rest =>
    obtain ⟨next, hturn, hnextBuffer, hsocket, hposted, hstop, hidField, hlenField⟩ :=
      readTurn_of_header hbuffer hstream
    have hspec := headerTurn_spec (unsigned16_lt idHigh idLow) (unsigned16_lt lenHigh lenLow)
      hidField hlenField
    change match decodeFrame 1001 9999 (idHigh :: idLow :: lenHigh :: lenLow :: rest) with
      | some (frame, rest) => _
      | none => _
    unfold decodeFrame
    dsimp only
    rw [hturn]
    rw [hsocket] at hspec
    split at hspec
    · rename_i hconds
      rw [if_pos hconds]
      obtain ⟨after, hagain, hhead, hrest, hafterStop, hmessages⟩ := hspec
      refine ⟨after, hagain, ?_, hrest, hafterStop.trans hstop, ?_⟩
      · rw [hhead]
        exact hnextBuffer
      · rw [hmessages, hposted]
    · rename_i hconds
      rw [if_neg hconds]
      obtain ⟨final, hfinished, hfinal, hclosed, hcleared⟩ := hspec
      exact ⟨final, hfinished, hfinal.trans hposted, hclosed, hcleared⟩
  | [] => exact readTurn_of_short (by simp [hstream, HEAD_TOTAL_LEN])
  | [_] => exact readTurn_of_short (by simp [hstream, HEAD_TOTAL_LEN])
  | [_, _] => exact readTurn_of_short (by simp [hstream, HEAD_TOTAL_LEN])
  | [_, _, _] => exact readTurn_of_short (by simp [hstream, HEAD_TOTAL_LEN])

theorem readLoop_spec (state : ReadState) (hbuffer : HeadBuffer state.recvHeadNode)
    (hopen : state.bStop = false) :
    (readLoop state).posted.map RecvNode.message = state.posted.map RecvNode.message
        ++ (serverCode.decodeAll state.socket.flatten).1.map (fun frame => ((frame.1 : Int), frame.2)) ∧
      (readLoop state).bStop = true ∧ (readLoop state).registered = false := by
  induction hsize : state.remaining using Nat.strongRecOn generalizing state with
  | ind size ih =>
    have hspec := readTurn_spec hbuffer
    rw [readLoop, if_neg (by simp [hopen])]
    split at hspec
    · rename_i frame rest hdecode
      obtain ⟨next, hturn, hnextBuffer, hsocket, hstop, hmessages⟩ := hspec
      have hsmaller : next.remaining < size := hsize ▸ remaining_lt_of_again hturn
      obtain ⟨hposted, hclosed, hcleared⟩ :=
        ih next.remaining hsmaller next hnextBuffer (hstop.trans hopen) rfl
      rw [serverCode.decodeAll_of_some hdecode]
      split
      · rename_i final hfinished
        rw [hturn] at hfinished
        cases hfinished
      · rename_i next' hagain
        obtain rfl := Turn.again.inj (hturn.symm.trans hagain)
        rw [hposted, hmessages, hsocket, List.map_cons, List.append_assoc]
        exact ⟨rfl, hclosed, hcleared⟩
    · rename_i hdecode
      obtain ⟨final, hturn, hposted, hclosed, hcleared⟩ := hspec
      rw [serverCode.decodeAll_of_none hdecode]
      split
      · rename_i final' hfinished
        obtain rfl := Turn.finished.inj (hturn.symm.trans hfinished)
        rw [hposted]
        exact ⟨by simp, hclosed, hcleared⟩
      · rename_i next' hagain
        rw [hturn] at hagain
        cases hagain

theorem start_posted (socket : List Bytes) :
    (start socket).posted.map RecvNode.message
      = (serverCode.decodeAll socket.flatten).1.map (fun frame => ((frame.1 : Int), frame.2)) :=
  (readLoop_spec (ReadState.accepted socket) ⟨rfl, rfl⟩ rfl).1

/-- **The read loop accepts exactly the frame grammar.** However the stream is cut into segments, the
messages handed to the logic queue are the longest list of frames whose concatenation the stream
starts with, and the session ends closed and unregistered. -/
theorem start_accepts_longest_prefix (socket : List Bytes) :
    ∃ frames : List Frame,
      (start socket).posted.map RecvNode.message
          = frames.map (fun frame => ((frame.1 : Int), frame.2)) ∧
        (∀ frame ∈ frames, ValidFrame 1001 9999 frame) ∧
        frames.flatMap encodeFrame <+: socket.flatten ∧
        (∀ longer : List Frame, (∀ frame ∈ longer, ValidFrame 1001 9999 frame) →
          longer.flatMap encodeFrame <+: socket.flatten → longer <+: frames) ∧
        (start socket).bStop = true ∧ (start socket).registered = false := by
  obtain ⟨hvalid, hstream, -⟩ := serverCode.decodeAll_spec socket.flatten
  obtain ⟨hposted, hclosed, hcleared⟩ :=
    readLoop_spec (ReadState.accepted socket) ⟨rfl, rfl⟩ rfl
  refine ⟨(serverCode.decodeAll socket.flatten).1, hposted, hvalid, ⟨_, hstream.symm⟩, ?_, hclosed,
    hcleared⟩
  intro longer hlonger hinitialPart
  exact serverCode.prefix_decodeAll hlonger hinitialPart

end CoroutineServer
