import CoroutineServer.Proof.Grammar
import CoroutineServer.TestClient

/-!
# The encoders and decoders agree

Both encoders write the frames of the grammar, and both decoders read them, so messages cross in
either direction whole. The client reads any id a `short` can hold, so its ids are compared as shorts.
-/

namespace CoroutineServer

open Wire

/-- A message as a frame of the grammar: the id's sixteen bits, unsigned. -/
def frameOf (message : Int × Bytes) : Frame := ((message.1 % 65536).toNat, message.2)

def BodyInRange (message : Int × Bytes) : Prop :=
  1 ≤ message.2.length ∧ message.2.length ≤ MAX_LENGTH

instance (message : Int × Bytes) : Decidable (BodyInRange message) := inferInstanceAs (Decidable (_ ∧ _))

/-! ### The client reads the grammar -/

theorem recvOneMessage_of_short {socket : List Bytes}
    (hshort : socket.flatten.length < TestClient.HEAD_TOTAL) :
    TestClient.recvOneMessage socket = none := by
  have hread : asyncRead TestClient.HEAD_TOTAL TestClient.HEAD_TOTAL socket = none := by
    rw [asyncRead, if_pos (Nat.le_refl _), readExactly_eq_none hshort]
  rw [TestClient.recvOneMessage, hread]
  rfl

theorem recvOneMessage_of_header {socket : List Bytes} {idHigh idLow lenHigh lenLow : UInt8}
    {rest : Bytes} (hstream : socket.flatten = idHigh :: idLow :: lenHigh :: lenLow :: rest) :
    ∃ socket', socket'.flatten = rest ∧
      TestClient.recvOneMessage socket
        = TestClient.recvBody (toShort (unsigned16 idHigh idLow : Nat))
            (toShort (unsigned16 lenHigh lenLow : Nat)) socket' := by
  have henough : TestClient.HEAD_TOTAL ≤ socket.flatten.length := by
    rw [hstream]
    simp [TestClient.HEAD_TOTAL]
  obtain ⟨socket', hread, hsocket'⟩ := readExactly_eq_some henough
  have htake : socket.flatten.take TestClient.HEAD_TOTAL = [idHigh, idLow, lenHigh, lenLow] := by
    rw [hstream]
    rfl
  rw [htake] at hread
  refine ⟨socket', by rw [hsocket', hstream]; rfl, ?_⟩
  have hid : networkShort [idHigh, idLow, lenHigh, lenLow] 0
      = toShort (unsigned16 idHigh idLow : Nat) := networkShort_eq_toShort _ _ [] _
  have hlen : networkShort [idHigh, idLow, lenHigh, lenLow] TestClient.HEAD_ID_LEN
      = toShort (unsigned16 lenHigh lenLow : Nat) := networkShort_eq_toShort _ _ [idHigh, idLow] _
  rw [TestClient.recvOneMessage, asyncRead, if_pos (Nat.le_refl _), hread, Option.bind_some]
  dsimp only
  rw [hid, hlen]

/-- The length check and the read of the body, against the unsigned length of the grammar. -/
theorem recvBody_spec (msgId : Int) {len : Nat} (hlen : len < 65536) (socket : List Bytes) :
    if 1 ≤ len ∧ len ≤ MAX_LENGTH ∧ len ≤ socket.flatten.length then
      ∃ socket', TestClient.recvBody msgId (toShort len) socket
          = some ((msgId, socket.flatten.take len), socket') ∧
        socket'.flatten = socket.flatten.drop len
    else TestClient.recvBody msgId (toShort len) socket = none := by
  have hmaxEq : MAX_LENGTH = 2048 := rfl
  have hclientMax : TestClient.MAX_LENGTH = 2048 := rfl
  by_cases hrange : 1 ≤ len ∧ len ≤ MAX_LENGTH
  · have haccepted : TestClient.recvBody msgId (toShort len) socket
        = (readExactly len socket).map fun result => ((msgId, result.1), result.2) := by
      rw [toShort_natCast_of_lt (by omega), TestClient.recvBody, if_neg (by omega),
        Int.toNat_natCast, asyncRead, if_pos (by rw [hclientMax]; omega)]
    rw [haccepted]
    by_cases hfits : len ≤ socket.flatten.length
    · obtain ⟨socket', hbody, hsocket'⟩ := readExactly_eq_some hfits
      rw [if_pos ⟨hrange.1, hrange.2, hfits⟩, hbody]
      exact ⟨socket', rfl, hsocket'⟩
    · rw [if_neg (fun h => hfits h.2.2), readExactly_eq_none (by omega)]
      rfl
  · have hrefused : toShort len ≤ 0 ∨ toShort len > TestClient.MAX_LENGTH := by
      rw [hclientMax]
      unfold toShort
      split <;> omega
    rw [TestClient.recvBody, if_pos hrefused, if_neg (fun h => hrange ⟨h.1, h.2.1⟩)]

theorem recvOneMessage_spec (socket : List Bytes) :
    match clientCode.decode socket.flatten with
    | some (frame, rest) => ∃ socket', TestClient.recvOneMessage socket
          = some ((toShort frame.1, frame.2), socket') ∧ socket'.flatten = rest
    | none => TestClient.recvOneMessage socket = none := by
  match hstream : socket.flatten with
  | idHigh :: idLow :: lenHigh :: lenLow :: rest =>
    obtain ⟨socket', hrest, hrecv⟩ := recvOneMessage_of_header hstream
    have hspec := recvBody_spec (toShort (unsigned16 idHigh idLow : Nat))
      (unsigned16_lt lenHigh lenLow) socket'
    have hid := unsigned16_lt idHigh idLow
    change match decodeFrame 0 65535 (idHigh :: idLow :: lenHigh :: lenLow :: rest) with
      | some (frame, rest) => _
      | none => _
    unfold decodeFrame
    dsimp only
    rw [hrest] at hspec
    rw [hrecv]
    split at hspec
    · rename_i hconds
      rw [if_pos ⟨Nat.zero_le _, by omega, hconds⟩]
      exact hspec
    · rename_i hconds
      rw [if_neg (fun h => hconds h.2.2)]
      exact hspec
  | [] => exact recvOneMessage_of_short (by simp [hstream, TestClient.HEAD_TOTAL])
  | [_] => exact recvOneMessage_of_short (by simp [hstream, TestClient.HEAD_TOTAL])
  | [_, _] => exact recvOneMessage_of_short (by simp [hstream, TestClient.HEAD_TOTAL])
  | [_, _, _] => exact recvOneMessage_of_short (by simp [hstream, TestClient.HEAD_TOTAL])

theorem recvAll_eq (socket : List Bytes) :
    TestClient.recvAll socket
      = (clientCode.decodeAll socket.flatten).1.map fun frame => (toShort frame.1, frame.2) := by
  fun_induction TestClient.recvAll socket with
  | case1 socket hrecv =>
    have hspec := recvOneMessage_spec socket
    split at hspec
    · obtain ⟨socket', hsome, -⟩ := hspec
      rw [hrecv] at hsome
      cases hsome
    · rename_i hdecode
      rw [clientCode.decodeAll_of_none hdecode]
      rfl
  | case2 socket message rest hrecv ih =>
    have hspec := recvOneMessage_spec socket
    split at hspec
    · rename_i frame rest' hdecode
      obtain ⟨socket', hsome, hrest⟩ := hspec
      rw [hrecv] at hsome
      obtain ⟨rfl, rfl⟩ := Prod.mk.inj (Option.some.inj hsome)
      rw [clientCode.decodeAll_of_some hdecode, ih, hrest]
      rfl
    · rw [hrecv] at hspec
      cases hspec

/-! ### The encoders write it -/

theorem wire_eq_encodeFrame {message : Int × Bytes} (hbody : BodyInRange message) {node : SendNode}
    (hnode : SendNode.new message.2 message.2.length message.1 = .ok node) :
    node.wire = encodeFrame (frameOf message) := by
  have hmax : message.2.length ≤ 2048 := hbody.2
  rw [SendNode.wire_new_eq hbody.2 (Nat.le_refl _) hnode, shortBytes_eq_bytes16,
    shortBytes_natCast (by omega), List.take_length, List.append_assoc]
  rfl

/-- The three copies of `SendMsg` put the header and the text at the front of its buffer. -/
theorem sendMsg_eq {message : Int × Bytes} (hbody : BodyInRange message) :
    TestClient.sendMsg message.1 message.2 = some (encodeFrame (frameOf message)) := by
  obtain ⟨id, body⟩ := message
  have hmax : body.length ≤ 2048 := hbody.2
  have hshort : toShort (body.length : Nat) = body.length := toShort_natCast_of_lt (by omega)
  have hsize : TestClient.MAX_LENGTH.toNat + TestClient.HEAD_TOTAL
      = 2 + (2 + (body.length + (2048 - body.length))) := by
    have hbuffer : TestClient.MAX_LENGTH.toNat + TestClient.HEAD_TOTAL = 2052 := rfl
    omega
  have hzeros : List.replicate (TestClient.MAX_LENGTH.toNat + TestClient.HEAD_TOTAL) (0 : UInt8)
      = [] ++ ([0, 0] ++ ([0, 0] ++
          (List.replicate body.length 0 ++ List.replicate (2048 - body.length) 0))) := by
    rw [hsize, List.replicate_add, List.replicate_add, List.replicate_add]
    rfl
  have hid : memcpy ([] ++ ([0, 0] ++ ([0, 0] ++
      (List.replicate body.length 0 ++ List.replicate (2048 - body.length) 0)))) 0
      (shortBytes id) TestClient.HEAD_ID_LEN
        = .ok (shortBytes id ++ ([0, 0] ++
            (List.replicate body.length 0 ++ List.replicate (2048 - body.length) 0))) :=
    memcpy_append rfl rfl (Nat.le_refl _)
  have hlen : memcpy (shortBytes id ++ ([0, 0] ++
      (List.replicate body.length 0 ++ List.replicate (2048 - body.length) 0)))
      TestClient.HEAD_ID_LEN (shortBytes body.length) TestClient.HEAD_DATA_LEN
        = .ok (shortBytes id ++ (shortBytes body.length ++
            (List.replicate body.length 0 ++ List.replicate (2048 - body.length) 0))) :=
    memcpy_append rfl rfl (Nat.le_refl _)
  have htext : memcpy ((shortBytes id ++ shortBytes body.length) ++
      (List.replicate body.length 0 ++ List.replicate (2048 - body.length) 0))
      TestClient.HEAD_TOTAL body body.length
        = .ok ((shortBytes id ++ shortBytes body.length) ++
            (body.take body.length ++ List.replicate (2048 - body.length) 0)) :=
    memcpy_append rfl List.length_replicate (Nat.le_refl _)
  rw [List.append_assoc, List.append_assoc, List.take_length] at htext
  have haccepted : ¬(body.length : Int) > TestClient.MAX_LENGTH := by
    have hclientMax : TestClient.MAX_LENGTH = 2048 := rfl
    omega
  unfold TestClient.sendMsg
  dsimp only
  rw [if_neg haccepted, hzeros, hshort]
  simp only [bind, Except.bind, hid, hlen, htext]
  have hlength : (shortBytes id ++ shortBytes body.length ++ body).length
      = body.length + TestClient.HEAD_TOTAL := by
    simp [TestClient.HEAD_TOTAL]
    omega
  rw [Except.toOption, Option.map_some, ← List.append_assoc, ← List.append_assoc,
    List.take_left' hlength, shortBytes_eq_bytes16, shortBytes_natCast (by omega), List.append_assoc]
  rfl

theorem validFrame_of_bodyInRange {message : Int × Bytes} (hbody : BodyInRange message) :
    ValidFrame 0 65535 (frameOf message) := by
  refine ⟨Nat.zero_le _, ?_, hbody⟩
  unfold frameOf
  dsimp only
  omega

theorem validFrame_of_id {message : Int × Bytes} (hbody : BodyInRange message)
    (hlow : MSG_HELLO_WORLD ≤ message.1) (hhigh : message.1 ≤ MAX_MSG_ID) :
    ValidFrame 1001 9999 (frameOf message) := by
  unfold MSG_HELLO_WORLD at hlow
  unfold MAX_MSG_ID at hhigh
  refine ⟨?_, ?_, hbody⟩
  · unfold frameOf
    dsimp only
    omega
  · unfold frameOf
    dsimp only
    omega

/-! ### Whole streams -/

def sendNodes (messages : List (Int × Bytes)) : Except Fault (List SendNode) :=
  messages.mapM fun message => SendNode.new message.2 message.2.length message.1

def sendMsgs (messages : List (Int × Bytes)) : Option (List Bytes) :=
  messages.mapM fun message => TestClient.sendMsg message.1 message.2

theorem sendNodes_eq {messages : List (Int × Bytes)}
    (hbody : ∀ message ∈ messages, BodyInRange message) :
    ∃ nodes, sendNodes messages = .ok nodes ∧
      (nodes.map SendNode.wire).flatten = (messages.map frameOf).flatMap encodeFrame := by
  induction messages with
  | nil => exact ⟨[], rfl, rfl⟩
  | cons message messages ih =>
    have hhead := hbody message List.mem_cons_self
    obtain ⟨nodes, hnodes, hwires⟩ := ih fun other hmem => hbody other (List.mem_cons_of_mem _ hmem)
    obtain ⟨node, hnode⟩ : ∃ node, SendNode.new message.2 message.2.length message.1 = .ok node :=
      ⟨_, SendNode.new_eq message.1 hhead.2 (Nat.le_refl _)⟩
    refine ⟨node :: nodes, ?_, ?_⟩
    · unfold sendNodes at hnodes ⊢
      rw [List.mapM_cons, hnode, hnodes]
      rfl
    · rw [List.map_cons, List.flatten_cons, hwires, wire_eq_encodeFrame hhead hnode]
      rfl

theorem sendMsgs_eq {messages : List (Int × Bytes)}
    (hbody : ∀ message ∈ messages, BodyInRange message) :
    ∃ written, sendMsgs messages = some written ∧
      written.flatten = (messages.map frameOf).flatMap encodeFrame := by
  induction messages with
  | nil => exact ⟨[], rfl, rfl⟩
  | cons message messages ih =>
    have hhead := hbody message List.mem_cons_self
    obtain ⟨written, hwritten, hbytes⟩ :=
      ih fun other hmem => hbody other (List.mem_cons_of_mem _ hmem)
    refine ⟨encodeFrame (frameOf message) :: written, ?_, ?_⟩
    · unfold sendMsgs at hwritten ⊢
      rw [List.mapM_cons, sendMsg_eq hhead, hwritten]
      rfl
    · rw [List.flatten_cons, hbytes]
      rfl

/-- **Round trip over whole streams.** However the concatenation of the buffers is cut into segments,
the client reads back the messages the server sent, for any ids, and the server those the client
sent, for ids in its range. -/
theorem streams_round_trip (messages : List (Int × Bytes))
    (hbody : ∀ message ∈ messages, BodyInRange message)
    (hshort : ∀ message ∈ messages, IsShort message.1) :
    (∃ nodes, sendNodes messages = .ok nodes ∧
      ∀ socket : List Bytes, socket.flatten = (nodes.map SendNode.wire).flatten →
        TestClient.recvAll socket = messages) ∧
    ((∀ message ∈ messages, MSG_HELLO_WORLD ≤ message.1 ∧ message.1 ≤ MAX_MSG_ID) →
      ∃ written, sendMsgs messages = some written ∧
        ∀ socket : List Bytes, socket.flatten = written.flatten →
          (start socket).posted.map RecvNode.message = messages) := by
  constructor
  · obtain ⟨nodes, hnodes, hwires⟩ := sendNodes_eq hbody
    refine ⟨nodes, hnodes, fun socket hsocket => ?_⟩
    have hvalid : ∀ frame ∈ messages.map frameOf, clientCode.Valid frame := by
      intro frame hmem
      obtain ⟨message, hmessage, rfl⟩ := List.mem_map.mp hmem
      exact validFrame_of_bodyInRange (hbody message hmessage)
    have hdecode := clientCode.decodeAll_flatMap_encode hvalid rfl
    have hmessage : ∀ message ∈ messages, (toShort (frameOf message).1, (frameOf message).2) = message :=
      fun message hmem => congrArg (·, message.2) (toShort_toNat_emod (hshort message hmem))
    calc TestClient.recvAll socket
        = (clientCode.decodeAll ((messages.map frameOf).flatMap encodeFrame)).1.map
            fun frame => (toShort frame.1, frame.2) := by rw [recvAll_eq, hsocket, hwires]
      _ = (messages.map frameOf).map fun frame => (toShort frame.1, frame.2) :=
        congrArg _ hdecode
      _ = messages.map fun message => (toShort (frameOf message).1, (frameOf message).2) :=
        List.map_map
      _ = messages.map id := List.map_congr_left hmessage
      _ = messages := List.map_id messages
  · intro hid
    obtain ⟨written, hwritten, hbytes⟩ := sendMsgs_eq hbody
    refine ⟨written, hwritten, fun socket hsocket => ?_⟩
    have hvalid : ∀ frame ∈ messages.map frameOf, serverCode.Valid frame := by
      intro frame hmem
      obtain ⟨message, hmessage, rfl⟩ := List.mem_map.mp hmem
      exact validFrame_of_id (hbody message hmessage) (hid message hmessage).1
        (hid message hmessage).2
    have hdecode := serverCode.decodeAll_flatMap_encode hvalid rfl
    have hmessage : ∀ message ∈ messages,
        (((frameOf message).1 : Int), (frameOf message).2) = message := by
      intro message hmem
      obtain ⟨hlow, hhigh⟩ := hid message hmem
      unfold MSG_HELLO_WORLD at hlow
      unfold MAX_MSG_ID at hhigh
      have hsame : (((message.1 % 65536).toNat : Nat) : Int) = message.1 := by omega
      exact congrArg (·, message.2) hsame
    calc (start socket).posted.map RecvNode.message
        = (serverCode.decodeAll ((messages.map frameOf).flatMap encodeFrame)).1.map
            fun frame => ((frame.1 : Int), frame.2) := by rw [start_posted, hsocket, hbytes]
      _ = (messages.map frameOf).map fun frame => ((frame.1 : Int), frame.2) :=
        congrArg _ hdecode
      _ = messages.map fun message => (((frameOf message).1 : Int), (frameOf message).2) :=
        List.map_map
      _ = messages.map id := List.map_congr_left hmessage
      _ = messages := List.map_id messages

theorem streams_round_trip_two :
    (∃ nodes, sendNodes [(1001, [65]), (2003, [0, 255])] = .ok nodes ∧
      ∀ socket : List Bytes, socket.flatten = (nodes.map SendNode.wire).flatten →
        TestClient.recvAll socket = [(1001, [65]), (2003, [0, 255])]) ∧
    (∃ written, sendMsgs [(1001, [65]), (2003, [0, 255])] = some written ∧
      ∀ socket : List Bytes, socket.flatten = written.flatten →
        (start socket).posted.map RecvNode.message = [(1001, [65]), (2003, [0, 255])]) :=
  have h := streams_round_trip [(1001, [65]), (2003, [0, 255])] (by decide) (by decide)
  ⟨h.1, h.2 (by decide)⟩

end CoroutineServer
