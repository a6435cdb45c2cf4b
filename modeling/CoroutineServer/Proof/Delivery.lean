import Mathlib.Data.List.Infix
import CoroutineServer.Proof.Writes
import CoroutineServer.Proof.AllOrNothing

/-!
# From `Send` to the receive thread

The sending side of a session and the client's decoder, end to end: at any moment of any run, and however
the bytes arrive in segments, the client has read the frames that are on the wire as a whole.
-/

namespace CoroutineServer

open Wire

/-- The message a frame stands for: its id, and what follows the header. -/
def SendNode.message (node : SendNode) : Int × Bytes := (node.msgId, node.wire.drop HEAD_TOTAL_LEN)

namespace SendQueue

variable {channel : Channel} {node : SendNode} {msg : Bytes} {msgid : Int}

/-- What `Send` makes of a text and an id, after the narrowing of the length and of the id. -/
theorem message_of_sendNode (hnode : sendNode msg msgid = some (.ok node)) :
    node.message = (toShort msgid, msg.take (toShort msg.length).toNat) ∧ BodyInRange node.message ∧
      node.wire = encodeFrame (frameOf node.message) := by
  obtain ⟨len, hlen, hpos, hmax, hmsg, hresult⟩ := sendNode_eq_some hnode
  have hbound : len ≤ 2048 := hmax
  have htake : (msg.take len).length = len := List.length_take_of_le hmsg
  have hwire := SendNode.wire_new_eq hmax hmsg hresult.symm
  have hid : node.msgId = toShort msgid := by
    have hnew := hresult
    rw [SendNode.new_eq _ hmax hmsg] at hnew
    rw [Except.ok.inj hnew]
  have hmessage : node.message = (toShort msgid, msg.take len) := by
    unfold SendNode.message
    rw [hid, hwire, List.drop_left']
    simp [HEAD_TOTAL_LEN]
  refine ⟨?_, ?_, ?_⟩
  · rw [hmessage, hlen, Int.toNat_natCast]
  · rw [hmessage]
    unfold BodyInRange
    dsimp only
    rw [htake]
    exact ⟨hpos, hmax⟩
  · rw [hmessage, hwire, shortBytes_eq_bytes16, shortBytes_natCast (by omega), List.append_assoc]
    unfold encodeFrame frameOf
    dsimp only
    rw [htake]

/-- A node that stands for a message in range, and is its frame on the wire. -/
structure Framed (node : SendNode) : Prop where
  body : BodyInRange node.message
  id : IsShort node.message.1
  wire : node.wire = encodeFrame (frameOf node.message)

theorem framed_of_sendNode (hnode : sendNode msg msgid = some (.ok node)) : Framed node := by
  obtain ⟨hmessage, hbody, hwire⟩ := message_of_sendNode hnode
  refine ⟨hbody, ?_, hwire⟩
  rw [hmessage]
  exact isShort_toShort msgid

theorem framed_of_accepted (hreach : Reaches channel) (hnode : node ∈ channel.accepted) : Framed node := by
  obtain ⟨msg, msgid, hsend⟩ := (inv_of_reaches hreach).2.accepted node hnode
  exact framed_of_sendNode hsend

/-- The frames of nodes, and what the client makes of them. -/
def framesOf (nodes : List SendNode) : List Frame := nodes.map fun node => frameOf node.message

theorem flatMap_framesOf {nodes : List SendNode} (h : ∀ node ∈ nodes, Framed node) :
    (framesOf nodes).flatMap clientCode.encode = nodes.flatMap SendNode.wire := by
  unfold framesOf
  rw [List.flatMap_map]
  exact List.flatMap_congr fun node hnode => (h node hnode).wire.symm

theorem map_framesOf {nodes : List SendNode} (h : ∀ node ∈ nodes, Framed node) :
    ((framesOf nodes).map fun frame => (toShort frame.1, frame.2)) = nodes.map SendNode.message := by
  unfold framesOf
  rw [List.map_map]
  exact List.map_congr_left fun node hnode =>
    congrArg (·, node.message.2) (toShort_toNat_emod (h node hnode).id)

theorem valid_framesOf {nodes : List SendNode} (h : ∀ node ∈ nodes, Framed node) :
    ∀ frame ∈ framesOf nodes, clientCode.Valid frame := by
  intro frame hframe
  obtain ⟨node, hnode, rfl⟩ := List.mem_map.mp hframe
  exact validFrame_of_bodyInRange (h node hnode).body

/-- Of frames that have arrived in part, the client reads those that are there as a whole. -/
theorem recvAll_of_prefix {nodes : List SendNode} (h : ∀ node ∈ nodes, Framed node) {socket : List Bytes}
    (hcut : socket.flatten <+: nodes.flatMap SendNode.wire) :
    ∃ read rest part, nodes = read ++ rest ∧ TestClient.recvAll socket = read.map SendNode.message ∧
      socket.flatten = read.flatMap SendNode.wire ++ part ∧ (rest = [] → part = []) ∧
        ∀ node ∈ rest.head?, part.length < node.wire.length := by
  rw [← flatMap_framesOf h] at hcut
  obtain ⟨others, part, hframes, hstream, hpart, hless⟩ :=
    clientCode.decodeAll_of_prefix (valid_framesOf h) rfl hcut
  obtain ⟨read, rest, hnodes, hdecoded, rfl⟩ := List.map_eq_append_iff.mp hframes
  have hread : ∀ node ∈ read, Framed node := fun node hnode => by
    apply h
    rw [hnodes]
    exact List.mem_append_left _ hnode
  refine ⟨read, rest, part, hnodes, ?_, ?_, ?_, fun node hnode => ?_⟩
  · rw [recvAll_eq, ← hdecoded]
    exact map_framesOf hread
  · rw [← hdecoded] at hstream
    rw [← flatMap_framesOf hread]
    exact hstream
  · rintro rfl
    exact List.prefix_nil.mp hpart
  · have hrest : Framed node := by
      apply h
      rw [hnodes]
      exact List.mem_append_right _ (List.mem_of_mem_head? hnode)
    rw [hrest.wire]
    exact hless _ (by rw [List.head?_map, Option.mem_def.mp hnode]; rfl)

/-- What has been written as a whole has been read. -/
theorem prefix_recvAll {nodes : List SendNode} (h : ∀ node ∈ nodes, Framed node) {socket : List Bytes}
    (hwritten : nodes.flatMap SendNode.wire <+: socket.flatten) :
    nodes.map SendNode.message <+: TestClient.recvAll socket := by
  rw [recvAll_eq, ← map_framesOf h]
  refine List.IsPrefix.map _ (clientCode.prefix_decodeAll (valid_framesOf h) ?_)
  rwa [flatMap_framesOf h]

/-- **What the client has read.** At any moment of any run of a session's sending side, however the bytes on
the socket are cut into segments, the client has read exactly the frames that are there as a whole: the first
of those that `Send` has accepted, each with the id and the text it was built from. Less than one frame is
left over, and everything that has left the queue has been read. -/
theorem client_reads_accepted (hreach : Reaches channel) {socket : List Bytes}
    (hsocket : socket.flatten = channel.wire) :
    (∃ read rest part, channel.accepted = read ++ rest ∧
      TestClient.recvAll socket = read.map SendNode.message ∧
      channel.wire = read.flatMap SendNode.wire ++ part ∧
      (rest = [] → part = []) ∧ ∀ node ∈ rest.head?, part.length < node.wire.length) ∧
    (∃ done, channel.accepted = done ++ channel.sendQue ∧
      done.map SendNode.message <+: TestClient.recvAll socket) ∧
    (∀ node ∈ channel.accepted, ∃ msg msgid, sendNode msg msgid = some (.ok node) ∧
      node.message = (toShort msgid, msg.take (toShort msg.length).toNat)) := by
  obtain ⟨⟨turn, done, hstands⟩, hbuilt⟩ := inv_of_reaches hreach
  have hframed : ∀ node ∈ channel.accepted, Framed node := fun node => framed_of_accepted hreach
  have hcut : socket.flatten <+: channel.accepted.flatMap SendNode.wire := by
    rw [hsocket, List.flatMap_def]
    exact hstands.wire_initialPart.trans (List.IsPrefix.flatten hstands.given_initialPart)
  refine ⟨?_, ?_, fun node hnode => ?_⟩
  · rw [← hsocket]
    exact recvAll_of_prefix hframed hcut
  · refine ⟨done, hstands.order, prefix_recvAll (fun node hnode => hframed node ?_) ?_⟩
    · rw [hstands.order]
      exact List.mem_append_left _ hnode
    · rw [hsocket, hstands.wire]
      exact List.prefix_append _ _
  · obtain ⟨msg, msgid, hsend⟩ := hbuilt.accepted node hnode
    exact ⟨msg, msgid, hsend, (message_of_sendNode hsend).1⟩

/-- The run of two overlapping calls: the second frame breaks off, and the client has read the first. -/
theorem client_reads_accepted_overlapping :
    ∃ first second part, (Reach.after step overlappingRun .initial).accepted = [first, second] ∧
      TestClient.recvAll [(Reach.after step overlappingRun .initial).wire] = [first.message] ∧
      (Reach.after step overlappingRun .initial).wire = first.wire ++ part ∧
      part.length = 2 ∧ part.length < second.wire.length := by
  obtain ⟨hmeets, hlength, hread, hwire⟩ :
      Reach.meets step (fun _ _ => true) overlappingRun .initial = true ∧
      (Reach.after step overlappingRun .initial).accepted.map (·.wire.length) = [5, 6] ∧
      (TestClient.recvAll [(Reach.after step overlappingRun .initial).wire]).length = 1 ∧
      (Reach.after step overlappingRun .initial).wire.length = 7 := by decide +kernel
  obtain ⟨read, rest, part, haccepted, hrecv, hparts, -, hless⟩ :=
    (client_reads_accepted (.of_enabled rfl hmeets) List.flatten_singleton).1
  obtain ⟨first, rfl⟩ := List.length_eq_one_iff.mp (by rw [← hread, hrecv, List.length_map] : read.length = 1)
  have hcount : rest.length = 1 := by
    have htwo := congrArg List.length hlength
    rw [haccepted] at htwo
    simpa using htwo
  obtain ⟨second, rfl⟩ := List.length_eq_one_iff.mp hcount
  refine ⟨first, second, part, haccepted, hrecv, ?_, ?_, hless second rfl⟩
  · simpa using hparts
  · rw [haccepted] at hlength
    rw [hparts] at hwire
    simp at hlength hwire
    omega

end SendQueue

end CoroutineServer
