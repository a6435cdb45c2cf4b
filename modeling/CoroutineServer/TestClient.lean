import CoroutineServer.ReadLoop

/-!
# The test client's side of the wire

`SendMsg` and `RecvOneMessage` of the client, with its own copies of the protocol constants.
-/

namespace CoroutineServer.TestClient

def MAX_LENGTH : Int := 1024 * 2
def HEAD_ID_LEN : Nat := 2
def HEAD_DATA_LEN : Nat := 2
def HEAD_TOTAL : Nat := 4

/-- `SendMsg` after `root.dump()`: the bytes written to the socket, `none` when the text is refused. -/
def sendMsg (msgId : Int) (jsonStr : Bytes) : Option Bytes :=
  let jsonLen := jsonStr.length
  if (jsonLen : Int) > MAX_LENGTH then none
  else
    let sendData := List.replicate (MAX_LENGTH.toNat + HEAD_TOTAL) (0 : UInt8)
    let written : Except Fault Bytes := do
      let sendData ← memcpy sendData 0 (shortBytes msgId) HEAD_ID_LEN
      let sendData ← memcpy sendData HEAD_ID_LEN (shortBytes (toShort jsonLen)) HEAD_DATA_LEN
      memcpy sendData HEAD_TOTAL jsonStr jsonLen
    written.toOption.map (·.take (jsonLen + HEAD_TOTAL))

/-- The second half of `RecvOneMessage`, on the two fields of the header: the length check and the
read of the body, into a buffer of `MAX_LENGTH + 1` bytes. -/
def recvBody (msgId bodyLen : Int) (socket : List Bytes) : Option ((Int × Bytes) × List Bytes) :=
  if bodyLen ≤ 0 ∨ bodyLen > MAX_LENGTH then none
  else (asyncRead (MAX_LENGTH.toNat + 1) bodyLen.toNat socket).map fun (body, socket) =>
    ((msgId, body), socket)

/-- `RecvOneMessage`: a message and the rest of the socket, `none` when it returns false. -/
def recvOneMessage (socket : List Bytes) : Option ((Int × Bytes) × List Bytes) :=
  (asyncRead HEAD_TOTAL HEAD_TOTAL socket).bind fun (header, socket) =>
    recvBody (networkShort header 0) (networkShort header HEAD_ID_LEN) socket

theorem remaining_le_of_recvBody {msgId bodyLen : Int} {socket rest : List Bytes}
    {message : Int × Bytes} (h : recvBody msgId bodyLen socket = some (message, rest)) :
    rest.flatten.length ≤ socket.flatten.length := by
  unfold recvBody at h
  split at h
  · cases h
  · obtain ⟨⟨body, socket'⟩, hbody, hmessage⟩ := Option.map_eq_some_iff.mp h
    obtain ⟨-, rfl⟩ := Prod.mk.inj hmessage
    obtain ⟨-, -, hrest⟩ := asyncRead_eq_some hbody
    rw [hrest, List.length_drop]
    exact Nat.sub_le _ _

theorem remaining_lt_of_recvOneMessage {socket rest : List Bytes} {message : Int × Bytes}
    (h : recvOneMessage socket = some (message, rest)) :
    rest.flatten.length < socket.flatten.length := by
  obtain ⟨⟨header, socket'⟩, hheader, hbody⟩ := Option.bind_eq_some_iff.mp h
  obtain ⟨henough, -, hsocket⟩ := asyncRead_eq_some hheader
  have hle := remaining_le_of_recvBody hbody
  rw [hsocket, List.length_drop] at hle
  have hpos : 0 < HEAD_TOTAL := by decide
  omega

/-- The loop of `RecvThreadFunc`: messages are taken until `RecvOneMessage` returns false. -/
def recvAll (socket : List Bytes) : List (Int × Bytes) :=
  match _hrecv : recvOneMessage socket with
  | none => []
  | some (message, rest) => message :: recvAll rest
termination_by socket.flatten.length
decreasing_by exact remaining_lt_of_recvOneMessage _hrecv

end CoroutineServer.TestClient
