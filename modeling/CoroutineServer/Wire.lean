import CoroutineServer.Const
import CoroutineServer.Bytes
import CoroutineServer.Library.Framing

/-!
# The frame grammar

The protocol in its own terms, independent of the code that reads and writes it: a frame is an
unsigned big-endian id, an unsigned big-endian length and that many bytes of body. The server and
the client accept different ranges of ids, so the range is a parameter.
-/

namespace CoroutineServer.Wire

abbrev Frame := Nat × Bytes

def unsigned16 (high low : UInt8) : Nat := high.toNat * 256 + low.toNat

theorem unsigned16_lt (high low : UInt8) : unsigned16 high low < 65536 := by
  have := high.toNat_lt
  have := low.toNat_lt
  unfold unsigned16
  omega

def bytes16 (n : Nat) : Bytes := [UInt8.ofNat (n / 256), UInt8.ofNat (n % 256)]

theorem unsigned16_bytes16 {n : Nat} (h : n < 65536) :
    unsigned16 (UInt8.ofNat (n / 256)) (UInt8.ofNat (n % 256)) = n := by
  unfold unsigned16
  rw [UInt8.toNat_ofNat', UInt8.toNat_ofNat']
  omega

theorem bytes16_unsigned16 (high low : UInt8) : bytes16 (unsigned16 high low) = [high, low] := by
  have hhigh := high.toNat_lt
  have hlow := low.toNat_lt
  unfold bytes16 unsigned16
  rw [show (high.toNat * 256 + low.toNat) / 256 = high.toNat by omega,
    show (high.toNat * 256 + low.toNat) % 256 = low.toNat by omega,
    UInt8.ofNat_toNat, UInt8.ofNat_toNat]

def encodeFrame (frame : Frame) : Bytes :=
  bytes16 frame.1 ++ (bytes16 frame.2.length ++ frame.2)

/-- A frame with an id in `[lowest, highest]` at the front of a stream. -/
def decodeFrame (lowest highest : Nat) : Bytes → Option (Frame × Bytes)
  | idHigh :: idLow :: lenHigh :: lenLow :: rest =>
      let id := unsigned16 idHigh idLow
      let len := unsigned16 lenHigh lenLow
      if lowest ≤ id ∧ id ≤ highest ∧ 1 ≤ len ∧ len ≤ MAX_LENGTH ∧ len ≤ rest.length then
        some ((id, rest.take len), rest.drop len)
      else none
  | _ => none

def ValidFrame (lowest highest : Nat) (frame : Frame) : Prop :=
  lowest ≤ frame.1 ∧ frame.1 ≤ highest ∧ 1 ≤ frame.2.length ∧ frame.2.length ≤ MAX_LENGTH

theorem decodeFrame_encodeFrame {lowest highest : Nat} (hhighest : highest < 65536) (frame : Frame)
    (rest : Bytes) (hvalid : ValidFrame lowest highest frame) :
    decodeFrame lowest highest (encodeFrame frame ++ rest) = some (frame, rest) := by
  obtain ⟨id, body⟩ := frame
  obtain ⟨hlow, hhigh, hpos, hmax⟩ := hvalid
  dsimp only at hlow hhigh hpos hmax
  have hmax' : body.length ≤ 2048 := hmax
  change decodeFrame lowest highest
    (UInt8.ofNat (id / 256) :: UInt8.ofNat (id % 256) :: UInt8.ofNat (body.length / 256) ::
      UInt8.ofNat (body.length % 256) :: (body ++ rest)) = _
  unfold decodeFrame
  dsimp only
  rw [unsigned16_bytes16 (by omega), unsigned16_bytes16 (by omega),
    if_pos ⟨hlow, hhigh, hpos, hmax, by simp⟩, List.take_left, List.drop_left]

theorem encodeFrame_of_decodeFrame {lowest highest : Nat} {stream : Bytes} {frame : Frame}
    {rest : Bytes} (h : decodeFrame lowest highest stream = some (frame, rest)) :
    ValidFrame lowest highest frame ∧ stream = encodeFrame frame ++ rest := by
  unfold decodeFrame at h
  split at h
  · rename_i idHigh idLow lenHigh lenLow tail
    dsimp only at h
    split at h
    · rename_i hconds
      obtain ⟨hlow, hhigh, hpos, hmax, hfits⟩ := hconds
      obtain ⟨rfl, rfl⟩ := Prod.mk.inj (Option.some.inj h)
      have htake : (tail.take (unsigned16 lenHigh lenLow)).length = unsigned16 lenHigh lenLow :=
        List.length_take_of_le hfits
      refine ⟨⟨hlow, hhigh, by rwa [htake], by rwa [htake]⟩, ?_⟩
      unfold encodeFrame
      rw [htake, bytes16_unsigned16, bytes16_unsigned16, List.append_assoc, List.append_assoc,
        List.take_append_drop]
      rfl
    · cases h
  · cases h

/-- The grammar as a self-delimiting code. -/
def frameCode (lowest highest : Nat) (hhighest : highest < 65536) : Framing.Code Frame UInt8 where
  Valid := ValidFrame lowest highest
  encode := encodeFrame
  decode := decodeFrame lowest highest
  decode_encode := fun frame rest hvalid => decodeFrame_encodeFrame hhighest frame rest hvalid
  encode_decode := fun _ _ _ h => encodeFrame_of_decodeFrame h
  encode_ne_nil := fun frame => by simp [encodeFrame, bytes16]

/-- What the server accepts. -/
def serverCode : Framing.Code Frame UInt8 := frameCode 1001 9999 (by decide)

/-- What the client accepts. -/
def clientCode : Framing.Code Frame UInt8 := frameCode 0 65535 (by decide)

/-! ### The grammar and the signed fields of the code -/

theorem networkShort_eq_toShort (high low : UInt8) (before after : Bytes) :
    networkShort (before ++ high :: low :: after) before.length
      = toShort (unsigned16 high low : Nat) := by
  unfold networkShort unsigned16
  simp

theorem toShort_natCast_of_lt {n : Nat} (h : n < 32768) : toShort n = n :=
  toShort_of_isShort (by unfold IsShort; omega)

theorem toShort_natCast_of_le {n : Nat} (hlow : 32768 ≤ n) (hhigh : n < 65536) :
    toShort n = (n : Int) - 65536 := by
  unfold toShort
  split <;> omega

theorem shortBytes_natCast {n : Nat} (h : n < 65536) : shortBytes n = bytes16 n := by
  unfold shortBytes bytes16
  rw [show ((n : Int) % 65536).toNat = n by omega]

theorem shortBytes_eq_bytes16 (x : Int) : shortBytes x = bytes16 (x % 65536).toNat := rfl

theorem toShort_toNat_emod {x : Int} (h : IsShort x) : toShort ((x % 65536).toNat : Nat) = x := by
  unfold IsShort at h
  unfold toShort
  split <;> omega

end CoroutineServer.Wire
