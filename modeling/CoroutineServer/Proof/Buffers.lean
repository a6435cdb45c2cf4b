import CoroutineServer.Wire
import CoroutineServer.ReadLoop

/-!
# Buffer arithmetic

What the header checks let through, by the value of the two signed fields, and the sizes that follow.
The only length below zero that a vector can be built for is minus one, and it is not checked for.
-/

namespace CoroutineServer

/-! ### The outcome of the header checks -/

section Outcome

variable {header : Bytes}

theorem headerOutcome_of_id (hid : networkShort header 0 < 1001 ∨ networkShort header 0 > 9999) :
    headerOutcome header = .reject := by
  unfold headerOutcome
  exact if_pos hid

theorem headerOutcome_of_long (hlen : networkShort header HEAD_ID_LEN > 2048) :
    headerOutcome header = .reject := by
  have hlen' : networkShort header HEAD_ID_LEN > (MAX_LENGTH : Int) := hlen
  unfold headerOutcome
  dsimp only
  rw [if_pos hlen', ite_self]

theorem headerOutcome_of_range (hlow : 1001 ≤ networkShort header 0)
    (hhigh : networkShort header 0 ≤ 9999) (hlen : networkShort header HEAD_ID_LEN ≤ 2048) :
    headerOutcome header = .ofConstructor
      (RecvNode.new (networkShort header HEAD_ID_LEN) (networkShort header 0)) := by
  have hid : ¬(networkShort header 0 < MSG_HELLO_WORLD ∨ networkShort header 0 > MAX_MSG_ID) := by
    unfold MSG_HELLO_WORLD MAX_MSG_ID
    omega
  have hlen' : ¬networkShort header HEAD_ID_LEN > (MAX_LENGTH : Int) := by
    have hmax : (MAX_LENGTH : Int) = 2048 := rfl
    omega
  unfold headerOutcome
  dsimp only
  rw [if_neg hid, if_neg hlen']

theorem headerOutcome_of_throws (hlow : 1001 ≤ networkShort header 0)
    (hhigh : networkShort header 0 ≤ 9999) (hlen : networkShort header HEAD_ID_LEN < -1) :
    headerOutcome header = .throws := by
  rw [headerOutcome_of_range hlow hhigh (by omega), RecvNode.new,
    MsgNode.new_of_lt (isShort_networkShort _ _) hlen]
  rfl

/-- The unchecked length: an empty buffer, and a total length of minus one. -/
theorem headerOutcome_of_neg_one (hlow : 1001 ≤ networkShort header 0)
    (hhigh : networkShort header 0 ≤ 9999) (hlen : networkShort header HEAD_ID_LEN = -1) :
    headerOutcome header
      = .readBody { curLen := 0, totalLen := -1, data := [], msgId := networkShort header 0 } := by
  rw [headerOutcome_of_range hlow hhigh (by omega), RecvNode.new, hlen, MsgNode.new_neg_one]
  rfl

theorem headerOutcome_of_nonneg {len : Nat} (hlow : 1001 ≤ networkShort header 0)
    (hhigh : networkShort header 0 ≤ 9999) (hlen : networkShort header HEAD_ID_LEN = len)
    (hmax : len ≤ 2048) :
    headerOutcome header
      = .readBody { curLen := 0, totalLen := len, data := List.replicate (len + 1) 0,
                    msgId := networkShort header 0 } := by
  rw [headerOutcome_of_range hlow hhigh (by omega), RecvNode.new, hlen,
    MsgNode.new_of_nonneg (by omega)]
  rfl

end Outcome

/-! ### The sizes -/

/-- The body read fits its buffer: the buffer has one byte more than the length, the read asks for at
most `MAX_LENGTH` bytes and at most the buffer, and the terminator's index is inside. -/
def BodyReadInBounds (header : Bytes) : Prop :=
  ∀ node, headerOutcome header = .readBody node →
    (node.data.length : Int) = networkShort header HEAD_ID_LEN + 1 ∧
      node.bodyRequest ≤ MAX_LENGTH ∧ node.bodyRequest ≤ node.data.length ∧
      0 ≤ node.totalLen ∧ node.totalLen < node.data.length

/-- The copies of the node that `Send(msg, msgid)` builds, when it builds one, stay inside the node's
buffer and inside `msg`. -/
def SendCopiesInBounds (msg : Bytes) (msgid : Int) : Prop :=
  sendNode msg msgid ≠ some (.error .outOfBounds)

/-- A length the checks of `Send` let through is at most the length of the text: narrowing to a short
only ever takes away multiples of `2 ^ 16` when the result is positive. -/
theorem toShort_length_le {n : Nat} (hpos : 0 < toShort n) : (toShort n).toNat ≤ n := by
  unfold toShort at hpos ⊢
  split at hpos <;> split <;> omega

theorem sendNode_eq_some {msg : Bytes} {msgid : Int} {result : Except Fault SendNode}
    (h : sendNode msg msgid = some result) :
    ∃ len : Nat, toShort msg.length = len ∧ 0 < len ∧ len ≤ MAX_LENGTH ∧ len ≤ msg.length ∧
      result = SendNode.new msg len (toShort msgid) := by
  unfold sendNode at h
  dsimp only at h
  split at h
  · cases h
  · rename_i hrange
    have hmax : toShort (MAX_LENGTH : Nat) = 2048 := rfl
    rw [hmax] at hrange
    have hle := toShort_length_le (n := msg.length) (by omega)
    refine ⟨(toShort msg.length).toNat, by omega, by omega, ?_, hle, ?_⟩
    · change (toShort msg.length).toNat ≤ 2048
      omega
    · rw [Int.toNat_of_nonneg (by omega)]
      exact (Option.some.inj h).symm

theorem sendCopiesInBounds (msg : Bytes) (msgid : Int) : SendCopiesInBounds msg msgid := by
  intro hnode
  obtain ⟨len, -, -, hmax, hmsg, hresult⟩ := sendNode_eq_some hnode
  rw [SendNode.new_eq _ hmax hmsg] at hresult
  cases hresult

theorem bodyReadInBounds_of_ne {header : Bytes} (h : ¬(1001 ≤ networkShort header 0 ∧
      networkShort header 0 ≤ 9999 ∧ networkShort header HEAD_ID_LEN = -1)) :
    BodyReadInBounds header := by
  intro node hnode
  by_cases hid : networkShort header 0 < 1001 ∨ networkShort header 0 > 9999
  · rw [headerOutcome_of_id hid] at hnode
    cases hnode
  by_cases hlong : networkShort header HEAD_ID_LEN > 2048
  · rw [headerOutcome_of_long hlong] at hnode
    cases hnode
  by_cases hneg : networkShort header HEAD_ID_LEN < -1
  · rw [headerOutcome_of_throws (by omega) (by omega) hneg] at hnode
    cases hnode
  have hlen : networkShort header HEAD_ID_LEN
      = ((networkShort header HEAD_ID_LEN).toNat : Nat) := by omega
  have hmax : (networkShort header HEAD_ID_LEN).toNat ≤ 2048 := by omega
  rw [headerOutcome_of_nonneg (by omega) (by omega) hlen hmax] at hnode
  obtain rfl := HeaderOutcome.readBody.inj hnode
  have hrequest : toSizeT ((networkShort header HEAD_ID_LEN).toNat : Nat)
      = (networkShort header HEAD_ID_LEN).toNat := toSizeT_natCast (by omega)
  unfold RecvNode.bodyRequest
  dsimp only
  rw [hrequest, List.length_replicate]
  exact ⟨by omega, hmax, by omega, by omega, by omega⟩

/-- **Bounds of the framing code.** Every copy on the send side is in bounds, and the body read is in
bounds exactly for the headers other than those with an accepted id and the length `0xFFFF`. -/
theorem framing_inBounds_iff (header : Bytes) :
    (BodyReadInBounds header ∧ ∀ msg msgid, SendCopiesInBounds msg msgid)
      ↔ ¬(1001 ≤ networkShort header 0 ∧ networkShort header 0 ≤ 9999 ∧
          networkShort header HEAD_ID_LEN = -1) := by
  constructor
  · rintro ⟨hbody, -⟩ ⟨hlow, hhigh, hlen⟩
    obtain ⟨-, hrequest, -⟩ := hbody _ (headerOutcome_of_neg_one hlow hhigh hlen)
    exact absurd hrequest (by decide : ¬toSizeT (-1) ≤ MAX_LENGTH)
  · exact fun h => ⟨bodyReadInBounds_of_ne h, sendCopiesInBounds⟩

/-- The header `03 E9 FF FF`: a body read of `2 ^ 64 - 1` bytes into a vector of none. -/
theorem framing_outOfBounds :
    ¬∀ header : Bytes, header.length = HEAD_TOTAL_LEN → BodyReadInBounds header := by
  intro h
  obtain ⟨-, hrequest, -⟩ := h [0x03, 0xE9, 0xFF, 0xFF] rfl
    { curLen := 0, totalLen := -1, data := [], msgId := 1001 } (by decide)
  exact absurd hrequest (by decide)

end CoroutineServer
