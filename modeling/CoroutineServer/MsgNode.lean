import CoroutineServer.Const
import CoroutineServer.Bytes

/-!
# Message buffers

`MsgNode`, `RecvNode` and `SendNode`. A buffer is the vector the constructor allocates, so every
copy is checked against the vector's real size: a constructor that asks for more than a vector can
hold throws, and a `memcpy` outside its source or its destination is reported as a fault.
-/

namespace CoroutineServer

/-- How a buffer operation ends other than normally: the vector's constructor throws
`std::length_error`, or a copy leaves its buffer, which C++ leaves undefined. -/
inductive Fault where
  | lengthError
  | outOfBounds
  deriving DecidableEq, Repr

/-- `max_size()` of a `std::vector<char>`. -/
def vectorMaxSize : Nat := 9223372036854775807

structure MsgNode where
  curLen : Int
  totalLen : Int
  data : Bytes
  deriving DecidableEq, Repr

namespace MsgNode

/-- `_data(max_len + 1, 0)`: the sum is an `int`, and the vector takes it as a `size_t`. -/
def new (maxLen : Int) : Except Fault MsgNode :=
  let size := toSizeT (maxLen + 1)
  if vectorMaxSize < size then .error .lengthError
  else .ok { curLen := 0, totalLen := maxLen, data := List.replicate size 0 }

/-- `Clear` zeroes the first `_total_len` bytes. -/
def clear (node : MsgNode) : MsgNode :=
  let size := toSizeT node.totalLen
  { node with data := List.replicate size 0 ++ node.data.drop size, curLen := 0 }

/-- A completed read has stored its bytes at the front of the buffer. -/
def fill (node : MsgNode) (bytes : Bytes) : MsgNode :=
  { node with data := bytes ++ node.data.drop bytes.length }

end MsgNode

/-- `memcpy` of `n` bytes to `offset` in `target`, refused where it would leave either buffer. -/
def memcpy (target : Bytes) (offset : Nat) (source : Bytes) (n : Nat) : Except Fault Bytes :=
  if offset + n ≤ target.length ∧ n ≤ source.length then
    .ok (target.take offset ++ source.take n ++ target.drop (offset + n))
  else .error .outOfBounds

structure RecvNode extends MsgNode where
  msgId : Int
  deriving DecidableEq, Repr

namespace RecvNode

def new (maxLen msgId : Int) : Except Fault RecvNode := do
  let node ← MsgNode.new maxLen
  return { node with msgId }

/-- The id and the text `LogicSystem::DealMsg` makes of a received node. -/
def message (node : RecvNode) : Int × Bytes :=
  (node.msgId, node.data.take (toSizeT node.curLen))

end RecvNode

structure SendNode extends MsgNode where
  msgId : Int
  deriving DecidableEq, Repr

namespace SendNode

/-- The constructor writes the header and the body. The base class takes a `short`, so the total
length is narrowed once more. -/
def new (msg : Bytes) (maxLen msgId : Int) : Except Fault SendNode := do
  let node ← MsgNode.new (toShort (maxLen + HEAD_TOTAL_LEN))
  let data ← memcpy node.data 0 (shortBytes msgId) HEAD_ID_LEN
  let data ← memcpy data HEAD_ID_LEN (shortBytes maxLen) HEAD_DATA_LEN
  let data ← memcpy data HEAD_TOTAL_LEN msg (toSizeT maxLen)
  return { node with data, msgId }

/-- The bytes `async_write` is given. -/
def wire (node : SendNode) : Bytes := node.data.take (toSizeT node.totalLen)

end SendNode

/-- `Send(std::string, short)` from its own narrowing of the length to the constructor of the node,
`none` where the length check refuses the text. The id is narrowed at the call. -/
def sendNode (msg : Bytes) (msgid : Int) : Option (Except Fault SendNode) :=
  let len := toShort msg.length
  if len ≤ 0 ∨ len > toShort MAX_LENGTH then none
  else some (SendNode.new msg len (toShort msgid))

/-! ### The constructors in range -/

theorem MsgNode.new_of_nonneg {maxLen : Nat} (h : maxLen ≤ 32767) :
    MsgNode.new maxLen
      = .ok { curLen := 0, totalLen := maxLen, data := List.replicate (maxLen + 1) 0 } := by
  have hsize : toSizeT ((maxLen : Int) + 1) = maxLen + 1 := by
    unfold toSizeT
    omega
  unfold MsgNode.new
  rw [hsize, if_neg (by unfold vectorMaxSize; omega)]

/-- Below minus one the vector would be larger than any vector. -/
theorem MsgNode.new_of_lt {maxLen : Int} (hshort : IsShort maxLen) (h : maxLen < -1) :
    MsgNode.new maxLen = .error .lengthError := by
  have hsize : 9223372036854775808 ≤ toSizeT (maxLen + 1) := by
    unfold IsShort at hshort
    exact toSizeT_of_neg (by omega) (by omega)
  unfold MsgNode.new
  rw [if_pos (by unfold vectorMaxSize; omega)]

/-- Minus one passes: the sum is zero, and the vector is empty. -/
theorem MsgNode.new_neg_one :
    MsgNode.new (-1) = .ok { curLen := 0, totalLen := -1, data := [] } := rfl

theorem memcpy_append {before middle after source : Bytes} {offset n : Nat}
    (hbefore : before.length = offset) (hmiddle : middle.length = n) (hsource : n ≤ source.length) :
    memcpy (before ++ (middle ++ after)) offset source n
      = .ok (before ++ (source.take n ++ after)) := by
  subst hbefore hmiddle
  unfold memcpy
  rw [if_pos ⟨by simp, hsource⟩, List.take_left, ← List.drop_drop, List.drop_left, List.drop_left,
    List.append_assoc]

/-- A body in range gives a node that holds the header, the body and one byte more. -/
theorem SendNode.new_eq {msg : Bytes} {maxLen : Nat} (msgId : Int)
    (hlen : maxLen ≤ MAX_LENGTH) (hmsg : maxLen ≤ msg.length) :
    SendNode.new msg maxLen msgId
      = .ok { curLen := 0, totalLen := (maxLen + HEAD_TOTAL_LEN : Nat), msgId,
              data := shortBytes msgId ++ (shortBytes maxLen ++ (msg.take maxLen ++ [0])) } := by
  have hbound : maxLen ≤ 2048 := hlen
  have htotal : toShort ((maxLen : Int) + (HEAD_TOTAL_LEN : Nat))
      = ((maxLen + HEAD_TOTAL_LEN : Nat) : Int) := by
    rw [toShort_of_isShort (by unfold IsShort HEAD_TOTAL_LEN; omega)]
    push_cast
    rfl
  have hsize : toSizeT (maxLen : Int) = maxLen := toSizeT_natCast (by omega)
  have hzeros : List.replicate (maxLen + HEAD_TOTAL_LEN + 1) (0 : UInt8)
      = [] ++ ([0, 0] ++ ([0, 0] ++ (List.replicate maxLen 0 ++ [0]))) := by
    rw [← List.replicate_succ']
    rfl
  have hid : memcpy ([] ++ ([0, 0] ++ ([0, 0] ++ (List.replicate maxLen 0 ++ [0])))) 0
      (shortBytes msgId) HEAD_ID_LEN
        = .ok (shortBytes msgId ++ ([0, 0] ++ (List.replicate maxLen 0 ++ [0]))) :=
    memcpy_append rfl rfl (Nat.le_refl _)
  have hdata : memcpy (shortBytes msgId ++ ([0, 0] ++ (List.replicate maxLen 0 ++ [0])))
      HEAD_ID_LEN (shortBytes maxLen) HEAD_DATA_LEN
        = .ok (shortBytes msgId ++ (shortBytes maxLen ++ (List.replicate maxLen 0 ++ [0]))) :=
    memcpy_append rfl rfl (Nat.le_refl _)
  have hbody : memcpy ((shortBytes msgId ++ shortBytes maxLen)
      ++ (List.replicate maxLen 0 ++ [0])) HEAD_TOTAL_LEN msg maxLen
        = .ok ((shortBytes msgId ++ shortBytes maxLen) ++ (msg.take maxLen ++ [0])) :=
    memcpy_append rfl (by simp) hmsg
  rw [List.append_assoc, List.append_assoc] at hbody
  unfold SendNode.new
  rw [htotal, MsgNode.new_of_nonneg (by unfold HEAD_TOTAL_LEN; omega), hsize, hzeros]
  simp only [bind, Except.bind, hid, hdata, hbody]
  rfl

theorem SendNode.wire_new_eq {msg : Bytes} {maxLen : Nat} {msgId : Int} {node : SendNode}
    (hlen : maxLen ≤ MAX_LENGTH) (hmsg : maxLen ≤ msg.length)
    (hnode : SendNode.new msg maxLen msgId = .ok node) :
    node.wire = shortBytes msgId ++ shortBytes maxLen ++ msg.take maxLen := by
  have hbound : maxLen ≤ 2048 := hlen
  rw [SendNode.new_eq msgId hlen hmsg] at hnode
  obtain rfl := Except.ok.inj hnode
  have hsize : toSizeT ((maxLen + HEAD_TOTAL_LEN : Nat) : Int) = maxLen + HEAD_TOTAL_LEN :=
    toSizeT_natCast (by unfold HEAD_TOTAL_LEN; omega)
  unfold SendNode.wire
  rw [hsize, ← List.append_assoc, ← List.append_assoc]
  apply List.take_left'
  simp [HEAD_TOTAL_LEN, hmsg]
  omega

end CoroutineServer
