import CoroutineServer.Server

/-!
# The text of a body

What `dump()` makes of a value without floating-point numbers: no blanks, the fields of an object in the
order of their keys. The bodies of fixed shape fit a frame.
-/

namespace CoroutineServer

/-- `dump` leaves the bytes of valid text alone but for quotes, backslashes and control characters. -/
def escape (byte : UInt8) : Bytes :=
  if byte = 0x22 then ascii "\\\""
  else if byte = 0x5c then ascii "\\\\"
  else if byte = 0x08 then ascii "\\b"
  else if byte = 0x09 then ascii "\\t"
  else if byte = 0x0a then ascii "\\n"
  else if byte = 0x0c then ascii "\\f"
  else if byte = 0x0d then ascii "\\r"
  else if byte < 0x20 then ascii "\\u00" ++
    [DBManager.hexDigit (byte.toNat / 16), DBManager.hexDigit (byte.toNat % 16)]
  else [byte]

def quoted (text : Bytes) : Bytes := ascii "\"" ++ text.flatMap escape ++ ascii "\""

/-- Decimal digits, of which an `int64_t` has at most nineteen. -/
def decimal : (fuel : Nat) → Nat → Bytes
  | 0, n => [digit n]
  | fuel + 1, n => if n < 10 then [digit n] else decimal fuel (n / 10) ++ [digit n]

mutual

def render : Json → Bytes
  | .null => ascii "null"
  | .boolean value => if value then ascii "true" else ascii "false"
  | .number value => (if value < 0 then ascii "-" else []) ++ decimal 19 value.natAbs
  | .numberFloat _ => ascii "0.0"
  | .string text => quoted text
  | .array items => ascii "[" ++ renderItems items ++ ascii "]"
  | .object fields => ascii "\x7b" ++ renderFields fields ++ ascii "\x7d"

def renderItems : List Json → Bytes
  | [] => []
  | item :: items => render item ++ (if items.isEmpty then [] else ascii ",") ++ renderItems items

def renderFields : List (Bytes × Json) → Bytes
  | [] => []
  | (key, value) :: fields => quoted key ++ ascii ":" ++ render value ++
      (if fields.isEmpty then [] else ascii ",") ++ renderFields fields

end

theorem decimal_ne_nil (fuel n : Nat) : decimal fuel n ≠ [] := by
  cases fuel with
  | zero => simp [decimal]
  | succ fuel =>
    unfold decimal
    split <;> simp

theorem render_ne_nil (root : Json) : render root ≠ [] := by
  have hascii : ∀ {text : String} {rest : Bytes}, ascii text ≠ [] → ascii text ++ rest ≠ [] :=
    fun hne heq => hne (List.append_eq_nil_iff.mp heq).1
  cases root with
  | null =>
    rw [render]
    decide
  | boolean value =>
    rw [render]
    cases value <;> decide
  | number value =>
    rw [render]
    exact fun heq => decimal_ne_nil _ _ (List.append_eq_nil_iff.mp heq).2
  | numberFloat bits =>
    rw [render]
    decide
  | string text =>
    rw [render, quoted, List.append_assoc]
    exact hascii (by decide)
  | array items =>
    rw [render, List.append_assoc]
    exact hascii (by decide)
  | object fields =>
    rw [render, List.append_assoc]
    exact hascii (by decide)

/-! ### How long a text is -/

theorem length_escape_le (byte : UInt8) : (escape byte).length ≤ 6 := by
  unfold escape
  split_ifs
  all_goals first
    | decide
    | exact Nat.le_of_eq rfl
    | exact Nat.le_add_left 1 5

theorem length_quoted_le (text : Bytes) : (quoted text).length ≤ 6 * text.length + 2 := by
  have hbody : (text.flatMap escape).length ≤ 6 * text.length := by
    induction text with
    | nil => exact Nat.le_refl _
    | cons byte rest ih =>
      have hbyte := length_escape_le byte
      rw [List.flatMap_cons, List.length_append, List.length_cons]
      omega
  have hquote : (ascii "\"").length = 1 := rfl
  unfold quoted
  rw [List.length_append, List.length_append, hquote]
  omega

theorem length_decimal_le (fuel n : Nat) : (decimal fuel n).length ≤ fuel + 1 := by
  induction fuel generalizing n with
  | zero => exact Nat.le_refl _
  | succ fuel ih =>
    have hrest := ih (n / 10)
    unfold decimal
    split_ifs
    · exact Nat.le_add_left 1 (fuel + 1)
    · rw [List.length_append, List.length_singleton]
      omega

theorem length_render_number_le (value : Int) : (render (.number value)).length ≤ 21 := by
  have hdigits := length_decimal_le 19 value.natAbs
  have hminus : (ascii "-").length = 1 := rfl
  rw [render, List.length_append]
  split_ifs
  · omega
  · rw [List.length_nil]
    omega

theorem length_renderFields_cons (key : Bytes) (value : Json) (fields : List (Bytes × Json)) :
    (renderFields ((key, value) :: fields)).length
      = (quoted key).length + (render value).length + 1 + (if fields.isEmpty then 0 else 1)
        + (renderFields fields).length := by
  have hcolon : (ascii ":").length = 1 := rfl
  have hcomma : (ascii ",").length = 1 := rfl
  rw [renderFields, List.length_append, List.length_append, List.length_append, List.length_append,
    hcolon, apply_ite List.length, hcomma, List.length_nil]
  omega

theorem length_renderFields_insertField_le (key : Bytes) (value : Json)
    (fields : List (Bytes × Json)) :
    (renderFields (Json.insertField key value fields)).length
      ≤ (renderFields fields).length + (quoted key).length + (render value).length + 1
        + (if fields.isEmpty then 0 else 1) := by
  induction fields with
  | nil =>
    rw [Json.insertField, length_renderFields_cons]
    simp only [List.isEmpty_nil, if_true, renderFields, List.length_nil]
    omega
  | cons head fields ih =>
    obtain ⟨name, old⟩ := head
    simp only [Json.insertField, List.isEmpty_cons, Bool.false_eq_true, if_false]
    by_cases hname : key = name
    · rw [if_pos hname, length_renderFields_cons, length_renderFields_cons]
      omega
    rw [if_neg hname]
    by_cases hlt : Json.keyLt key name = true
    · rw [if_pos hlt, length_renderFields_cons]
      simp only [List.isEmpty_cons, Bool.false_eq_true, if_false]
      omega
    · have hnonempty : (Json.insertField key value fields).isEmpty = false := by
        cases fields with
        | nil => rfl
        | cons other fields =>
          obtain ⟨othername, otherold⟩ := other
          rw [Json.insertField]
          split_ifs <;> rfl
      rw [if_neg hlt, length_renderFields_cons, length_renderFields_cons, hnonempty]
      simp only [Bool.false_eq_true, if_false]
      omega

theorem length_render_object (fields : List (Bytes × Json)) :
    (render (.object fields)).length = (renderFields fields).length + 2 := by
  have hopen : (ascii "\x7b").length = 1 := rfl
  have hclose : (ascii "\x7d").length = 1 := rfl
  rw [render, List.length_append, List.length_append, hopen, hclose]
  omega

theorem length_render_set_le {root value : Json} (key : String) {rootLimit valueLimit : Nat}
    (hroot : (render root).length ≤ rootLimit) (hvalue : (render value).length ≤ valueLimit) :
    (render (root.set key value)).length
      ≤ rootLimit + (quoted (ascii key)).length + valueLimit + 2 := by
  cases root with
  | object fields =>
    have hinsert := length_renderFields_insertField_le (ascii key) value fields
    have hcomma : (if fields.isEmpty then 0 else 1) ≤ 1 := by
      split_ifs <;> omega
    rw [length_render_object] at hroot
    rw [Json.set, length_render_object]
    omega
  | null =>
    have hnull : 4 ≤ rootLimit := hroot
    rw [Json.set, length_render_object, length_renderFields_cons]
    simp only [List.isEmpty_nil, if_true, renderFields, List.length_nil]
    omega
  | _ => exact hroot.trans (by omega)

namespace Payload

/-- The bodies of fixed shape; the text of an error is short. -/
def Brief : Payload → Prop
  | .error _ msg => msg.length ≤ 256
  | .registerRsp _ => True
  | .loginOk _ _ => True
  | .loginFailed => True
  | .addFriendRsp _ => True
  | .chatRsp _ => True
  | _ => False

/-- **A body of fixed shape fits a frame.** -/
theorem length_render_json_le {payload : Payload} (h : payload.Brief) :
    (render payload.json).length ≤ MAX_LENGTH := by
  have hnull : (render .null).length ≤ 4 := Nat.le_refl _
  cases payload with
  | error code msg =>
    have hmsg : (render (.string msg)).length ≤ 6 * 256 + 2 := by
      have hquoted := length_quoted_le msg
      have hshort : msg.length ≤ 256 := h
      rw [render]
      omega
    have hstatus := length_render_set_le "status" hnull (length_render_number_le code)
    exact (length_render_set_le "msg" hstatus hmsg).trans (by decide)
  | registerRsp ok =>
    have hstatus := length_render_set_le "status" hnull
      (length_render_number_le (if ok then 0 else -1))
    apply (length_render_set_le "msg" hstatus (Nat.le_refl _)).trans
    cases ok <;> decide
  | loginOk uid offlineCount =>
    have hstatus := length_render_set_le "status" hnull (length_render_number_le 0)
    have huid := length_render_set_le "uid" hstatus (length_render_number_le uid)
    have hmsg := length_render_set_le "msg" huid
      (Nat.le_refl (render (.text "login success")).length)
    exact (length_render_set_le "offline_count" hmsg (length_render_number_le _)).trans (by decide)
  | loginFailed => decide
  | addFriendRsp ok => cases ok <;> decide
  | chatRsp msgId =>
    have hstatus := length_render_set_le "status" hnull
      (length_render_number_le (if msgId ≥ 0 then 0 else -1))
    have hid := length_render_set_le "msg_id" hstatus (length_render_number_le msgId)
    apply (length_render_set_le "msg" hid (Nat.le_refl _)).trans
    split <;> decide
  | _ => exact h.elim

theorem contains_status {payload : Payload} (h : payload.status.isSome) :
    payload.json.contains "status" = true := by
  cases payload with
  | friendRequestPush fromUid toUid => cases h
  | chatMsgPush msgId fromUid toUid content timestamp => cases h
  | echo root => cases h
  | _ => rfl

end Payload

end CoroutineServer
