import Mathlib.Data.List.TakeWhile

/-!
# Bytes and the integer types of the code

A `std::string` and a buffer are lists of bytes. The narrowing conversions are those of the target:
`short` is 16 bits and `size_t` and `int64_t` are 64 bits, all two's complement.
-/

namespace CoroutineServer

abbrev Bytes := List UInt8

/-- The bytes of a literal of the source. -/
def ascii (text : String) : Bytes := text.toList.map fun c => UInt8.ofNat c.toNat

/-! ### Integer conversions -/

def toShort (x : Int) : Int :=
  if x % 65536 < 32768 then x % 65536 else x % 65536 - 65536

def IsShort (x : Int) : Prop := -32768 ≤ x ∧ x ≤ 32767

instance (x : Int) : Decidable (IsShort x) := inferInstanceAs (Decidable (_ ∧ _))

def toSizeT (x : Int) : Nat := (x % 18446744073709551616).toNat

def toInt64 (x : Int) : Int :=
  if x % 18446744073709551616 < 9223372036854775808 then x % 18446744073709551616
  else x % 18446744073709551616 - 18446744073709551616

def toInt32 (x : Int) : Int :=
  if x % 4294967296 < 2147483648 then x % 4294967296 else x % 4294967296 - 4294967296

theorem isShort_toShort (x : Int) : IsShort (toShort x) := by
  unfold IsShort toShort
  split <;> omega

theorem toShort_of_isShort {x : Int} (h : IsShort x) : toShort x = x := by
  unfold IsShort at h
  unfold toShort
  split <;> omega

@[simp]
theorem toSizeT_natCast {n : Nat} (h : n < 18446744073709551616) : toSizeT (n : Int) = n := by
  unfold toSizeT
  omega

/-- A negative `int` becomes a size no vector can have. -/
theorem toSizeT_of_neg {x : Int} (hlow : -9223372036854775808 ≤ x) (hneg : x < 0) :
    9223372036854775808 ≤ toSizeT x := by
  unfold toSizeT
  omega

/-! ### Two-byte fields -/

/-- What `memcpy` stores of `host_to_network_short(x)`. -/
def shortBytes (x : Int) : Bytes :=
  [UInt8.ofNat ((x % 65536).toNat / 256), UInt8.ofNat ((x % 65536).toNat % 256)]

/-- `network_to_host_short` of the two bytes at `offset`. -/
def networkShort (data : Bytes) (offset : Nat) : Int :=
  toShort ((data.getD offset 0).toNat * 256 + (data.getD (offset + 1) 0).toNat)

@[simp]
theorem length_shortBytes (x : Int) : (shortBytes x).length = 2 := rfl

theorem isShort_networkShort (data : Bytes) (offset : Nat) : IsShort (networkShort data offset) :=
  isShort_toShort _

/-! ### C strings -/

/-- What a C string of `text` ends up as: the bytes before the first NUL. -/
def cstr (text : Bytes) : Bytes := text.takeWhile (· ≠ 0)

theorem cstr_eq_self_iff {text : Bytes} : cstr text = text ↔ 0 ∉ text := by
  unfold cstr
  rw [List.takeWhile_eq_self_iff]
  refine ⟨fun h hmem => ?_, fun h byte hmem => ?_⟩
  · exact absurd (h 0 hmem) (by decide)
  · refine decide_eq_true fun hzero => h ?_
    rwa [hzero] at hmem

theorem cstr_eq_self {text : Bytes} (h : 0 ∉ text) : cstr text = text := cstr_eq_self_iff.mpr h

end CoroutineServer
