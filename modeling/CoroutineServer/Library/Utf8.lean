import Mathlib.Data.List.Basic

/-!
# Well-formed UTF-8

The well-formed byte sequences by the range of each byte, so that overlong forms, surrogates and code
points past the last plane are out. Cutting a well-formed text at its first NUL leaves one.
-/

namespace Utf8

def IsTail (byte : UInt8) : Prop := 0x80 ≤ byte ∧ byte ≤ 0xBF

/-- The range of the byte after a lead byte of a sequence of three or four. -/
def SecondOk (lead second : UInt8) : Prop :=
  IsTail second ∧ (lead = 0xE0 → 0xA0 ≤ second) ∧ (lead = 0xED → second ≤ 0x9F) ∧
    (lead = 0xF0 → 0x90 ≤ second) ∧ (lead = 0xF4 → second ≤ 0x8F)

inductive Valid : List UInt8 → Prop where
  | nil : Valid []
  | one {byte : UInt8} {rest : List UInt8} (hbyte : byte < 0x80) (hrest : Valid rest) :
      Valid (byte :: rest)
  | two {lead second : UInt8} {rest : List UInt8} (hlead : 0xC2 ≤ lead ∧ lead ≤ 0xDF)
      (hsecond : IsTail second) (hrest : Valid rest) : Valid (lead :: second :: rest)
  | three {lead second third : UInt8} {rest : List UInt8} (hlead : 0xE0 ≤ lead ∧ lead ≤ 0xEF)
      (hsecond : SecondOk lead second) (hthird : IsTail third) (hrest : Valid rest) :
      Valid (lead :: second :: third :: rest)
  | four {lead second third fourth : UInt8} {rest : List UInt8}
      (hlead : 0xF0 ≤ lead ∧ lead ≤ 0xF4) (hsecond : SecondOk lead second) (hthird : IsTail third)
      (hfourth : IsTail fourth) (hrest : Valid rest) :
      Valid (lead :: second :: third :: fourth :: rest)

/-- Byte by byte along the text; the bytes are so few that they could also be enumerated. -/
instance (priority := 2000) decidableAscii (text : List UInt8) :
    Decidable (∀ byte ∈ text, byte < 0x80) :=
  List.decidableBAll (fun byte => byte < 0x80) text

theorem Valid.of_ascii {text : List UInt8} (h : ∀ byte ∈ text, byte < 0x80) : Valid text := by
  induction text with
  | nil => exact .nil
  | cons byte rest ih =>
    exact .one (h byte List.mem_cons_self) (ih fun other hmem => h other (List.mem_cons_of_mem _ hmem))

theorem Valid.append {front back : List UInt8} (hfront : Valid front) (hback : Valid back) :
    Valid (front ++ back) := by
  induction hfront with
  | nil => exact hback
  | one hbyte _ ih => exact .one hbyte ih
  | two hlead hsecond _ ih => exact .two hlead hsecond ih
  | three hlead hsecond hthird _ ih => exact .three hlead hsecond hthird ih
  | four hlead hsecond hthird hfourth _ ih => exact .four hlead hsecond hthird hfourth ih

private theorem ne_zero_of_le {byte low : UInt8} (hlow : 0x80 ≤ low) (h : low ≤ byte) : byte ≠ 0 := by
  rintro rfl
  exact absurd (UInt8.le_trans hlow h) (by decide)

/-- A NUL is a sequence of its own, so a text cut at the first one is still well formed. -/
theorem Valid.takeWhile_ne_zero {text : List UInt8} (h : Valid text) :
    Valid (text.takeWhile (· ≠ 0)) := by
  have htail : ∀ {byte : UInt8}, IsTail byte → byte ≠ 0 := fun hbyte =>
    ne_zero_of_le (by decide) hbyte.1
  induction h with
  | nil => exact .nil
  | @one byte rest hbyte _ ih =>
    rw [List.takeWhile_cons]
    split
    · exact .one hbyte ih
    · exact .nil
  | two hlead hsecond _ ih =>
    simp only [List.takeWhile_cons, ne_eq, ne_zero_of_le (by decide) hlead.1, htail hsecond,
      not_false_eq_true, decide_true, if_true]
    exact .two hlead hsecond ih
  | three hlead hsecond hthird _ ih =>
    simp only [List.takeWhile_cons, ne_eq, ne_zero_of_le (by decide) hlead.1, htail hsecond.1,
      htail hthird, not_false_eq_true, decide_true, if_true]
    exact .three hlead hsecond hthird ih
  | four hlead hsecond hthird hfourth _ ih =>
    simp only [List.takeWhile_cons, ne_eq, ne_zero_of_le (by decide) hlead.1, htail hsecond.1,
      htail hthird, htail hfourth, not_false_eq_true, decide_true, if_true]
    exact .four hlead hsecond hthird hfourth ih

end Utf8
