import Mathlib.Data.Int.CardIntervalMod

/-!
# Round robin with a counter that wraps

Items are dealt out to slots by a counter, reduced modulo the number of slots, and the counter itself wraps
at the end of its period. Each wrap can favour a slot once more.
-/

namespace RoundRobin

/-- The slot of an item, by its place in the order of dealing. -/
def slot (period size item : Nat) : Nat := item % period % size

/-- How many of the first `n` items a slot is dealt. -/
def dealt (period size place n : Nat) : Nat := Nat.count (fun item => slot period size item = place) n

variable {period size place n : Nat}

theorem count_congr {p q : Nat → Prop} [DecidablePred p] [DecidablePred q]
    (h : ∀ item < n, (p item ↔ q item)) : Nat.count p n = Nat.count q n := by
  unfold Nat.count
  refine List.countP_congr fun item hitem => ?_
  rw [decide_eq_true_iff, decide_eq_true_iff]
  exact h item (List.mem_range.mp hitem)

/-- Within one period a slot is dealt the items that are congruent to it. -/
theorem dealt_of_le (hplace : place < size) (hn : n ≤ period) :
    dealt period size place n = n / size + if place < n % size then 1 else 0 := by
  have hcongr : dealt period size place n = Nat.count (fun item => item ≡ place [MOD size]) n := by
    refine count_congr fun item hitem => ?_
    rw [slot, Nat.mod_eq_of_lt (Nat.lt_of_lt_of_le hitem hn), Nat.ModEq, Nat.mod_eq_of_lt hplace]
  rw [hcongr, Nat.count_modEq_card _ (Nat.zero_lt_of_lt hplace), Nat.mod_eq_of_lt hplace]

/-- The periods behind the counter deal alike. -/
theorem dealt_add_period : dealt period size place (period + n)
    = dealt period size place period + dealt period size place n := by
  unfold dealt
  rw [Nat.count_add]
  refine congrArg _ (count_congr fun item _ => ?_)
  rw [slot, Nat.add_mod_left, ← slot]

theorem dealt_cycles (cycles : Nat) : dealt period size place (period * cycles + n)
    = cycles * dealt period size place period + dealt period size place n := by
  induction cycles with
  | zero => rw [Nat.mul_zero, Nat.zero_add, Nat.zero_mul, Nat.zero_add]
  | succ cycles ih =>
    rw [Nat.mul_succ, Nat.add_right_comm, Nat.add_comm, dealt_add_period, ih, Nat.succ_mul]
    omega

/-- Two slots differ by one within a period, and by nothing over a whole period that the number of slots
divides. -/
theorem dealt_le_of_le {other : Nat} (hplace : place < size) (hother : other < size) (hn : n ≤ period) :
    dealt period size place n ≤ dealt period size other n + if size ∣ n then 0 else 1 := by
  rw [dealt_of_le hplace hn, dealt_of_le hother hn]
  by_cases hdvd : size ∣ n
  · rw [if_pos hdvd, Nat.mod_eq_zero_of_dvd hdvd]
    simp
  · rw [if_neg hdvd]
    split <;> split <;> omega

/-- **Balance.** Of any number of items two slots are dealt numbers that differ by one, and by one more for
each wrap of a counter whose period the number of slots does not divide. -/
theorem dealt_balanced {other : Nat} (hperiod : 0 < period) (hplace : place < size) (hother : other < size)
    (n : Nat) :
    dealt period size place n
      ≤ dealt period size other n + 1 + if size ∣ period then 0 else n / period := by
  have hwhole := dealt_le_of_le hplace hother (Nat.le_refl period)
  have hpart := dealt_le_of_le hplace hother (Nat.le_of_lt (Nat.mod_lt n hperiod))
  have hpart' : dealt period size place (n % period) ≤ dealt period size other (n % period) + 1 :=
    hpart.trans (Nat.add_le_add_left (by split <;> omega) _)
  have hcycles := Nat.mul_le_mul_left (n / period) hwhole
  rw [← Nat.div_add_mod n period, dealt_cycles, dealt_cycles, Nat.div_add_mod n period]
  split
  · next hdvd =>
    rw [if_pos hdvd, Nat.add_zero] at hcycles
    omega
  · next hdvd =>
    rw [if_neg hdvd, Nat.mul_add, Nat.mul_one] at hcycles
    omega

end RoundRobin
