import Mathlib.Order.Bounds.Basic
import Mathlib.Data.Nat.Bitwise
import Mathlib.Tactic.Ring

/- Unsigned machine words of `w` bits as naturals below `2^w`: wrapping, wrapping
   subtraction, clearing the bits of a mask (`x & ~m`), and the round-up idiom
   `(x + (a - 1)) & ~(a - 1)` for a power of two `a`. The lemmas say when each
   operation has its unbounded meaning; `roundUp` is that meaning. Rounding up can also
   count: `(x - 1) / a + 1` is the least number of units `a` that hold `x`, and dividing by
   `a - 1` in its place counts the same exactly while quotient and rest stay small. -/
namespace Words

/-- The value of `x` in an unsigned type of `w` bits. -/
def wrap (w x : Nat) : Nat := x % 2 ^ w

/-- `x - y` in an unsigned type of `w` bits. -/
def wsub (w x y : Nat) : Nat := wrap w (x + 2 ^ w - y)

/-- `x & ~m` in an unsigned type of `w` bits. -/
def andNot (w x m : Nat) : Nat := x &&& (2 ^ w - (m + 1))

/-- The least multiple of `a` that is at least `x`. -/
def roundUp (x a : Nat) : Nat := (x + (a - 1)) / a * a

theorem wrap_eq {w x : Nat} (h : x < 2 ^ w) : wrap w x = x := Nat.mod_eq_of_lt h

theorem wrap_lt (w x : Nat) : wrap w x < 2 ^ w := Nat.mod_lt _ (Nat.two_pow_pos w)

theorem wsub_eq {w x y : Nat} (hx : x < 2 ^ w) (h : y ≤ x) : wsub w x y = x - y := by
  unfold wsub wrap
  rw [show x + 2 ^ w - y = (x - y) + 2 ^ w by omega, Nat.add_mod_right]
  exact Nat.mod_eq_of_lt (by omega)

/-- The last of `n` words from `x > 0` on, when they all fit. -/
theorem wrap_last {w x n : Nat} (hx : 0 < x) (hn : 0 < n) (h : x + n ≤ 2 ^ w) :
    wrap w (x + wsub w n 1) = x + (n - 1) := by
  rw [wsub_eq (show n < 2 ^ w by omega) (by omega)]
  exact wrap_eq (by omega)

/-- Subtraction undoes an addition, wrapped or not. -/
theorem wsub_wrap_add {w x y : Nat} (hx : x < 2 ^ w) (hy : y < 2 ^ w) :
    wsub w (wrap w (x + y)) x = y := by
  unfold wsub wrap
  rcases Nat.lt_or_ge (x + y) (2 ^ w) with hlt | hge
  · rw [Nat.mod_eq_of_lt hlt, show x + y + 2 ^ w - x = y + 2 ^ w by omega, Nat.add_mod_right]
    exact Nat.mod_eq_of_lt hy
  · have hmod : (x + y) % 2 ^ w = x + y - 2 ^ w := by
      rw [Nat.mod_eq_sub_mod hge]
      exact Nat.mod_eq_of_lt (by omega)
    rw [hmod, show x + y - 2 ^ w + 2 ^ w - x = y by omega]
    exact Nat.mod_eq_of_lt hy

/-- Clearing the low `k` bits rounds down to a multiple of `2^k`. -/
theorem andNot_two_pow {w k x : Nat} (hk : k ≤ w) (hx : x < 2 ^ w) :
    andNot w x (2 ^ k - 1) = x / 2 ^ k * 2 ^ k := by
  have hm : 2 ^ k - 1 < 2 ^ w := by
    have := Nat.pow_le_pow_right (n := 2) (by decide) hk
    have := Nat.two_pow_pos k
    omega
  unfold andNot
  rw [← Nat.shiftRight_eq_div_pow, ← Nat.shiftLeft_eq]
  apply Nat.eq_of_testBit_eq
  intro i
  rw [Nat.testBit_and, Nat.testBit_two_pow_sub_succ hm, Nat.testBit_two_pow_sub_one,
    Nat.testBit_shiftLeft, Nat.testBit_shiftRight]
  by_cases hi : k ≤ i
  · have hbit : i < w ∨ x.testBit i = false := by
      by_cases hw : i < w
      · exact Or.inl hw
      · exact Or.inr (Nat.testBit_lt_two_pow (Nat.lt_of_lt_of_le hx
          (Nat.pow_le_pow_right (by decide) (by omega))))
    rw [show k + (i - k) = i by omega]
    rcases hbit with h | h
    · simp [hi, h]
    · simp [h]
  · have hik : i < k := by omega
    simp [hi, hik]

/-- Masking with all bits but the low `k` clears these. -/
theorem and_highMask {w k x : Nat} (hk : k ≤ w) (hx : x < 2 ^ w) :
    x &&& andNot w (2 ^ w - 1) (2 ^ k - 1) = x / 2 ^ k * 2 ^ k := by
  have hpos := Nat.two_pow_pos k
  have hle := Nat.pow_le_pow_right (n := 2) (by decide) hk
  have hmask : andNot w (2 ^ w - 1) (2 ^ k - 1) = 2 ^ w - (2 ^ k - 1 + 1) := by
    unfold andNot
    rw [Nat.and_comm]
    exact Nat.and_two_pow_sub_one_of_lt_two_pow (by omega)
  rw [hmask]
  exact andNot_two_pow hk hx

section RoundUp
variable {x y a : Nat}

theorem le_roundUp (ha : 0 < a) : x ≤ roundUp x a := by
  have h := Nat.div_add_mod (x + (a - 1)) a
  have hlt := Nat.mod_lt (x + (a - 1)) ha
  unfold roundUp
  rw [Nat.mul_comm]
  omega

theorem roundUp_lt (ha : 0 < a) : roundUp x a < x + a := by
  have h := Nat.div_mul_le_self (x + (a - 1)) a
  unfold roundUp
  omega

theorem dvd_roundUp : a ∣ roundUp x a := Dvd.intro_left _ rfl

theorem roundUp_of_dvd (ha : 0 < a) (h : a ∣ x) : roundUp x a = x := by
  obtain ⟨c, rfl⟩ := h
  unfold roundUp
  rw [show (a * c + (a - 1)) / a = c by
    rw [Nat.mul_add_div ha, Nat.div_eq_of_lt (by omega), Nat.add_zero], Nat.mul_comm]

/-- No multiple lies strictly between `x` and `roundUp x a`. -/
theorem roundUp_le (ha : 0 < a) (hxy : x ≤ y) (hy : a ∣ y) : roundUp x a ≤ y := by
  obtain ⟨c, rfl⟩ := hy
  unfold roundUp
  have : (x + (a - 1)) / a ≤ c := by
    rw [Nat.div_le_iff_le_mul_add_pred ha]
    omega
  calc (x + (a - 1)) / a * a ≤ c * a := Nat.mul_le_mul_right a this
    _ = a * c := Nat.mul_comm c a

end RoundUp

/-- The round-up idiom has its unbounded meaning when the sum does not wrap. -/
theorem roundUp_mask {w k x : Nat} (hk : k ≤ w) (h : x + (2 ^ k - 1) < 2 ^ w) :
    andNot w (wrap w (x + (2 ^ k - 1))) (2 ^ k - 1) = roundUp x (2 ^ k) := by
  rw [wrap_eq h, andNot_two_pow hk h]
  rfl

section Count
variable {x a n : Nat}

theorem le_mul_iff_count (hx : 0 < x) (ha : 0 < a) : x ≤ n * a ↔ (x - 1) / a + 1 ≤ n := by
  calc x ≤ n * a ↔ x - 1 < n * a := by omega
    _ ↔ (x - 1) / a < n := (Nat.div_lt_iff_lt_mul ha).symm
    _ ↔ (x - 1) / a + 1 ≤ n := Nat.lt_iff_add_one_le

/-- The least number of units `a` that hold `x`. -/
theorem isLeast_count (hx : 0 < x) (ha : 0 < a) :
    IsLeast { n | x ≤ n * a } ((x - 1) / a + 1) :=
  ⟨(le_mul_iff_count hx ha).mpr (Nat.le_refl _), fun _ hn => (le_mul_iff_count hx ha).mp hn⟩

/-- Each unit of `a` leaves one over for a divisor one less. -/
theorem div_pred (ha : 1 < a) : x / (a - 1) = x / a + (x / a + x % a) / (a - 1) := by
  have hpos : 0 < a - 1 := by omega
  have hx : x = (a - 1) * (x / a) + (x / a + x % a) := by
    calc x = a * (x / a) + x % a := (Nat.div_add_mod x a).symm
      _ = (a - 1 + 1) * (x / a) + x % a := by rw [Nat.sub_add_cancel (by omega)]
      _ = (a - 1) * (x / a) + (x / a + x % a) := by ring
  calc x / (a - 1) = ((a - 1) * (x / a) + (x / a + x % a)) / (a - 1) := by rw [← hx]
    _ = x / a + (x / a + x % a) / (a - 1) := Nat.mul_add_div hpos _ _

theorem div_pred_eq_iff (ha : 1 < a) : x / (a - 1) = x / a ↔ x / a + x % a < a - 1 := by
  have hpos : 0 < a - 1 := by omega
  rw [div_pred ha]
  calc x / a + (x / a + x % a) / (a - 1) = x / a ↔ (x / a + x % a) / (a - 1) = 0 := by omega
    _ ↔ x / a + x % a < a - 1 := Nat.div_eq_zero_iff_lt hpos

end Count

end Words
