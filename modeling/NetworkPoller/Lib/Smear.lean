import Mathlib.Data.Nat.Bitwise
import Mathlib.Data.Nat.Log

/-!
# Smearing bits to the right

`x ||| x >>> 1`, then `>>> 2`, `>>> 4` and so on sets every bit below the highest one of `x`: after
the shift by `n` bit `i` is set exactly if one of the `2 * n` bits of `x` from `i` on is.
-/

namespace Smear

variable {x y n : Nat}

/-- Bit `i` of `y` is set exactly if one of the `n` bits of `x` from `i` on is. -/
def Smeared (x y n : Nat) : Prop := ∀ i, y.testBit i = true ↔ ∃ j < n, x.testBit (i + j) = true

theorem smeared_self (x : Nat) : Smeared x x 1 := by
  intro i
  constructor
  · exact fun h => ⟨0, Nat.one_pos, h⟩
  · rintro ⟨j, hj, h⟩
    obtain rfl : j = 0 := Nat.lt_one_iff.1 hj
    exact h

theorem Smeared.shift (h : Smeared x y n) : Smeared x (y ||| y >>> n) (n + n) := by
  intro i
  rw [Nat.testBit_or, Nat.testBit_shiftRight, Bool.or_eq_true, h i, h (n + i)]
  constructor
  · rintro (⟨j, hj, hb⟩ | ⟨j, hj, hb⟩)
    · exact ⟨j, by omega, hb⟩
    · exact ⟨n + j, by omega, by rwa [← Nat.add_assoc, Nat.add_comm i n]⟩
  · rintro ⟨j, hj, hb⟩
    by_cases hjn : j < n
    · exact .inl ⟨j, hjn, hb⟩
    · refine .inr ⟨j - n, by omega, ?_⟩
      rwa [show n + i + (j - n) = i + j by omega]

/-- The next power of two, from a number smeared over its whole width. -/
theorem Smeared.succ_eq (h : Smeared (x - 1) y n) (hx : 1 ≤ x) (hn : x ≤ 2 ^ n) :
    y + 1 = 2 ^ Nat.clog 2 x := by
  have hy : y = 2 ^ Nat.clog 2 x - 1 := by
    apply Nat.eq_of_testBit_eq
    intro i
    rw [Nat.testBit_two_pow_sub_one, Bool.eq_iff_iff, h i, decide_eq_true_iff,
      Nat.lt_clog_iff_pow_lt Nat.one_lt_two]
    constructor
    · rintro ⟨j, -, hb⟩
      have h1 := Nat.ge_two_pow_of_testBit hb
      have h2 : 2 ^ i ≤ 2 ^ (i + j) := Nat.pow_le_pow_right Nat.two_pos (Nat.le_add_right i j)
      omega
    · intro hlt
      obtain ⟨k, hk, hb⟩ := Nat.exists_ge_and_testBit_of_ge_two_pow (Nat.le_sub_one_of_lt hlt)
      have h1 : 2 ^ k < 2 ^ n := by
        have := Nat.ge_two_pow_of_testBit hb
        omega
      have h2 : k < n := (Nat.pow_lt_pow_iff_right Nat.one_lt_two).1 h1
      exact ⟨k - i, by omega, by rwa [Nat.add_sub_cancel' hk]⟩
  rw [hy, Nat.sub_add_cancel Nat.one_le_two_pow]

end Smear
