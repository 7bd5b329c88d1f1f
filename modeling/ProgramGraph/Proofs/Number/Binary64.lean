import Mathlib.Algebra.Group.Nat.Defs
import Mathlib.Tactic.SplitIfs
import ProgramGraph.Number.Binary64

/-!
# ProgramGraph.Proofs.Number.Binary64

Integers of 64 bits are within the range of binary floating-point numbers.

* `quotient_lt`       — a number in units of a power of two is short, if the power is not too small.
* `isSome_nearest?`   — a number of 64 binary digits has a nearest one.
* `isSome_ofDecimal?` — and so has an integer literal.
-/

namespace ProgramGraph.Number

theorem roundDiv_le (n d : Nat) : roundDiv n d ≤ n / d + 1 := by
  rw [roundDiv]
  split <;> omega

namespace Binary64

theorem quotient_lt {n : Nat} {q : Int} (h : (n.log2 : Int) - 53 ≤ q) :
    let units := if 0 ≤ q then (n, 1 <<< q.toNat) else (n <<< (-q).toNat, 1)
    units.1 / units.2 < 2 ^ 54 := by
  intro units
  have short : n < 2 ^ (n.log2 + 1) := Nat.lt_log2_self
  by_cases up : 0 ≤ q
  · have big : 2 ^ (n.log2 + 1) ≤ 2 ^ 54 * 2 ^ q.toNat := by
      rw [← Nat.pow_add]
      exact Nat.pow_le_pow_right (by decide) (by omega)
    simp only [units, if_pos up, Nat.shiftLeft_eq, Nat.one_mul]
    exact Nat.div_lt_of_lt_mul (by rw [Nat.mul_comm]; omega)
  · have big : 2 ^ (n.log2 + 1) * 2 ^ (-q).toNat ≤ 2 ^ 54 := by
      rw [← Nat.pow_add]
      exact Nat.pow_le_pow_right (by decide) (by omega)
    have positive : 0 < 2 ^ (-q).toNat := Nat.two_pow_pos _
    simp only [units, if_neg up, Nat.shiftLeft_eq, Nat.div_one]
    exact Nat.lt_of_lt_of_le (Nat.mul_lt_mul_of_pos_right short positive) big

theorem isSome_nearest? {n : Nat} (h : n.log2 < 64) : (nearest? n 1).isSome = true := by
  unfold nearest?
  extract_lets low inUnits atLow q units m bits
  have low_eq : low = (n.log2 : Int) - 53 := by
    have one : Nat.log2 1 = 0 := by decide
    simp only [low, one]
    omega
  have above : low ≤ q ∧ q ≤ low + 1 := by
    simp only [q]
    split <;> omega
  have short : m ≤ 2 ^ 54 := by
    have quotient : units.1 / units.2 < 2 ^ 54 := quotient_lt (by omega)
    exact Nat.le_trans (roundDiv_le _ _) quotient
  have inside : bits < infinity := by
    have leading : leadingBit = 2 ^ 52 := rfl
    have limit : infinity = 2047 * 2 ^ 52 := rfl
    have exponent : (q + 1075).toNat ≤ 1086 := by omega
    simp only [bits]
    split
    · omega
    · have := Nat.mul_le_mul_right leadingBit exponent
      omega
  rw [if_pos inside]
  rfl

theorem isSome_ofDecimal? (negative : Bool) {digits : Nat} (h : digits < 2 ^ 64) :
    (ofDecimal? negative digits 0).isSome = true := by
  unfold ofDecimal?
  extract_lets places num den
  have length : (Nat.toDigits 10 digits).length ≤ 20 := by
    rw [Nat.length_toDigits_le_iff (by decide) (by decide)]
    omega
  have low : ¬330 < places := by
    simp only [places]
    omega
  split_ifs with zero
  · rfl
  · have num_eq : num = digits := by simp [num]
    have den_eq : den = 1 := by simp [den]
    have nonzero : digits ≠ 0 := by
      rintro rfl
      exact zero rfl
    have binary : digits.log2 < 64 := (Nat.log2_lt nonzero).mpr h
    rw [num_eq, den_eq, Option.isSome_map]
    exact isSome_nearest? binary

end Binary64
end ProgramGraph.Number
