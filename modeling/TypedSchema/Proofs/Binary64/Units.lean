import Mathlib.Algebra.Group.Nat.Defs
import Mathlib.Order.Monotone.Basic
import Mathlib.Tactic.Lemma
import TypedSchema.Binary64.Basic

/-!
# Ranks are ordered like their values

The value of a rank grows with the rank (`Binary64.units_strictMono`): inside a binade by one
spacing, and from the last rank of a binade to the first of the next by the old spacing.
-/

namespace TypedSchema.Binary64

lemma binade_mul_le (rank : Nat) : binade rank * 2 ^ 52 ≤ rank := by
  unfold binade
  omega

lemma units_lt_units_succ (rank : Nat) : units rank < units (rank + 1) := by
  have hle := binade_mul_le rank
  have hbinade : binade (rank + 1) = binade rank ∨
      binade (rank + 1) = binade rank + 1 ∧ rank + 1 = (binade rank + 2) * 2 ^ 52 := by
    unfold binade
    omega
  rcases hbinade with hsame | ⟨hnext, hrank⟩
  · unfold units
    rw [hsame]
    exact Nat.mul_lt_mul_of_pos_right (by omega) (Nat.two_pow_pos _)
  · have hspacings : rank - binade rank * 2 ^ 52 <
        (rank + 1 - (binade rank + 1) * 2 ^ 52) * 2 := by omega
    calc units rank
        < (rank + 1 - (binade rank + 1) * 2 ^ 52) * 2 * 2 ^ binade rank :=
          Nat.mul_lt_mul_of_pos_right hspacings (Nat.two_pow_pos _)
      _ = units (rank + 1) := by
          rw [units, hnext, pow_succ' 2 (binade rank), Nat.mul_assoc]

theorem units_strictMono : StrictMono units := strictMono_nat_of_lt_succ units_lt_units_succ

end TypedSchema.Binary64
