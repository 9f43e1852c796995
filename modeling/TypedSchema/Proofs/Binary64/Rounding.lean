import Mathlib.Algebra.Order.Ring.Nat
import Mathlib.Tactic.GCongr
import Mathlib.Tactic.Lemma
import Mathlib.Tactic.Set
import TypedSchema.Binary64.Rounding

/-!
# How large a rounded number is

Rounding to the nearest double keeps a quotient below a power of two at or below that power's rank
(`nearestRank_le`), so every integer that fits into 64 bits becomes a finite double
(`isFinite_ofInt`).
-/

namespace TypedSchema.Binary64

/-- A quotient below `2 ^ k` units is rounded to a rank of at most that power. -/
lemma nearestRank_le {num den k : Nat} (hk : 53 ≤ k) (hquot : num / den < 2 ^ k) :
    nearestRank num den ≤ (k - 53) * 2 ^ 52 + 2 ^ 53 := by
  set doublings := Nat.log2 (num / den) - 52 with hdoublings
  have hlog : Nat.log2 (num / den) < k := by
    by_cases hzero : num / den = 0
    · rw [hzero, Nat.log2_zero]
      omega
    · exact (Nat.log2_lt hzero).2 hquot
  have hsteps : num / (den * 2 ^ doublings) < 2 ^ 53 := by
    have hlt : num / den < 2 ^ (53 + doublings) :=
      Nat.lt_of_lt_of_le Nat.lt_log2_self (Nat.pow_le_pow_right Nat.two_pos (by omega))
    rw [← Nat.div_div_eq_div_mul, Nat.div_lt_iff_lt_mul (Nat.two_pow_pos doublings), ← Nat.pow_add]
    exact hlt
  have hrank : nearestRank num den ≤ doublings * 2 ^ 52 + num / (den * 2 ^ doublings) + 1 := by
    unfold nearestRank
    rw [← hdoublings]
    refine Nat.add_le_add_left ?_ _
    split
    · exact Nat.le_refl 1
    · exact Nat.zero_le 1
  have hdoublings' : doublings ≤ k - 53 := by omega
  calc nearestRank num den
      ≤ doublings * 2 ^ 52 + num / (den * 2 ^ doublings) + 1 := hrank
    _ ≤ (k - 53) * 2 ^ 52 + num / (den * 2 ^ doublings) + 1 := by gcongr
    _ ≤ (k - 53) * 2 ^ 52 + 2 ^ 53 := by rw [Nat.add_assoc]; gcongr; exact hsteps

/-- An integer that fits into 64 bits, with a sign or without, is a finite double. -/
theorem isFinite_ofInt {n : Int} (hlow : -2 ^ 63 ≤ n) (hhigh : n < 2 ^ 64) :
    (ofInt n).isFinite = true := by
  have hnat : n.natAbs < 2 ^ 64 := by omega
  have hquot : n.natAbs * unitsPerOne / 1 < 2 ^ (64 + 1074) := by
    have hunits : 0 < unitsPerOne := by rw [unitsPerOne]; exact Nat.two_pow_pos 1074
    rw [Nat.div_one, Nat.pow_add, ← unitsPerOne]
    exact Nat.mul_lt_mul_of_pos_right hnat hunits
  have hrank : rankOfNat n.natAbs < 0x7FF0000000000000 :=
    Nat.lt_of_le_of_lt (nearestRank_le (by omega) hquot) (by decide)
  rw [ofInt, ofRank, dif_pos hrank]
  rfl

end TypedSchema.Binary64
