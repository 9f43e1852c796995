import Mathlib.Algebra.Order.Field.Rat
import Mathlib.Algebra.Order.Field.Power
import Mathlib.Tactic.Linarith
import Mathlib.Tactic.Positivity
import Mathlib.Tactic.Ring
import TypedSchema.Decimal.Shortest
import TypedSchema.Proofs.Binary64.Units

/-!
# The shortest decimal of a double is a decimal of no other

A decimal is compared with the doubles through its value, a rational number.  It identifies a double
when the value lies between the midpoints to the neighbours (`Decimal.identifies_iff`), and the
midpoints are ordered, so it identifies at most one (`Decimal.RoundsTo.eq`).  The decimal that
is chosen for a double does identify it (`Decimal.identifies_shortest`), and therefore decimals of
one value belong to one double (`Decimal.shortest_value_injective`).
-/

namespace TypedSchema

/-! ## Midpoints -/

/-- Twice the midpoint between a rank and the one before it, in units. -/
def Binary64.boundary (rank : Nat) : Nat := units (rank - 1) + units rank

lemma Binary64.boundary_strictMono : StrictMono boundary := by
  refine strictMono_nat_of_lt_succ fun rank => ?_
  have hprev : units (rank - 1) ≤ units rank := units_strictMono.monotone (Nat.sub_le rank 1)
  have hnext : units rank < units (rank + 1) := units_lt_units_succ rank
  show units (rank - 1) + units rank < units (rank + 1 - 1) + units (rank + 1)
  rw [Nat.add_sub_cancel]
  omega

namespace Decimal

open Binary64

/-! ## Values -/

/-- The number that a decimal stands for. -/
def value (d : Decimal) : ℚ := d.digits * 10 ^ d.exponent

lemma den_pos (d : Decimal) : (0 : ℚ) < d.den := by
  unfold den
  positivity

lemma num_eq_value_mul_den (d : Decimal) : (d.num : ℚ) = d.value * d.den := by
  have hten : (10 : ℚ) ≠ 0 := by norm_num
  have hexp : (d.exponent.toNat : ℤ) = d.exponent + ((-d.exponent).toNat : ℤ) := by omega
  unfold num den value
  push_cast
  rw [← zpow_natCast, ← zpow_natCast, hexp, zpow_add₀ hten]
  ring

/-- Whether a number of units, taken twice, rounds to the double of this rank. -/
def RoundsTo (x : ℚ) (rank : Nat) : Prop :=
  if rank % 2 = 0 then boundary rank ≤ x ∧ x ≤ boundary (rank + 1)
  else boundary rank < x ∧ x < boundary (rank + 1)

lemma identifies_iff {d : Decimal} {rank : Nat} :
    d.identifies rank = true ↔ RoundsTo (2 * d.value * unitsPerOne) rank := by
  have htwice : ((2 * d.num * unitsPerOne : Nat) : ℚ) = 2 * d.value * unitsPerOne * d.den := by
    push_cast
    rw [num_eq_value_mul_den]
    ring
  have hlow : ∀ n : Nat,
      n * d.den ≤ 2 * d.num * unitsPerOne ↔ (n : ℚ) ≤ 2 * d.value * unitsPerOne := by
    intro n
    rw [← Nat.cast_le (α := ℚ), htwice, Nat.cast_mul, mul_le_mul_iff_of_pos_right d.den_pos]
  have hhigh : ∀ n : Nat,
      2 * d.num * unitsPerOne ≤ n * d.den ↔ 2 * d.value * unitsPerOne ≤ (n : ℚ) := by
    intro n
    rw [← Nat.cast_le (α := ℚ), htwice, Nat.cast_mul, mul_le_mul_iff_of_pos_right d.den_pos]
  have hnext : units rank + units (rank + 1) = boundary (rank + 1) := rfl
  have hprev : units (rank - 1) + units rank = boundary rank := rfl
  unfold identifies RoundsTo
  rw [hprev, hnext]
  by_cases heven : rank % 2 = 0
  · rw [if_pos (beq_iff_eq.2 heven), if_pos heven, Bool.and_eq_true, decide_eq_true_iff,
      decide_eq_true_iff, hlow, hhigh]
  · rw [if_neg fun h => heven (beq_iff_eq.1 h), if_neg heven, Bool.and_eq_true, decide_eq_true_iff,
      decide_eq_true_iff, ← not_le, ← not_le, ← not_le, ← not_le, hlow, hhigh]

lemma RoundsTo.bounds {x : ℚ} {rank : Nat} (h : RoundsTo x rank) :
    boundary rank ≤ x ∧ x ≤ boundary (rank + 1) := by
  unfold RoundsTo at h
  split at h
  · exact h
  · exact ⟨h.1.le, h.2.le⟩

/-- A number rounds to one double only. -/
lemma RoundsTo.eq {x : ℚ} {r s : Nat} (hr : RoundsTo x r) (hs : RoundsTo x s) : r = s := by
  have hnot : ∀ {r s : Nat}, RoundsTo x r → RoundsTo x s → ¬r < s := by
    intro r s hr hs hlt
    -- the intervals meet in one midpoint at most, and one of two neighbours leaves it out
    have hmid : boundary s ≤ boundary (r + 1) := by
      exact_mod_cast hs.bounds.1.trans hr.bounds.2
    have hsucc : r + 1 = s := by
      have := boundary_strictMono.le_iff_le.1 hmid
      omega
    subst hsucc
    have habove : x ≤ boundary (r + 1) := hr.bounds.2
    have hbelow : boundary (r + 1) ≤ x := hs.bounds.1
    unfold RoundsTo at hr hs
    by_cases heven : r % 2 = 0
    · rw [if_neg (by omega)] at hs
      exact not_le.2 hs.1 habove
    · rw [if_neg heven] at hr
      exact not_le.2 hr.2 hbelow
  rcases Nat.lt_trichotomy r s with h | h | h
  · exact absurd h (hnot hr hs)
  · exact h
  · exact absurd h (hnot hs hr)

/-! ## The chosen decimal -/

lemma identifies_of_value_eq {d e : Decimal} (h : d.value = e.value) (rank : Nat) :
    d.identifies rank = e.identifies rank := by
  rw [Bool.eq_iff_iff, identifies_iff, identifies_iff, h]

lemma value_trim (d : Decimal) : d.trim.value = d.value := by
  fun_induction trim d with
  | case1 d h ih =>
    have hdigits : (d.digits : ℚ) = (d.digits / 10 : Nat) * 10 := by
      exact_mod_cast (Nat.div_mul_cancel (Nat.dvd_of_mod_eq_zero h.2)).symm
    rw [ih, value, value, zpow_add₀ (by norm_num), zpow_one, hdigits]
    ring
  | case2 d h => rfl

lemma identifies_of_onGrid {tie : Tie} {rank places : Nat} {scale : Int} {d : Decimal}
    (h : onGrid tie rank scale places = some d) : d.identifies rank = true := by
  unfold onGrid at h
  extract_lets exponent num den floor below above at h
  -- only what the search has checked matters here, not which grid points they are
  clear_value exponent num den floor below above
  generalize hbelow : below.identifies rank = isBelow at h
  generalize habove : above.identifies rank = isAbove at h
  generalize compare (2 * num) ((2 * floor + 1) * den) = order at h
  have heither : (d = below ∧ isBelow = true) ∨ (d = above ∧ isAbove = true) := by
    cases isBelow <;> cases isAbove <;> cases order <;> cases tie <;>
      simp only [reduceCtorEq, Option.some.injEq] at h
    case true.true.eq.toEven =>
      split at h
      · exact .inl ⟨h.symm, rfl⟩
      · exact .inr ⟨h.symm, rfl⟩
    all_goals first | exact .inl ⟨h.symm, rfl⟩ | exact .inr ⟨h.symm, rfl⟩
  rcases heither with ⟨rfl, rfl⟩ | ⟨rfl, rfl⟩
  · exact hbelow
  · exact habove

lemma value_mul_two_pow (n places : Nat) :
    value ⟨n * 5 ^ places, -(places : Int)⟩ * (2 ^ places : Nat) = n := by
  have hpow : (10 : ℚ) ^ places ≠ 0 := by positivity
  have hten : (5 : ℚ) ^ places * 2 ^ places = 10 ^ places := by
    rw [← mul_pow]
    norm_num
  calc value ⟨n * 5 ^ places, -(places : Int)⟩ * (2 ^ places : Nat)
      = n * (5 ^ places * 2 ^ places) * (10 ^ places)⁻¹ := by
        rw [value, zpow_neg, zpow_natCast]
        push_cast
        ring
    _ = n := by rw [hten, mul_assoc, mul_inv_cancel₀ hpow, mul_one]

lemma value_exact (rank : Nat) : (exact rank).value * unitsPerOne = units rank := by
  have hexponent : (-1074 : Int) = -((1074 : Nat) : Int) := rfl
  unfold exact Binary64.unitsPerOne
  rw [hexponent]
  -- the powers are not to be computed
  generalize 1074 = places
  exact value_mul_two_pow (units rank) places

lemma identifies_exact {rank : Nat} (h : 0 < rank) : (exact rank).identifies rank = true := by
  have hlow : boundary rank < 2 * units rank := by
    have hlt : units (rank - 1) < units rank := units_strictMono (Nat.sub_lt h Nat.one_pos)
    unfold Binary64.boundary
    omega
  have hhigh : 2 * units rank < boundary (rank + 1) := by
    have hlt : units rank < units (rank + 1) := units_lt_units_succ rank
    unfold Binary64.boundary
    rw [Nat.add_sub_cancel]
    omega
  rw [identifies_iff, mul_assoc, value_exact]
  have hlow' : (boundary rank : ℚ) < 2 * units rank := by exact_mod_cast hlow
  have hhigh' : 2 * (units rank : ℚ) < boundary (rank + 1) := by exact_mod_cast hhigh
  unfold RoundsTo
  split
  · exact ⟨hlow'.le, hhigh'.le⟩
  · exact ⟨hlow', hhigh'⟩

/-- The shortest decimal of a positive rank rounds back to it. -/
theorem identifies_shortest (tie : Tie) {rank : Nat} (h : 0 < rank) :
    (shortest tie rank).identifies rank = true := by
  rw [shortest, if_neg h.ne']
  dsimp only
  rw [identifies_of_value_eq (value_trim _)]
  cases hfound : (List.range 17).findSome? fun i => onGrid tie rank (scale rank) (i + 1) with
  | none => exact identifies_exact h
  | some d =>
    obtain ⟨i, _, hi⟩ := List.exists_of_findSome?_eq_some hfound
    exact identifies_of_onGrid hi

lemma value_shortest_pos (tie : Tie) {rank : Nat} (h : 0 < rank) :
    0 < (shortest tie rank).value := by
  have hround := identifies_iff.1 (identifies_shortest tie h)
  have hmid : (0 : ℚ) < boundary rank := by
    exact_mod_cast Nat.zero_lt_of_lt (boundary_strictMono h)
  by_contra hneg
  have hx : 2 * (shortest tie rank).value * unitsPerOne ≤ 0 :=
    mul_nonpos_of_nonpos_of_nonneg (by linarith) (Nat.cast_nonneg _)
  exact absurd (hround.bounds.1.trans hx) (not_le.2 hmid)

/-- Shortest decimals of one value belong to one rank. -/
theorem shortest_value_injective {tie : Tie} {r s : Nat}
    (h : (shortest tie r).value = (shortest tie s).value) : r = s := by
  have hzero : (shortest tie 0).value = 0 := by simp [shortest, value]
  rcases Nat.eq_zero_or_pos r with rfl | hr <;> rcases Nat.eq_zero_or_pos s with rfl | hs
  · rfl
  · exact absurd (h ▸ hzero) (value_shortest_pos tie hs).ne'
  · exact absurd (h.trans hzero) (value_shortest_pos tie hr).ne'
  · have hround := identifies_iff.1 (identifies_shortest tie hr)
    rw [h] at hround
    exact hround.eq (identifies_iff.1 (identifies_shortest tie hs))

end Decimal
end TypedSchema
