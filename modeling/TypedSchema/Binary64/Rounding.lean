import TypedSchema.Binary64.Basic

/-!
# Binary64/Rounding — the nearest double, ties to even

`Binary64.nearestRank num den` is the rank whose value is nearest to `num / den` units, with a tie
going to the even rank.  It does not stop at the largest finite double: a rank of at least
`Binary64.rankLimit` says that the quotient rounds to infinity, and each caller decides what that
means.  Products and quotients of doubles are this one rounding of the exact result.
-/

namespace TypedSchema
namespace Binary64

-- powers are those of the core library, whatever else defines some
attribute [local instance (2000)] instPowNat

/-- The rank nearest to `num / den` units.  The quotient's binade fixes the spacing of the doubles
around it; the count of whole spacings is the rank within reach, and the remainder decides whether
the next one is nearer.  Rounding up at the end of a binade lands on the first rank of the next. -/
def nearestRank (num den : Nat) : Nat :=
  let doublings := Nat.log2 (num / den) - 52
  let spacing := den * 2 ^ doublings
  let steps := num / spacing
  let rest := num % spacing
  let up := spacing < 2 * rest || (2 * rest == spacing && steps % 2 == 1)
  doublings * 2 ^ (52 : Nat) + steps + (if up then 1 else 0)

/-- The rank nearest to a natural number. -/
def rankOfNat (n : Nat) : Nat := nearestRank (n * unitsPerOne) 1

/-- The rank nearest to the product of two ranks' values. -/
def mulRank (a b : Nat) : Nat := nearestRank (units a * units b) unitsPerOne

/-- The rank nearest to the quotient of two ranks' values. -/
def divRank (a b : Nat) : Nat := nearestRank (units a * unitsPerOne) (units b)

/-- The number of this sign and rank, infinite from `rankLimit` on. -/
def ofRank (negative : Bool) (rank : Nat) : Binary64 :=
  if h : rank < 0x7FF0000000000000 then finite negative ⟨rank, h⟩ else infinity negative

/-- The double nearest to `± num / den`. -/
def ofRatio (negative : Bool) (num den : Nat) : Binary64 :=
  ofRank negative (nearestRank (num * unitsPerOne) den)

/-- The double nearest to an integer. -/
def ofInt (n : Int) : Binary64 :=
  ofRank (n < 0) (rankOfNat n.natAbs)

end Binary64
end TypedSchema
