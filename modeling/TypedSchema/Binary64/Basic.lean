/-!
# Binary64 — double-precision numbers by rank

A finite double is a sign and a *rank*: its place in the increasing list of non-negative doubles,
`0` for zero, `1` for the least positive one, and so on.  The value of a rank is a natural number of
*units*, where one unit is `2 ^ (-1074)`, the least positive double.  Everything the library does
with doubles (reading, rounding, printing, comparing) is exact arithmetic on ranks and units; the
machine's floating-point unit is never used.

## Why ranks

Below `2 ^ 53` the value of a rank is the rank itself.  From there on the doubles come in binades of
`2 ^ 52` members whose spacing doubles from one binade to the next, so `Binary64.units` needs one
division and one shift, neighbours are `rank - 1` and `rank + 1` without a special case at powers of
two, and the parity that settles a tie is the parity of the rank.
-/

namespace TypedSchema

/-- A double-precision number.  Zero has both signs; the infinities lie beyond the last rank. -/
inductive Binary64 where
  | nan
  | infinity (negative : Bool)
  | finite (negative : Bool) (rank : Fin 0x7FF0000000000000)
  deriving DecidableEq, Repr

namespace Binary64

-- powers are those of the core library, whatever else defines some
attribute [local instance (2000)] instPowNat

/-! ## Ranks -/

/-- The number of finite magnitudes, which is the rank that would follow the largest one. -/
def rankLimit : Nat := 0x7FF0000000000000

/-- How many units make one: a unit is the least positive double, `2 ^ (-1074)`. -/
def unitsPerOne : Nat := 2 ^ (1074 : Nat)

/-- How often the spacing of the doubles has doubled up to this rank. -/
def binade (rank : Nat) : Nat := rank / 2 ^ (52 : Nat) - 1

/-- The value of a rank, in units. -/
def units (rank : Nat) : Nat := (rank - binade rank * 2 ^ (52 : Nat)) * 2 ^ binade rank

/-! ## Comparison -/

/-- Equality of numbers as members of an enumeration: the two zeros are one number, and a
not-a-number is equal to itself, so this is an equivalence. -/
def same : Binary64 → Binary64 → Bool
  | nan, nan => true
  | infinity a, infinity b => a == b
  | finite a r, finite b s => r == s && (a == b || r.val == 0)
  | _, _ => false

@[simp] theorem same_refl (x : Binary64) : x.same x = true := by
  cases x <;> simp [same]

/-- Whether the number is neither infinite nor a not-a-number. -/
def isFinite : Binary64 → Bool
  | finite _ _ => true
  | _ => false

end Binary64

end TypedSchema
