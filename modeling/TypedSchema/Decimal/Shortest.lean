import TypedSchema.Binary64.Rounding

/-!
# Decimal/Shortest — the fewest decimal digits that identify a double

A decimal `digits · 10 ^ exponent` *identifies* a double when it lies in the interval of numbers
that round to it: between the midpoints to the two neighbours, the midpoints included exactly when
the rank is even.  `Decimal.shortest` takes the coarsest decimal grid with a point in that interval.
On the first grid that has one, only the two grid neighbours of the value need to be tried; if both
identify the double, the nearer one is taken, and `Tie` settles an exact tie.

All comparisons are between natural numbers.  The search over one to seventeen digits is followed by
the exact decimal expansion, so the result identifies the double whatever the search finds.
-/

namespace TypedSchema

/-- The number `digits · 10 ^ exponent`. -/
structure Decimal where
  digits : Nat
  exponent : Int
  deriving DecidableEq, Repr

/-- Which of two equally near decimals is taken. -/
inductive Tie where
  | toEven
  | up
  deriving DecidableEq, Repr

namespace Decimal

-- powers are those of the core library, whatever else defines some
attribute [local instance (2000)] instPowNat

/-! ## The rounding interval -/

/-- The numerator of the decimal as a fraction. -/
def num (d : Decimal) : Nat := d.digits * 10 ^ d.exponent.toNat

/-- The denominator of the decimal as a fraction. -/
def den (d : Decimal) : Nat := 10 ^ (-d.exponent).toNat

/-- Whether the decimal rounds to the double of this rank. -/
def identifies (d : Decimal) (rank : Nat) : Bool :=
  let twice := 2 * d.num * Binary64.unitsPerOne
  let low := (Binary64.units (rank - 1) + Binary64.units rank) * d.den
  let high := (Binary64.units rank + Binary64.units (rank + 1)) * d.den
  if rank % 2 == 0 then low ≤ twice && twice ≤ high else low < twice && twice < high

/-! ## The search -/

/-- The least number of decimal places that hold `n`; none for zero. -/
def length (n : Nat) : Nat := if n = 0 then 0 else length (n / 10) + 1
  termination_by n

/-- The least `k` for which the value of a positive rank is below `10 ^ k`. -/
def scale (rank : Nat) : Int :=
  let value := Binary64.units rank
  if Binary64.unitsPerOne ≤ value then
    length (value / Binary64.unitsPerOne)
  else
    1 - (length ((Binary64.unitsPerOne - 1) / value) : Int)

/-- The better of the value's two neighbours on the grid of `places` digits, if one identifies the
double. -/
def onGrid (tie : Tie) (rank : Nat) (scale : Int) (places : Nat) : Option Decimal :=
  let exponent := scale - places
  let num := Binary64.units rank * 10 ^ (-exponent).toNat
  let den := Binary64.unitsPerOne * 10 ^ exponent.toNat
  let floor := num / den
  let below : Decimal := ⟨floor, exponent⟩
  let above : Decimal := ⟨floor + 1, exponent⟩
  match below.identifies rank, above.identifies rank with
  | false, false => none
  | true, false => some below
  | false, true => some above
  | true, true =>
    match compare (2 * num) ((2 * floor + 1) * den), tie with
    | .lt, _ => some below
    | .gt, _ => some above
    | .eq, .up => some above
    | .eq, .toEven => some (if floor % 2 == 0 then below else above)

/-- The value of a rank written out in full. -/
def exact (rank : Nat) : Decimal := ⟨Binary64.units rank * 5 ^ (1074 : Nat), -1074⟩

/-- The same number without zeros at the end of its digits. -/
def trim (d : Decimal) : Decimal :=
  if d.digits ≠ 0 ∧ d.digits % 10 = 0 then trim ⟨d.digits / 10, d.exponent + 1⟩ else d
  termination_by d.digits
  decreasing_by omega

/-- The shortest decimal that identifies the double of this rank. -/
def shortest (tie : Tie) (rank : Nat) : Decimal :=
  if rank = 0 then ⟨0, 0⟩
  else
    let scale := scale rank
    let found := (List.range 17).findSome? fun i => onGrid tie rank scale (i + 1)
    (found.getD (exact rank)).trim

end Decimal
end TypedSchema
