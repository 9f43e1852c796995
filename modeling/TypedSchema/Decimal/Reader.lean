import TypedSchema.Decimal.Digits
import TypedSchema.Decimal.Shortest

/-!
# Decimal/Reader — the double nearest to a written number

`Binary64.ofText?` reads an optional sign, then `inf`, `infinity` or `nan` in any case, or decimal
digits with an optional point and an optional exponent.  At least one digit must stand before or
after the point, and at least one in the exponent.  The result is the nearest double, ties to even;
numbers too large become infinite.
-/

namespace TypedSchema
namespace Binary64

-- powers are those of the core library, whatever else defines some
attribute [local instance (2000)] instPowNat

/-- The double nearest to `± digits · 10 ^ exponent`.  Beyond 400 places before or after the point
the result no longer depends on the exponent, so it is cut off there. -/
def ofDecimal (negative : Bool) (digits : Nat) (exponent : Int) : Binary64 :=
  if digits = 0 then ofRank negative 0
  else
    let places : Int := Decimal.length digits
    if 400 < exponent + places then infinity negative
    else if exponent + places < -400 then ofRank negative 0
    else ofRatio negative (digits * 10 ^ exponent.toNat) (10 ^ (-exponent).toNat)

/-- The exponent part of a number: nothing, or `e`, an optional sign and digits. -/
def readExponent? : List Char → Option Int
  | [] => some 0
  | c :: rest =>
    if c = 'e' ∨ c = 'E' then
      let (negative, digits) := Decimal.splitSign rest
      if digits.isEmpty || !digits.all Char.isDigit then none
      else
        let n : Int := Decimal.digitsValue digits
        some (if negative then -n else n)
    else none

/-- Digits, an optional point with more digits, and an optional exponent. -/
def readUnsigned? (negative : Bool) (cs : List Char) : Option Binary64 :=
  let whole := cs.takeWhile Char.isDigit
  let rest := cs.dropWhile Char.isDigit
  let (fraction, rest) :=
    match rest with
    | '.' :: tail => (tail.takeWhile Char.isDigit, tail.dropWhile Char.isDigit)
    | _ => ([], rest)
  if whole.isEmpty && fraction.isEmpty then none
  else
    (readExponent? rest).map fun exponent =>
      ofDecimal negative (Decimal.digitsValue (whole ++ fraction)) (exponent - fraction.length)

/-- The double that a text denotes, if it is a number. -/
def ofText? (s : String) : Option Binary64 :=
  let (negative, cs) := Decimal.splitSign s.toList
  let word := String.ofList (cs.map Char.toLower)
  if word = "inf" ∨ word = "infinity" then some (infinity negative)
  else if word = "nan" then some nan
  else readUnsigned? negative cs

end Binary64
end TypedSchema
