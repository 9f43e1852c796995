import TypedSchema.Decimal.Shortest

/-!
# Decimal/Layout — how the digits of a number are laid out

A `Layout` is the list of decisions that turn selected digits into text: for which leading exponents
the number is written positionally, whether a whole number keeps `.0`, and which of two equally near
decimals is selected.  Three layouts are used by the library, each defined where its text is
written: `Binary64.plain` here, the one of JSON texts and the one of Python source in their own
modules.
-/

namespace TypedSchema

/-- The decisions of a number format. -/
structure Layout where
  /-- For which decimal exponents of the leading digit no exponent is written. -/
  positional : Int → Bool
  /-- Whether a whole number is written with `.0`. -/
  pointZero : Bool
  /-- Which of two equally near decimals is selected. -/
  tie : Tie

namespace Layout

/-- A run of zeros. -/
def zeros (n : Nat) : String := String.ofList (List.replicate n '0')

/-- Digits with a point after the first `n` of them. -/
def pointAfter (n : Nat) (digits : String) : String :=
  String.ofList (digits.toList.take n) ++ "." ++ String.ofList (digits.toList.drop n)

/-- Positional text: the point follows, divides or precedes the digits. -/
def positionalText (layout : Layout) (digits : String) (exponent : Int) : String :=
  if 0 ≤ exponent then
    digits ++ zeros exponent.toNat ++ (if layout.pointZero then ".0" else "")
  else
    let places := (-exponent).toNat
    if places < digits.length then pointAfter (digits.length - places) digits
    else "0." ++ zeros (places - digits.length) ++ digits

/-- Scientific text: one digit, the rest behind a point if there is one, and a signed exponent. -/
def scientificText (digits : String) (leading : Int) : String :=
  (if digits.length ≤ 1 then digits else pointAfter 1 digits)
    ++ (if leading < 0 then "e-" else "e+") ++ Nat.repr leading.natAbs

/-- The text of a finite number. -/
def text (layout : Layout) (negative : Bool) (rank : Nat) : String :=
  let decimal := Decimal.shortest layout.tie rank
  let digits := Nat.repr decimal.digits
  let leading := decimal.exponent + (digits.length - 1 : Nat)
  (if negative then "-" else "") ++
    if layout.positional leading then layout.positionalText digits decimal.exponent
    else scientificText digits leading

end Layout

namespace Binary64

/-- Plain text: never an exponent, and a whole number has no point. -/
def plain : Layout where
  positional _ := true
  pointZero := false
  tie := .up

/-- The plain text of any double. -/
def plainText : Binary64 → String
  | nan => "NaN"
  | infinity negative => if negative then "-inf" else "inf"
  | finite negative rank => plain.text negative rank

end Binary64
end TypedSchema
