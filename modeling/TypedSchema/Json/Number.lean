import TypedSchema.Decimal.Digits
import TypedSchema.Json.SyntaxError
import TypedSchema.Json.Value
import TypedSchema.Binary64.Rounding

/-!
# Json/Number — the numbers of JSON texts

A number without point and exponent is an integer if it lies between `-2 ^ 63` and `2 ^ 64 - 1` and
is not `-0`.  Every other number is a double, and it is *not* the nearest one: the digits are
collected in a 64-bit significand, the significand is rounded to a double, and that double is
multiplied with or divided by the double nearest to a power of ten (`Json.scaleRank`).

Digits that no longer fit into the significand are not forgotten in the same way everywhere.  From
the first integer digit that does not fit, all integer digits only raise the exponent; fraction
digits are then tried again, and from the first one that does not fit they are ignored.
-/

namespace TypedSchema
namespace Json

-- powers are those of the core library, whatever else defines some
attribute [local instance (2000)] instPowNat

/-- The largest significand. -/
def significandMax : Nat := 2 ^ (64 : Nat) - 1

/-- The largest exponent that may be written. -/
def exponentMax : Nat := 2 ^ (31 : Nat) - 1

/-- Appends digits to a number up to the first one with which it would exceed `max`; also what
remains of the digits. -/
def accumulate (max : Nat) (acc : Nat) : List Char → Nat × List Char
  | [] => (acc, [])
  | c :: rest =>
    let next := 10 * acc + (c.toNat - '0'.toNat)
    if max < next then (acc, c :: rest) else accumulate max next rest

/-- The rank of `10 ^ n` for the powers of ten that are doubles. -/
def tenPowRank (n : Nat) : Nat := Binary64.rankOfNat (10 ^ n)

/-- A rank scaled by a power of ten, or nothing if the result is too large.  Exponents below -308
are taken in steps of 308, each of them rounded. -/
def scaleRank (rank : Nat) (exponent : Int) : Option Nat :=
  if 308 < exponent then if rank = 0 then some 0 else none
  else if 0 ≤ exponent then
    let scaled := Binary64.mulRank rank (tenPowRank exponent.toNat)
    if scaled < Binary64.rankLimit then some scaled else none
  else if -308 ≤ exponent then some (Binary64.divRank rank (tenPowRank (-exponent).toNat))
  else if rank = 0 then some 0
  else scaleRank (Binary64.divRank rank (tenPowRank 308)) (exponent + 308)
  termination_by exponent.natAbs
  decreasing_by omega

/-- The double with this significand and exponent; `rest` is what follows the number. -/
def floatOf (negative : Bool) (significand : Nat) (exponent : Int) (rest : List Char) :
    Except SyntaxError Json :=
  match scaleRank (Binary64.rankOfNat significand) exponent with
  | some rank => .ok (.float (Binary64.ofRank negative rank))
  | none => .error (.after 0 rest .numberOutOfRange)

/-- A number written without point and exponent. -/
def integerOf (negative : Bool) (significand : Nat) : Json :=
  if negative then
    if significand = 0 || 2 ^ (63 : Nat) < significand then
      .float (Binary64.ofRank true (Binary64.rankOfNat significand))
    else .integer (-significand)
  else .integer significand

/-- The characters of a number: its integer digits, its fraction digits if there is a point, and
its exponent if there is one. -/
structure NumberText where
  whole : List Char
  fraction : Option (List Char)
  /-- The sign and the digits behind the exponent mark. -/
  exponent : Option (Bool × List Char)
  /-- What follows the number. -/
  rest : List Char

/-- Splits an exponent off; it needs a digit. -/
def scanExponent (s : List Char) : Except SyntaxError (Option (Bool × List Char) × List Char) :=
  match s with
  | [] => .ok (none, [])
  | c :: rest =>
    if c = 'e' ∨ c = 'E' then
      match Decimal.splitSign rest with
      | (_, []) => .error (.after 0 [] .endInValue)
      | (negative, d :: tail) =>
        if d.isDigit then
          .ok (some (negative, (d :: tail).takeWhile Char.isDigit),
            (d :: tail).dropWhile Char.isDigit)
        else .error (.after 1 (d :: tail) .invalidNumber)
    else .ok (none, s)

/-- Splits a point and the digits behind it off; it needs a digit. -/
def scanFraction (s : List Char) : Except SyntaxError (Option (List Char) × List Char) :=
  match s with
  | '.' :: rest =>
    match rest with
    | [] => .error (.at [] .endInValue)
    | d :: _ =>
      if d.isDigit then .ok (some (rest.takeWhile Char.isDigit), rest.dropWhile Char.isDigit)
      else .error (.at rest .invalidNumber)
  | _ => .ok (none, s)

/-- Splits a number without its sign off: digits without a superfluous leading zero, then the
optional parts. -/
def scanNumberText (s : List Char) : Except SyntaxError NumberText :=
  match s with
  | [] => .error (.after 0 [] .endInValue)
  | c :: tail =>
    if !c.isDigit then .error (.after 1 s .invalidNumber)
    else if c = '0' && (tail.head?.map Char.isDigit).getD false then
      .error (.at tail .invalidNumber)
    else do
      let (fraction, rest) ← scanFraction (s.dropWhile Char.isDigit)
      let (exponent, rest) ← scanExponent rest
      return ⟨s.takeWhile Char.isDigit, fraction, exponent, rest⟩

/-- The value of the characters of a number. -/
def NumberText.value (negative : Bool) (t : NumberText) : Except SyntaxError Json :=
  let (significand, excess) := accumulate significandMax 0 t.whole
  if t.fraction.isNone && t.exponent.isNone && excess.isEmpty then
    .ok (integerOf negative significand)
  else
    let fraction := t.fraction.getD []
    let (significand, ignored) := accumulate significandMax significand fraction
    let exponent : Int := excess.length - (fraction.length - ignored.length : Nat)
    match t.exponent with
    | none => floatOf negative significand exponent t.rest
    | some (down, digits) =>
      let (written, beyond) := accumulate exponentMax 0 digits
      if beyond.isEmpty then
        floatOf negative significand (if down then exponent - written else exponent + written)
          t.rest
      else if significand ≠ 0 && !down then
        .error (.after 1 (beyond ++ t.rest) .numberOutOfRange)
      else .ok (.float (Binary64.ofRank negative 0))

/-! ## Progress -/

theorem length_dropWhile_le (p : Char → Bool) (s : List Char) :
    (s.dropWhile p).length ≤ s.length :=
  (List.dropWhile_suffix p).length_le

theorem length_scanExponent_le {s rest : List Char} {e : Option (Bool × List Char)}
    (h : scanExponent s = .ok (e, rest)) : rest.length ≤ s.length := by
  unfold scanExponent at h
  split at h
  · cases h; exact Nat.le_refl _
  · split at h
    · rename_i c tail _
      have hs := Decimal.length_splitSign_le tail
      split at h
      · cases h
      · rename_i heq
        rw [heq] at hs
        split at h
        · cases h
          exact Nat.le_succ_of_le (Nat.le_trans (length_dropWhile_le _ _) hs)
        · cases h
    · cases h; exact Nat.le_refl _

theorem length_scanFraction_le {s rest : List Char} {f : Option (List Char)}
    (h : scanFraction s = .ok (f, rest)) : rest.length ≤ s.length := by
  unfold scanFraction at h
  split at h
  · split at h
    · cases h
    · split at h
      · cases h
        exact Nat.le_succ_of_le (length_dropWhile_le _ _)
      · cases h
  · cases h; exact Nat.le_refl _

/-- A number has at least one character. -/
theorem length_rest_lt {s : List Char} {t : NumberText} (h : scanNumberText s = .ok t) :
    t.rest.length < s.length := by
  unfold scanNumberText at h
  split at h
  · cases h
  · rename_i c tail
    split at h
    · cases h
    · rename_i hc
      split at h
      · cases h
      · have hd : c.isDigit = true := by simpa using hc
        have hw : ((c :: tail).dropWhile Char.isDigit).length ≤ tail.length := by
          rw [List.dropWhile_cons, if_pos hd]; exact length_dropWhile_le _ _
        cases hf : scanFraction ((c :: tail).dropWhile Char.isDigit) with
        | error e => rw [hf] at h; cases h
        | ok f =>
          rw [hf] at h
          cases he : scanExponent f.2 with
          | error e => simp only [bind, Except.bind, he] at h; cases h
          | ok e =>
            simp only [bind, Except.bind, he, pure, Except.pure] at h
            cases h
            exact Nat.lt_succ_of_le (Nat.le_trans (length_scanExponent_le he)
              (Nat.le_trans (length_scanFraction_le hf) hw))

end Json
end TypedSchema
