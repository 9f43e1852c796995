import TypedSchema.Decimal.Layout
import TypedSchema.Json.Printer
import TypedSchema.Schema.Literal

/-!
# Python/Literal — values written in source

Strings stand between single quotes on one line; the quote, the backslash and all controls are
escaped, and nothing else is.  Finite numbers that are not integers are written positionally and
always with a point, so that they read as such.
-/

namespace TypedSchema
namespace Python

/-! ## Strings -/

/-- Whether a character is a control: U+0000 to U+001F, and U+007F to U+009F. -/
def isControl (c : Char) : Bool := c.toNat < 0x20 || (0x7F ≤ c.toNat && c.toNat < 0xA0)

/-- What stands for a character inside a string. -/
def escapeChar (c : Char) : List Char :=
  if c = '\x5c' then ['\x5c', '\x5c']
  else if c = '\x27' then ['\x5c', '\x27']
  else if c = '\n' then ['\x5c', 'n']
  else if c = '\r' then ['\x5c', 'r']
  else if c = '\t' then ['\x5c', 't']
  else if isControl c then
    ['\x5c', 'x', Json.hexDigit (c.toNat / 16), Json.hexDigit (c.toNat % 16)]
  else [c]

/-- The characters of a string with its quotes. -/
def quoteChars (s : List Char) : List Char := '\x27' :: s.flatMap escapeChar ++ ['\x27']

/-- A string with its quotes. -/
def quote (s : String) : String := String.ofList (quoteChars s.toList)

/-! ## Numbers -/

/-- Floats in source: positional, and always with a point. -/
def floatLayout : Layout where
  positional _ := true
  pointZero := true
  tie := .up

/-- A number that is not an integer.  Those that have no digits are written as calls. -/
def float : Binary64 → String
  | .nan => "float(" ++ quote "nan" ++ ")"
  | .infinity negative => (if negative then "-" else "") ++ "float(" ++ quote "inf" ++ ")"
  | .finite negative rank => floatLayout.text negative rank

/-- A literal. -/
def literal : Literal → String
  | .null => "None"
  | .boolean true => "True"
  | .boolean false => "False"
  | .integer n => Json.integerText n
  | .number x => float x
  | .string s => quote s

/-- The type of the listed values. -/
def literalSet (values : List Literal) : String :=
  "Literal[" ++ Text.join ", " (values.map literal) ++ "]"

end Python
end TypedSchema
