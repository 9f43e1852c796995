import TypedSchema.Json.Value
import TypedSchema.Text.Split
import TypedSchema.Decimal.Layout

/-!
# Json/Printer — JSON texts

Two forms of one grammar: `Json.compact` without any blank, and `Json.pretty` with one member or
item per line, two blanks per level and a blank after each colon.  Empty arrays and objects are `[]`
and `\x7b\x7d` in both.  Strings escape the quote, the backslash and the controls below U+0020, and
nothing else; a number that is infinite or not a number is written as `null`.
-/

namespace TypedSchema
namespace Json

/-! ## Scalars -/

/-- Floats in JSON texts: positional for leading exponents from -5 to 15, always with a point
there, and of two equally near decimals the even one. -/
def floatLayout : Layout where
  positional leading := -5 ≤ leading && leading ≤ 15
  pointZero := true
  tie := .toEven

/-- The text of a number that is not written as an integer. -/
def floatText : Binary64 → String
  | .finite negative rank => floatLayout.text negative rank
  | _ => "null"

/-- The lower-case hexadecimal digit of a number below sixteen. -/
def hexDigit (n : Nat) : Char := if n < 10 then Char.ofNat (48 + n) else Char.ofNat (87 + n)

/-- What stands for a character inside a JSON string. -/
def escapeChar (c : Char) : List Char :=
  if c = '\x22' then ['\x5c', '\x22']
  else if c = '\x5c' then ['\x5c', '\x5c']
  else if c = '\x08' then ['\x5c', 'b']
  else if c = '\x0c' then ['\x5c', 'f']
  else if c = '\n' then ['\x5c', 'n']
  else if c = '\r' then ['\x5c', 'r']
  else if c = '\t' then ['\x5c', 't']
  else if c.toNat < 0x20 then
    ['\x5c', 'u', '0', '0', hexDigit (c.toNat / 16), hexDigit (c.toNat % 16)]
  else [c]

/-- A JSON string with its quotes. -/
def stringText (s : String) : String :=
  String.ofList ('\x22' :: s.toList.flatMap escapeChar ++ ['\x22'])

/-- The text of an integer. -/
def integerText (n : Int) : String :=
  if n < 0 then "-" ++ Nat.repr n.natAbs else Nat.repr n.natAbs

/-! ## Compact texts -/

mutual

/-- The text without blanks. -/
def compact : Json → String
  | null => "null"
  | bool true => "true"
  | bool false => "false"
  | integer n => integerText n
  | float x => floatText x
  | string s => stringText s
  | array items => "[" ++ Text.join "," (compactItems items) ++ "]"
  | object members => "\x7b" ++ Text.join "," (compactMembers members) ++ "\x7d"

/-- The texts of the items of an array. -/
def compactItems : List Json → List String
  | [] => []
  | item :: rest => compact item :: compactItems rest

/-- The texts of the members of an object. -/
def compactMembers : List (String × Json) → List String
  | [] => []
  | (key, value) :: rest => (stringText key ++ ":" ++ compact value) :: compactMembers rest

end

/-! ## Indented texts -/

/-- A line break and the blanks of a level. -/
def newline (level : Nat) : String := "\n" ++ String.ofList (List.replicate (2 * level) ' ')

/-- Pieces on lines of their own, one level deeper than their brackets. -/
def block (level : Nat) (opening closing : String) (pieces : List String) : String :=
  if pieces.isEmpty then opening ++ closing
  else
    opening ++ newline (level + 1) ++ Text.join ("," ++ newline (level + 1)) pieces
      ++ newline level ++ closing

mutual

/-- The indented text, its first line excepted starting at the given level. -/
def prettyAt (level : Nat) : Json → String
  | null => "null"
  | bool true => "true"
  | bool false => "false"
  | integer n => integerText n
  | float x => floatText x
  | string s => stringText s
  | array items => block level "[" "]" (prettyItems (level + 1) items)
  | object members => block level "\x7b" "\x7d" (prettyMembers (level + 1) members)

/-- The indented texts of the items of an array. -/
def prettyItems (level : Nat) : List Json → List String
  | [] => []
  | item :: rest => prettyAt level item :: prettyItems level rest

/-- The indented texts of the members of an object. -/
def prettyMembers (level : Nat) : List (String × Json) → List String
  | [] => []
  | (key, value) :: rest =>
    (stringText key ++ ": " ++ prettyAt level value) :: prettyMembers level rest

end

/-- The indented text of a document. -/
def pretty (document : Json) : String := prettyAt 0 document

end Json
end TypedSchema
