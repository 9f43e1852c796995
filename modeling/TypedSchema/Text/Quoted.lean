import TypedSchema.Text.Invisible

/-!
# Text/Quoted — texts shown for diagnosis

A text between double quotes, in which the double quote, the backslash and the common controls are
escaped by a letter and all other invisible characters by their number in braces.
-/

namespace TypedSchema
namespace Text

/-- A number in lower-case hexadecimal digits, without leading zeros. -/
def hex (n : Nat) : List Char := Nat.toDigits 16 n

/-- How a character is shown between double quotes. -/
def quotedChar (c : Char) : List Char :=
  if c = '\x22' then ['\x5c', '\x22']
  else if c = '\x5c' then ['\x5c', '\x5c']
  else if c = '\n' then ['\x5c', 'n']
  else if c = '\r' then ['\x5c', 'r']
  else if c = '\t' then ['\x5c', 't']
  else if c.toNat = 0 then ['\x5c', '0']
  else if isInvisible c then ['\x5c', 'u', '\x7b'] ++ hex c.toNat ++ ['\x7d']
  else [c]

/-- A text between double quotes. -/
def quoted (s : String) : String :=
  String.ofList ('\x22' :: s.toList.flatMap quotedChar ++ ['\x22'])

end Text
end TypedSchema
