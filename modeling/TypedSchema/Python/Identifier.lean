import TypedSchema.Fault

/-!
# Python/Identifier — names that can be written in source

A name can be written where it is declared or used if it is an identifier in ASCII (a letter or an
underscore, then letters, digits and underscores, to the end of the text) and no keyword.
-/

namespace TypedSchema
namespace Python

/-- The words that cannot be names. -/
def keywords : List String :=
  ["False", "None", "True", "and", "as", "assert", "async", "await", "break", "class", "continue",
    "def", "del", "elif", "else", "except", "finally", "for", "from", "global", "if", "import",
    "in", "is", "lambda", "nonlocal", "not", "or", "pass", "raise", "return", "try", "while",
    "with", "yield"]

/-- Whether a character can begin an identifier. -/
def isIdentifierStart (c : Char) : Bool := c.isAlpha || c == '_'

/-- Whether a character can stand in an identifier. -/
def isIdentifierChar (c : Char) : Bool := c.isAlphanum || c == '_'

/-- Whether the characters are those of an identifier or a keyword. -/
def isWord : List Char → Bool
  | [] => false
  | c :: rest => isIdentifierStart c && rest.all isIdentifierChar

/-- Whether a text can be a name. -/
def isIdentifier (name : String) : Bool := isWord name.toList && !keywords.contains name

/-- A name that is written as it is. -/
def checkedName (role : NameRole) (name : String) : Except Fault String :=
  if isIdentifier name then .ok name else .error (.unspellable name (.notIdentifier role))

end Python
end TypedSchema
