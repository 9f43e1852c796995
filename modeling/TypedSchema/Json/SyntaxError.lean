import TypedSchema.Text.Split

/-!
# Json/SyntaxError — where and why a text is no JSON document

A parser only ever looks at what is left of its text, so it reports how many bytes it left *unread*.
`Json.SyntaxError.position` turns that into a line and a column, given the whole text: the line
counts the line feeds before the position, the column the bytes since the last of them.

An error is raised either after the offending byte was taken (`SyntaxError.after`), or while looking
at a byte that was not taken yet (`SyntaxError.at`), in which case the position reported is that
behind the byte, or the end of the text.
-/

namespace TypedSchema
namespace Json

/-- The reasons for which a text is refused. -/
inductive SyntaxReason where
  | endInValue
  | endInString
  | endInList
  | endInObject
  | valueExpected
  | identExpected
  | listEndExpected
  | objectEndExpected
  | colonExpected
  | trailingComma
  | trailingCharacters
  | keyNotString
  | invalidNumber
  | numberOutOfRange
  | controlCharacter
  | invalidEscape
  | loneSurrogate
  | unexpectedEscapeEnd
  | nestedTooDeep
  deriving DecidableEq, Repr

/-- The wording of a reason. -/
def SyntaxReason.message : SyntaxReason → String
  | endInValue => "EOF while parsing a value"
  | endInString => "EOF while parsing a string"
  | endInList => "EOF while parsing a list"
  | endInObject => "EOF while parsing an object"
  | valueExpected => "expected value"
  | identExpected => "expected ident"
  | listEndExpected => "expected `,` or `]`"
  | objectEndExpected => "expected `,` or `\x7d`"
  | colonExpected => "expected `:`"
  | trailingComma => "trailing comma"
  | trailingCharacters => "trailing characters"
  | keyNotString => "key must be a string"
  | invalidNumber => "invalid number"
  | numberOutOfRange => "number out of range"
  | controlCharacter => "control character (\\u0000-\\u001F) found while parsing a string"
  | invalidEscape => "invalid escape"
  | loneSurrogate => "lone leading surrogate in hex escape"
  | unexpectedEscapeEnd => "unexpected end of hex escape"
  | nestedTooDeep => "recursion limit exceeded"

/-- A reason, and how many bytes of the text lie behind the position it is reported at. -/
structure SyntaxError where
  reason : SyntaxReason
  unread : Nat
  deriving DecidableEq, Repr

/-- An error reported `taken` bytes into what is left, or at its end. -/
def SyntaxError.after (taken : Nat) (rest : List Char) (reason : SyntaxReason) : SyntaxError :=
  ⟨reason, Text.utf8Length rest - taken⟩

/-- An error about the next byte, or about the missing of one. -/
def SyntaxError.at (rest : List Char) (reason : SyntaxReason) : SyntaxError :=
  SyntaxError.after 1 rest reason

/-- A line and a column, counted in bytes. -/
structure Position where
  line : Nat
  column : Nat
  deriving DecidableEq, Repr

/-- The position behind a run of bytes. -/
def Position.behind (bytes : List UInt8) : Position where
  line := 1 + bytes.count 10
  column := (bytes.reverse.takeWhile (· != 10)).length

/-- The position of an error in the whole text. -/
def SyntaxError.position (error : SyntaxError) (text : String) : Position :=
  let bytes := text.toUTF8.toList
  Position.behind (bytes.take (bytes.length - error.unread))

end Json
end TypedSchema
