import TypedSchema.Decimal.Digits
import TypedSchema.Json.Value
import TypedSchema.Text.Split

/-!
# Json/Pointer — values inside a document

A pointer is a text of `/`-separated tokens, empty for the document itself.  In a token `~1` stands
for `/` and `~0` for `~`.  A token names a member of an object or, if it is a decimal number without
a leading zero, an item of an array.
-/

namespace TypedSchema
namespace Json

/-- Replaces every `~` that is followed by `mark`, together with the mark, by `replacement`. -/
def unescape (mark replacement : Char) : List Char → List Char
  | '~' :: c :: rest =>
    if c = mark then replacement :: unescape mark replacement rest
    else '~' :: unescape mark replacement (c :: rest)
  | c :: rest => c :: unescape mark replacement rest
  | [] => []

/-- The text that a pointer token stands for. -/
def pointerToken (token : List Char) : String :=
  String.ofList (unescape '0' '~' (unescape '1' '/' token))

/-- The array index that a token denotes. -/
def pointerIndex? (token : String) : Option Nat :=
  match token.toList with
  | [] => none
  | ['0'] => some 0
  | '0' :: _ => none
  | digits =>
    if digits.all Char.isDigit then some (Decimal.digitsValue digits) else none

/-- The member or item that a token names. -/
def child? (token : String) : Json → Option Json
  | object members => members.lookup token
  | array items => (pointerIndex? token).bind (items[·]?)
  | _ => none

/-- The value that a pointer leads to. -/
def pointer? (pointer : String) (document : Json) : Option Json :=
  match pointer.toList with
  | [] => some document
  | '/' :: rest =>
    (Text.splitOn '/' rest).foldl
      (fun value token => value.bind (child? (pointerToken token))) (some document)
  | _ => none

end Json
end TypedSchema
