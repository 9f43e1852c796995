/-!
# Text/Split — pieces of a text between separators

`splitOn` cuts a list of characters at every occurrence of a separator and keeps empty pieces.
Slash-separated pointers, file paths and glob patterns are all cut with it.
-/

namespace TypedSchema
namespace Text

/-- The pieces of `s` between occurrences of `sep`; one more than there are separators. -/
def splitOn (sep : Char) : List Char → List (List Char)
  | [] => [[]]
  | c :: rest =>
    if c = sep then [] :: splitOn sep rest
    else
      match splitOn sep rest with
      | [] => [[c]]
      | piece :: pieces => (c :: piece) :: pieces

/-- Texts joined with a separator between them. -/
def join (sep : String) : List String → String
  | [] => ""
  | [s] => s
  | s :: rest => s ++ sep ++ join sep rest

/-- The number of bytes that encode a list of characters. -/
def utf8Length (s : List Char) : Nat := s.foldr (fun c size => c.utf8Size + size) 0

/-- There is always a piece, if only the empty one. -/
theorem splitOn_ne_nil (sep : Char) (s : List Char) : splitOn sep s ≠ [] := by
  cases s with
  | nil => simp [splitOn]
  | cons c rest => rw [splitOn]; repeat' split <;> simp

end Text
end TypedSchema
