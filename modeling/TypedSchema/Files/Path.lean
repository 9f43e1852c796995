import TypedSchema.Text.Split

/-!
# Files/Path — the texts of paths

A path is the text that a user gave, and diagnostics show it as it was given, so paths stay texts.
What a text means is read off its `pieces` between slashes.  Empty pieces and single points mean
nothing, except that a first empty piece makes the path absolute and a first point stands for the
current directory; only `Path.parent?` and `Path.isCurrent` look at paths in this way.  Looking up
files goes through the pieces one by one.
-/

namespace TypedSchema
namespace Path

/-- The pieces of a path between slashes. -/
def pieces (path : String) : List String := (Text.splitOn '/' path.toList).map String.ofList

/-- Whether a path starts at the root. -/
def isAbsolute (path : String) : Bool := path.toList.head? == some '/'

/-- Whether a piece does not lead anywhere. -/
def isIdle (piece : String) : Bool := piece == "" || piece == "."

/-- A name or path inside a directory. -/
def join (directory name : String) : String :=
  if isAbsolute name || directory == "" then name
  else if directory.toList.getLast? == some '/' then directory ++ name
  else directory ++ "/" ++ name

/-- Whether a path is a way to write the current directory as a point. -/
def isCurrent (path : String) : Bool :=
  match pieces path with
  | first :: rest => first == "." && rest.all isIdle
  | [] => false

/-- Drops pieces that do not lead anywhere from the end (given first), but not the last one left. -/
def trimIdle : List String → List String
  | piece :: next :: rest => if isIdle piece then trimIdle (next :: rest) else piece :: next :: rest
  | pieces => pieces

/-- The path without its last piece, if it has one; empty for a single piece. -/
def parent? (path : String) : Option String :=
  match trimIdle (pieces path).reverse with
  | [] => none
  | [piece] => if piece == "" then none else some ""
  | _ :: rest =>
    match trimIdle rest with
    | [""] => some "/"
    | kept => some (Text.join "/" kept.reverse)

end Path
end TypedSchema
