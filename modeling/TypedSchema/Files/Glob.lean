import TypedSchema.Files.Pattern
import TypedSchema.Files.Store

/-!
# Files/Glob — the paths that a pattern stands for

A path pattern is a list of name patterns between slashes.  It is followed from the current
directory, or from the root, one component at a time.  A component without wildcards is looked up;
one with wildcards is compared with every name in the directory, in order; `**` goes on to anything
inside the directory at any depth, in the order of a listing, and the next component is compared
with that.  So the paths come out sorted within each directory, and a path in front of what is
inside it.

A pattern that begins with a point also stands for the entries `.` and `..` of a directory if it
matches them, and these come first.  A slash at the end admits directories only.
-/

namespace TypedSchema
namespace Glob

/-- The pieces of a path pattern behind its root; a slash at the end adds none. -/
def components (text : String) : List String :=
  let pieces := if Path.isAbsolute text then (Path.pieces text).tail else Path.pieces text
  if pieces.getLast? = some "" then pieces.dropLast else pieces

/-- Leaves one of several `**` in a row. -/
def collapse : List Pattern → List Pattern
  | first :: second :: rest =>
    if first.isAnyDirectories && second.isAnyDirectories then collapse (second :: rest)
    else first :: collapse (second :: rest)
  | patterns => patterns

/-- Where a name inside a directory is: the current directory is not written. -/
def inside (directory name : String) : String :=
  if Path.isCurrent directory then name else Path.join directory name

/-- The location of a directory, if the path names one. -/
def directory? (store : FileStore) (path : String) : Option Location :=
  if store.isDirectory path then (store.locate path).toOption else none

/-- The paths of the entries of a directory whose names a pattern matches: the entries `.` and `..`
if the pattern begins with a point, then all others. -/
def matching (store : FileStore) (pattern : Pattern) (path : String) (location : Location) :
    List String :=
  let specials := if pattern.head? = some (.char '.') then ["..", "."] else []
  (specials.filter fun name => pattern.matchesName name.toList).map (Path.join path)
    ++ ((store.children location).filter fun name => pattern.matchesName name.toList).map
      (inside path)

/-- Whether a component without wildcards leads on from a path. -/
def leadsOn (store : FileStore) (path name : String) : Bool :=
  if name = "." || name = ".." then store.isDirectory path
  else (store.entry? (inside path name)).isSome

/-- The paths that some components stand for behind a path. -/
def follow (store : FileStore) (directoriesOnly : Bool) : List Pattern → String → List String
  | [], path => if directoriesOnly && !store.isDirectory path then [] else [path]
  | pattern :: rest, path =>
    match pattern.literal?, directory? store path with
    | some name, _ =>
      let name := String.ofList name
      if leadsOn store path name then follow store directoriesOnly rest (inside path name) else []
    | none, none => []
    | none, some location =>
      if pattern.isAnyDirectories then
        (store.descendants location).flatMap fun inner =>
          let deeper := inside path (Text.join "/" inner)
          match rest with
          | [] => if store.isDirectory deeper then [deeper] else []
          | next :: rest =>
            if next.matchesName (inner.getLast?.getD "").toList then
              follow store directoriesOnly rest deeper
            else []
      else (matching store pattern path location).flatMap (follow store directoriesOnly rest)

/-- The paths that a path pattern stands for, in order. -/
def paths (store : FileStore) (text : String) : Except PatternError (List String) := do
  discard <| Pattern.parse text
  let patterns ← (components text).mapM Pattern.parse
  let directoriesOnly := (Path.pieces text).getLast? == some ""
  return follow store directoriesOnly (collapse patterns)
    (if Path.isAbsolute text then "/" else ".")

end Glob
end TypedSchema
