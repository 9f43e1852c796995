import TypedSchema.Files.Path

/-!
# Files/Store — directories and files as a value

A `FileStore` is what a program can see of a file system: entries at absolute locations and a
current directory.  The root is always a directory.  Operations take the texts of paths and walk
them piece by piece, so that a missing piece, a file in the place of a directory, or an empty path
is an error even if later pieces would lead back.

Writing changes the content of one file, or creates it, and nothing else
(`FileStore.get?_put_self`, `FileStore.get?_put_of_ne`); creating directories changes no file.
-/

namespace TypedSchema

section

-- contents are compared as the core library compares them, whatever else does
attribute [local instance (2000)] ByteArray.instDecidableEq

/-- What is at a location. -/
inductive FileEntry where
  | file (content : ByteArray)
  | directory
  deriving DecidableEq

end

/-- Whether an entry is a directory. -/
def FileEntry.isDirectory : FileEntry → Bool
  | file _ => false
  | directory => true

/-- The names that lead from the root to a location. -/
abbrev Location := List String

/-- The errors of file operations. -/
inductive FileError where
  | notFound
  | exists
  | notDirectory
  | isDirectory
  | nameTooLong
  | nulInName
  | notUtf8
  deriving DecidableEq, Repr

/-- The wording of an error. -/
def FileError.message : FileError → String
  | notFound => "No such file or directory (os error 2)"
  | «exists» => "File exists (os error 17)"
  | notDirectory => "Not a directory (os error 20)"
  | isDirectory => "Is a directory (os error 21)"
  | nameTooLong => "File name too long (os error 36)"
  | nulInName => "file name contained an unexpected NUL byte"
  | notUtf8 => "stream did not contain valid UTF-8"

/-- Directories and files, and the current directory. -/
structure FileStore where
  entries : List (Location × FileEntry) := []
  current : Location := []

namespace FileStore

/-! ## Entries -/

/-- The entry at a location. -/
def get? (store : FileStore) (location : Location) : Option FileEntry :=
  if location.isEmpty then some .directory else store.entries.lookup location

/-- Sets the entry of a location in a list of entries. -/
def putEntry (location : Location) (entry : FileEntry) :
    List (Location × FileEntry) → List (Location × FileEntry)
  | [] => [(location, entry)]
  | (l, e) :: rest =>
    if l = location then (l, entry) :: rest else (l, e) :: putEntry location entry rest

/-- The store with an entry set. -/
def put (store : FileStore) (location : Location) (entry : FileEntry) : FileStore :=
  { store with entries := putEntry location entry store.entries }

theorem lookup_putEntry_self (location : Location) (entry : FileEntry)
    (entries : List (Location × FileEntry)) :
    (putEntry location entry entries).lookup location = some entry := by
  induction entries with
  | nil => simp [putEntry]
  | cons head rest ih =>
    obtain ⟨l, e⟩ := head
    by_cases h : l = location
    · simp [putEntry, h]
    · simp [putEntry, h, List.lookup_cons, beq_false_of_ne (Ne.symm h), ih]

theorem lookup_putEntry_of_ne {location other : Location} (entry : FileEntry)
    (entries : List (Location × FileEntry)) (h : other ≠ location) :
    (putEntry location entry entries).lookup other = entries.lookup other := by
  induction entries with
  | nil => simp [putEntry, List.lookup_cons, beq_false_of_ne h]
  | cons head rest ih =>
    obtain ⟨l, e⟩ := head
    by_cases hl : l = location
    · simp [putEntry, hl, List.lookup_cons, beq_false_of_ne h]
    · simp [putEntry, hl, List.lookup_cons, ih]

/-- A location other than the root holds what was put there. -/
theorem get?_put_self (store : FileStore) {location : Location} (entry : FileEntry)
    (h : location ≠ []) : (store.put location entry).get? location = some entry := by
  simp [get?, put, h, lookup_putEntry_self]

/-- All other locations keep what they hold. -/
theorem get?_put_of_ne (store : FileStore) {location other : Location} (entry : FileEntry)
    (h : other ≠ location) : (store.put location entry).get? other = store.get? other := by
  simp [get?, put, lookup_putEntry_of_ne entry _ h]

/-! ## Walking -/

/-- One piece further from a directory.  A piece that is followed by others has to be a
directory. -/
def enter (store : FileStore) (location : Location) (piece : String) :
    Except FileError Location :=
  if Path.isIdle piece then .ok location
  else if piece = ".." then .ok location.dropLast
  else if 255 < piece.utf8ByteSize then .error .nameTooLong
  else
    match store.get? (location ++ [piece]) with
    | some _ => .ok (location ++ [piece])
    | none => .error .notFound

/-- The location that some pieces lead to. -/
def walk (store : FileStore) (location : Location) : List String → Except FileError Location
  | [] => .ok location
  | piece :: rest => do
    match store.get? location with
    | some .directory => store.walk (← store.enter location piece) rest
    | _ => .error .notDirectory

/-- Where a path starts. -/
def start (store : FileStore) (path : String) : Location :=
  if Path.isAbsolute path then [] else store.current

/-- Refuses paths that no file system takes. -/
def checkedPieces (path : String) : Except FileError (List String) :=
  if path = "" then .error .notFound
  else if path.toList.contains '\x00' then .error .nulInName
  else if 4096 ≤ path.utf8ByteSize then .error .nameTooLong
  else .ok (Path.pieces path)

/-- The location of what a path names. -/
def locate (store : FileStore) (path : String) : Except FileError Location := do
  store.walk (store.start path) (← checkedPieces path)

/-- What a path names. -/
def entry? (store : FileStore) (path : String) : Option FileEntry :=
  match store.locate path with
  | .ok location => store.get? location
  | .error _ => none

/-- Whether a path names a directory. -/
def isDirectory (store : FileStore) (path : String) : Bool :=
  match store.entry? path with
  | some entry => entry.isDirectory
  | none => false

/-- The directory and the last piece of a location that need not exist. -/
def locateParent (store : FileStore) (path : String) : Except FileError (Location × String) := do
  let pieces ← checkedPieces path
  let rest := pieces.reverse.dropWhile (· == "")
  let directory ← store.walk (store.start path) rest.tail.reverse
  match store.get? directory with
  | some .directory => return (directory, rest.head?.getD "")
  | _ => .error .notDirectory

/-! ## Reading, writing, creating directories -/

/-- The text of the file that a path names. -/
def readText (store : FileStore) (path : String) : Except FileError String := do
  match store.get? (← store.locate path) with
  | some (.file content) =>
    match String.fromUTF8? content with
    | some text => return text
    | none => .error .notUtf8
  | some .directory => .error .isDirectory
  | none => .error .notFound

/-- The store with a file written. -/
def writeText (store : FileStore) (path text : String) : Except FileError FileStore := do
  let (directory, name) ← store.locateParent path
  if name = "" || name = "." || name = ".." || (Path.pieces path).getLast? == some "" then
    .error .isDirectory
  else if 255 < name.utf8ByteSize then .error .nameTooLong
  else
    match store.get? (directory ++ [name]) with
    | some .directory => .error .isDirectory
    | _ => return store.put (directory ++ [name]) (.file text.toUTF8)

/-- The store with a directory created. -/
def makeDirectory (store : FileStore) (path : String) : Except FileError FileStore := do
  let (directory, name) ← store.locateParent path
  if name = "" || name = "." || name = ".." then .error .exists
  else if 255 < name.utf8ByteSize then .error .nameTooLong
  else
    match store.get? (directory ++ [name]) with
    | some _ => .error .exists
    | none => return store.put (directory ++ [name]) .directory

/-- Creates some directories, which may be there already, from the first to the last. -/
def makeDirectories (store : FileStore) : List String → FileStore × Except FileError Unit
  | [] => (store, .ok ())
  | path :: rest =>
    match store.makeDirectory path with
    | .ok store => store.makeDirectories rest
    | .error error =>
      if error = .exists && store.isDirectory path then store.makeDirectories rest
      else (store, .error error)

/-- A path and the paths above it that do not exist, outermost first, or the error that stops the
search for one that does.  At most `depth` paths are tried. -/
def missingPaths (store : FileStore) (path : String) (missing : List String) :
    Nat → Except FileError (List String)
  | 0 => .ok missing
  | depth + 1 =>
    if path = "" then .ok missing
    else
      match store.makeDirectory path with
      | .ok _ => .ok (path :: missing)
      | .error .notFound =>
        match Path.parent? path with
        | some parent => store.missingPaths parent (path :: missing) depth
        | none => .ok missing
      | .error error =>
        if error = .exists && store.isDirectory path then .ok missing else .error error

/-- Creates a directory and all directories above it. -/
def makeDirectoryTree (store : FileStore) (path : String) : FileStore × Except FileError Unit :=
  match store.missingPaths path [] (path.length + 1) with
  | .ok missing => store.makeDirectories missing
  | .error error => (store, .error error)

/-! ## Listing -/

/-- Whether a location is in the order of a listing not behind another: a directory comes before
what it contains, and names are in the order of their characters. -/
def locationLe : Location → Location → Bool
  | [], _ => true
  | _ :: _, [] => false
  | a :: as, b :: bs => if a = b then locationLe as bs else decide (a < b)

/-- What remains of a location inside a directory. -/
def inside? : Location → Location → Option Location
  | [], location => some location
  | _ :: _, [] => none
  | a :: as, b :: bs => if a = b then inside? as bs else none

/-- Everything inside a directory at any depth, as locations relative to it, in order. -/
def descendants (store : FileStore) (directory : Location) : List Location :=
  let found := store.entries.filterMap fun entry => inside? directory entry.1
  (found.filter (!·.isEmpty)).mergeSort locationLe

/-- The names directly inside a directory, in order. -/
def children (store : FileStore) (directory : Location) : List String :=
  (store.descendants directory).filterMap fun
    | [name] => some name
    | _ => none

/-- The files that a later store has and an earlier one has not, or has with another content. -/
def changedFiles (before after : FileStore) : List (Location × ByteArray) :=
  after.entries.filterMap fun entry =>
    match entry.2 with
    | .file content =>
      if before.get? entry.1 = some (.file content) then none else some (entry.1, content)
    | .directory => none

end FileStore
end TypedSchema
