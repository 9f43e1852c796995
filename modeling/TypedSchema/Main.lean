import TypedSchema.CommandLine.Run

/-!
# Main — the program

Reads from disk what the arguments mention, runs the command on that as a `FileStore`, and carries
its report out: events and failures on the error stream, text on the output stream, changed files to
disk.  Whatever is decided is decided by `CommandLine.parse` and `CommandLine.Command.run`.
-/

namespace TypedSchema
namespace Main

/-! ## From disk -/

/-- The absolute path of a location. -/
def pathOf (location : Location) : String := "/" ++ Text.join "/" location

/-- Adds what is at a location, if anything is. -/
def addEntry (store : FileStore) (location : Location) : IO FileStore := do
  let path := System.mkFilePath [pathOf location]
  if ← path.isDir then return store.put location .directory
  else if ← path.pathExists then
    return store.put location (.file (← IO.FS.readBinFile path))
  else return store

/-- Adds what the pieces of a path lead to, step by step, and gives the last location. -/
def addPieces (store : FileStore) (start : Location) (pieces : List String) :
    IO (FileStore × Location) := do
  let mut store := store
  let mut location := start
  for piece in pieces do
    if piece = ".." then location := location.dropLast
    else if !Path.isIdle piece then
      location := location ++ [piece]
      store ← addEntry store location
  return (store, location)

/-- Adds what is at a location and inside it. -/
partial def addTree (store : FileStore) (location : Location) : IO FileStore := do
  let mut store ← addEntry store location
  let path := System.mkFilePath [pathOf location]
  if ← path.isDir then
    for entry in ← path.readDir do
      store ← addTree store (location ++ [entry.fileName])
  return store

/-- Adds what an input mentions: the file of a path, or everything in reach of a pattern. -/
def addInput (store : FileStore) (input : String) : IO FileStore := do
  let pieces := Path.pieces input
  let (fixed, open_) := pieces.span (!Pattern.isPattern ·)
  let (store, base) ← addPieces store (store.start input) fixed
  if open_.isEmpty then return store
  else addTree store (base.take (base.length - open_.count ".."))

/-- What a command can see. -/
def snapshot (command : CommandLine.Command) : IO FileStore := do
  let home := ((Path.pieces (← IO.currentDir).toString).filter (!Path.isIdle ·))
  let mut store := (← addPieces {} [] home).1
  store := { store with current := home }
  for input in command.inputs do store ← addInput store input
  if let some out := command.out then
    store := (← addPieces store (store.start out) (Path.pieces out)).1
  return store

/-! ## To disk -/

/-- Writes the files that a run changed. -/
def commit (before after : FileStore) : IO Unit := do
  for (location, content) in before.changedFiles after do
    IO.FS.createDirAll (pathOf location.dropLast)
    IO.FS.writeBinFile (pathOf location) content

/-- One line for an event. -/
def eventLine (event : Event) : String :=
  event.level.label ++ " " ++ event.message
    ++ String.join (event.fields.map fun field => " " ++ field.1 ++ "=" ++ field.2)

/-- How the program is called. -/
def overview : String :=
  "Usage: typed-schema [-v...] <python|decls> -i <PATH|PATTERN>... [--json-pointer <POINTER>]\n"
    ++ "         [--enum-style <literal|class>] [-o <FILE>] [--no-op]\n"

/-- Tells why no command is run. -/
def explain (usage : CommandLine.Usage) : IO Unit :=
  match usage with
  | .displayHelp => IO.print overview
  | .displayVersion => IO.println "typed-schema 0.1.0"
  | _ => IO.eprint overview

/-- Runs a command and carries its report out. -/
def execute (command : CommandLine.Command) : IO UInt32 := do
  let store ← if command.noOp then pure {} else snapshot command
  let report := command.run store
  for event in report.events.filter (·.reaches (Level.ofVerbosity command.verbosity)) do
    IO.eprintln (eventLine event)
  IO.print report.stdout
  commit store report.store
  match report.result with
  | .ok _ => pure ()
  | .error error => IO.eprintln ("error: " ++ error.message)
  return report.exitStatus.toUInt32

end Main
end TypedSchema

/-- The program. -/
def main (arguments : List String) : IO UInt32 :=
  match TypedSchema.CommandLine.parse arguments with
  | .ok command => TypedSchema.Main.execute command
  | .error usage => do
    TypedSchema.Main.explain usage
    return usage.exitStatus.toUInt32
