import TypedSchema.CommandLine.Arguments
import TypedSchema.Declaration.Json
import TypedSchema.Document
import TypedSchema.Files.Glob

/-!
# CommandLine/Run — running a command on a file store

A command loads the schemas of all its inputs, in order, assembles them into one module and writes
the module, to its output file or else to standard output.  The text is complete before anything is
written, so a run that fails has no output.

Patterns among the inputs are replaced by the paths they stand for before the first input is read.
-/

namespace TypedSchema
namespace CommandLine

/-! ## Failures -/

/-- Why a run fails. -/
inductive RunError where
  | pattern (text : String) (error : PatternError)
  | noMatch (text : String)
  | read (path : String) (error : FileError)
  | load (path : String) (fault : Fault)
  | build (fault : Fault)
  | emit (fault : Fault)
  | create (path : String) (error : FileError)
  | write (path : String) (error : FileError)

/-- The wording of a failure. -/
def RunError.message : RunError → String
  | pattern text error => "invalid glob pattern: " ++ text ++ ": " ++ error.message
  | noMatch text => "glob pattern matched no files: " ++ text
  | read path error => "failed to read " ++ path ++ ": " ++ error.message
  | load path fault => "failed to load schema document " ++ path ++ ": " ++ fault.message
  | build fault => "failed to build declarations: " ++ fault.message
  | emit fault => "failed to emit Python source: " ++ fault.message
  | create path error => "failed to create " ++ path ++ ": " ++ error.message
  | write path error => "failed to write " ++ path ++ ": " ++ error.message

/-- A computation of a run. -/
abbrev Running (α : Type) := TracedBy RunError α

/-! ## Inputs -/

/-- The paths that an input stands for. -/
def expandInput (store : FileStore) (input : String) : Except RunError (List String) :=
  if Pattern.isPattern input then
    match Glob.paths store input with
    | .error error => .error (.pattern input error)
    | .ok [] => .error (.noMatch input)
    | .ok paths => .ok paths
  else .ok [input]

/-- The paths that some inputs stand for, in order. -/
def expandInputs (store : FileStore) : List String → Except RunError (List String)
  | [] => .ok []
  | input :: rest => do
    let paths ← expandInput store input
    return paths ++ (← expandInputs store rest)

/-- The schemas of one file. -/
def loadFile (store : FileStore) (pointer : Option String) (path : String) :
    Running (List Schema) := do
  let text ← .quiet ((store.readText path).mapError (.read path))
  let schemas ← (Document.loadText text pointer).mapError (.load path)
  .report (.loadedInput path schemas.length)
  return schemas

/-- The schemas of some files, in order. -/
def loadFiles (store : FileStore) (pointer : Option String) : List String → Running (List Schema)
  | [] => return []
  | path :: rest => do
    let schemas ← loadFile store pointer path
    let others ← loadFiles store pointer rest
    return schemas ++ others

namespace Command

/-- The module of all inputs of a command. -/
def assemble (command : Command) (store : FileStore) : Running Module := do
  let paths ← .quiet (expandInputs store command.inputs)
  let schemas ← loadFiles store command.pointer paths
  (Module.assemble schemas).mapError .build

/-- The complete output of a command. -/
def text (command : Command) (store : FileStore) : Running String := do
  let m ← command.assemble store
  match command.target with
  | .python => .quiet ((Python.moduleSource command.style m).mapError .emit)
  | .decls => return m.toJson.pretty ++ "\n"

/-! ## Running -/

end Command

/-- What a run leaves behind. -/
structure Report where
  events : List Event
  stdout : String
  store : FileStore
  result : Except RunError Unit

/-- The exit status of a run. -/
def Report.exitStatus (report : Report) : Nat :=
  match report.result with
  | .ok _ => 0
  | .error _ => 1

/-- Writes a text to a file, with the directories above it. -/
def save (store : FileStore) (path text : String) : FileStore × Except RunError Unit :=
  let parent := (Path.parent? path).getD ""
  let (store, created) :=
    if parent = "" then (store, .ok ()) else store.makeDirectoryTree parent
  match created with
  | .error error => (store, .error (.create parent error))
  | .ok _ =>
    match store.writeText path text with
    | .error error => (store, .error (.write path error))
    | .ok store => (store, .ok ())

/-- Runs a command. -/
def Command.run (command : Command) (store : FileStore) : Report :=
  if command.noOp then ⟨[], "", store, .ok ()⟩
  else
    let made := command.text store
    match made.outcome, command.out with
    | .error error, _ => ⟨made.events, "", store, .error error⟩
    | .ok text, none => ⟨made.events, text, store, .ok ()⟩
    | .ok text, some path =>
      match save store path text with
      | (store, .error error) => ⟨made.events, "", store, .error error⟩
      | (store, .ok _) =>
        ⟨made.events ++ [.wroteOutput path text.utf8ByteSize], "", store, .ok ()⟩

end CommandLine
end TypedSchema
