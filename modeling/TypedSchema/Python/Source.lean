import TypedSchema.Declaration.Module
import TypedSchema.Python.Expression

/-!
# Python/Source — modules written as source

A module is its import lines and then its declarations, each behind an empty line and a line break.
A record is a class body of annotated fields; one with a field name that cannot be written as such
is a call with a dictionary of quoted names, and such a record has no bases, for the call has no
place for them.  An enumeration is either the type of its literals or a class with one member per
value, as the `EnumStyle` says.

Writing is all or nothing: one declaration that cannot be spelled fails the module.
-/

namespace TypedSchema
namespace Python

/-- How enumerations are written. -/
inductive EnumStyle where
  | literal
  | enumClass
  deriving DecidableEq, Repr

/-- What a line inside a body begins with. -/
def indent : String := "    "

/-! ## Imports -/

/-- Where a facility comes from, and its name there. -/
def importOf : ImportRole → String × String
  | .deferredAnnotations => ("__future__", "annotations")
  | .enumBase => ("enum", "Enum")
  | .literalSet => ("typing", "Literal")
  | .taggedUnion => ("typing", "Union")
  | .optionalField => ("typing_extensions", "NotRequired")
  | .recordBase => ("typing_extensions", "TypedDict")

/-- Imports by module, with one more. -/
def addImport (groups : List (String × List String)) (role : ImportRole) :
    List (String × List String) :=
  let (source, name) := importOf role
  insertMember source (appendNew ((groups.lookup source).getD []) name) groups

/-- The import lines: one per module, in the order in which the modules are first needed. -/
def importLines (roles : List ImportRole) : String :=
  String.join <| (roles.foldl addImport []).map fun (source, names) =>
    "from " ++ source ++ " import " ++ Text.join ", " names ++ "\n"

/-! ## Records -/

/-- Checks each of some names. -/
def checkedNames (role : NameRole) : List String → Except Fault (List String)
  | [] => .ok []
  | name :: rest => do
    let first ← checkedName role name
    return first :: (← checkedNames role rest)

/-- The lines of the fields of a class. -/
def classFields : List Field → Except Fault (List String)
  | [] => .ok []
  | field :: rest => do
    let ty ← fieldType .bare field
    return (indent ++ field.name ++ ": " ++ ty ++ "\n") :: (← classFields rest)

/-- The lines of the fields of a dictionary. -/
def dictFields : List Field → Except Fault (List String)
  | [] => .ok []
  | field :: rest => do
    let ty ← fieldType .quoted field
    return (indent ++ quote field.name ++ ": " ++ ty ++ ",\n") :: (← dictFields rest)

/-- A record as a class. -/
def recordClass (record : Record) : Except Fault String := do
  let bases := if record.bases.isEmpty then "TypedDict" else Text.join ", " record.bases
  let lines ← classFields record.fields
  return "class " ++ record.name ++ "(" ++ bases ++ "):\n"
    ++ (if record.fields.isEmpty then indent ++ "pass\n" else String.join lines)

/-- A record as a call. -/
def recordCall (record : Record) : Except Fault String := do
  let lines ← dictFields record.fields
  return record.name ++ " = TypedDict(" ++ quote record.name ++ ", \x7b\n"
    ++ String.join lines ++ "\x7d, total=True)\n"

/-- A record. -/
def recordSource (record : Record) : Except Fault String := do
  discard <| checkedName .declaration record.name
  discard <| checkedNames .base record.bases
  if record.fields.all fun field => isIdentifier field.name then recordClass record
  else if !record.bases.isEmpty then .error (.unspellable record.name .fieldsBesideBases)
  else recordCall record

/-! ## Enumerations -/

/-- The member name that a literal can be. -/
def memberName? : Literal → Option String
  | .string s => if isIdentifier s then some s else none
  | _ => none

/-- The member names of the values of an enumeration; `seen` are those of the values before. -/
def memberNames (enumeration : String) (seen : List String) :
    List Literal → Except Fault (List String)
  | [] => .ok []
  | value :: rest =>
    match memberName? value with
    | none => .error (.unspellable enumeration (.memberNotIdentifier (literal value)))
    | some member =>
      if seen.contains member then .error (.unspellable enumeration (.repeatedMember member))
      else (memberNames enumeration (seen ++ [member]) rest).map (member :: ·)

/-- An enumeration as a class. -/
def enumClassSource (e : Enumeration) : Except Fault String := do
  let members ← memberNames e.name [] e.values
  return "class " ++ e.name ++ "(Enum):\n"
    ++ String.join (members.map fun member => indent ++ member ++ " = " ++ quote member ++ "\n")

/-- An enumeration. -/
def enumSource (style : EnumStyle) (e : Enumeration) : Except Fault String := do
  discard <| checkedName .declaration e.name
  match style with
  | .literal => return e.name ++ " = " ++ literalSet e.values ++ "\n"
  | .enumClass => enumClassSource e

/-! ## Modules -/

/-- A declaration. -/
def declarationSource (style : EnumStyle) : Declaration → Except Fault String
  | .record r => recordSource r
  | .enum e => enumSource style e

/-- Some declarations, each set apart from what is before it. -/
def declarationsSource (style : EnumStyle) : List Declaration → Except Fault String
  | [] => .ok ""
  | declaration :: rest => do
    let first ← declarationSource style declaration
    return "\n\n" ++ first ++ (← declarationsSource style rest)

/-- The source of a module. -/
def moduleSource (style : EnumStyle) (m : Module) : Except Fault String := do
  let declarations ← declarationsSource style m.declarations
  return importLines m.imports ++ declarations

/-- Source written so far, and how enumerations are written in it. -/
structure Emitter where
  style : EnumStyle := .literal
  buffer : String := ""

/-- Writes a module behind what is written so far; if it cannot be written, nothing is. -/
def Emitter.emit (emitter : Emitter) (m : Module) : Except Fault Emitter := do
  let source ← moduleSource emitter.style m
  return { emitter with buffer := emitter.buffer ++ source }

end Python
end TypedSchema
