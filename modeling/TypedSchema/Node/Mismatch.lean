import TypedSchema.Json.Printer
import TypedSchema.Text.Quoted

/-!
# Node/Mismatch — where and why a document does not have the form of schema nodes

A place inside a document is the list of keys and indices that lead to it (`KeyPath`).  It is
written with a point before every key but the first and brackets around indices; the document itself
is a single point.
-/

namespace TypedSchema

/-- A step into an object or an array. -/
inductive KeyStep where
  | key (name : String)
  | index (i : Nat)
  deriving DecidableEq, Repr

/-- The steps from the document to a place inside it. -/
abbrev KeyPath := List KeyStep

/-- The text of a step behind other steps. -/
def KeyStep.text : KeyStep → String
  | key name => "." ++ name
  | index i => "[" ++ Nat.repr i ++ "]"

/-- The text of a path. -/
def KeyPath.text : KeyPath → String
  | [] => "."
  | .key name :: rest => name ++ String.join (rest.map KeyStep.text)
  | path => String.join (path.map KeyStep.text)

/-- What a place should hold. -/
inductive Wanted where
  | root
  | schema
  | map
  | sequence
  | string
  deriving DecidableEq, Repr

/-- How a wanted form is called. -/
def Wanted.label : Wanted → String
  | root => "struct RawRoot"
  | schema => "struct RawSchema"
  | map => "a map"
  | sequence => "a sequence"
  | string => "a string"

/-- How a value that was found is called. -/
def Json.foundLabel : Json → String
  | .null => "null"
  | .bool true => "boolean `true`"
  | .bool false => "boolean `false`"
  | .integer n => "integer `" ++ Json.integerText n ++ "`"
  | .float x => "floating point `" ++ Json.floatText x ++ "`"
  | .string s => "string " ++ Text.quoted s
  | .array _ => "sequence"
  | .object _ => "map"

/-- Why a place does not have the form of a schema node. -/
inductive MismatchReason where
  | wrongType (found : Json) (wanted : Wanted)
  | noProperties
  | repeatedId
  | emptyRootList
  | longRootList (length : Nat)
  | neitherOneNorMany

/-- The wording of a reason. -/
def MismatchReason.message : MismatchReason → String
  | wrongType found wanted =>
    "invalid type: " ++ found.foundLabel ++ ", expected " ++ wanted.label
  | noProperties => "missing field `properties`"
  | repeatedId => "duplicate field `id`"
  | emptyRootList => "invalid length 0, expected struct RawRoot with 1 element"
  | longRootList length =>
    "invalid length " ++ Nat.repr length ++ ", expected fewer elements in array"
  | neitherOneNorMany => "data did not match any variant of untagged enum OneOrMany"

/-- A place and what is wrong there. -/
structure Mismatch where
  path : KeyPath
  reason : MismatchReason

/-- The same mismatch, seen from one level further out. -/
def Mismatch.under (step : KeyStep) (m : Mismatch) : Mismatch := ⟨step :: m.path, m.reason⟩

/-- A mismatch at the place itself. -/
def Mismatch.here (reason : MismatchReason) : Mismatch := ⟨[], reason⟩

end TypedSchema
