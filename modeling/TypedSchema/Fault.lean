import TypedSchema.Json.SyntaxError
import TypedSchema.Node.Mismatch
import TypedSchema.Node.Rejection

/-!
# Fault — why no declarations come out

A fault is one of five kinds, and its constructor says which: a schema has a shape that no
declaration expresses, a choice has nothing to choose from, a schema that must be named has no name,
a document does not have the form of schemas, or a name cannot be spelled in the emitted source.
Each carries its cause; the wording is in `Fault.message` alone.

On its way out a fault of the first three kinds collects where it arose, outermost place first
(`Fault.within`).  The places are part of its text and never change its kind or its cause.
-/

namespace TypedSchema

/-- A shape that no declaration expresses. -/
inductive UnsupportedCause where
  | node (path : String) (misuse : Misuse)
  | composedType
  | composedAlternative
  | composedMember
  | nestedAnyOf
  | refIntersection (target : String)
  | requiredBesideAllOf (record : String)
  | noEnumValues (name : String)
  deriving DecidableEq, Repr

/-- The wording of an unsupported shape. -/
def UnsupportedCause.message : UnsupportedCause → String
  | node path misuse => path ++ ": " ++ misuse.message
  | composedType => "nested allOf: composed objects can only appear as top-level declarations"
  | composedAlternative => "nested allOf inside anyOf"
  | composedMember => "nested allOf"
  | nestedAnyOf => "nested anyOf"
  | refIntersection target => "cannot intersect `$ref` " ++ target ++ " without dereferencing it"
  | requiredBesideAllOf record => "`" ++ record ++ "` combines allOf with its own required list"
  | noEnumValues name => "`" ++ name ++ "` declares no enum values"

/-- A choice with nothing to choose from. -/
inductive EmptyCause where
  | noObjects
  | disjoint (a b : Shape)
  | noItems
  | noKinds
  | noAlternatives
  deriving DecidableEq, Repr

/-- The wording of an empty choice. -/
def EmptyCause.message : EmptyCause → String
  | noObjects => "allOf has no object schemas to merge"
  | disjoint a b => "no schema intersection between " ++ a.label ++ " and " ++ b.label
  | noItems => "array declares no item schemas"
  | noKinds => "multi-type `type` list declares no alternatives"
  | noAlternatives => "anyOf declares no alternatives"

/-- What is declared under a name. -/
inductive Declared where
  | object
  | enum
  deriving DecidableEq, Repr

/-- How diagnostics call what is declared. -/
def Declared.label : Declared → String
  | object => "object"
  | enum => "enum"

/-- A missing name. -/
inductive UnnamedCause where
  | noId (what : Declared)
  | noLocalName (what : Declared) (id : String)
  deriving DecidableEq, Repr

/-- The wording of a missing name. -/
def UnnamedCause.message : UnnamedCause → String
  | noId what => what.label ++ " schema has no id"
  | noLocalName what id => what.label ++ " id `" ++ id ++ "` has no local name"

/-- A place in a document: a position in its text, the keys that lead to it, or a slash-separated
path. -/
inductive Place where
  | position (p : Json.Position)
  | keys (path : KeyPath)
  | path (text : String)
  deriving DecidableEq, Repr

/-- The text of a place. -/
def Place.text : Place → String
  | position p => "line " ++ Nat.repr p.line ++ ", column " ++ Nat.repr p.column
  | keys steps => steps.text
  | path text => text

/-- What is wrong with a document at a place. -/
inductive Defect where
  | syntaxError (reason : Json.SyntaxReason) (p : Json.Position)
  | mismatch (reason : MismatchReason)
  | flaw (cause : Flaw)
  | danglingPointer

/-- The wording of a defect. -/
def Defect.message : Defect → String
  | syntaxError reason p =>
    reason.message ++ " at line " ++ Nat.repr p.line ++ " column " ++ Nat.repr p.column
  | mismatch reason => reason.message
  | flaw cause => cause.message
  | danglingPointer => "JSON pointer does not resolve"

/-- What a name that has to be spelled is the name of. -/
inductive NameRole where
  | declaration
  | base
  | reference
  deriving DecidableEq, Repr

/-- How diagnostics call the role of a name. -/
def NameRole.label : NameRole → String
  | declaration => "declaration name"
  | base => "base type"
  | reference => "referenced type"

/-- Why a name cannot be spelled. -/
inductive SpellingCause where
  | notIdentifier (role : NameRole)
  | fieldsBesideBases
  | memberNotIdentifier (value : String)
  | repeatedMember (member : String)
  deriving DecidableEq, Repr

/-- The wording of a name that cannot be spelled. -/
def SpellingCause.message : SpellingCause → String
  | notIdentifier role => role.label ++ " is not a Python identifier"
  | fieldsBesideBases =>
    "functional TypedDict syntax cannot inherit; a field name is not a Python identifier"
  | memberNotIdentifier value => "enum value " ++ value ++ " is not usable as a member name"
  | repeatedMember member => "duplicate enum member `" ++ member ++ "`"

/-- A reason why no declarations come out. -/
inductive Fault where
  | unsupported (places : List String) (cause : UnsupportedCause)
  | empty (places : List String) (cause : EmptyCause)
  | unnamed (places : List String) (cause : UnnamedCause)
  | invalid (place : Place) (defect : Defect)
  | unspellable (name : String) (cause : SpellingCause)

namespace Fault

/-- The kinds of faults. -/
inductive Kind where
  | unsupported
  | empty
  | unnamed
  | invalid
  | unspellable
  deriving DecidableEq, Repr

/-- The kind of a fault. -/
def kind : Fault → Kind
  | unsupported _ _ => .unsupported
  | empty _ _ => .empty
  | unnamed _ _ => .unnamed
  | invalid _ _ => .invalid
  | unspellable _ _ => .unspellable

/-- The fault with one more place around it.  A fault that has a place of its own keeps only
that. -/
def within (place : String) : Fault → Fault
  | unsupported places cause => unsupported (place :: places) cause
  | empty places cause => empty (place :: places) cause
  | unnamed places cause => unnamed (place :: places) cause
  | fault => fault

@[simp] theorem kind_within (place : String) (fault : Fault) :
    (fault.within place).kind = fault.kind := by
  cases fault <;> rfl

/-- A text behind the places around it. -/
def placed (places : List String) (text : String) : String :=
  places.foldr (fun place rest => place ++ ": " ++ rest) text

/-- The wording of a fault. -/
def message : Fault → String
  | unsupported places cause => "unsupported schema shape: " ++ placed places cause.message
  | empty places cause => "empty alternatives: " ++ placed places cause.message
  | unnamed places cause => "missing identity: " ++ placed places cause.message
  | invalid place defect => "invalid schema document at " ++ place.text ++ ": " ++ defect.message
  | unspellable name cause => "cannot emit name `" ++ name ++ "`: " ++ cause.message

/-- The fault of a text that is no JSON document. -/
def ofSyntaxError (text : String) (error : Json.SyntaxError) : Fault :=
  let position := error.position text
  .invalid (.position position) (.syntaxError error.reason position)

/-- The fault of a document that does not have the form of schema nodes. -/
def ofMismatch (m : Mismatch) : Fault := .invalid (.keys m.path) (.mismatch m.reason)

/-- The fault of a node that denotes no schema; `path` leads to the node. -/
def ofRejection (path : String) : Rejection → Fault
  | .misuse steps cause => .unsupported [] (.node (path ++ NodeStep.pathText steps) cause)
  | .flaw steps cause => .invalid (.path (path ++ NodeStep.pathText steps)) (.flaw cause)

end Fault
end TypedSchema
