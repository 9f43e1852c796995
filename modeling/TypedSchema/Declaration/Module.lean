import TypedSchema.Declaration.Build

/-!
# Declaration/Module — declarations in their order

A module lists the records in the order of their schemas and then the enumerations in theirs.  They
are not sorted by what refers to what: a declaration may refer to a later one, or to itself.  The
first schema that fails to build fails the module; one that declares nothing is left out with a
warning.
-/

namespace TypedSchema

/-- A facility that the text of a module needs from elsewhere. -/
inductive ImportRole where
  | deferredAnnotations
  | enumBase
  | literalSet
  | taggedUnion
  | optionalField
  | recordBase
  deriving DecidableEq, Repr

namespace ImportRole

/-- All facilities; every assembled module asks for all of them. -/
def all : List ImportRole :=
  [deferredAnnotations, enumBase, literalSet, taggedUnion, optionalField, recordBase]

/-- The name of a facility. -/
def label : ImportRole → String
  | deferredAnnotations => "deferred_annotations"
  | enumBase => "enum_base"
  | literalSet => "literal_set"
  | taggedUnion => "tagged_union"
  | optionalField => "optional_field"
  | recordBase => "record_base"

end ImportRole

/-- A module: what it needs, and what it declares. -/
structure Module where
  imports : List ImportRole
  declarations : List Declaration

namespace Module

/-- The declarations of some schemas, in order. -/
def buildAll : List Schema → Traced (List Declaration)
  | [] => return []
  | schema :: rest => do
    let declaration ← schema.build
    if declaration.isNone then .report (.declaresNothing schema.shape schema.id?)
    let declarations ← buildAll rest
    return declaration.toList ++ declarations

/-- The records among some declarations. -/
def records (declarations : List Declaration) : List Record :=
  declarations.filterMap fun
    | .record r => some r
    | .enum _ => none

/-- The enumerations among some declarations. -/
def enums (declarations : List Declaration) : List Enumeration :=
  declarations.filterMap fun
    | .record _ => none
    | .enum e => some e

/-- The module of some schemas. -/
def assemble (schemas : List Schema) : Traced Module := do
  let declarations ← buildAll schemas
  let records := records declarations
  let enums := enums declarations
  .report (.assembled records.length enums.length)
  return ⟨ImportRole.all, records.map .record ++ enums.map .enum⟩

end Module
end TypedSchema
