import TypedSchema.Declaration.Basic
import TypedSchema.Log
import TypedSchema.Schema.Name

/-!
# Schema/Resolve — the type that a schema denotes

Every schema in a type position denotes a type, except for compositions, alternatives directly among
alternatives or among the several items of an array, and choices with nothing to choose from.
Listed values take precedence over their kind; an object is any object, unless it only refers to a
declared one.

Unions come out flat and without repetition: a union among the arms gives its members in place, each
type stays where it appears first, and a union of one type is that type (`Ty.union`).
-/

namespace TypedSchema

/-! ## Unions -/

/-- The members of a union, or the type itself. -/
def Ty.members : Ty → List Ty
  | .unionOf members => members
  | ty => [ty]

/-- The type of all values of some arms; without arms there is none, for the given cause. -/
def Ty.union (cause : EmptyCause) (arms : List Ty) : Except Fault Ty :=
  match firstOccurrences (arms.flatMap Ty.members) with
  | [] => .error (.empty [] cause)
  | [ty] => .ok ty
  | members => .ok (.unionOf members)

namespace Schema

/-! ## Resolution -/

/-- Reports that a schema of this shape was resolved, if it was. -/
def resolved (shape : Shape) (ty : Traced Ty) : Traced Ty := do
  let ty ← ty
  .report (.resolved shape)
  return ty

/-- The type of an object schema that is not composed: the declared type it refers to if it has no
properties of its own, any object otherwise. -/
def objectType (o : ObjectSchema) : Ty :=
  match o.base with
  | some target => if o.properties.isEmpty then .named (localName target) else .anyObject
  | none => .anyObject

/-- The type of a scalar schema. -/
def primitiveType (p : PrimitiveSchema) : Ty :=
  if p.isEnumerable then .literalEnum (p.enum.getD []) else .primitive p.kind

/-- Why a schema cannot be an arm of a union, if it cannot. -/
def armFault? : Schema → Option UnsupportedCause
  | .anyOf _ => some .nestedAnyOf
  | .object o => if o.isComposed then some .composedAlternative else none
  | _ => none

mutual

/-- The type that a schema denotes. -/
def resolve : Schema → Traced Ty
  | .ref target => resolved .ref (pure (.named (localName target)))
  | .primitive p => resolved (Schema.primitive p).shape (pure (primitiveType p))
  | .multiType kinds => resolved .multiType (.quiet (Ty.union .noKinds (kinds.map .primitive)))
  | .anyOf alternatives =>
    resolved .anyOf do
      let arms ← resolveArms alternatives
      .quiet (Ty.union .noAlternatives arms)
  | .array [] => .quiet (.error (.empty [] .noItems))
  | .array [item] =>
    resolved .array do
      let element ← resolve item
      return .listOf element
  | .array items =>
    resolved .array do
      let arms ← resolveArms items
      let element ← .quiet (Ty.union .noAlternatives arms)
      return .listOf element
  | .object o =>
    if o.isComposed then .quiet (.error (.unsupported [] .composedType))
    else resolved .object (pure (objectType o))

/-- The types of the arms of a union, in order. -/
def resolveArms : List Schema → Traced (List Ty)
  | [] => return []
  | arm :: rest => do
    let ty ←
      match armFault? arm with
      | some cause => .quiet (.error (.unsupported [] cause))
      | none => resolve arm
    let tys ← resolveArms rest
    return ty :: tys

end

end Schema
end TypedSchema
