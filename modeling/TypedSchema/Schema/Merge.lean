import TypedSchema.Fault
import TypedSchema.Schema.Equality

/-!
# Schema/Merge — one object schema that says what several say

`ObjectSchema.merge` folds object schemas from the left into one.  A property that only one of them
declares is taken as it is; a repeated one becomes the intersection of its declarations so far and
the new one, in its first place.  Required names add up, but only from lists that are given: if all
are omitted, so is that of the result.

The intersection of two schemas consists of their common shapes.  An `anyOf` offers its
alternatives, a list of types one primitive per kind, and any other schema itself; references offer
nothing, because their target is not at hand.  Shapes are common when they are equal up to order,
and one common shape stands for itself while several become an `anyOf`.
-/

namespace TypedSchema
namespace Schema

/-- The shapes that a schema offers. -/
def alternatives : Schema → Except Fault (List Schema)
  | .ref target => .error (.unsupported [] (.refIntersection target))
  | .anyOf alternatives => .ok alternatives
  | .multiType kinds => .ok (kinds.map ofKind)
  | schema => .ok [schema]

/-- The shapes of `as` that are among `bs`, each where it appears first. -/
def common (as bs : List Schema) : List Schema :=
  firstOccurrences (as.filter bs.contains)

/-- The shapes that two schemas have in common, in the order of the first. -/
def intersect (a b : Schema) : Except Fault (List Schema) := do
  let as ← a.alternatives
  let bs ← b.alternatives
  return common as bs

/-- The schema of the common shapes of two schemas. -/
def intersection (a b : Schema) : Except Fault Schema := do
  match ← intersect a b with
  | [] => .error (.empty [] (.disjoint a.shape b.shape))
  | [schema] => return schema
  | schemas => return .anyOf schemas

end Schema

namespace ObjectSchema

/-- The properties with one more declaration of a name. -/
def mergeProperty (properties : List (String × Schema)) (name : String) (schema : Schema) :
    Except Fault (List (String × Schema)) :=
  match properties.lookup name with
  | none => .ok (insertMember name schema properties)
  | some existing => do
    let both ← (existing.intersection schema).mapError (.within ("property `" ++ name ++ "`"))
    return insertMember name both properties

/-- The properties with more declarations, in their order. -/
def mergeProperties (properties : List (String × Schema)) :
    List (String × Schema) → Except Fault (List (String × Schema))
  | [] => .ok properties
  | (name, schema) :: rest => do
    mergeProperties (← mergeProperty properties name schema) rest

/-- The required names of two lists of which either may be omitted. -/
def mergeRequired : Option (List String) → Option (List String) → Option (List String)
  | merged, none => merged
  | merged, some names => some (names.foldl appendNew (merged.getD []))

/-- One more schema merged into the result so far. -/
def mergeInto (merged schema : ObjectSchema) : Except Fault ObjectSchema :=
  if schema.isComposed then .error (.unsupported [] .composedMember)
  else do
    let properties ← mergeProperties merged.properties schema.properties
    return { merged with properties, required := mergeRequired merged.required schema.required }

/-- One object schema that says what all of these say. -/
def merge (schemas : List ObjectSchema) : Except Fault ObjectSchema :=
  if schemas.isEmpty then .error (.empty [] .noObjects)
  else schemas.foldlM mergeInto {}

end ObjectSchema
end TypedSchema
