import TypedSchema.Members
import TypedSchema.Schema.Literal

/-!
# Schema/Basic — the schemas that the library understands

Each node of a schema has exactly one of six shapes.  References are kept as the text of their
target and never followed, so a schema is a finite tree whatever its references say.

An object schema distinguishes an omitted `required` list from an empty one: the first says nothing,
the second says that no property is required.  The structure does not say that property names are
distinct and required names listed once each, but each way the library has to make one keeps them
so.  Properties are set by `insertMember`, in `withProperty` and in a merge; those of a loaded
schema are members of a JSON object, whose keys the parser keeps distinct.  Required names go
through `firstOccurrences`, in `withRequired` and where a node is classified, or through
`appendNew`, in a merge.
-/

namespace TypedSchema

/-- A schema of scalar values, possibly restricted to listed ones. -/
structure PrimitiveSchema where
  id : Option String := none
  kind : Kind
  enum : Option (List Literal) := none
  deriving Repr

mutual

/-- A schema node. -/
inductive Schema where
  | object (schema : ObjectSchema)
  | array (items : List Schema)
  | primitive (schema : PrimitiveSchema)
  | multiType (kinds : List Kind)
  | anyOf (alternatives : List Schema)
  | ref (target : String)

/-- A schema of objects: `base` is the reference that stands beside the properties. -/
structure ObjectSchema where
  id : Option String := none
  base : Option String := none
  properties : List (String × Schema) := []
  required : Option (List String) := none
  allOf : Option (List Member) := none

/-- A member of an `allOf` list. -/
inductive Member where
  | ref (target : String)
  | inline (schema : ObjectSchema)

end

/-! ## Shapes -/

/-- What diagnostics call a schema. -/
inductive Shape where
  | allOfObject
  | object
  | array
  | enum
  | primitive
  | multiType
  | anyOf
  | ref
  deriving DecidableEq, Repr

/-- The label of a shape. -/
def Shape.label : Shape → String
  | allOfObject => "allOf object"
  | object => "object"
  | array => "array"
  | enum => "enum"
  | primitive => "primitive"
  | multiType => "multi-type"
  | anyOf => "anyOf"
  | ref => "$ref"

namespace PrimitiveSchema

/-- Whether the schema lists at least one value. -/
def isEnumerable (p : PrimitiveSchema) : Bool := !(p.enum.getD []).isEmpty

end PrimitiveSchema

namespace ObjectSchema

/-- The object schema with this identifier and nothing else. -/
def named (id : String) : ObjectSchema := { id := some id }

/-- The schema with a property set. -/
def withProperty (o : ObjectSchema) (name : String) (schema : Schema) : ObjectSchema :=
  { o with properties := insertMember name schema o.properties }

/-- The schema with its required names replaced; a repeated name counts once. -/
def withRequired (o : ObjectSchema) (names : List String) : ObjectSchema :=
  { o with required := some (firstOccurrences names) }

/-- The schema composed of these members. -/
def withAllOf (o : ObjectSchema) (members : List Member) : ObjectSchema :=
  { o with allOf := some members }

/-- Whether a name is listed as required; with the list omitted, none is. -/
def isRequired (o : ObjectSchema) (name : String) : Bool := (o.required.getD []).contains name

/-- Whether the schema is composed through `allOf`. -/
def isComposed (o : ObjectSchema) : Bool := o.allOf.isSome

end ObjectSchema

namespace Schema

/-- The schema of all values of a kind. -/
def ofKind (kind : Kind) : Schema := .primitive { kind }

/-- Whether the node is a primitive that lists values. -/
def isEnumerable : Schema → Bool
  | primitive p => p.isEnumerable
  | _ => false

/-- Whether the node is an object composed through `allOf`. -/
def isComposed : Schema → Bool
  | object o => o.isComposed
  | _ => false

/-- The identifier of a node that can carry one. -/
def id? : Schema → Option String
  | object o => o.id
  | primitive p => p.id
  | _ => none

/-- The shape of a node. -/
def shape : Schema → Shape
  | object o => if o.isComposed then .allOfObject else .object
  | array _ => .array
  | primitive p => if p.isEnumerable then .enum else .primitive
  | multiType _ => .multiType
  | anyOf _ => .anyOf
  | ref _ => .ref

end Schema
end TypedSchema
