import TypedSchema.Json.Value

/-!
# Node/Basic — a schema node as its text gives it

A `Node` holds what a JSON object says under the nine keywords that shape a schema, before anything
is decided about the combination, and the names of all other keys in their order.  A keyword that is
absent or `null` is `none`.
-/

namespace TypedSchema

/-- A keyword that shapes a schema. -/
inductive Keyword where
  | id
  | ref
  | type
  | properties
  | required
  | allOf
  | anyOf
  | items
  | enum
  deriving DecidableEq, Repr

/-- The keyword that a key spells; an identifier has two spellings. -/
def Keyword.ofKey? : String → Option Keyword
  | "id" => some id
  | "$id" => some id
  | "$ref" => some ref
  | "type" => some type
  | "properties" => some properties
  | "required" => some required
  | "allOf" => some allOf
  | "anyOf" => some anyOf
  | "items" => some items
  | "enum" => some enum
  | _ => none

/-- The main spelling of a keyword. -/
def Keyword.key : Keyword → String
  | id => "id"
  | ref => "$ref"
  | type => "type"
  | properties => "properties"
  | required => "required"
  | allOf => "allOf"
  | anyOf => "anyOf"
  | items => "items"
  | enum => "enum"

/-- The keywords that restrict values in ways no declaration can express. -/
def unsupportedKeywords : List String :=
  ["oneOf", "not", "if", "then", "else", "const", "format", "pattern", "patternProperties",
    "minimum", "maximum", "exclusiveMinimum", "exclusiveMaximum", "multipleOf", "minLength",
    "maxLength", "minItems", "maxItems", "uniqueItems", "$anchor"]

/-- A value that is written bare or in a list. -/
inductive OneOrMany (α : Type) where
  | one (value : α)
  | many (values : List α)

/-- The values, however they are written. -/
def OneOrMany.toList {α : Type} : OneOrMany α → List α
  | one value => [value]
  | many values => values

/-- A schema node before classification. -/
structure Node where
  id : Option String := none
  ref : Option String := none
  type : Option (OneOrMany String) := none
  properties : Option (List (String × Node)) := none
  required : Option (List String) := none
  allOf : Option (List Node) := none
  anyOf : Option (List Node) := none
  items : Option (OneOrMany Node) := none
  enum : Option (List Json) := none
  others : List String := []

namespace Node

/-- Whether the type is this keyword, written bare. -/
def typeIs (node : Node) (keyword : String) : Bool :=
  match node.type with
  | some (.one k) => k == keyword
  | _ => false

/-- Whether there is a type other than the bare word `object`. -/
def hasForeignType (node : Node) : Bool := node.type.isSome && !node.typeIs "object"

end Node
end TypedSchema
