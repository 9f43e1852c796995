import TypedSchema.Declaration.Module
import TypedSchema.Json.Printer

/-!
# Declaration/Json — modules as JSON documents

A type is an object with its `kind` and, unless it is `any_object`, what it is `of`.  A literal is
the JSON value that it stands for.  A declaration is an object that begins with which declaration it
is.
-/

namespace TypedSchema

/-- The JSON value that a literal stands for. -/
def Literal.toJson : Literal → Json
  | null => .null
  | boolean b => .bool b
  | integer n => .integer n
  | number x => .float x
  | string s => .string s

/-- A type as an object with its kind and what it is of. -/
def Ty.tagged (kind : String) (of : Json) : Json :=
  .object [("kind", .string kind), ("of", of)]

mutual

/-- A type as JSON. -/
def Ty.toJson : Ty → Json
  | .primitive kind => tagged "primitive" (.string kind.keyword)
  | .named name => tagged "named" (.string name)
  | .anyObject => .object [("kind", .string "any_object")]
  | .listOf element => tagged "list_of" element.toJson
  | .unionOf members => tagged "union_of" (.array (Ty.listToJson members))
  | .literalEnum values => tagged "literal_enum" (.array (values.map Literal.toJson))

/-- The types of a list as JSON. -/
def Ty.listToJson : List Ty → List Json
  | [] => []
  | ty :: rest => ty.toJson :: Ty.listToJson rest

end

/-- A field as JSON. -/
def Field.toJson (f : Field) : Json :=
  .object [("name", .string f.name), ("ty", f.ty.toJson), ("required", .bool f.required)]

/-- A declaration as JSON. -/
def Declaration.toJson : Declaration → Json
  | record r =>
    .object [("declaration", .string "record"), ("name", .string r.name),
      ("bases", .array (r.bases.map .string)), ("fields", .array (r.fields.map Field.toJson))]
  | enum e =>
    .object [("declaration", .string "enum"), ("name", .string e.name),
      ("values", .array (e.values.map Literal.toJson))]

/-- A module as JSON. -/
def Module.toJson (m : Module) : Json :=
  .object [("imports", .array (m.imports.map fun role => .string role.label)),
    ("declarations", .array (m.declarations.map Declaration.toJson))]

end TypedSchema
