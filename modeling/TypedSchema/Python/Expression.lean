import TypedSchema.Declaration.Basic
import TypedSchema.Python.Identifier
import TypedSchema.Python.Literal

/-!
# Python/Expression — types written in source

A declared type is referred to by its bare name where annotations are not evaluated, and by its name
in quotes where they are (`NameStyle`).
-/

namespace TypedSchema
namespace Python

/-- How declared names are written inside a type. -/
inductive NameStyle where
  | bare
  | quoted
  deriving DecidableEq, Repr

/-- The type of all values of a kind. -/
def kindName : Kind → String
  | .boolean => "bool"
  | .integer => "int"
  | .number => "float"
  | .string => "str"
  | .null => "None"

/-- The name of a declared type. -/
def reference (style : NameStyle) (name : String) : Except Fault String := do
  let name ← checkedName .reference name
  return match style with
    | .bare => name
    | .quoted => quote name

mutual

/-- A type. -/
def expression (style : NameStyle) : Ty → Except Fault String
  | .primitive kind => .ok (kindName kind)
  | .named name => reference style name
  | .anyObject => .ok "dict"
  | .listOf element => do return "list[" ++ (← expression style element) ++ "]"
  | .unionOf members => do
    return "Union[" ++ Text.join ", " (← expressions style members) ++ "]"
  | .literalEnum values => .ok (literalSet values)

/-- The types of a list. -/
def expressions (style : NameStyle) : List Ty → Except Fault (List String)
  | [] => .ok []
  | ty :: rest => do
    let first ← expression style ty
    return first :: (← expressions style rest)

end

/-- The type of a field, marked if the field may be missing. -/
def fieldType (style : NameStyle) (field : Field) : Except Fault String := do
  let ty ← expression style field.ty
  return if field.required then ty else "NotRequired[" ++ ty ++ "]"

end Python
end TypedSchema
