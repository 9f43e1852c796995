import TypedSchema.Binary64.Basic

/-!
# Schema/Literal — kinds of scalar values, and single values

A `Kind` is one of the scalar `type` keywords.  A `Literal` is one member of an `enum`.  Literals
are compared by `==`, which tells an integer from any other number of the same value and takes the
two zeros, and all not-a-numbers, for one number.
-/

namespace TypedSchema

/-- A scalar `type` keyword. -/
inductive Kind where
  | boolean
  | integer
  | number
  | string
  | null
  deriving DecidableEq, Repr

namespace Kind

/-- How the kind is written in a schema. -/
def keyword : Kind → String
  | boolean => "boolean"
  | integer => "integer"
  | number => "number"
  | string => "string"
  | null => "null"

/-- The kind that a keyword names. -/
def ofKeyword? : String → Option Kind
  | "boolean" => some boolean
  | "integer" => some integer
  | "number" => some number
  | "string" => some string
  | "null" => some null
  | _ => none

@[simp] theorem ofKeyword?_keyword (k : Kind) : ofKeyword? k.keyword = some k := by
  cases k <;> rfl

end Kind

/-- A single value of an enumeration. -/
inductive Literal where
  | null
  | boolean (value : Bool)
  | integer (value : Int)
  | number (value : Binary64)
  | string (value : String)
  deriving Repr

namespace Literal

/-- The kind of a literal. -/
def kind : Literal → Kind
  | null => .null
  | boolean _ => .boolean
  | integer _ => .integer
  | number _ => .number
  | string _ => .string

/-- Whether two literals are one value. -/
def same : Literal → Literal → Bool
  | null, null => true
  | boolean a, boolean b => a == b
  | integer a, integer b => a == b
  | number a, number b => a.same b
  | string a, string b => a == b
  | _, _ => false

instance : BEq Literal := ⟨same⟩

end Literal
end TypedSchema
