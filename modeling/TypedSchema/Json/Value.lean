import TypedSchema.Binary64.Basic

/-!
# Json/Value — JSON documents

A document keeps what its text says and a schema may depend on: the order of object members and the
difference between a number written as an integer and any other number.  An object is its list of
members; reading one keeps the keys distinct.
-/

namespace TypedSchema

/-- A JSON value. -/
inductive Json where
  | null
  | bool (value : Bool)
  | integer (value : Int)
  | float (value : Binary64)
  | string (value : String)
  | array (items : List Json)
  | object (members : List (String × Json))

end TypedSchema
