import TypedSchema.Members
import TypedSchema.Schema.Literal

/-!
# Declaration/Basic — types, and the declarations that name them

The types that fields have, without any schema in them, and the two kinds of declarations: records
with named fields and enumerations of literals.  Types are compared by `==`, which differs from
equality only in how it compares number literals.
-/

namespace TypedSchema

/-- The type of a field. -/
inductive Ty where
  | primitive (kind : Kind)
  | named (name : String)
  | anyObject
  | listOf (element : Ty)
  | unionOf (members : List Ty)
  | literalEnum (values : List Literal)

mutual

/-- Equality of types, up to how number literals are compared. -/
def Ty.same : Ty → Ty → Bool
  | .primitive a, .primitive b => a == b
  | .named a, .named b => a == b
  | .anyObject, .anyObject => true
  | .listOf a, .listOf b => Ty.same a b
  | .unionOf as, .unionOf bs => Ty.sameList as bs
  | .literalEnum as, .literalEnum bs => as == bs
  | _, _ => false
  termination_by structural a => a

/-- Equality of lists of types, member by member. -/
def Ty.sameList : List Ty → List Ty → Bool
  | [], [] => true
  | a :: as, b :: bs => Ty.same a b && Ty.sameList as bs
  | _, _ => false
  termination_by structural a => a

end

instance : BEq Ty := ⟨Ty.same⟩

/-- A field of a record. -/
structure Field where
  name : String
  ty : Ty
  required : Bool

/-- A record type: its own fields, behind those of its bases. -/
structure Record where
  name : String
  bases : List String
  fields : List Field

/-- An enumeration of literals, in order, repetitions kept. -/
structure Enumeration where
  name : String
  values : List Literal

/-- A declaration of a named type. -/
inductive Declaration where
  | record (record : Record)
  | enum (enumeration : Enumeration)

/-- The name that a declaration declares. -/
def Declaration.name : Declaration → String
  | record r => r.name
  | enum e => e.name

end TypedSchema
