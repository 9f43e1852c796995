import Mathlib.Algebra.Group.Int.Defs
import Mathlib.Tactic.Lemma
import TypedSchema.Schema.Basic

/-!
# Well-formed schemas

Not every schema can be read from a document.  A well-formed one does not compose an object that has
a base already, neither as a whole nor as a member of a composition, lists only finite values of the
kind it restricts, and chooses between two kinds at least.  Property names are distinct, required
names are listed once, and an integer has 64 bits, as everywhere in the library.
-/

namespace TypedSchema

/-- A literal that has a value: an integer of 64 bits, or a finite number. -/
def Literal.Valid : Literal → Prop
  | .integer n => -2 ^ 63 ≤ n ∧ n < 2 ^ 63
  | .number x => x.isFinite = true
  | _ => True

/-- A schema of scalar values is well formed if the values that it lists are some, and all of its
kind. -/
def PrimitiveSchema.WellFormed (p : PrimitiveSchema) : Prop :=
  ∀ values, p.enum = some values → values ≠ [] ∧ ∀ l ∈ values, l.kind = p.kind ∧ l.Valid

mutual

/-- A schema that a document can hold. -/
inductive Schema.WellFormed : Schema → Prop
  | object {o : ObjectSchema} (h : o.WellFormed) : Schema.WellFormed (.object o)
  | array {items : List Schema} (h : ∀ s ∈ items, s.WellFormed) : Schema.WellFormed (.array items)
  | primitive {p : PrimitiveSchema} (h : p.WellFormed) : Schema.WellFormed (.primitive p)
  | multiType {kinds : List Kind} (h : 2 ≤ kinds.length) : Schema.WellFormed (.multiType kinds)
  | anyOf {alternatives : List Schema} (h : ∀ s ∈ alternatives, s.WellFormed) :
    Schema.WellFormed (.anyOf alternatives)
  | ref (target : String) : Schema.WellFormed (.ref target)

/-- An object schema that a document can hold. -/
inductive ObjectSchema.WellFormed : ObjectSchema → Prop
  | intro {o : ObjectSchema}
    (exclusive : o.base = none ∨ o.allOf = none)
    (distinct : (o.properties.map Prod.fst).Nodup)
    (properties : ∀ entry ∈ o.properties, entry.2.WellFormed)
    (required : ∀ names, o.required = some names → names.Nodup)
    (unbased : ∀ members, o.allOf = some members → ∀ inner, .inline inner ∈ members →
      inner.base = none)
    (members : ∀ members, o.allOf = some members → ∀ inner, .inline inner ∈ members →
      inner.WellFormed) :
    ObjectSchema.WellFormed o

end

end TypedSchema
