import Mathlib.Algebra.Group.Int.Defs
import Mathlib.Tactic.Lemma
import TypedSchema.Json.Value

/-!
# JSON values that a document can hold

A JSON value in memory is more restricted than its type says: no object has two members of one name,
an integer has 64 bits, with a sign or without, and a number with a point or an exponent is finite.
`Json.Valid` says so at every depth.
-/

namespace TypedSchema

/-- A value that a JSON document can hold. -/
inductive Json.Valid : Json → Prop
  | null : Valid .null
  | bool (b : Bool) : Valid (.bool b)
  | integer {n : Int} (low : -2 ^ 63 ≤ n) (high : n < 2 ^ 64) : Valid (.integer n)
  | float {x : Binary64} (finite : x.isFinite = true) : Valid (.float x)
  | string (s : String) : Valid (.string s)
  | array {items : List Json} (items_valid : ∀ v ∈ items, v.Valid) : Valid (.array items)
  | object {members : List (String × Json)} (distinct : (members.map Prod.fst).Nodup)
    (members_valid : ∀ m ∈ members, m.2.Valid) : Valid (.object members)

namespace Json

lemma Valid.items {items : List Json} (h : (Json.array items).Valid) : ∀ v ∈ items, v.Valid := by
  cases h with
  | array items_valid => exact items_valid

lemma Valid.distinct {members : List (String × Json)} (h : (Json.object members).Valid) :
    (members.map Prod.fst).Nodup := by
  cases h with
  | object distinct => exact distinct

lemma Valid.members {members : List (String × Json)} (h : (Json.object members).Valid) :
    ∀ m ∈ members, m.2.Valid := by
  cases h with
  | object _ members_valid => exact members_valid

end Json
end TypedSchema
