import TypedSchema.Schema.Basic

/-!
# Schema/Equality — schemas that differ only in order

`a == b` compares alternatives as a collection in which order does not count but repetition does,
properties by name, and required names as sets.  The order of array items, of enumerated values, of
type lists and of `allOf` members counts.

Collections are compared by taking each entry of the left one out of the right one (`eraseFirst?`).
Every call is on a part of the left schema, so the comparison recurses on its structure.
-/

namespace TypedSchema

/-- The list without its first entry that satisfies `p`, if there is one. -/
def eraseFirst? {α : Type} (p : α → Bool) : List α → Option (List α)
  | [] => none
  | x :: rest => if p x then some rest else (eraseFirst? p rest).map (x :: ·)

/-- Whether two lists have the same members. -/
def sameMembers (a b : List String) : Bool := a.all b.contains && b.all a.contains

/-- Whether two required lists are both omitted or have the same members. -/
def sameRequired : Option (List String) → Option (List String) → Bool
  | none, none => true
  | some a, some b => sameMembers a b
  | _, _ => false

/-- Equality of scalar schemas. -/
def PrimitiveSchema.same (a b : PrimitiveSchema) : Bool :=
  a.id == b.id && a.kind == b.kind && a.enum == b.enum

mutual

/-- Equality of schemas up to order. -/
def Schema.same : Schema → Schema → Bool
  | .object a, .object b => ObjectSchema.same a b
  | .array a, .array b => Schema.sameItems a b
  | .primitive a, .primitive b => a.same b
  | .multiType a, .multiType b => a == b
  | .anyOf a, .anyOf b => Schema.sameAlternatives a b
  | .ref a, .ref b => a == b
  | _, _ => false
  termination_by structural a => a

/-- Equality of object schemas up to order. -/
def ObjectSchema.same : ObjectSchema → ObjectSchema → Bool
  | ⟨id, base, properties, required, allOf⟩, b =>
    id == b.id && base == b.base && sameRequired required b.required
      && Schema.sameProperties properties b.properties && Member.sameOption allOf b.allOf
  termination_by structural a => a

/-- Equality of `allOf` members. -/
def Member.same : Member → Member → Bool
  | .ref a, .ref b => a == b
  | .inline a, .inline b => ObjectSchema.same a b
  | _, _ => false
  termination_by structural a => a

/-- Both omitted, or equal member by member. -/
def Member.sameOption : Option (List Member) → Option (List Member) → Bool
  | none, none => true
  | some a, some b => Member.sameList a b
  | _, _ => false
  termination_by structural a => a

/-- Equality member by member. -/
def Member.sameList : List Member → List Member → Bool
  | [], [] => true
  | x :: xs, y :: ys => Member.same x y && Member.sameList xs ys
  | _, _ => false
  termination_by structural a => a

/-- Equality item by item. -/
def Schema.sameItems : List Schema → List Schema → Bool
  | [], [] => true
  | x :: xs, y :: ys => Schema.same x y && Schema.sameItems xs ys
  | _, _ => false
  termination_by structural a => a

/-- Equality of alternatives as collections. -/
def Schema.sameAlternatives : List Schema → List Schema → Bool
  | [], ys => ys.isEmpty
  | x :: xs, ys =>
    match eraseFirst? (Schema.same x) ys with
    | none => false
    | some rest => Schema.sameAlternatives xs rest
  termination_by structural a => a

/-- Equality of properties by name. -/
def Schema.sameProperties : List (String × Schema) → List (String × Schema) → Bool
  | [], ys => ys.isEmpty
  | (name, x) :: xs, ys =>
    match eraseFirst? (fun entry => entry.1 == name && Schema.same x entry.2) ys with
    | none => false
    | some rest => Schema.sameProperties xs rest
  termination_by structural a => a

end

instance : BEq Schema := ⟨Schema.same⟩
instance : BEq ObjectSchema := ⟨ObjectSchema.same⟩
instance : BEq Member := ⟨Member.same⟩

end TypedSchema
