import TypedSchema.Proofs.Induction

/-!
# Comparing JSON values

Values are compared by recursion on both at once (`Json.same`), so whether two are equal can be
decided by evaluation.  Members are compared in their order.
-/

namespace TypedSchema
namespace Json

mutual

/-- Whether two values are equal. -/
def same : Json → Json → Bool
  | .null, .null => true
  | .bool a, .bool b => a == b
  | .integer m, .integer n => m == n
  | .float x, .float y => decide (x = y)
  | .string s, .string t => s == t
  | .array items, .array others => sameItems items others
  | .object members, .object others => sameMembers members others
  | _, _ => false

/-- Whether two lists of values are equal. -/
def sameItems : List Json → List Json → Bool
  | [], [] => true
  | v :: items, w :: others => same v w && sameItems items others
  | _, _ => false

/-- Whether two lists of members are equal. -/
def sameMembers : List (String × Json) → List (String × Json) → Bool
  | [], [] => true
  | (key, v) :: members, (other, w) :: others =>
    key == other && same v w && sameMembers members others
  | _, _ => false

end

lemma sameItems_iff {items : List Json} (h : ∀ v ∈ items, ∀ w, same v w = true ↔ v = w)
    (others : List Json) : sameItems items others = true ↔ items = others := by
  induction items generalizing others with
  | nil => cases others <;> simp [sameItems]
  | cons v items ih =>
    obtain ⟨hfirst, hrest⟩ := List.forall_mem_cons.1 h
    cases others with
    | nil => simp [sameItems]
    | cons w others => rw [sameItems, Bool.and_eq_true, hfirst, ih hrest, List.cons.injEq]

lemma sameMembers_iff {members : List (String × Json)}
    (h : ∀ m ∈ members, ∀ w, same m.2 w = true ↔ m.2 = w) (others : List (String × Json)) :
    sameMembers members others = true ↔ members = others := by
  induction members generalizing others with
  | nil => cases others <;> simp [sameMembers]
  | cons m members ih =>
    obtain ⟨hfirst, hrest⟩ := List.forall_mem_cons.1 h
    cases others with
    | nil => simp [sameMembers]
    | cons n others =>
      rw [sameMembers, Bool.and_eq_true, Bool.and_eq_true, hfirst, ih hrest, beq_iff_eq,
        List.cons.injEq, Prod.ext_iff]

theorem same_iff (v w : Json) : same v w = true ↔ v = w := by
  refine Json.induction (P := fun v => ∀ w, same v w = true ↔ v = w) ?null ?bool ?integer ?float
    ?string ?array ?object v w
  case null => rintro ⟨⟩ <;> simp [same]
  case bool => rintro a ⟨⟩ <;> simp [same]
  case integer => rintro n ⟨⟩ <;> simp [same]
  case float => rintro x ⟨⟩ <;> simp [same]
  case string => rintro s ⟨⟩ <;> simp [same]
  case array => rintro items ih ⟨⟩ <;> simp [same, sameItems_iff ih]
  case object => rintro members ih ⟨⟩ <;> simp [same, sameMembers_iff ih]

instance : DecidableEq Json := fun v w => decidable_of_iff _ (same_iff v w)

end Json
end TypedSchema
