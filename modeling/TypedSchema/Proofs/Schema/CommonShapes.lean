import TypedSchema.Proofs.Schema.Intersection

/-!
# The intersection of two schemas, up to order

`Schema.intersect a b` goes through what `a` offers and keeps the first shape of each class that `b`
offers too.  Going through `b` instead gives the same shapes in another order, and going through `b`
afterwards adds nothing, so the definition by two passes, one through each schema, comes to the same
(`Schema.commonInTwoPasses_eq`).  Both rest on `==` being an equivalence: a shape that is found on
one side stands for everything that it is equal to on the other.

`Schema.intersect_up_to_order` puts this together, with what it means for the schema that the common
shapes are made into.
-/

namespace TypedSchema
namespace Schema

/-- What a schema offers that is not a reference: its alternatives, one primitive for each kind of a
list of types, or itself. -/
def offered : Schema → List Schema
  | .anyOf alternatives => alternatives
  | .multiType kinds => kinds.map ofKind
  | schema => [schema]

lemma alternatives_eq_offered {s : Schema} (h : ∀ target, s ≠ .ref target) :
    s.alternatives = .ok s.offered := by
  cases s with
  | ref target => exact absurd rfl (h target)
  | _ => rfl

/-! ## Two passes -/

/-- One pass through some shapes: those that are among `others` are included, unless an equal shape
is included already. -/
def includeCommon (included shapes others : List Schema) : List Schema :=
  shapes.foldl (fun included x =>
    if others.contains x && !included.contains x then included ++ [x] else included) included

/-- The shapes of `as` that are among `bs`, and then the shapes of `bs` that are among `as` and not
yet included. -/
def commonInTwoPasses (as bs : List Schema) : List Schema :=
  includeCommon (includeCommon [] as bs) bs as

lemma includeCommon_eq (included shapes others : List Schema) :
    includeCommon included shapes others =
      (shapes.filter others.contains).foldl appendNew included := by
  rw [includeCommon, List.foldl_filter]
  congr 1
  funext found x
  rw [appendNew]
  cases others.contains x <;> cases found.contains x <;> rfl

/-- The second pass adds nothing. -/
theorem commonInTwoPasses_eq (as bs : List Schema) : commonInTwoPasses as bs = common as bs := by
  have hfirst : includeCommon [] as bs = common as bs := includeCommon_eq [] as bs
  rw [commonInTwoPasses, includeCommon_eq, hfirst]
  apply foldl_appendNew_of_contains
  intro x hx
  obtain ⟨hbs, has⟩ := List.mem_filter.1 hx
  have hself : bs.contains x = true := List.contains_iff_exists_mem_beq.2 ⟨x, hbs, BEq.rfl⟩
  rw [contains_common, has, hself]
  rfl

/-! ## Both orders -/

lemma common_eq_firstsWhere (as bs : List Schema) : common as bs = firstsWhere bs.contains as :=
  firstOccurrences_filter (fun _ _ hxy => List.contains_congr hxy) as

lemma pairwise_common (as bs : List Schema) :
    (common as bs).Pairwise fun x y => (x == y) = false :=
  pairwise_firstOccurrences _

/-- Common shapes are the same, whichever side they are taken from. -/
theorem sameValues_common_comm (as bs : List Schema) :
    SameValues (common as bs) (common bs as) := by
  refine rel_of_contains_iff (pairwise_common as bs) (pairwise_common bs as) fun x => ?_
  rw [contains_common, contains_common, Bool.and_comm]

/-- **An intersection consists of the common shapes, and depends on the order of its operands only
in the order of its shapes.** -/
theorem intersect_up_to_order (a b : Schema) :
    ((∀ target, a ≠ .ref target) → (∀ target, b ≠ .ref target) →
      ∃ shapes others, a.intersect b = .ok shapes ∧ b.intersect a = .ok others ∧
        shapes = firstsWhere b.offered.contains a.offered ∧ shapes.Sublist a.offered ∧
        (shapes.Pairwise fun x y => (x == y) = false) ∧
        shapes = commonInTwoPasses a.offered b.offered ∧ SameValues shapes others) ∧
    ((∃ r, a.intersection b = .ok r) ↔ ∃ r, b.intersection a = .ok r) ∧
    ∀ r r', a.intersection b = .ok r → b.intersection a = .ok r' → (r == r') = true := by
  have hmem : ∀ d, d ∈ [a, b] ↔ d ∈ [b, a] := fun d => (List.Perm.swap b a []).mem_iff
  obtain ⟨hmeets, hok⟩ := intersection_pair a b
  obtain ⟨hmeets', hok'⟩ := intersection_pair b a
  refine ⟨fun ha hb => ?shapes, ⟨?forward, ?backward⟩, ?results⟩
  case shapes =>
    have has := alternatives_eq_offered ha
    have hbs := alternatives_eq_offered hb
    have hshapes : a.intersect b = .ok (common a.offered b.offered) := by
      rw [intersect, has, hbs]
      rfl
    have hothers : b.intersect a = .ok (common b.offered a.offered) := by
      rw [intersect, has, hbs]
      rfl
    refine ⟨_, _, hshapes, hothers, common_eq_firstsWhere _ _, ?_, pairwise_common _ _,
      (commonInTwoPasses_eq _ _).symm, sameValues_common_comm _ _⟩
    rw [common_eq_firstsWhere]
    exact firstsWhere_sublist _ _
  case forward =>
    rintro ⟨r, hr⟩
    obtain ⟨x, hx⟩ := (hmeets r hr).haveCommonShape
    exact hok' ⟨x, fun d hd => hx d ((hmem d).2 hd)⟩
  case backward =>
    rintro ⟨r, hr⟩
    obtain ⟨x, hx⟩ := (hmeets' r hr).haveCommonShape
    exact hok ⟨x, fun d hd => hx d ((hmem d).1 hd)⟩
  case results => exact fun r r' hr hr' => (hmeets r hr).beq hmem (hmeets' r' hr')

/-- Alternatives that repeat one another. -/
def repetitive : Schema :=
  .anyOf [.ofKind .string, .array [.ref "#Pet"], .ofKind .integer, .ofKind .string]

theorem intersect_up_to_order_repetitive :
    ∃ others, (Schema.multiType [.integer, .null, .string]).intersect repetitive = .ok others ∧
      SameValues [.ofKind .string, .ofKind .integer] others := by
  obtain ⟨shapes, others, hshapes, hothers, -, -, -, -, hsame⟩ :=
    (intersect_up_to_order repetitive (.multiType [.integer, .null, .string])).1 nofun nofun
  have hfirst : repetitive.intersect (.multiType [.integer, .null, .string]) =
      .ok [.ofKind .string, .ofKind .integer] := rfl
  obtain rfl := Except.ok.inj (hshapes.symm.trans hfirst)
  exact ⟨others, hothers, hsame⟩

end Schema
end TypedSchema
