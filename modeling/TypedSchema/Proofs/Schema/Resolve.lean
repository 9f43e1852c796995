import TypedSchema.Proofs.Induction
import TypedSchema.Proofs.Outcome
import TypedSchema.Schema.Resolve

/-!
# Resolution, read as resolution of the parts

An array and a choice combine the types of their items and alternatives to a union, which an array
with one item leaves out (`Schema.resolve_array_eq_ok`, `Schema.resolve_anyOf_eq_ok`).  What is
reported on the way does not matter here (`Schema.outcome_resolved`).

`Schema.resolve_induction` is the induction over the schemas that denote a type.  It has a case for
each way to one, and hands over the type that each part denotes.
-/

namespace TypedSchema
namespace Schema

@[simp] lemma outcome_resolved (shape : Shape) (ty : Traced Ty) :
    (resolved shape ty).outcome = ty.outcome := by
  rw [resolved, TracedBy.outcome_bind]
  cases ty.outcome <;> rfl

/-- The type of an arm of a union; not every schema can be one. -/
def armType (arm : Schema) : Except Fault Ty :=
  match armFault? arm with
  | some cause => .error (.unsupported [] cause)
  | none => (resolve arm).outcome

lemma resolve_of_armType {arm : Schema} {t : Ty} (h : armType arm = .ok t) :
    (resolve arm).outcome = .ok t := by
  unfold armType at h
  split at h
  · cases h
  · exact h

lemma outcome_resolveArms_cons (arm : Schema) (rest : List Schema) :
    (resolveArms (arm :: rest)).outcome = do
      let ty ← armType arm
      let tys ← (resolveArms rest).outcome
      return ty :: tys := by
  rw [resolveArms, armType]
  cases armFault? arm with
  | some cause => rfl
  | none =>
    simp only [TracedBy.outcome_bind, TracedBy.outcome_pure]
    rfl

/-- Arms are resolved one by one. -/
lemma resolveArms_iff {arms : List Schema} {tys : List Ty} :
    (resolveArms arms).outcome = .ok tys ↔
      List.Forall₂ (fun s t => armType s = .ok t) arms tys := by
  induction arms generalizing tys with
  | nil => cases tys <;> simp [resolveArms]
  | cons arm rest ih => cases tys <;> simp [outcome_resolveArms_cons, ih]

/-- The types of arms are the types that the arms denote, in order. -/
lemma resolveArms_eq_ok {arms : List Schema} {tys : List Ty}
    (h : (resolveArms arms).outcome = .ok tys) :
    List.Forall₂ (fun s t => (resolve s).outcome = .ok t) arms tys :=
  (resolveArms_iff.1 h).imp fun _ _ => resolve_of_armType

/-! ## Shapes without parts -/

lemma objectType_eq (o : ObjectSchema) :
    (∃ name, objectType o = .named name) ∨ objectType o = .anyObject := by
  unfold objectType
  split
  · split
    · exact .inl ⟨_, rfl⟩
    · exact .inr rfl
  · exact .inr rfl

/-! ## Shapes with parts -/

/-- The type of a list of types is the union of its kinds. -/
lemma outcome_resolve_multiType (kinds : List Kind) :
    (resolve (.multiType kinds)).outcome = Ty.union .noKinds (kinds.map .primitive) := by
  rw [resolve, outcome_resolved, TracedBy.outcome_quiet]

/-- The type of a choice is the union of the types of its alternatives. -/
lemma outcome_resolve_anyOf (alternatives : List Schema) :
    (resolve (.anyOf alternatives)).outcome =
      (resolveArms alternatives).outcome >>= Ty.union .noAlternatives := by
  simp only [resolve, outcome_resolved, TracedBy.outcome_bind, TracedBy.outcome_quiet]

/-- An array with one item is a list of the type of that item. -/
lemma outcome_resolve_item (item : Schema) :
    (resolve (.array [item])).outcome = (resolve item).outcome.map .listOf := by
  simp only [resolve, outcome_resolved, TracedBy.outcome_bind, TracedBy.outcome_pure]
  cases (resolve item).outcome <;> rfl

/-- An array with several items is a list of what a choice among them is. -/
lemma outcome_resolve_items {items : List Schema} (h : 2 ≤ items.length) :
    (resolve (.array items)).outcome =
      ((resolveArms items).outcome >>= Ty.union .noAlternatives).map .listOf := by
  match items, h with
  | item :: next :: rest, _ =>
    simp only [resolve, outcome_resolved, TracedBy.outcome_bind, TracedBy.outcome_quiet,
      TracedBy.outcome_pure]
    cases (resolveArms (item :: next :: rest)).outcome with
    | error fault => rfl
    | ok arms =>
      show (Ty.union .noAlternatives arms >>= _) = (Ty.union .noAlternatives arms).map _
      cases Ty.union .noAlternatives arms <;> rfl

/-- The element type of an array is the type of its only item, or the union of the types of its
items. -/
lemma resolve_array_eq_ok {items : List Schema} {t : Ty}
    (h : (resolve (.array items)).outcome = .ok t) :
    ∃ (arms : List Ty) (element : Ty),
      List.Forall₂ (fun s u => (resolve s).outcome = .ok u) items arms ∧ t = .listOf element ∧
        (arms = [element] ∨ Ty.union .noAlternatives arms = .ok element) := by
  match items with
  | [] => cases h
  | [item] =>
    rw [outcome_resolve_item, map_eq_ok] at h
    obtain ⟨element, helement, rfl⟩ := h
    exact ⟨[element], element, .cons helement .nil, rfl, .inl rfl⟩
  | item :: next :: rest =>
    have htwo : 2 ≤ (item :: next :: rest).length := Nat.le_add_left 2 rest.length
    rw [outcome_resolve_items htwo, map_eq_ok] at h
    obtain ⟨element, h, rfl⟩ := h
    obtain ⟨arms, harms, helement⟩ := bind_eq_ok.1 h
    exact ⟨arms, element, resolveArms_eq_ok harms, rfl, .inr helement⟩

/-- The type of a choice is the union of the types of its alternatives. -/
lemma resolve_anyOf_eq_ok {alternatives : List Schema} {t : Ty}
    (h : (resolve (.anyOf alternatives)).outcome = .ok t) :
    ∃ arms : List Ty, List.Forall₂ (fun s u => (resolve s).outcome = .ok u) alternatives arms ∧
      Ty.union .noAlternatives arms = .ok t := by
  rw [outcome_resolve_anyOf, bind_eq_ok] at h
  obtain ⟨arms, harms, ht⟩ := h
  exact ⟨arms, resolveArms_eq_ok harms, ht⟩

/-! ## Induction -/

/-- Arms that have a property together with their types have it one by one. -/
lemma forall₂_armType {P : Schema → Ty → Prop} {ss : List Schema} {arms : List Ty}
    (hss : ∀ s ∈ ss, ∀ t, (resolve s).outcome = .ok t → P s t)
    (h : (resolveArms ss).outcome = .ok arms) :
    List.Forall₂ (fun s u => armType s = .ok u ∧ P s u) ss arms := by
  refine ((List.forall₂_and_left _ _).2 ⟨hss, resolveArms_iff.1 h⟩).imp ?_
  rintro s u ⟨hs, hu⟩
  exact ⟨hu, hs u (resolve_of_armType hu)⟩

/-- Induction over the schemas that denote a type. -/
theorem resolve_induction {P : Schema → Ty → Prop}
    (object : ∀ o : ObjectSchema, o.isComposed = false → P (.object o) (objectType o))
    (primitive : ∀ p, P (.primitive p) (primitiveType p))
    (ref : ∀ target, P (.ref target) (.named (localName target)))
    (multiType : ∀ kinds t, Ty.union .noKinds (kinds.map .primitive) = .ok t →
      P (.multiType kinds) t)
    (anyOf : ∀ alternatives arms t,
      List.Forall₂ (fun s u => armType s = .ok u ∧ P s u) alternatives arms →
      Ty.union .noAlternatives arms = .ok t → P (.anyOf alternatives) t)
    (single : ∀ item element, P item element → P (.array [item]) (.listOf element))
    (several : ∀ items arms element, 2 ≤ items.length →
      List.Forall₂ (fun s u => armType s = .ok u ∧ P s u) items arms →
      Ty.union .noAlternatives arms = .ok element → P (.array items) (.listOf element)) :
    ∀ s t, (resolve s).outcome = .ok t → P s t := by
  refine (Schema.induction (Q := fun _ => True) ?object ?array ?primitive ?multiType ?anyOf ?ref
    fun _ _ _ => trivial).1
  case object =>
    intro o _ t h
    rw [resolve] at h
    split at h
    · cases h
    · rename_i hcomposed
      rw [outcome_resolved, TracedBy.outcome_pure] at h
      cases h
      exact object o (Bool.eq_false_iff.2 hcomposed)
  case array =>
    intro items ih t h
    match items with
    | [] => cases h
    | [item] =>
      rw [outcome_resolve_item, map_eq_ok] at h
      obtain ⟨element, helement, rfl⟩ := h
      exact single item element (ih item List.mem_cons_self element helement)
    | item :: next :: rest =>
      have htwo : 2 ≤ (item :: next :: rest).length := Nat.le_add_left 2 rest.length
      rw [outcome_resolve_items htwo, map_eq_ok] at h
      obtain ⟨element, h, rfl⟩ := h
      obtain ⟨arms, harms, helement⟩ := bind_eq_ok.1 h
      exact several _ arms element htwo (forall₂_armType ih harms) helement
  case primitive =>
    intro p t h
    rw [resolve, outcome_resolved, TracedBy.outcome_pure] at h
    cases h
    exact primitive p
  case multiType =>
    intro kinds t h
    rw [outcome_resolve_multiType] at h
    exact multiType kinds t h
  case anyOf =>
    intro alternatives ih t h
    rw [outcome_resolve_anyOf, bind_eq_ok] at h
    obtain ⟨arms, harms, ht⟩ := h
    exact anyOf alternatives arms t (forall₂_armType ih harms) ht
  case ref =>
    intro target t h
    rw [resolve, outcome_resolved, TracedBy.outcome_pure] at h
    cases h
    exact ref target

end Schema
end TypedSchema
