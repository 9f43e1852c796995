import TypedSchema.Proofs.Members
import TypedSchema.Proofs.Schema.Meaning
import TypedSchema.Proofs.Schema.Resolve

/-!
# A schema and the type that it denotes

The type of a schema accepts every value of the schema, under every interpretation, and no other
value if the schema has no object at a type position (`Schema.resolve_accepts`).  An object is the
one exception because its type says nothing about properties: it is any object, or the declared type
that it refers to.

Both halves follow one induction over schemas.  Its step for alternatives and items is
`Ty.accepts_of_union`: taking members out of unions, dropping repetitions and giving up a union of
one type leave the accepted values as they are.
-/

namespace TypedSchema

variable {I : Interpretation}

/-! ## Unions -/

lemma Ty.exists_members_accepts {t : Ty} {v : Json} :
    (∃ u ∈ t.members, u.Accepts I v) ↔ t.Accepts I v := by
  cases t with
  | unionOf members => exact Ty.someAccepts_iff.symm
  | _ => simp [Ty.members]

/-- Dropping repetitions from a list of types leaves its values as they are. -/
lemma Ty.exists_firstOccurrences_accepts {ts : List Ty} {v : Json} :
    (∃ t ∈ firstOccurrences ts, t.Accepts I v) ↔ ∃ t ∈ ts, t.Accepts I v := by
  constructor
  · rintro ⟨t, ht, hv⟩
    exact ⟨t, mem_of_mem_firstOccurrences ht, hv⟩
  · rintro ⟨t, ht, hv⟩
    rcases exists_mem_foldl_appendNew [] ht with hmem | ⟨u, hu, htu⟩
    · exact ⟨t, hmem, hv⟩
    · exact ⟨u, hu, Ty.accepts_of_beq I t u htu v hv⟩

/-- A union accepts the values of its arms, and no others. -/
theorem Ty.accepts_of_union {cause : EmptyCause} {arms : List Ty} {t : Ty}
    (h : Ty.union cause arms = .ok t) (v : Json) :
    t.Accepts I v ↔ ∃ arm ∈ arms, arm.Accepts I v := by
  have harms : (∃ u ∈ firstOccurrences (arms.flatMap Ty.members), u.Accepts I v) ↔
      ∃ arm ∈ arms, arm.Accepts I v := by
    rw [Ty.exists_firstOccurrences_accepts]
    constructor
    · rintro ⟨u, hu, hv⟩
      obtain ⟨arm, harm, hmem⟩ := List.mem_flatMap.1 hu
      exact ⟨arm, harm, Ty.exists_members_accepts.1 ⟨u, hmem, hv⟩⟩
    · rintro ⟨arm, harm, hv⟩
      obtain ⟨u, hu, huv⟩ := Ty.exists_members_accepts.2 hv
      exact ⟨u, List.mem_flatMap.2 ⟨arm, harm, hu⟩, huv⟩
  rw [← harms]
  unfold Ty.union at h
  split at h
  case h_1 => cases h
  case h_2 u hu =>
    cases h
    simp [hu]
  case h_3 members =>
    cases h
    exact Ty.someAccepts_iff

namespace Schema

/-! ## Objects at type positions -/

mutual

/-- Whether a schema has no object at a type position: none in its place, and none among
alternatives and items. -/
def ObjectFree : Schema → Prop
  | .object _ => False
  | .array items => AllObjectFree items
  | .anyOf alternatives => AllObjectFree alternatives
  | .primitive _ | .multiType _ | .ref _ => True

/-- Whether no schema of a list has an object at a type position. -/
def AllObjectFree : List Schema → Prop
  | [] => True
  | s :: rest => s.ObjectFree ∧ AllObjectFree rest

end

/-! ## The simulation -/

/-- A type stands for a schema: it accepts the values of the schema, and no others if the schema has
no object at a type position. -/
def StandsFor (I : Interpretation) (t : Ty) (s : Schema) : Prop :=
  (∀ v, s.Accepts I.byLocalName v → t.Accepts I v) ∧
    (s.ObjectFree → ∀ v, t.Accepts I v → s.Accepts I.byLocalName v)

/-- If the types of all schemas of a list stand for them, they accept together what the schemas
accept together. -/
lemma exists_accepts_of_standsFor {ss : List Schema} {ts : List Ty}
    (hss : ∀ s ∈ ss, ∀ t, (resolve s).outcome = .ok t → StandsFor I t s)
    (h : List.Forall₂ (fun s t => (resolve s).outcome = .ok t) ss ts) :
    (∀ v, (∃ s ∈ ss, s.Accepts I.byLocalName v) → ∃ t ∈ ts, t.Accepts I v) ∧
      (AllObjectFree ss → ∀ v, (∃ t ∈ ts, t.Accepts I v) →
        ∃ s ∈ ss, s.Accepts I.byLocalName v) := by
  induction h with
  | nil => simp
  | cons hst _ ih =>
    obtain ⟨hs, hss⟩ := List.forall_mem_cons.1 hss
    refine ⟨fun v hv => ?_, fun hfree v hv => ?_⟩
    · rw [List.exists_mem_cons_iff] at hv ⊢
      exact hv.imp ((hs _ hst).1 v) ((ih hss).1 v)
    · rw [List.exists_mem_cons_iff] at hv ⊢
      exact hv.imp ((hs _ hst).2 hfree.1 v) ((ih hss).2 hfree.2 v)

lemma standsFor_objectType {o : ObjectSchema} (h : ¬o.isComposed) :
    StandsFor I (objectType o) (.object o) := by
  refine ⟨fun v hv => ?_, fun hfree => hfree.elim⟩
  obtain ⟨id, base, properties, required, allOf⟩ := o
  rw [Accepts, ObjectSchema.Accepts.eq_def] at hv
  obtain ⟨members, rfl, hbase, -⟩ := hv
  unfold objectType
  split
  case h_1 target hsome =>
    split
    · exact hbase target hsome
    · exact ⟨members, rfl⟩
  case h_2 => exact ⟨members, rfl⟩

lemma standsFor_primitiveType (p : PrimitiveSchema) :
    StandsFor I (primitiveType p) (.primitive p) := by
  have h : ∀ v, (primitiveType p).Accepts I v ↔ (Schema.primitive p).Accepts I.byLocalName v := by
    intro v
    unfold primitiveType
    by_cases henum : p.isEnumerable
    · rw [if_pos henum, Accepts, if_pos henum, Ty.Accepts]
    · rw [if_neg henum, Accepts, if_neg henum, Ty.Accepts]
      rfl
  exact ⟨fun v => (h v).2, fun _ v => (h v).1⟩

lemma standsFor_multiType {kinds : List Kind} {t : Ty}
    (h : Ty.union .noKinds (kinds.map .primitive) = .ok t) :
    StandsFor I t (.multiType kinds) := by
  have hiff : ∀ v, t.Accepts I v ↔ (Schema.multiType kinds).Accepts I.byLocalName v := by
    intro v
    rw [Ty.accepts_of_union h, Schema.Accepts]
    simp only [List.mem_map, exists_exists_and_eq_and]
    rfl
  exact ⟨fun v => (hiff v).2, fun _ v => (hiff v).1⟩

/-- The type that a schema denotes stands for it, under every interpretation. -/
lemma standsFor_resolve (I : Interpretation) :
    ∀ s : Schema, ∀ t, (resolve s).outcome = .ok t → StandsFor I t s := by
  refine (Schema.induction (Q := fun _ => True) ?object ?array ?primitive ?multiType ?anyOf ?ref
    fun _ _ _ => trivial).1
  case object =>
    intro o _ t h
    rw [resolve] at h
    split at h
    · cases h
    · rename_i hcomposed
      rw [outcome_resolved, TracedBy.outcome_pure] at h
      cases h
      exact standsFor_objectType hcomposed
  case array =>
    intro items ih t h
    obtain ⟨arms, element, harms, rfl, hunion⟩ := resolve_array_eq_ok h
    have hall := exists_accepts_of_standsFor ih harms
    have helement : ∀ w, element.Accepts I w ↔ ∃ arm ∈ arms, arm.Accepts I w := by
      rcases hunion with rfl | hunion
      · exact fun w => by simp
      · exact Ty.accepts_of_union hunion
    refine ⟨fun v hv => ?_, fun hfree v hv => ?_⟩
    · obtain ⟨values, rfl, hvalues⟩ := hv
      exact ⟨values, rfl, fun w hw =>
        (helement w).2 (hall.1 w (someAccepts_iff.1 (hvalues w hw)))⟩
    · obtain ⟨values, rfl, hvalues⟩ := hv
      exact ⟨values, rfl, fun w hw =>
        someAccepts_iff.2 (hall.2 hfree w ((helement w).1 (hvalues w hw)))⟩
  case primitive =>
    intro p t h
    rw [resolve, outcome_resolved, TracedBy.outcome_pure] at h
    cases h
    exact standsFor_primitiveType p
  case multiType =>
    intro kinds t h
    rw [resolve, outcome_resolved, TracedBy.outcome_quiet] at h
    exact standsFor_multiType h
  case anyOf =>
    intro alternatives ih t h
    obtain ⟨arms, harms, hunion⟩ := resolve_anyOf_eq_ok h
    have ht := Ty.accepts_of_union (I := I) hunion
    have hall := exists_accepts_of_standsFor ih harms
    exact ⟨fun v hv => (ht v).2 (hall.1 v (someAccepts_iff.1 hv)),
      fun hfree v hv => someAccepts_iff.2 (hall.2 hfree v ((ht v).1 hv))⟩
  case ref =>
    intro target t h
    rw [resolve, outcome_resolved, TracedBy.outcome_pure] at h
    cases h
    exact ⟨fun v hv => hv, fun _ v hv => hv⟩

/-- The type that a schema denotes accepts every value of the schema, and no other value if the
schema has no object at a type position. -/
theorem resolve_accepts (I : Interpretation) {s : Schema} {t : Ty}
    (h : s.resolve.outcome = .ok t) :
    {v | s.Accepts I.byLocalName v} ⊆ {v | t.Accepts I v} ∧
      (s.ObjectFree → {v | s.Accepts I.byLocalName v} = {v | t.Accepts I v}) := by
  obtain ⟨hsub, hsup⟩ := standsFor_resolve I s t h
  exact ⟨hsub, fun hfree => Set.Subset.antisymm hsub (hsup hfree)⟩

/-- A choice whose arms repeat one another: two kinds, one of them again, lists of a listed value,
and a reference. -/
def choice : Schema :=
  .anyOf [.multiType [.integer, .string], .primitive ⟨none, .string, none⟩,
    .array [.primitive ⟨none, .boolean, some [.boolean true]⟩], .ref "#/definitions/Pet"]

/-- Every name and every kind as its own spelling, so that no two of them have values in common. -/
def spelled : Interpretation where
  ref name := {.string name}
  kind k := {.string k.keyword}

theorem resolve_accepts_choice :
    {v | choice.Accepts spelled.byLocalName v} =
      {v | (Ty.unionOf [.primitive .integer, .primitive .string,
        .listOf (.literalEnum [.boolean true]), .named "Pet"]).Accepts spelled v} := by
  have hfree : choice.ObjectFree := by simp [choice, ObjectFree, AllObjectFree]
  exact (resolve_accepts spelled rfl).2 hfree

end Schema
end TypedSchema
