import TypedSchema.Proofs.Declaration.RequiredNames

/-!
# Cutting an object over a composition

The same record can be declared by a plain object and by a composition: the properties are cut, in
order, into those that the composition keeps for itself and those of its inline members, and the
required names are listed by the inline members, each by any of them (`ObjectSchema.CutInto`).
References among the members only add bases.

A plain object has its fields from its properties, a composition from the merge of its parts.  No
name is declared by two parts, so the merge meets no intersection and gives the properties back in
their order (`ObjectSchema.merge_of_nodup`), and a field looks at a list of required names only to
find its own name on it (`ObjectSchema.fieldsOf_congr`).  So both ways give the same fields, or the
same fault: `ObjectSchema.buildRecord_of_cutInto`.
-/

namespace TypedSchema
namespace ObjectSchema

/-- A composition that says what a plain object says.  Its own properties and those of its inline
members are, one behind the other, the properties of the object; any of these pieces may be empty.
A name is required if the list of an inline member says so, and a list that is omitted says
nothing. -/
structure CutInto (o composition : ObjectSchema) (members : List Member) : Prop where
  plain : o.allOf = none
  id : composition.id = o.id
  base : composition.base = o.base
  unlisted : composition.required = none
  allOf : composition.allOf = some members
  flat : ∀ inner, .inline inner ∈ members → inner.allOf = none
  pieces : composition.properties ++ (members.filterMap Member.inline?).flatMap properties =
    o.properties
  required : ∀ name, name ∈ o.required.getD [] ↔
    ∃ inner, .inline inner ∈ members ∧ name ∈ inner.required.getD []

variable {o composition : ObjectSchema} {members : List Member} {record : String}

/-! ## Fields -/

/-- Two objects that require the same names make the same fields of the same properties. -/
lemma fieldsOf_congr {p : ObjectSchema} (h : ∀ name, o.isRequired name = p.isRequired name)
    (entries : List (String × Schema)) : fieldsOf record o entries = fieldsOf record p entries := by
  induction entries with
  | nil => rfl
  | cons entry rest ih =>
    obtain ⟨name, s⟩ := entry
    rw [fieldsOf, fieldsOf, ih, h]

lemma outcome_fields :
    (o.fields record).outcome = (fieldsOf record o o.properties).outcome := by
  rw [fields, TracedBy.outcome_bind, outcome_warnUndeclared]
  rfl

/-! ## The parts of a composition -/

lemma allEntries_inlineObjects :
    allEntries (composition.inlineObjects members) =
      composition.properties ++ (members.filterMap Member.inline?).flatMap properties := by
  rw [allEntries, inlineObjects, List.flatMap_append]
  congr 1
  cases h : composition.properties <;> simp

lemma isComposed_of_mem_inlineObjects (h : o.CutInto composition members) :
    ∀ inner ∈ composition.inlineObjects members, inner.isComposed = false := by
  intro inner hinner
  rcases mem_inlineObjects.1 hinner with ⟨-, rfl⟩ | hmember
  · rfl
  · rw [isComposed, h.flat inner hmember]
    rfl

/-- The parts list the names that the object requires. -/
lemma exists_mem_required_iff (h : o.CutInto composition members) (name : String) :
    (∃ inner ∈ composition.inlineObjects members, name ∈ inner.required.getD []) ↔
      name ∈ o.required.getD [] := by
  rw [h.required]
  constructor
  · rintro ⟨inner, hinner, hname⟩
    rcases mem_inlineObjects.1 hinner with ⟨-, rfl⟩ | hmember
    · exact absurd hname List.not_mem_nil
    · exact ⟨inner, hmember, hname⟩
  · rintro ⟨inner, hmember, hname⟩
    exact ⟨inner, mem_inlineObjects.2 (.inr hmember), hname⟩

/-- What the parts are merged into. -/
def mergedParts (composition : ObjectSchema) (members : List Member) : ObjectSchema :=
  { properties := allEntries (composition.inlineObjects members)
    required := allRequired none (composition.inlineObjects members) }

lemma isRequired_mergedParts (h : o.CutInto composition members) (name : String) :
    (composition.mergedParts members).isRequired name = o.isRequired name := by
  rw [isRequired, isRequired, Bool.eq_iff_iff, List.contains_iff_mem, List.contains_iff_mem,
    mergedParts, mem_allRequired, ← exists_mem_required_iff h]
  simp

lemma properties_mergedParts (h : o.CutInto composition members) :
    (composition.mergedParts members).properties = o.properties := by
  rw [mergedParts, allEntries_inlineObjects, h.pieces]

/-- The merged parts have the fields of the object. -/
lemma outcome_fields_mergedParts (h : o.CutInto composition members) :
    ((composition.mergedParts members).fields record).outcome = (o.fields record).outcome := by
  rw [outcome_fields, outcome_fields, properties_mergedParts h,
    fieldsOf_congr (isRequired_mergedParts h)]

/-! ## Records -/

lemma merge_inlineObjects (hdistinct : (o.properties.map Prod.fst).Nodup)
    (h : o.CutInto composition members) (hne : composition.inlineObjects members ≠ []) :
    merge (composition.inlineObjects members) = .ok (composition.mergedParts members) := by
  refine merge_of_nodup hne (isComposed_of_mem_inlineObjects h) ?_
  have hpieces : allEntries (composition.inlineObjects members) = o.properties :=
    properties_mergedParts h
  rwa [hpieces]

/-- The composition has the fields of the object, or no fields for the same reason. -/
theorem outcome_recordFields_of_cutInto (hdistinct : (o.properties.map Prod.fst).Nodup)
    (h : o.CutInto composition members) :
    (composition.recordFields record).outcome = (o.recordFields record).outcome := by
  have hmerge := merge_inlineObjects hdistinct h
  have hfields : ((composition.mergedParts members).fields record).outcome =
      (o.fields record).outcome := outcome_fields_mergedParts h
  have hproperties := properties_mergedParts h
  rw [mergedParts] at hproperties
  unfold recordFields
  rw [h.allOf, h.plain, h.unlisted]
  dsimp only [Option.isSome_none]
  rw [if_neg Bool.false_ne_true]
  cases hobjects : composition.inlineObjects members with
  | nil =>
    -- without parts there are no properties on either side
    rw [hobjects] at hproperties
    rw [outcome_fields, ← hproperties]
    rfl
  | cons first rest =>
    rw [hobjects] at hmerge
    dsimp only
    rw [TracedBy.outcome_bind, TracedBy.outcome_quiet, hmerge (List.cons_ne_nil first rest),
      ← hfields]
    rfl

lemma baseNames_of_cutInto (h : o.CutInto composition members) :
    composition.baseNames =
      o.baseNames ++ (members.filterMap Member.target?).map localName := by
  rw [baseNames, baseNames, h.allOf, h.plain, h.base, Option.getD_some, Option.getD_none,
    List.filterMap_nil, List.append_nil, List.map_append]

/-- **Cutting an object over a composition changes nothing** but the bases, to which the references
among the members are added in their order. -/
theorem buildRecord_of_cutInto (hdistinct : (o.properties.map Prod.fst).Nodup)
    (h : o.CutInto composition members) :
    composition.buildRecord.outcome = o.buildRecord.outcome.map fun r =>
      { r with bases := r.bases ++ (members.filterMap Member.target?).map localName } := by
  simp only [buildRecord, TracedBy.outcome_bind, TracedBy.outcome_quiet, TracedBy.outcome_report,
    TracedBy.outcome_pure, h.id, outcome_recordFields_of_cutInto hdistinct h,
    baseNames_of_cutInto h]
  cases declaredName .object o.id with
  | error fault => rfl
  | ok name =>
    show ((o.recordFields name).outcome >>= _) = Except.map _ ((o.recordFields name).outcome >>= _)
    cases (o.recordFields name).outcome with
    | error fault => rfl
    | ok fields => rfl

/-- An object with a base, and with a required name that is none of its properties. -/
def pet : ObjectSchema :=
  { id := some "#Pet"
    base := some "#Animal"
    properties := [("name", .ofKind .string), ("age", .multiType [.integer, .null]),
      ("friends", .array [.ref "#Pet"])]
    required := some ["name", "chip", "age"] }

/-- The members of a composition that declares the same: a reference, a list without properties, the
last two properties, and another reference. -/
def petMembers : List Member :=
  [.ref "#Named", .inline { required := some ["age"] },
    .inline
      { properties := [("age", .multiType [.integer, .null]), ("friends", .array [.ref "#Pet"])]
        required := some ["chip", "name"] },
    .ref "zoo.json#/definitions/Chipped"]

/-- The composition. -/
def composedPet : ObjectSchema :=
  { id := some "#Pet"
    base := some "#Animal"
    properties := [("name", .ofKind .string)]
    allOf := some petMembers }

lemma pet_cutInto : pet.CutInto composedPet petMembers where
  plain := rfl
  id := rfl
  base := rfl
  unlisted := rfl
  allOf := rfl
  flat := by simp [petMembers]
  pieces := rfl
  required name := by
    simp [pet, petMembers]
    tauto

theorem buildRecord_of_cutInto_pet :
    (pet.properties.map Prod.fst).Nodup ∧ pet.CutInto composedPet petMembers ∧
      ∃ r, pet.buildRecord.outcome = .ok r ∧ r.bases = ["Animal"] ∧
        composedPet.buildRecord.outcome =
          .ok { r with bases := ["Animal", "Named", "Chipped"] } := by
  have hdistinct : (pet.properties.map Prod.fst).Nodup := by decide
  refine ⟨hdistinct, pet_cutInto, _, rfl, rfl, ?_⟩
  exact buildRecord_of_cutInto hdistinct pet_cutInto

end ObjectSchema
end TypedSchema
