import TypedSchema.Proofs.Declaration.Module
import TypedSchema.Proofs.Schema.Equivalence
import TypedSchema.Proofs.Schema.MergeCongruence

/-!
# Equal schemas declare equivalent records

The order of properties is that of the fields, so records of equal schemas can list their fields in
different orders.  Apart from that, and from types that are only equivalent, they are the same
(`Record.Equivalent`).  `Schema.declarations_equivalent` says so, together with what it rests on,
that equal schemas denote equivalent types.

The properties of an object schema are a map, so their names are distinct.  The list of entries that
stands for it here does not say so by itself; `ObjectSchema.NamesDistinct` does, for the properties
that make the fields of a record.
-/

namespace TypedSchema

/-- Two fields of one name that are both required or not, with equivalent types. -/
structure Field.Equivalent (f g : Field) : Prop where
  name : f.name = g.name
  required : f.required = g.required
  ty : f.ty.Equivalent g.ty

/-- Lists of fields that correspond one to one. -/
abbrev Field.SameFields (fs gs : List Field) : Prop :=
  Multiset.Rel Field.Equivalent (fs : Multiset Field) (gs : Multiset Field)

/-- Two records of one name with the same bases, and with fields that correspond one to one. -/
structure Record.Equivalent (r s : Record) : Prop where
  name : r.name = s.name
  bases : r.bases = s.bases
  fields : Field.SameFields r.fields s.fields

namespace ObjectSchema

/-- No property name is declared twice, neither by the object nor by one of its inline members. -/
structure NamesDistinct (o : ObjectSchema) : Prop where
  own : (o.properties.map Prod.fst).Nodup
  members : ∀ ms, o.allOf = some ms → ∀ inner, .inline inner ∈ ms →
    (inner.properties.map Prod.fst).Nodup

/-! ## Fields -/

/-- The field of a property. -/
def field (o : ObjectSchema) (entry : String × Schema) : Except Fault Field :=
  entry.2.resolve.outcome.map fun ty => ⟨entry.1, ty, o.isRequired entry.1⟩

lemma fields_iff {record : String} {o : ObjectSchema} {fields : List Field} :
    (o.fields record).outcome = .ok fields ↔
      List.Forall₂ (fun entry f => o.field entry = .ok f) o.properties fields := by
  have hfield : ∀ (entry : String × Schema) (f : Field), o.field entry = .ok f ↔
      f.name = entry.1 ∧ entry.2.resolve.outcome = .ok f.ty ∧
        f.required = o.isRequired entry.1 := by
    rintro entry ⟨name, ty, required⟩
    simp only [field, map_eq_ok, Field.mk.injEq]
    constructor
    · rintro ⟨_, hty, rfl, rfl, rfl⟩
      exact ⟨rfl, hty, rfl⟩
    · rintro ⟨rfl, hty, rfl⟩
      exact ⟨ty, hty, rfl, rfl, rfl⟩
  simp only [fields_eq_ok, hfield]

lemma isRequired_congr {o p : ObjectSchema} (h : o.Alike p) (name : String) :
    o.isRequired name = p.isRequired name := by
  rw [isRequired, isRequired, Bool.eq_iff_iff, List.contains_iff_mem, List.contains_iff_mem,
    h.mem_required]

/-- Equal object schemas have corresponding fields, or none. -/
lemma agree_fields {record : String} {o p : ObjectSchema} (h : (o == p) = true) :
    Agree Field.SameFields (o.fields record).outcome (p.fields record).outcome := by
  have halike := beq_iff.1 h
  refine agree_of_rel (fun _ => fields_iff) (fun _ => fields_iff)
    (halike.properties.mono fun x _ y _ hxy => ?_)
  refine (Schema.agree_resolve x.2 y.2 hxy.2).map fun t u htu => ?_
  exact ⟨hxy.1, hxy.1 ▸ isRequired_congr halike x.1, htu⟩

/-! ## Compositions -/

lemma forall₂_inlineObjects {o p : ObjectSchema} (h : o.Alike p) {ms ns : List Member}
    (hmembers : List.Forall₂ (fun m n : Member => (m == n) = true) ms ns) :
    List.Forall₂ (fun a b : ObjectSchema => (a == b) = true) (o.inlineObjects ms)
      (p.inlineObjects ns) := by
  refine List.rel_append ?own (List.rel_filterMap ?inline hmembers)
  case own =>
    rw [h.isEmpty_properties]
    split
    · exact .nil
    · exact .cons (beq_iff.2 ⟨rfl, rfl, .none, h.properties, .none⟩) .nil
  case inline =>
    intro m n hmn
    cases m <;> cases n <;> try exact absurd hmn Bool.false_ne_true
    case ref.ref => exact .none
    case inline.inline => exact .some hmn

lemma baseNames_congr {o p : ObjectSchema} (h : o.Alike p) : o.baseNames = p.baseNames := by
  have htargets : (o.allOf.getD []).filterMap Member.target? =
      (p.allOf.getD []).filterMap Member.target? := by
    rw [← List.forall₂_eq_eq_eq]
    refine List.rel_filterMap (fun m n hmn => ?_) h.members
    cases m <;> cases n <;> try exact absurd hmn Bool.false_ne_true
    case ref.ref a b =>
      have hab : (a == b) = true := hmn
      exact .some (eq_of_beq hab)
    case inline.inline => exact .none
  rw [baseNames, baseNames, h.base, htargets]

lemma nodup_of_mem_inlineObjects {o : ObjectSchema} (h : o.NamesDistinct) {ms : List Member}
    (hallOf : o.allOf = some ms) :
    ∀ inner ∈ o.inlineObjects ms, (inner.properties.map Prod.fst).Nodup := by
  intro inner hinner
  rcases mem_inlineObjects.1 hinner with ⟨-, rfl⟩ | hmember
  · exact h.own
  · exact h.members ms hallOf inner hmember

/-- Equal object schemas declare corresponding fields, or none. -/
lemma agree_recordFields {record : String} {o p : ObjectSchema} (hdistinct : o.NamesDistinct)
    (h : (o == p) = true) :
    Agree Field.SameFields (o.recordFields record).outcome (p.recordFields record).outcome := by
  have halike := beq_iff.1 h
  have hallOf := halike.allOf
  unfold recordFields
  cases ho : o.allOf <;> cases hp : p.allOf <;> rw [ho, hp] at hallOf
  case none.none => exact agree_fields h
  case some.some ms ns =>
    have hmembers : List.Forall₂ (fun m n : Member => (m == n) = true) ms ns := by
      cases hallOf with
      | some hall => exact hall
    have hobjects := forall₂_inlineObjects halike hmembers
    have hmerge := agree_merge_of_beq hobjects (nodup_of_mem_inlineObjects hdistinct ho)
    rw [halike.isSome_required]
    dsimp only
    split
    · exact .error _ _
    · generalize o.inlineObjects ms = as at hobjects hmerge
      generalize p.inlineObjects ns = bs at hobjects hmerge
      cases hobjects with
      | nil => exact .ok .zero
      | cons =>
        simp only [TracedBy.outcome_bind, TracedBy.outcome_quiet]
        exact hmerge.mapError.bind fun m m' hm => agree_fields hm
  all_goals cases hallOf

/-- Equal object schemas declare equivalent records, or none. -/
theorem agree_buildRecord {o p : ObjectSchema} (hdistinct : o.NamesDistinct)
    (h : (o == p) = true) :
    Agree Record.Equivalent o.buildRecord.outcome p.buildRecord.outcome := by
  have halike := beq_iff.1 h
  have hbases := baseNames_congr halike
  simp only [buildRecord, TracedBy.outcome_bind, TracedBy.outcome_quiet, TracedBy.outcome_report,
    TracedBy.outcome_pure, halike.id, hbases]
  refine (Agree.refl (R := fun name name' => name = name') (fun _ => rfl) _).bind ?_
  rintro name _ rfl
  refine (agree_recordFields hdistinct h).bind fun fs gs hfields => ?_
  exact .ok ⟨rfl, rfl, hfields⟩

end ObjectSchema

/-- **Equal schemas generate equivalent declarations.**  Schemas that are equal up to order both
denote a type or neither does, and the types are equivalent; equal object schemas both declare a
record or neither does, and the records are equivalent. -/
theorem Schema.declarations_equivalent :
    (∀ a b : Schema, (a == b) = true →
      Agree Ty.Equivalent a.resolve.outcome b.resolve.outcome) ∧
    ∀ a b : ObjectSchema, a.NamesDistinct → (a == b) = true →
      Agree Record.Equivalent a.buildRecord.outcome b.buildRecord.outcome :=
  ⟨Schema.agree_resolve, fun _ _ => ObjectSchema.agree_buildRecord⟩

/-- A list of values of some kinds. -/
def Schema.mixedList (kinds : List Kind) : Schema := .array [.anyOf (kinds.map .ofKind)]

/-- A choice between two lists that differ in the order of their element's alternatives. -/
def Schema.twoOrders : Schema :=
  .anyOf [mixedList [.integer, .string], mixedList [.string, .integer]]

/-- The same choice, with one order in both lists. -/
def Schema.oneOrder : Schema :=
  .anyOf [mixedList [.integer, .string], mixedList [.integer, .string]]

/-- An object with such a choice before another property. -/
def ObjectSchema.listed : ObjectSchema :=
  { id := some "#Row"
    properties := [("cells", .twoOrders), ("name", .ofKind .string)]
    required := some ["name"] }

/-- The same object, in another order. -/
def ObjectSchema.relisted : ObjectSchema :=
  { id := some "#Row"
    properties := [("name", .ofKind .string), ("cells", .oneOrder)]
    required := some ["name"] }

/-- The union of an integer and a text. -/
def Ty.mixed : Ty := .unionOf [.primitive .integer, .primitive .string]

/-- The same union, in another order. -/
def Ty.remixed : Ty := .unionOf [.primitive .string, .primitive .integer]

/-- Equal schemas whose types have different numbers of members, in records that list their fields
in different orders. -/
theorem Schema.declarations_equivalent_lists :
    (Schema.twoOrders == Schema.oneOrder) = true ∧
      (ObjectSchema.listed == ObjectSchema.relisted) = true ∧ ObjectSchema.listed.NamesDistinct ∧
      Schema.twoOrders.resolve.outcome = .ok (.unionOf [.listOf .mixed, .listOf .remixed]) ∧
      Schema.oneOrder.resolve.outcome = .ok (.listOf .mixed) ∧
      (Ty.unionOf [.listOf .mixed, .listOf .remixed]).Equivalent (.listOf .mixed) ∧
      ∃ r s, ObjectSchema.listed.buildRecord.outcome = .ok r ∧
        ObjectSchema.relisted.buildRecord.outcome = .ok s ∧ r.Equivalent s := by
  have hchoice : (Schema.twoOrders == Schema.oneOrder) = true := rfl
  have hobject : (ObjectSchema.listed == ObjectSchema.relisted) = true := rfl
  have hdistinct : ObjectSchema.listed.NamesDistinct := ⟨by decide, nofun⟩
  refine ⟨hchoice, hobject, hdistinct, rfl, rfl, ?_, _, _, rfl, rfl, ?_⟩
  · exact (agree_iff.1 (Schema.declarations_equivalent.1 _ _ hchoice)).2 _ _ rfl rfl
  · exact (agree_iff.1 (Schema.declarations_equivalent.2 _ _ hdistinct hobject)).2 _ _ rfl rfl

end TypedSchema
