import TypedSchema.Declaration.Module
import TypedSchema.Proofs.Schema.NormalForm

/-!
# What an assembled module holds

Every declaration of a module is built from one of its schemas, and a built declaration is read off
its schema: the fields of a record are the properties of the schema, or of the merged composition,
with the types that they denote (`ObjectSchema.buildRecord_eq_ok`), and the values of an enumeration
are the listed ones (`PrimitiveSchema.buildEnum_eq_ok`).

So the types in a module are in normal form and no enumeration is empty (`Module.assemble_normal`),
whatever the schemas are, as long as they list no number that is not finite.
-/

namespace TypedSchema

/-! ## Records -/

namespace ObjectSchema

@[simp] lemma outcome_warnUndeclared (record : String) (names : List String) :
    (warnUndeclared record names).outcome = .ok () := by
  induction names with
  | nil => rfl
  | cons name rest ih => exact ih

/-- The fields of some properties are the properties in their order, with the types that they
denote. -/
lemma fieldsOf_eq_ok {record : String} {o : ObjectSchema} {entries : List (String × Schema)}
    {fields : List Field} :
    (fieldsOf record o entries).outcome = .ok fields ↔
      List.Forall₂ (fun entry field => field.name = entry.1 ∧
        entry.2.resolve.outcome = .ok field.ty ∧ field.required = o.isRequired entry.1)
        entries fields := by
  induction entries generalizing fields with
  | nil => cases fields <;> simp [fieldsOf]
  | cons entry rest ih =>
    obtain ⟨name, s⟩ := entry
    cases fields with
    | nil => simp [fieldsOf]
    | cons field fields =>
      obtain ⟨fieldName, ty, required⟩ := field
      simp only [fieldsOf, TracedBy.outcome_bind, TracedBy.outcome_mapError,
        TracedBy.outcome_pure, bind_eq_ok, mapError_eq_ok, ih, List.forall₂_cons]
      constructor
      · rintro ⟨ty, hty, fields, hfields, hcons⟩
        cases hcons
        exact ⟨⟨rfl, hty, rfl⟩, hfields⟩
      · rintro ⟨⟨rfl, hty, rfl⟩, hfields⟩
        exact ⟨ty, hty, fields, hfields, rfl⟩

lemma fields_eq_ok {record : String} {o : ObjectSchema} {fields : List Field} :
    (o.fields record).outcome = .ok fields ↔
      List.Forall₂ (fun entry field => field.name = entry.1 ∧
        entry.2.resolve.outcome = .ok field.ty ∧ field.required = o.isRequired entry.1)
        o.properties fields := by
  simp only [ObjectSchema.fields, TracedBy.outcome_bind, outcome_warnUndeclared, bind_eq_ok,
    true_and, exists_const, fieldsOf_eq_ok]

/-- The fields of a record are those of one object: of the schema, or of the merge of what it is
composed of. -/
lemma recordFields_eq_ok {record : String} {o : ObjectSchema} {fields : List Field} :
    (o.recordFields record).outcome = .ok fields ↔
      (o.allOf = none ∧ (o.fields record).outcome = .ok fields) ∨
      ∃ members, o.allOf = some members ∧ o.required = none ∧
        (o.inlineObjects members = [] ∧ fields = [] ∨
          ∃ merged, merge (o.inlineObjects members) = .ok merged ∧
            (merged.fields record).outcome = .ok fields) := by
  unfold recordFields
  cases hallOf : o.allOf with
  | none => simp
  | some members =>
    cases hrequired : o.required with
    | some names => simp
    | none =>
      cases hobjects : o.inlineObjects members with
      | nil =>
        have hmerge : ∀ merged, merge [] ≠ .ok merged := fun _ => nofun
        simp [hobjects, hmerge, eq_comm (a := ([] : List Field))]
      | cons first rest => simp [hobjects]

/-- A record has the name of its schema, and its bases and fields. -/
theorem buildRecord_eq_ok {o : ObjectSchema} {r : Record} :
    o.buildRecord.outcome = .ok r ↔
      ∃ name fields, declaredName .object o.id = .ok name ∧
        (o.recordFields name).outcome = .ok fields ∧ r = ⟨name, o.baseNames, fields⟩ := by
  simp only [buildRecord, TracedBy.outcome_bind, TracedBy.outcome_quiet, TracedBy.outcome_pure,
    TracedBy.outcome_report, bind_eq_ok, true_and, exists_const, Except.ok.injEq]
  constructor
  · rintro ⟨name, hname, fields, hfields, rfl⟩
    exact ⟨name, fields, hname, hfields, rfl⟩
  · rintro ⟨name, fields, hname, hfields, rfl⟩
    exact ⟨name, hname, fields, hfields, rfl⟩

/-- The types of the fields of an object are those of its properties. -/
lemma exists_property_of_fields {record : String} {o : ObjectSchema} {fields : List Field}
    (h : (o.fields record).outcome = .ok fields) {field : Field} (hfield : field ∈ fields) :
    ∃ entry ∈ o.properties, entry.2.resolve.outcome = .ok field.ty := by
  obtain ⟨entry, hentry, -, hty, -⟩ := exists_of_forall₂ (fields_eq_ok.1 h) hfield
  exact ⟨entry, hentry, hty⟩

end ObjectSchema

/-! ## Enumerations -/

/-- An enumeration has the name of its schema and the values that it lists, of which there are
some. -/
theorem PrimitiveSchema.buildEnum_eq_ok {p : PrimitiveSchema} {e : Enumeration} :
    p.buildEnum.outcome = .ok e ↔
      ∃ name values, declaredName .enum p.id = .ok name ∧ p.enum = some values ∧ values ≠ [] ∧
        e = ⟨name, values⟩ := by
  simp only [buildEnum, TracedBy.outcome_bind, TracedBy.outcome_quiet, bind_eq_ok]
  cases p.enum with
  | none => simp
  | some values =>
    cases values with
    | nil => simp
    | cons first rest =>
      simp only [Option.getD_some, TracedBy.outcome_bind, TracedBy.outcome_report,
        TracedBy.outcome_pure, bind_eq_ok, true_and, exists_const, Except.ok.injEq,
        Option.some.injEq]
      constructor
      · rintro ⟨name, hname, rfl⟩
        exact ⟨name, first :: rest, hname, rfl, List.cons_ne_nil first rest, rfl⟩
      · rintro ⟨name, values, hname, rfl, -, rfl⟩
        exact ⟨name, hname, rfl⟩

/-! ## Declarations -/

/-- What makes a declaration: an object schema a record, and a primitive that lists values an
enumeration. -/
lemma Schema.build_eq_ok_some {s : Schema} {d : Declaration} (h : s.build.outcome = .ok (some d)) :
    (∃ o r, s = .object o ∧ o.buildRecord.outcome = .ok r ∧ d = .record r) ∨
      ∃ p e, s = .primitive p ∧ p.buildEnum.outcome = .ok e ∧ d = .enum e := by
  cases s with
  | object o =>
    simp only [build, TracedBy.outcome_bind, TracedBy.outcome_pure, bind_eq_ok, Except.ok.injEq,
      Option.some.injEq] at h
    obtain ⟨r, hr, rfl⟩ := h
    exact .inl ⟨o, r, rfl, hr, rfl⟩
  | primitive p =>
    rw [build] at h
    split at h
    · simp only [TracedBy.outcome_bind, TracedBy.outcome_pure, bind_eq_ok, Except.ok.injEq,
        Option.some.injEq] at h
      obtain ⟨e, he, rfl⟩ := h
      exact .inr ⟨p, e, rfl, he, rfl⟩
    · cases h
  | _ => cases h

namespace Module

lemma outcome_buildAll_cons (s : Schema) (rest : List Schema) :
    (buildAll (s :: rest)).outcome = do
      let declaration ← s.build.outcome
      let declarations ← (buildAll rest).outcome
      return declaration.toList ++ declarations := by
  rw [buildAll, TracedBy.outcome_bind]
  refine bind_congr fun declaration => ?_
  cases declaration with
  | none =>
    simp only [Option.isNone_none, if_true, TracedBy.outcome_bind, TracedBy.outcome_report,
      TracedBy.outcome_pure]
    rfl
  | some d =>
    simp only [Option.isNone_some, Bool.false_eq_true, if_false, TracedBy.outcome_bind,
      TracedBy.outcome_pure]
    rfl

/-- The declarations that are built come from the schemas, in order. -/
lemma buildAll_eq_ok {schemas : List Schema} {declarations : List Declaration}
    (h : (buildAll schemas).outcome = .ok declarations) :
    ∃ built, List.Forall₂ (fun s d => s.build.outcome = .ok d) schemas built ∧
      declarations = built.flatMap Option.toList := by
  induction schemas generalizing declarations with
  | nil =>
    cases h
    exact ⟨[], .nil, rfl⟩
  | cons s rest ih =>
    simp only [outcome_buildAll_cons, bind_eq_ok, pure_eq_ok] at h
    obtain ⟨d, hd, ds, hds, rfl⟩ := h
    obtain ⟨built, hbuilt, rfl⟩ := ih hds
    exact ⟨d :: built, .cons hd hbuilt, rfl⟩

/-- A module asks for all facilities and holds the declarations of its schemas, records first. -/
theorem assemble_eq_ok {schemas : List Schema} {m : Module}
    (h : (assemble schemas).outcome = .ok m) :
    ∃ declarations, (buildAll schemas).outcome = .ok declarations ∧ m.imports = ImportRole.all ∧
      m.declarations =
        (records declarations).map .record ++ (enums declarations).map .enum := by
  simp only [assemble, TracedBy.outcome_bind, TracedBy.outcome_pure, TracedBy.outcome_report,
    bind_eq_ok, true_and, exists_const, Except.ok.injEq] at h
  obtain ⟨declarations, hdeclarations, rfl⟩ := h
  exact ⟨declarations, hdeclarations, rfl, rfl⟩

lemma mem_records {declarations : List Declaration} {r : Record} :
    r ∈ records declarations ↔ .record r ∈ declarations := by
  rw [records, List.mem_filterMap]
  constructor
  · rintro ⟨d, hd, hr⟩
    cases d with
    | record r' =>
      cases hr
      exact hd
    | enum e => cases hr
  · exact fun hr => ⟨_, hr, rfl⟩

lemma mem_enums {declarations : List Declaration} {e : Enumeration} :
    e ∈ enums declarations ↔ .enum e ∈ declarations := by
  rw [enums, List.mem_filterMap]
  constructor
  · rintro ⟨d, hd, he⟩
    cases d with
    | record r => cases he
    | enum e' =>
      cases he
      exact hd
  · exact fun he => ⟨_, he, rfl⟩

/-- Every declaration of a module is built from one of its schemas. -/
theorem exists_schema_of_mem {schemas : List Schema} {m : Module}
    (h : (assemble schemas).outcome = .ok m) {d : Declaration} (hd : d ∈ m.declarations) :
    ∃ s ∈ schemas, s.build.outcome = .ok (some d) := by
  obtain ⟨declarations, hbuild, -, hm⟩ := assemble_eq_ok h
  have hmem : d ∈ declarations := by
    rw [hm] at hd
    rcases List.mem_append.1 hd with hd | hd
    · obtain ⟨r, hr, rfl⟩ := List.mem_map.1 hd
      exact mem_records.1 hr
    · obtain ⟨e, he, rfl⟩ := List.mem_map.1 hd
      exact mem_enums.1 he
  obtain ⟨built, hbuilt, rfl⟩ := buildAll_eq_ok hbuild
  obtain ⟨b, hb, hdb⟩ := List.mem_flatMap.1 hmem
  obtain ⟨s, hs, hsb⟩ := exists_of_forall₂ hbuilt hb
  rw [Option.mem_toList] at hdb
  exact ⟨s, hs, hdb ▸ hsb⟩

end Module

/-! ## Normal forms -/

/-- A declaration whose fields have types in normal form, or that enumerates some finite values. -/
inductive Declaration.Normal : Declaration → Prop
  | record {r : Record} (fields : ∀ f ∈ r.fields, f.ty.Normal) : Declaration.Normal (.record r)
  | enum {e : Enumeration} (nonempty : e.values ≠ []) (finite : ∀ l ∈ e.values, l.IsFinite) :
    Declaration.Normal (.enum e)

lemma ObjectSchema.normal_of_fields {record : String} {o : ObjectSchema} {fields : List Field}
    (ho : ∀ entry ∈ o.properties, entry.2.ListsFinite)
    (h : (o.fields record).outcome = .ok fields) : ∀ f ∈ fields, f.ty.Normal := by
  intro f hf
  obtain ⟨entry, hentry, hty⟩ := exists_property_of_fields h hf
  exact Schema.resolve_normal entry.2 (ho entry hentry) f.ty hty

/-- The objects of a composition are the one that has its own properties, and its inline members. -/
lemma ObjectSchema.mem_inlineObjects {o inner : ObjectSchema} {members : List Member} :
    inner ∈ o.inlineObjects members ↔
      (o.properties ≠ [] ∧ inner = { properties := o.properties }) ∨ .inline inner ∈ members := by
  rw [inlineObjects, List.mem_append]
  refine or_congr ?own ?inline
  case own => cases h : o.properties <;> simp
  case inline =>
    rw [List.mem_filterMap]
    constructor
    · rintro ⟨m, hm, hinline⟩
      cases m with
      | ref target => cases hinline
      | inline schema =>
        cases hinline
        exact hm
    · exact fun hinner => ⟨_, hinner, rfl⟩

lemma ObjectSchema.listsFinite_of_mem_inlineObjects {o : ObjectSchema} (ho : o.ListsFinite)
    {members : List Member} (hmembers : o.allOf = some members) :
    ∀ inner ∈ o.inlineObjects members, ∀ entry ∈ inner.properties, entry.2.ListsFinite := by
  cases ho with
  | intro properties inline =>
    intro inner hinner
    rcases mem_inlineObjects.1 hinner with ⟨-, rfl⟩ | hmember
    · exact properties
    · cases inline members hmembers inner hmember with
      | intro properties => exact properties

lemma ObjectSchema.normal_of_buildRecord {o : ObjectSchema} {r : Record} (ho : o.ListsFinite)
    (h : o.buildRecord.outcome = .ok r) : ∀ f ∈ r.fields, f.ty.Normal := by
  obtain ⟨name, fields, -, hfields, rfl⟩ := buildRecord_eq_ok.1 h
  rcases recordFields_eq_ok.1 hfields with ⟨-, hfields⟩ | ⟨members, hmembers, -, hmerged⟩
  · cases ho with
    | intro properties => exact normal_of_fields properties hfields
  · rcases hmerged with ⟨-, rfl⟩ | ⟨merged, hmerge, hfields⟩
    · exact fun _ hf => absurd hf List.not_mem_nil
    · exact normal_of_fields
        (listsFinite_of_merge (listsFinite_of_mem_inlineObjects ho hmembers) hmerge) hfields

/-- The declarations of a module are in normal form, if its schemas list finite values only. -/
theorem Module.assemble_normal {schemas : List Schema} (hfinite : ∀ s ∈ schemas, s.ListsFinite)
    {m : Module} (h : (assemble schemas).outcome = .ok m) : ∀ d ∈ m.declarations, d.Normal := by
  intro d hd
  obtain ⟨s, hs, hbuild⟩ := exists_schema_of_mem h hd
  rcases Schema.build_eq_ok_some hbuild with ⟨o, r, rfl, hr, rfl⟩ | ⟨p, e, rfl, he, rfl⟩
  · cases hfinite _ hs with
    | object ho => exact .record (ObjectSchema.normal_of_buildRecord ho hr)
  · obtain ⟨name, values, -, hvalues, hne, rfl⟩ := PrimitiveSchema.buildEnum_eq_ok.1 he
    cases hfinite _ hs with
    | primitive hlisted => exact .enum hne (hlisted values hvalues)

end TypedSchema
