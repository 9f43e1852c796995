import TypedSchema.Proofs.Declaration.Composition

/-!
# What building warns of

Resolving a schema warns of nothing, whatever comes of it (`Schema.warnings_resolve`), so what
building a record warns of are the required names without a field, once each and in their order
(`ObjectSchema.warnings_buildRecord`).  A schema that declares nothing is warned of as a whole.

So each schema of a module either becomes a declaration or is warned of, and
`Module.exists_accounted` lists, schema by schema, what is declared and which warnings come with it.
-/

namespace TypedSchema

/-! ## Warnings of a computation -/

namespace TracedBy
variable {ε δ α β : Type}

/-- The warnings among the events of a computation, in order. -/
def warnings (x : TracedBy ε α) : List Event := x.events.filter fun event => event.level == .warn

@[simp] lemma warnings_pure (a : α) : (pure a : TracedBy ε α).warnings = [] := rfl

/-- What a computation warns of after a first part that succeeds. -/
lemma warnings_bind {x : TracedBy ε α} {f : α → TracedBy ε β} {a : α} (h : x.outcome = .ok a) :
    (x >>= f).warnings = x.warnings ++ (f a).warnings := by
  rw [warnings, events_bind, h, List.filter_append]
  rfl

lemma warnings_bind_eq_nil {x : TracedBy ε α} {f : α → TracedBy ε β} (hx : x.warnings = [])
    (hf : ∀ a, (f a).warnings = []) : (x >>= f).warnings = [] := by
  cases h : x.outcome with
  | ok a => rw [warnings_bind h, hx, hf, List.append_nil]
  | error e =>
    rw [warnings, events_bind, h, List.append_nil]
    exact hx

end TracedBy

/-! ## Resolving warns of nothing -/

namespace Schema

lemma warnings_resolved {shape : Shape} {ty : Traced Ty} (h : ty.warnings = []) :
    (resolved shape ty).warnings = [] :=
  TracedBy.warnings_bind_eq_nil h fun _ => rfl

lemma warnings_resolveArms {arms : List Schema} (h : ∀ s ∈ arms, s.resolve.warnings = []) :
    (resolveArms arms).warnings = [] := by
  induction arms with
  | nil => rfl
  | cons arm rest ih =>
    obtain ⟨harm, hrest⟩ := List.forall_mem_cons.1 h
    have hstep : ∀ ty : Ty, ((resolveArms rest >>= fun tys =>
        pure (ty :: tys)) : Traced (List Ty)).warnings = [] :=
      fun ty => TracedBy.warnings_bind_eq_nil (ih hrest) fun _ => rfl
    rw [resolveArms]
    cases armFault? arm with
    | some cause => rfl
    | none => exact TracedBy.warnings_bind_eq_nil harm hstep

theorem warnings_resolve (s : Schema) : s.resolve.warnings = [] := by
  refine (Schema.induction (P := fun s => s.resolve.warnings = []) (Q := fun _ => True)
    ?object ?array ?primitive ?multiType ?anyOf ?ref fun _ _ _ => trivial).1 s
  case object =>
    intro o _
    rw [resolve]
    split
    · rfl
    · exact warnings_resolved rfl
  case array =>
    intro items ih
    rcases items with _ | ⟨item, _ | ⟨next, rest⟩⟩
    · rfl
    · exact warnings_resolved (TracedBy.warnings_bind_eq_nil (ih item List.mem_cons_self)
        fun _ => rfl)
    · exact warnings_resolved (TracedBy.warnings_bind_eq_nil (warnings_resolveArms ih)
        fun _ => TracedBy.warnings_bind_eq_nil rfl fun _ => rfl)
  case primitive => exact fun p => warnings_resolved rfl
  case multiType => exact fun kinds => warnings_resolved rfl
  case anyOf =>
    intro alternatives ih
    exact warnings_resolved (TracedBy.warnings_bind_eq_nil (warnings_resolveArms ih) fun _ => rfl)
  case ref => exact fun target => warnings_resolved rfl

end Schema

/-! ## Records -/

/-- The names that none of some fields has, in their order. -/
def withoutField (fields : List Field) (names : List String) : List String :=
  names.filter fun name => !(fields.map Field.name).contains name

namespace ObjectSchema

/-- The names that the record of a schema requires: those on the schema's own list or, for a
composition, on the lists of its inline members, each where it appears first. -/
def requiredNames (o : ObjectSchema) : List String :=
  match o.allOf with
  | none => o.required.getD []
  | some members =>
    firstOccurrences
      ((members.filterMap Member.inline?).flatMap fun inner => inner.required.getD [])

/-- Merging the parts of a composition adds up their lists; its own properties bring none. -/
lemma getD_required_of_merge {o merged : ObjectSchema} {members : List Member}
    (hallOf : o.allOf = some members) (h : merge (o.inlineObjects members) = .ok merged) :
    merged.required.getD [] = o.requiredNames := by
  obtain ⟨-, -, properties, -, rfl⟩ := merge_eq_ok.1 h
  rw [requiredNames, hallOf, getD_allRequired, inlineObjects, List.flatMap_append]
  cases o.properties <;> rfl

lemma warnings_warnUndeclared (record : String) (names : List String) :
    (warnUndeclared record names).warnings = names.map (.requiredWithoutProperty record) := by
  induction names with
  | nil => rfl
  | cons name rest ih =>
    rw [warnUndeclared, TracedBy.warnings_bind rfl, ih]
    rfl

lemma warnings_fieldsOf (record : String) (o : ObjectSchema) (entries : List (String × Schema)) :
    (fieldsOf record o entries).warnings = [] := by
  induction entries with
  | nil => rfl
  | cons entry rest ih =>
    rw [fieldsOf]
    exact TracedBy.warnings_bind_eq_nil entry.2.warnings_resolve fun ty =>
      TracedBy.warnings_bind_eq_nil ih fun fields => rfl

lemma map_name_of_fields {record : String} {o : ObjectSchema} {fields : List Field}
    (h : (o.fields record).outcome = .ok fields) :
    fields.map Field.name = o.properties.map Prod.fst := by
  rw [← List.forall₂_eq_eq_eq, List.forall₂_map_left_iff, List.forall₂_map_right_iff]
  exact (fields_eq_ok.1 h).flip.imp fun _ _ h => h.1

lemma warnings_fields {record : String} {o : ObjectSchema} {fields : List Field}
    (h : (o.fields record).outcome = .ok fields) :
    (o.fields record).warnings =
      (withoutField fields (o.required.getD [])).map (.requiredWithoutProperty record) := by
  rw [withoutField, map_name_of_fields h, ObjectSchema.fields,
    TracedBy.warnings_bind (outcome_warnUndeclared record _), warnings_warnUndeclared,
    warnings_fieldsOf, List.append_nil]
  rfl

lemma warnings_recordFields {record : String} {o : ObjectSchema} {fields : List Field}
    (h : (o.recordFields record).outcome = .ok fields) :
    (o.recordFields record).warnings =
      (withoutField fields o.requiredNames).map (.requiredWithoutProperty record) := by
  have hfields := recordFields_eq_ok.1 h
  unfold recordFields
  rcases hfields with ⟨hplain, hfields⟩ | ⟨members, hallOf, hunlisted, hmerged⟩
  · rw [hplain, requiredNames, hplain]
    exact warnings_fields hfields
  · rw [hallOf, hunlisted]
    dsimp only [Option.isSome_none]
    rw [if_neg Bool.false_ne_true]
    rcases hmerged with ⟨hnone, rfl⟩ | ⟨merged, hmerge, hfields⟩
    · -- without inline members nothing is required
      have hinline : members.filterMap Member.inline? = [] := by
        rw [inlineObjects] at hnone
        exact (List.append_eq_nil_iff.1 hnone).2
      rw [hnone, requiredNames, hallOf]
      dsimp only
      rw [hinline]
      rfl
    · rw [← getD_required_of_merge hallOf hmerge]
      cases hobjects : o.inlineObjects members with
      | nil =>
        rw [hobjects] at hmerge
        cases hmerge
      | cons first rest =>
        rw [hobjects] at hmerge
        dsimp only
        rw [hmerge, TracedBy.warnings_bind rfl]
        exact warnings_fields hfields

/-- **Building a record warns of the required names that are none of its fields**, and of nothing
else. -/
theorem warnings_buildRecord {o : ObjectSchema} {r : Record} (h : o.buildRecord.outcome = .ok r) :
    o.buildRecord.warnings =
      (withoutField r.fields o.requiredNames).map (.requiredWithoutProperty r.name) := by
  obtain ⟨name, fields, hname, hfields, rfl⟩ := buildRecord_eq_ok.1 h
  rw [buildRecord, TracedBy.warnings_bind (x := .quiet (declaredName .object o.id)) hname,
    TracedBy.warnings_bind hfields, warnings_recordFields hfields]
  exact List.append_nil _

/-- Where the lists of a schema have no repetition, neither have its required names. -/
lemma nodup_requiredNames {o : ObjectSchema} (h : o.WellFormed) : o.requiredNames.Nodup := by
  rw [requiredNames]
  split
  · cases h with
    | intro _ _ _ required =>
      cases hnames : o.required with
      | none => exact List.nodup_nil
      | some names => exact required names hnames
  · exact nodup_firstOccurrences _

end ObjectSchema

/-! ## Schemas and modules -/

lemma PrimitiveSchema.warnings_buildEnum (p : PrimitiveSchema) : p.buildEnum.warnings = [] := by
  unfold buildEnum
  refine TracedBy.warnings_bind_eq_nil rfl fun name => ?_
  split
  · rfl
  · exact TracedBy.warnings_bind_eq_nil rfl fun _ => rfl

/-- What a schema declares, and the warnings that come with it: a record with those of its required
names that are none of its fields, an enumeration with none; a schema that declares nothing is
warned of itself. -/
inductive Schema.Accounted : Schema → Option Declaration → List Event → Prop
  | record {o : ObjectSchema} {r : Record} (built : o.buildRecord.outcome = .ok r) :
    Accounted (.object o) (some (.record r))
      ((withoutField r.fields o.requiredNames).map (.requiredWithoutProperty r.name))
  | enum {p : PrimitiveSchema} {e : Enumeration} (built : p.buildEnum.outcome = .ok e) :
    Accounted (.primitive p) (some (.enum e)) []
  | nothing {s : Schema} (built : s.build.outcome = .ok none) :
    Accounted s none [.declaresNothing s.shape s.id?]

namespace Module

/-- What the step for one schema warns of. -/
def warningsOf (s : Schema) (declaration : Option Declaration) : List Event :=
  s.build.warnings ++ if declaration.isNone then [.declaresNothing s.shape s.id?] else []

lemma accounted_of_build {s : Schema} {declaration : Option Declaration}
    (h : s.build.outcome = .ok declaration) :
    s.Accounted declaration (warningsOf s declaration) := by
  cases declaration with
  | some d =>
    rw [warningsOf, Option.isNone_some, if_neg Bool.false_ne_true, List.append_nil]
    rcases Schema.build_eq_ok_some h with ⟨o, r, rfl, hr, rfl⟩ | ⟨p, e, rfl, he, rfl⟩
    · rw [Schema.build, TracedBy.warnings_bind hr, ObjectSchema.warnings_buildRecord hr,
        TracedBy.warnings_pure, List.append_nil]
      exact .record hr
    · have hlisted : p.isEnumerable = true := by
        by_contra hno
        rw [Schema.build, if_neg hno] at h
        cases h
      rw [Schema.build, if_pos hlisted, TracedBy.warnings_bind he, p.warnings_buildEnum]
      exact .enum he
  | none =>
    have hsilent : s.build.warnings = [] := by
      cases s with
      | object o =>
        rw [Schema.build, TracedBy.outcome_bind, bind_eq_ok] at h
        obtain ⟨r, -, h⟩ := h
        cases h
      | primitive p =>
        rw [Schema.build]
        split
        · exact TracedBy.warnings_bind_eq_nil p.warnings_buildEnum fun _ => rfl
        · rfl
      | _ => rfl
    rw [warningsOf, hsilent]
    exact .nothing h

/-- Every schema of a module is accounted for, in order. -/
lemma exists_accounted_buildAll {schemas : List Schema} {declarations : List Declaration}
    (h : (buildAll schemas).outcome = .ok declarations) :
    ∃ built : List (Option Declaration × List Event),
      List.Forall₂ (fun s b => s.Accounted b.1 b.2) schemas built ∧
      declarations = built.flatMap (fun b => b.1.toList) ∧
      (buildAll schemas).warnings = built.flatMap Prod.snd := by
  induction schemas generalizing declarations with
  | nil =>
    cases h
    exact ⟨[], .nil, rfl, rfl⟩
  | cons s rest ih =>
    simp only [outcome_buildAll_cons, bind_eq_ok, pure_eq_ok] at h
    obtain ⟨d, hd, ds, hds, rfl⟩ := h
    obtain ⟨built, hbuilt, rfl, hwarnings⟩ := ih hds
    refine ⟨(d, warningsOf s d) :: built, .cons (accounted_of_build hd) hbuilt, rfl, ?_⟩
    have hrest : ∀ tail : List Declaration, ((buildAll rest >>= fun declarations =>
        pure (tail ++ declarations)) : Traced (List Declaration)).warnings =
          built.flatMap Prod.snd := by
      intro tail
      rw [TracedBy.warnings_bind hds, hwarnings, TracedBy.warnings_pure, List.append_nil]
    rw [buildAll, TracedBy.warnings_bind hd, List.flatMap_cons, warningsOf, List.append_assoc]
    congr 1
    cases d with
    | none =>
      simp only [Option.isNone_none, if_true]
      rw [TracedBy.warnings_bind rfl, hrest]
      rfl
    | some d =>
      simp only [Option.isNone_some, Bool.false_eq_true, if_false]
      exact hrest _

/-- A module holds the records and enumerations that are declared, and nothing else. -/
lemma perm_records_enums (declarations : List Declaration) :
    ((records declarations).map Declaration.record ++
      (enums declarations).map Declaration.enum).Perm declarations := by
  induction declarations with
  | nil => exact .nil
  | cons d rest ih =>
    cases d with
    | record r => exact ih.cons _
    | enum e => exact List.perm_middle.trans (ih.cons _)

/-- **Every schema of a module is declared or warned of.** -/
theorem exists_accounted {schemas : List Schema} {m : Module}
    (h : (assemble schemas).outcome = .ok m) :
    ∃ built : List (Option Declaration × List Event),
      List.Forall₂ (fun s b => s.Accounted b.1 b.2) schemas built ∧
      m.declarations.Perm (built.flatMap fun b => b.1.toList) ∧
      (assemble schemas).warnings = built.flatMap Prod.snd := by
  obtain ⟨declarations, hdeclarations, -, hm⟩ := assemble_eq_ok h
  obtain ⟨built, hbuilt, rfl, hwarnings⟩ := exists_accounted_buildAll hdeclarations
  refine ⟨built, hbuilt, hm ▸ perm_records_enums _, ?_⟩
  rw [assemble, TracedBy.warnings_bind hdeclarations, hwarnings]
  exact List.append_nil _

end Module
end TypedSchema
