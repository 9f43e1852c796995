import TypedSchema.Proofs.Declaration.Composition
import TypedSchema.Proofs.Declaration.Equivalence
import TypedSchema.Proofs.Schema.MergeByName

/-!
# Which records can be built, and what they hold

An object schema declares a record if it has a name and each of its properties has a type; in a
composition, if moreover nothing is required beside the members and no member is itself composed.
`ObjectSchema.buildRecord_by_property` says so, and reads every part of the record off the schema.

Plain and composed objects are built in two ways, but one description fits both: the object and its
inline members declare properties, and the type of a property is denoted by its declarations, met in
their order (`ObjectSchema.HasType`).  A plain object declares each property once, so nothing is met
there.  `ObjectSchema.recordFields_iff` is the description for both ways.
-/

namespace TypedSchema

/-- Relations that are the same on the items of a list are the same item by item. -/
lemma forall₂_congr_left {α β : Type} {r s : α → β → Prop} {as : List α} {bs : List β}
    (h : ∀ a ∈ as, ∀ b, r a b ↔ s a b) : List.Forall₂ r as bs ↔ List.Forall₂ s as bs := by
  have hmem : ∀ t : α → β → Prop, List.Forall₂ t as bs ↔
      List.Forall₂ (fun a b => a ∈ as ∧ t a b) as bs := fun t => by
    rw [List.forall₂_and_left]
    exact (and_iff_right fun _ ha => ha).symm
  rw [hmem r, hmem s]
  constructor
  · exact fun hr => hr.imp fun a b ⟨ha, hab⟩ => ⟨ha, (h a ha b).1 hab⟩
  · exact fun hs => hs.imp fun a b ⟨ha, hab⟩ => ⟨ha, (h a ha b).2 hab⟩

namespace ObjectSchema

/-! ## What an object and its inline members say -/

/-- The inline members of an object. -/
def inlineMembers (o : ObjectSchema) : List ObjectSchema :=
  (o.allOf.getD []).filterMap Member.inline?

/-- The names of all properties, each where it appears first; those of the object come before those
of its members. -/
def propertyNames (o : ObjectSchema) : List String :=
  firstOccurrences (o.properties.map Prod.fst ++
    o.inlineMembers.flatMap fun inner => inner.properties.map Prod.fst)

/-- The declarations of a property: that of the object first, then those of its members in their
order. -/
def declared (o : ObjectSchema) (name : String) : List Schema :=
  (o.properties.lookup name).toList ++
    o.inlineMembers.filterMap fun inner => inner.properties.lookup name

/-- The declarations of a property, met one after the other, denote a type. -/
def HasType (o : ObjectSchema) (name : String) (ty : Ty) : Prop :=
  ∃ d ds s, o.declared name = d :: ds ∧ ds.foldlM Schema.intersection d = .ok s ∧
    s.resolve.outcome = .ok ty

/-- The object or one of its inline members lists a name as required. -/
def Requires (o : ObjectSchema) (name : String) : Prop :=
  name ∈ o.required.getD [] ∨ ∃ inner ∈ o.inlineMembers, name ∈ inner.required.getD []

/-- The field of a property. -/
structure HasField (o : ObjectSchema) (property : String) (f : Field) : Prop where
  name : f.name = property
  ty : o.HasType property f.ty
  required : f.required = true ↔ o.Requires property

/-- A composition that can be merged: it requires nothing beside its members, and none of them is
composed. -/
def Flat (o : ObjectSchema) : Prop :=
  ∀ members, o.allOf = some members →
    o.required = none ∧ ∀ inner, .inline inner ∈ members → inner.allOf = none

variable {o : ObjectSchema} {members : List Member} {record : String} {fields : List Field}

lemma inlineMembers_of_plain (hplain : o.allOf = none) : o.inlineMembers = [] := by
  rw [inlineMembers, hplain]
  rfl

lemma inlineMembers_of_composed (hallOf : o.allOf = some members) :
    o.inlineMembers = members.filterMap Member.inline? := by
  rw [inlineMembers, hallOf]
  rfl

lemma mem_inlineMembers (hallOf : o.allOf = some members) {inner : ObjectSchema} :
    inner ∈ o.inlineMembers ↔ .inline inner ∈ members := by
  rw [inlineMembers_of_composed hallOf, List.mem_filterMap]
  constructor
  · rintro ⟨m, hm, hinner⟩
    cases m with
    | ref target => cases hinner
    | inline schema =>
      cases hinner
      exact hm
  · exact fun hm => ⟨_, hm, rfl⟩

/-- The type of a property is that of the schema to which its declarations are met. -/
lemma hasType_iff {name : String} {d s : Schema} {ds : List Schema}
    (hdeclared : o.declared name = d :: ds) (hmet : ds.foldlM Schema.intersection d = .ok s)
    {ty : Ty} : o.HasType name ty ↔ s.resolve.outcome = .ok ty := by
  constructor
  · rintro ⟨d', ds', s', hdeclared', hmet', hty⟩
    cases hdeclared.symm.trans hdeclared'
    cases hmet.symm.trans hmet'
    exact hty
  · exact fun hty => ⟨d, ds, s, hdeclared, hmet, hty⟩

/-! ## Plain objects -/

lemma declared_of_plain (hplain : o.allOf = none) (hdistinct : (o.properties.map Prod.fst).Nodup)
    {entry : String × Schema} (hentry : entry ∈ o.properties) :
    o.declared entry.1 = [entry.2] := by
  rw [declared, inlineMembers_of_plain hplain, lookup_of_mem hdistinct hentry]
  rfl

lemma propertyNames_of_plain (hplain : o.allOf = none)
    (hdistinct : (o.properties.map Prod.fst).Nodup) :
    o.propertyNames = o.properties.map Prod.fst := by
  rw [propertyNames, inlineMembers_of_plain hplain, List.flatMap_nil, List.append_nil,
    firstOccurrences_of_nodup hdistinct]

lemma requires_of_plain (hplain : o.allOf = none) (name : String) :
    o.Requires name ↔ o.isRequired name = true := by
  rw [Requires, inlineMembers_of_plain hplain, isRequired, List.contains_iff_mem]
  simp

lemma flat_of_plain (hplain : o.allOf = none) : o.Flat := by
  intro members hmembers
  cases hplain.symm.trans hmembers

/-- A plain object has the fields of its properties. -/
lemma fields_iff_of_plain (record : String) (hplain : o.allOf = none)
    (hdistinct : (o.properties.map Prod.fst).Nodup) :
    (o.fields record).outcome = .ok fields ↔ List.Forall₂ o.HasField o.propertyNames fields := by
  rw [fields_eq_ok, propertyNames_of_plain hplain hdistinct, List.forall₂_map_left_iff]
  refine forall₂_congr_left fun entry hentry f => ?_
  rw [← hasType_iff (declared_of_plain hplain hdistinct hentry) rfl, Bool.eq_iff_iff,
    ← requires_of_plain hplain]
  exact ⟨fun ⟨hname, hty, hrequired⟩ => ⟨hname, hty, hrequired⟩,
    fun h => ⟨h.name, h.ty, h.required⟩⟩

/-! ## Compositions -/

/-- The declarations of a property are those that the objects of a composition have, in order. -/
lemma declarations_inlineObjects (hallOf : o.allOf = some members) (hdistinct : o.NamesDistinct)
    (name : String) :
    declarations name (allEntries (o.inlineObjects members)) = o.declared name := by
  rw [declarations_eq_filterMap (nodup_of_mem_inlineObjects hdistinct hallOf), inlineObjects,
    List.filterMap_append, declared, inlineMembers_of_composed hallOf]
  congr 1
  cases hproperties : o.properties with
  | nil => rfl
  | cons entry rest =>
    rw [List.isEmpty_cons, if_neg Bool.false_ne_true]
    rfl

lemma map_fst_allEntries (hallOf : o.allOf = some members) :
    firstOccurrences ((allEntries (o.inlineObjects members)).map Prod.fst) = o.propertyNames := by
  rw [allEntries_inlineObjects, List.map_append, List.map_flatMap, propertyNames,
    inlineMembers_of_composed hallOf]

lemma requires_of_composed (hallOf : o.allOf = some members) (hunlisted : o.required = none)
    (name : String) :
    o.Requires name ↔ name ∈ (allRequired none (o.inlineObjects members)).getD [] := by
  rw [mem_allRequired, Requires, hunlisted]
  refine or_congr Iff.rfl ?_
  simp only [mem_inlineMembers hallOf, mem_inlineObjects]
  constructor
  · rintro ⟨inner, hinner, hname⟩
    exact ⟨inner, .inr hinner, hname⟩
  · rintro ⟨inner, ⟨-, rfl⟩ | hinner, hname⟩
    · exact absurd hname List.not_mem_nil
    · exact ⟨inner, hinner, hname⟩

/-- The fields of a composition come from the walk through the properties of its objects, which
there may be none of. -/
lemma recordFields_of_composed (hallOf : o.allOf = some members) :
    (o.recordFields record).outcome = .ok fields ↔
      o.required = none ∧ (∀ inner ∈ o.inlineObjects members, inner.isComposed = false) ∧
        ∃ properties, mergeProperties [] (allEntries (o.inlineObjects members)) = .ok properties ∧
          List.Forall₂ (fun entry f => f.name = entry.1 ∧ entry.2.resolve.outcome = .ok f.ty ∧
            (f.required = true ↔ entry.1 ∈ (allRequired none (o.inlineObjects members)).getD []))
            properties fields := by
  rw [recordFields_eq_ok, hallOf]
  simp only [reduceCtorEq, false_and, false_or, Option.some.injEq, exists_eq_left', fields_eq_ok,
    merge_eq_ok]
  refine and_congr_right fun _ => ?_
  cases o.inlineObjects members with
  | nil =>
    constructor
    · rintro (⟨-, rfl⟩ | ⟨_, ⟨hne, -⟩, -⟩)
      · exact ⟨List.forall_mem_nil _, [], rfl, .nil⟩
      · exact absurd rfl hne
    · rintro ⟨-, _, ⟨⟩, hfields⟩
      cases hfields
      exact .inl ⟨rfl, rfl⟩
  | cons first rest =>
    constructor
    · rintro (⟨⟨⟩, -⟩ | ⟨_, ⟨-, hplain, properties, hproperties, rfl⟩, hfields⟩)
      refine ⟨hplain, properties, hproperties, hfields.imp fun entry f hfield => ?_⟩
      obtain ⟨hname, hty, hrequired⟩ := hfield
      rw [hrequired, isRequired, List.contains_iff_mem]
      exact ⟨hname, hty, Iff.rfl⟩
    · rintro ⟨hplain, properties, hproperties, hfields⟩
      refine .inr ⟨_, ⟨List.cons_ne_nil first rest, hplain, properties, hproperties, rfl⟩,
        hfields.imp fun entry f hfield => ?_⟩
      obtain ⟨hname, hty, hrequired⟩ := hfield
      refine ⟨hname, hty, ?_⟩
      rw [Bool.eq_iff_iff, hrequired, isRequired, List.contains_iff_mem]

lemma flat_iff (hallOf : o.allOf = some members) :
    o.Flat ↔ o.required = none ∧ ∀ inner ∈ o.inlineObjects members, inner.isComposed = false := by
  simp only [Flat, hallOf, Option.some.injEq, forall_eq', mem_inlineObjects]
  refine and_congr_right fun _ => ⟨fun h => ?_, fun h inner hinner => ?_⟩
  · rintro inner (⟨-, rfl⟩ | hinner)
    · rfl
    · rw [isComposed, h inner hinner]
      rfl
  · have hplain := h inner (.inr hinner)
    rwa [isComposed, Option.isSome_eq_false_iff, Option.isNone_iff_eq_none] at hplain

lemma mem_propertyNames_of_declared (hallOf : o.allOf = some members)
    (hdistinct : o.NamesDistinct) {name : String} {d : Schema} {ds : List Schema}
    (h : o.declared name = d :: ds) : name ∈ o.propertyNames := by
  have hd : d ∈ declarations name (allEntries (o.inlineObjects members)) := by
    rw [declarations_inlineObjects hallOf hdistinct, h]
    exact List.mem_cons_self
  rw [← map_fst_allEntries hallOf, mem_firstOccurrences]
  exact List.mem_map_of_mem (mem_declarations.1 hd)

/-- The walk gets through if each property has a type. -/
lemma exists_properties_of_hasType (hallOf : o.allOf = some members) (hdistinct : o.NamesDistinct)
    (h : ∀ name ∈ o.propertyNames, ∃ ty, o.HasType name ty) :
    ∃ properties, mergeProperties [] (allEntries (o.inlineObjects members)) = .ok properties := by
  refine exists_mergeProperties_iff.2 fun name => exists_meet?_iff.2 fun d ds hds => ?_
  have hdeclared : o.declared name = d :: ds :=
    (declarations_inlineObjects hallOf hdistinct name).symm.trans hds
  obtain ⟨ty, d', ds', s, hdeclared', hmet, -⟩ :=
    h name (mem_propertyNames_of_declared hallOf hdistinct hdeclared)
  cases hdeclared.symm.trans hdeclared'
  exact ⟨s, hmet⟩

/-- A composition that can be merged has the fields of its properties. -/
lemma recordFields_iff_of_composed (hallOf : o.allOf = some members) (hdistinct : o.NamesDistinct) :
    (o.recordFields record).outcome = .ok fields ↔
      o.Flat ∧ List.Forall₂ o.HasField o.propertyNames fields := by
  rw [recordFields_of_composed hallOf, flat_iff hallOf, and_assoc]
  refine and_congr_right fun hunlisted => and_congr_right fun _ => ?_
  have hsame : ∀ properties,
      mergeProperties [] (allEntries (o.inlineObjects members)) = .ok properties →
      (List.Forall₂ (fun entry f => f.name = entry.1 ∧ entry.2.resolve.outcome = .ok f.ty ∧
          (f.required = true ↔ entry.1 ∈ (allRequired none (o.inlineObjects members)).getD []))
        properties fields ↔ List.Forall₂ o.HasField o.propertyNames fields) := by
    intro properties hproperties
    have hnames : properties.map Prod.fst = o.propertyNames :=
      (map_fst_of_mergeProperties hproperties).trans (map_fst_allEntries hallOf)
    rw [← hnames, List.forall₂_map_left_iff]
    refine forall₂_congr_left fun entry hentry f => ?_
    obtain ⟨d, ds, hds, hmet⟩ := foldlM_of_mem_properties hproperties hentry
    rw [declarations_inlineObjects hallOf hdistinct] at hds
    rw [← hasType_iff hds hmet, ← requires_of_composed hallOf hunlisted]
    exact ⟨fun ⟨hname, hty, hrequired⟩ => ⟨hname, hty, hrequired⟩,
      fun h => ⟨h.name, h.ty, h.required⟩⟩
  constructor
  · rintro ⟨properties, hproperties, hfields⟩
    exact (hsame properties hproperties).1 hfields
  · intro hfields
    obtain ⟨properties, hproperties⟩ := exists_properties_of_hasType hallOf hdistinct
      fun name hname => (exists_forall₂_iff.1 ⟨fields, hfields⟩ name hname).imp' Field.ty
        fun _ => HasField.ty
    exact ⟨properties, hproperties, (hsame properties hproperties).2 hfields⟩

/-! ## Records -/

/-- **The fields of a record are those of its properties**, whether it is composed or not. -/
theorem recordFields_iff (hdistinct : o.NamesDistinct) :
    (o.recordFields record).outcome = .ok fields ↔
      o.Flat ∧ List.Forall₂ o.HasField o.propertyNames fields := by
  cases hallOf : o.allOf with
  | some members => exact recordFields_iff_of_composed hallOf hdistinct
  | none =>
    rw [recordFields_eq_ok, ← fields_iff_of_plain record hallOf hdistinct.own,
      and_iff_right (flat_of_plain hallOf)]
    simp [hallOf]

lemma declaredName_eq_ok {what : Declared} {id : Option String} {name : String} :
    declaredName what id = .ok name ↔ ∃ text, id = some text ∧ localName text ≠ "" ∧
      name = localName text := by
  cases id with
  | none => simp [declaredName]
  | some text =>
    simp only [declaredName, Option.some.injEq, exists_eq_left']
    split
    · rename_i hname
      exact iff_of_false nofun fun h => h.1 hname
    · rename_i hname
      exact ⟨fun h => ⟨hname, (Except.ok.inj h).symm⟩, fun h => congrArg _ h.2.symm⟩

/-- An object has a record if it has a name, is flat and each of its properties has a type. -/
lemma buildRecord_iff (hdistinct : o.NamesDistinct) {r : Record} :
    o.buildRecord.outcome = .ok r ↔
      (∃ id, o.id = some id ∧ localName id ≠ "" ∧ r.name = localName id) ∧
        r.bases = o.baseNames ∧ o.Flat ∧ List.Forall₂ o.HasField o.propertyNames r.fields := by
  obtain ⟨name, bases, fields⟩ := r
  simp only [buildRecord_eq_ok, declaredName_eq_ok, recordFields_iff hdistinct, Record.mk.injEq]
  constructor
  · rintro ⟨_, _, hname, ⟨hflat, hfields⟩, rfl, rfl, rfl⟩
    exact ⟨hname, rfl, hflat, hfields⟩
  · rintro ⟨hname, rfl, hflat, hfields⟩
    exact ⟨_, _, hname, ⟨hflat, hfields⟩, rfl, rfl, rfl⟩

/-- Whether an object can declare a record.  A plain one needs a type for each property; so does a
composition, which moreover has to be flat. -/
inductive Buildable (o : ObjectSchema) : Prop
  | plain {id : String} (id_eq : o.id = some id) (named : localName id ≠ "")
    (plain : o.allOf = none)
    (types : ∀ entry ∈ o.properties, ∃ ty, entry.2.resolve.outcome = .ok ty)
  | composed {id : String} {members : List Member} (id_eq : o.id = some id)
    (named : localName id ≠ "") (composed : o.allOf = some members) (unlisted : o.required = none)
    (flat : ∀ inner, .inline inner ∈ members → inner.allOf = none)
    (types : ∀ name ∈ o.propertyNames, ∃ ty, o.HasType name ty)

/-- The record that an object declares, read off the object part by part. -/
structure Declares (o : ObjectSchema) (r : Record) : Prop where
  name : ∃ id, o.id = some id ∧ r.name = localName id
  bases : r.bases = o.base.toList.map localName ++
    ((o.allOf.getD []).filterMap Member.target?).map localName
  names : r.fields.map Field.name = o.propertyNames
  distinct : (r.fields.map Field.name).Nodup
  types : ∀ f ∈ r.fields, o.HasType f.name f.ty
  plainTypes : o.allOf = none → List.Forall₂ (fun entry f => f.name = entry.1 ∧
    entry.2.resolve.outcome = .ok f.ty) o.properties r.fields
  plainRequired : o.allOf = none → ∀ f ∈ r.fields, f.required = true ↔ f.name ∈ o.required.getD []
  required : ∀ members, o.allOf = some members → ∀ f ∈ r.fields, f.required = true ↔
    ∃ inner, .inline inner ∈ members ∧ f.name ∈ inner.required.getD []

lemma exists_hasType_iff_of_plain (hplain : o.allOf = none) (hdistinct : o.NamesDistinct) :
    (∀ name ∈ o.propertyNames, ∃ ty, o.HasType name ty) ↔
      ∀ entry ∈ o.properties, ∃ ty, entry.2.resolve.outcome = .ok ty := by
  rw [propertyNames_of_plain hplain hdistinct.own, List.forall_mem_map]
  refine forall₂_congr fun entry hentry => exists_congr fun ty => ?_
  exact hasType_iff (declared_of_plain hplain hdistinct.own hentry) rfl

lemma exists_fields_iff :
    (∃ fields, List.Forall₂ o.HasField o.propertyNames fields) ↔
      ∀ name ∈ o.propertyNames, ∃ ty, o.HasType name ty := by
  classical
  rw [exists_forall₂_iff]
  refine forall₂_congr fun name _ => ⟨fun ⟨f, hf⟩ => ⟨f.ty, hf.ty⟩, fun ⟨ty, hty⟩ => ?_⟩
  exact ⟨⟨name, ty, decide (o.Requires name)⟩, rfl, hty, decide_eq_true_iff⟩

lemma exists_buildRecord_iff (hdistinct : o.NamesDistinct) :
    (∃ r, o.buildRecord.outcome = .ok r) ↔ o.Buildable := by
  have hparts : (∃ r, o.buildRecord.outcome = .ok r) ↔
      (∃ id, o.id = some id ∧ localName id ≠ "") ∧ o.Flat ∧
        ∀ name ∈ o.propertyNames, ∃ ty, o.HasType name ty := by
    rw [← exists_fields_iff]
    simp only [buildRecord_iff hdistinct]
    constructor
    · rintro ⟨r, ⟨id, hid, hname, -⟩, -, hflat, hfields⟩
      exact ⟨⟨id, hid, hname⟩, hflat, r.fields, hfields⟩
    · rintro ⟨⟨id, hid, hname⟩, hflat, fields, hfields⟩
      exact ⟨⟨localName id, o.baseNames, fields⟩, ⟨id, hid, hname, rfl⟩, rfl, hflat, hfields⟩
  rw [hparts]
  constructor
  · rintro ⟨⟨id, hid, hname⟩, hflat, htypes⟩
    cases hallOf : o.allOf with
    | none =>
      exact .plain hid hname hallOf ((exists_hasType_iff_of_plain hallOf hdistinct).1 htypes)
    | some members =>
      obtain ⟨hunlisted, hmembers⟩ := hflat members hallOf
      exact .composed hid hname hallOf hunlisted hmembers htypes
  · rintro (⟨hid, hname, hplain, htypes⟩ | ⟨hid, hname, hallOf, hunlisted, hmembers, htypes⟩)
    · exact ⟨⟨_, hid, hname⟩, flat_of_plain hplain,
        (exists_hasType_iff_of_plain hplain hdistinct).2 htypes⟩
    · have hflat : o.Flat := fun ms hms => by
        cases hallOf.symm.trans hms
        exact ⟨hunlisted, hmembers⟩
      exact ⟨⟨_, hid, hname⟩, hflat, htypes⟩

lemma map_name_of_forall₂ {names : List String} {fields : List Field}
    (h : List.Forall₂ o.HasField names fields) : fields.map Field.name = names := by
  rw [← List.forall₂_eq_eq_eq, List.forall₂_map_left_iff]
  exact h.flip.imp fun f name hf => hf.name

lemma declares_of_buildRecord (hdistinct : o.NamesDistinct) {r : Record}
    (h : o.buildRecord.outcome = .ok r) : o.Declares r := by
  obtain ⟨⟨id, hid, -, hname⟩, hbases, hflat, hfields⟩ := (buildRecord_iff hdistinct).1 h
  have hnames := map_name_of_forall₂ hfields
  have hfield : ∀ f ∈ r.fields, o.HasField f.name f := fun f hf => by
    obtain ⟨property, -, hproperty⟩ := exists_of_forall₂ hfields hf
    have hp : o.HasField property f := hproperty
    rwa [← hp.name] at hp
  exact
    { name := ⟨id, hid, hname⟩
      bases := by rw [hbases, baseNames, List.map_append]
      names := hnames
      distinct := hnames ▸ nodup_firstOccurrences _
      types := fun f hf => (hfield f hf).ty
      plainTypes := fun hplain => by
        have hplainFields := (fields_iff_of_plain r.name hplain hdistinct.own).2 hfields
        exact (fields_eq_ok.1 hplainFields).imp fun entry f hf => ⟨hf.1, hf.2.1⟩
      plainRequired := fun hplain f hf => by
        rw [(hfield f hf).required, requires_of_plain hplain, isRequired, List.contains_iff_mem]
      required := fun members hallOf f hf => by
        simp only [(hfield f hf).required, Requires, (hflat members hallOf).1, Option.getD_none,
          List.not_mem_nil, false_or, mem_inlineMembers hallOf] }

/-- **An object declares a record exactly if its parts allow it, and the record is read off them.**
Names are distinct in a map of properties, which is what the hypothesis says of the lists here. -/
theorem buildRecord_by_property (hdistinct : o.NamesDistinct) :
    ((∃ r, o.buildRecord.outcome = .ok r) ↔ o.Buildable) ∧
      ∀ r, o.buildRecord.outcome = .ok r → o.Declares r :=
  ⟨exists_buildRecord_iff hdistinct, fun _ => declares_of_buildRecord hdistinct⟩

/-- A composition with two bases, and with a property that three objects declare.  The name that the
first member requires is a property of the second alone. -/
def kennel : ObjectSchema :=
  { id := some "pets.json#/definitions/Kennel"
    base := some "#House"
    properties := [("size", .multiType [.integer, .string]), ("name", .ofKind .string)]
    allOf := some
      [.inline
        { properties := [("size", .ofKind .integer)]
          required := some ["dogs", "size"] },
        .ref "#Named",
        .inline
          { properties := [("dogs", .array [.ref "#Dog"]),
              ("size", .multiType [.null, .integer])] }] }

lemma kennel_namesDistinct : kennel.NamesDistinct where
  own := by decide
  members := by
    rintro _ ⟨⟩ inner hinner
    simp only [List.mem_cons, List.not_mem_nil, reduceCtorEq, Member.inline.injEq, or_false,
      false_or] at hinner
    obtain rfl | rfl := hinner <;> decide

theorem buildRecord_by_property_kennel :
    kennel.NamesDistinct ∧ kennel.Buildable ∧
      ∃ r, kennel.buildRecord.outcome = .ok r ∧ kennel.Declares r ∧
        r = ⟨"Kennel", ["House", "Named"],
          [⟨"size", .primitive .integer, true⟩, ⟨"name", .primitive .string, false⟩,
            ⟨"dogs", .listOf (.named "Dog"), true⟩]⟩ := by
  obtain ⟨hbuildable, hdeclares⟩ := buildRecord_by_property kennel_namesDistinct
  exact ⟨kennel_namesDistinct, hbuildable.1 ⟨_, rfl⟩, _, rfl, hdeclares _ rfl, rfl⟩

end ObjectSchema
end TypedSchema
