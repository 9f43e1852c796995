import TypedSchema.Declaration.Json
import TypedSchema.Document
import TypedSchema.Proofs.Induction
import TypedSchema.Proofs.Node.Classification

/-!
# Well-formed schemas are exactly what documents hold

A schema is written to JSON under the keywords of its shape, leaving out what it does not have
(`Schema.toJson`).  A well-formed schema is read back as it was (`Schema.holds_toJson`), and what is
read is well formed, so the schemas that a JSON value can denote are the well-formed ones
(`Document.schemaOf_image`).
-/

namespace TypedSchema

/-! ## Writing -/

/-- A member of an object, if it has a value. -/
def optionalMember (key : String) (value : Option Json) : List (String × Json) :=
  (value.map fun v => (key, v)).toList

/-- A schema of scalar values as JSON. -/
def PrimitiveSchema.toJson (p : PrimitiveSchema) : Json :=
  .object (optionalMember "id" (p.id.map .string) ++ [("type", .string p.kind.keyword)] ++
    optionalMember "enum" (p.enum.map fun values => .array (values.map Literal.toJson)))

mutual

/-- A schema as JSON. -/
def Schema.toJson : Schema → Json
  | .object o => o.toJson
  | .array items => .object [("type", .string "array"), ("items", .array (Schema.listToJson items))]
  | .primitive p => p.toJson
  | .multiType kinds => .object [("type", .array (kinds.map fun kind => .string kind.keyword))]
  | .anyOf alternatives => .object [("anyOf", .array (Schema.listToJson alternatives))]
  | .ref target => .object [("$ref", .string target)]

/-- An object schema as JSON. -/
def ObjectSchema.toJson : ObjectSchema → Json
  | ⟨id, base, properties, required, allOf⟩ =>
    .object (optionalMember "id" (id.map .string) ++ [("type", .string "object")] ++
      optionalMember "$ref" (base.map .string) ++
      [("properties", .object (Schema.propertiesToJson properties))] ++
      optionalMember "required" (required.map fun names => .array (names.map .string)) ++
      match allOf with
      | none => []
      | some members => [("allOf", .array (Member.listToJson members))])

/-- A member of a composition as JSON. -/
def Member.toJson : Member → Json
  | .ref target => .object [("$ref", .string target)]
  | .inline o => o.toJson

/-- The members of a composition as JSON. -/
def Member.listToJson : List Member → List Json
  | [] => []
  | m :: rest => m.toJson :: Member.listToJson rest

/-- The schemas of a list as JSON. -/
def Schema.listToJson : List Schema → List Json
  | [] => []
  | s :: rest => s.toJson :: Schema.listToJson rest

/-- Properties as the members of an object. -/
def Schema.propertiesToJson : List (String × Schema) → List (String × Json)
  | [] => []
  | (name, s) :: rest => (name, s.toJson) :: Schema.propertiesToJson rest

end

lemma Member.listToJson_eq (members : List Member) :
    Member.listToJson members = members.map Member.toJson := by
  induction members with
  | nil => rfl
  | cons m rest ih => rw [Member.listToJson, ih, List.map_cons]

lemma Schema.listToJson_eq (ss : List Schema) : Schema.listToJson ss = ss.map Schema.toJson := by
  induction ss with
  | nil => rfl
  | cons s rest ih => rw [Schema.listToJson, ih, List.map_cons]

lemma Schema.propertiesToJson_eq (entries : List (String × Schema)) :
    Schema.propertiesToJson entries = entries.map fun entry => (entry.1, entry.2.toJson) := by
  induction entries with
  | nil => rfl
  | cons entry rest ih => rw [Schema.propertiesToJson, ih, List.map_cons]

lemma ObjectSchema.toJson_eq (o : ObjectSchema) :
    o.toJson = .object (optionalMember "id" (o.id.map .string) ++ [("type", .string "object")] ++
      optionalMember "$ref" (o.base.map .string) ++
      [("properties", .object (o.properties.map fun entry => (entry.1, entry.2.toJson)))] ++
      optionalMember "required" (o.required.map fun names => .array (names.map .string)) ++
      optionalMember "allOf" (o.allOf.map fun members => .array (members.map Member.toJson))) := by
  obtain ⟨id, base, properties, required, allOf⟩ := o
  simp only [ObjectSchema.toJson.eq_def, Schema.propertiesToJson_eq, Member.listToJson_eq]
  cases allOf <;> rfl

/-! ## What is written is JSON -/

lemma Literal.toJson_valid {l : Literal} (h : l.Valid) : l.toJson.Valid := by
  cases l with
  | null => exact .null
  | boolean b => exact .bool b
  | integer n => exact .integer h.1 (by have := h.2; omega)
  | number x => exact .float h
  | string s => exact .string s

lemma valid_optionalMember {key : String} {value : Option Json} :
    (∀ m ∈ optionalMember key value, m.2.Valid) ↔ ∀ v, value = some v → v.Valid := by
  cases value <;> simp [optionalMember]

/-- A key that may be left out stands at most once. -/
lemma map_fst_optionalMember (key : String) (value : Option Json) :
    ((optionalMember key value).map Prod.fst).Sublist [key] := by
  cases value with
  | none => exact List.nil_sublist _
  | some v => exact List.Sublist.refl _

lemma PrimitiveSchema.toJson_valid {p : PrimitiveSchema} (h : p.WellFormed) : p.toJson.Valid := by
  refine .object ?_ ?_
  · have hkeys : ["id", "type", "enum"].Nodup := by decide
    refine hkeys.sublist ?_
    rw [List.map_append, List.map_append]
    exact ((map_fst_optionalMember _ _).append (.refl ["type"])).append (map_fst_optionalMember _ _)
  · simp only [List.forall_mem_append, valid_optionalMember, List.forall_mem_singleton,
      Option.map_eq_some_iff]
    refine ⟨⟨?_, .string _⟩, ?_⟩
    · rintro _ ⟨id, _, rfl⟩
      exact .string id
    · rintro _ ⟨values, hvalues, rfl⟩
      refine .array (List.forall_mem_map.2 fun l hl => ?_)
      exact Literal.toJson_valid ((h values hvalues).2 l hl).2

lemma ObjectSchema.toJson_valid {o : ObjectSchema}
    (hdistinct : (o.properties.map Prod.fst).Nodup)
    (hproperties : ∀ entry ∈ o.properties, entry.2.toJson.Valid)
    (hmembers : ∀ members, o.allOf = some members → ∀ m ∈ members, m.toJson.Valid) :
    o.toJson.Valid := by
  rw [ObjectSchema.toJson_eq]
  refine .object ?_ ?_
  · have hkeys : ["id", "type", "$ref", "properties", "required", "allOf"].Nodup := by decide
    refine hkeys.sublist ?_
    simp only [List.map_append]
    exact (((((map_fst_optionalMember _ _).append (.refl ["type"])).append
      (map_fst_optionalMember _ _)).append (.refl ["properties"])).append
        (map_fst_optionalMember _ _)).append (map_fst_optionalMember _ _)
  · simp only [List.forall_mem_append, valid_optionalMember, List.forall_mem_singleton,
      Option.map_eq_some_iff]
    refine ⟨⟨⟨⟨⟨?_, .string _⟩, ?_⟩, ?_⟩, ?_⟩, ?_⟩
    · rintro _ ⟨id, _, rfl⟩
      exact .string id
    · rintro _ ⟨target, _, rfl⟩
      exact .string target
    · refine .object ?_ (List.forall_mem_map.2 hproperties)
      rw [List.map_map]
      exact hdistinct
    · rintro _ ⟨names, _, rfl⟩
      exact .array (List.forall_mem_map.2 fun name _ => .string name)
    · rintro _ ⟨members, hallOf, rfl⟩
      exact .array (List.forall_mem_map.2 (hmembers members hallOf))

lemma valid_singleton {key : String} {v : Json} (h : v.Valid) :
    (Json.object [(key, v)]).Valid :=
  .object (List.nodup_singleton key) (List.forall_mem_singleton.2 h)

/-- A well-formed schema is written to a JSON value that a document can hold. -/
theorem Schema.toJson_valid : ∀ s : Schema, s.WellFormed → s.toJson.Valid := by
  refine (Schema.induction (Q := fun o => o.WellFormed → o.toJson.Valid) ?object ?array ?primitive
    ?multiType ?anyOf ?ref ?fields).1
  case object =>
    rintro o ih (⟨h⟩)
    rw [Schema.toJson]
    exact ih h
  case array =>
    intro items ih h
    cases h with
    | array h =>
      rw [Schema.toJson, Schema.listToJson_eq]
      refine .object (by simp) ?_
      simp only [List.forall_mem_cons]
      exact ⟨.string _, .array (List.forall_mem_map.2 fun s hs => ih s hs (h s hs)), nofun⟩
  case primitive =>
    intro p h
    cases h with
    | primitive h => exact PrimitiveSchema.toJson_valid h
  case multiType =>
    intro kinds _
    exact valid_singleton (.array (List.forall_mem_map.2 fun kind _ => .string _))
  case anyOf =>
    intro alternatives ih h
    cases h with
    | anyOf h =>
      rw [Schema.toJson, Schema.listToJson_eq]
      exact valid_singleton (.array (List.forall_mem_map.2 fun s hs => ih s hs (h s hs)))
  case ref => exact fun target _ => valid_singleton (.string target)
  case fields =>
    intro o hproperties hmembers h
    cases h with
    | intro _ distinct properties _ _ members =>
      refine ObjectSchema.toJson_valid distinct (fun entry hentry =>
        hproperties entry hentry (properties entry hentry)) fun ms hms m hm => ?_
      cases m with
      | ref target => exact valid_singleton (.string target)
      | inline inner =>
        rw [Member.toJson]
        exact hmembers ms hms inner hm (members ms hms inner hm)

/-! ## What is written is read back -/

namespace Node

lemma readStrings_map_string (i : Nat) (names : List String) :
    readStrings i (names.map .string) = .ok names :=
  readStrings_eq_ok.2 rfl

/-- The node of an object schema, given the nodes of its properties and of its members. -/
def ofObject (o : ObjectSchema) (properties : List (String × Node)) (allOf : Option (List Node)) :
    Node where
  id := o.id
  ref := o.base
  type := some (.one "object")
  properties := some properties
  required := o.required
  allOf := allOf

lemma readList_map_eq_ok {α : Type} {write : α → Json} {as : List α} {nodes : List Node} :
    readList 0 (as.map write) = .ok nodes ↔
      List.Forall₂ (fun a n => read (write a) = .ok n) as nodes := by
  rw [readList_eq_ok, List.forall₂_map_left_iff]

lemma read_objectSchema {o : ObjectSchema} {properties : List (String × Node)}
    {allOf : Option (List Node)}
    (hproperties : List.Forall₂ (fun entry n => entry.1 = n.1 ∧ read entry.2.toJson = .ok n.2)
      o.properties properties)
    (hallOf : Option.Rel (List.Forall₂ fun m n => read (Member.toJson m) = .ok n) o.allOf allOf) :
    read o.toJson = .ok (ofObject o properties allOf) := by
  have hread : readProperties (o.properties.map fun entry => (entry.1, entry.2.toJson)) =
      .ok properties := by
    rw [readProperties_eq_ok, List.forall₂_map_left_iff]
    exact hproperties
  rw [ObjectSchema.toJson_eq]
  obtain ⟨id, base, entries, required, members⟩ := o
  -- each of the four keys that may be left out is there or not
  cases hallOf with
  | none =>
    cases id <;> cases base <;> cases required <;>
      simp [optionalMember, read, readEntries, readEntry, Keyword.ofKey?, readOptionalString,
        readString, readType, readRequired, readStrings_map_string, hread] <;> rfl
  | some hall =>
    cases id <;> cases base <;> cases required <;>
      simp [optionalMember, read, readEntries, readEntry, Keyword.ofKey?, readOptionalString,
        readString, readType, readRequired, readStrings_map_string, hread,
        readList_map_eq_ok.2 hall] <;> rfl

lemma denoteObject_ofObject {o : ObjectSchema} {properties : List (String × Node)}
    {allOf : Option (List Node)} (hrequired : ∀ names, o.required = some names → names.Nodup)
    (hproperties : List.Forall₂ (fun n entry => n.1 = entry.1 ∧ classify n.2 = .ok entry.2)
      properties o.properties)
    (hallOf : Option.Rel (List.Forall₂ fun n m => (classify n >>= memberOf) = .ok m)
      allOf o.allOf) :
    (ofObject o properties allOf).denoteObject (ofObject o properties allOf).children = .ok o := by
  have hnames : o.required.map firstOccurrences = o.required := by
    cases h : o.required with
    | none => rfl
    | some names => rw [Option.map_some, firstOccurrences_of_nodup (hrequired names h)]
  have hchildren : (ofObject o properties allOf).children.properties = .ok o.properties :=
    children_properties_eq_ok.2 hproperties
  have hmembers : (ofObject o properties allOf).children.allOf = .ok o.allOf :=
    children_allOf_eq_ok.2 hallOf
  rw [denoteObject, hchildren, hmembers]
  show Except.ok (⟨o.id, o.base, o.properties, o.required.map firstOccurrences, o.allOf⟩ :
    ObjectSchema) = Except.ok o
  rw [hnames]
  cases o
  rfl

/-- The node of a well-formed object schema denotes it, given nodes that denote its parts. -/
lemma classify_ofObject {o : ObjectSchema} {properties : List (String × Node)}
    {allOf : Option (List Node)} (hexclusive : o.base = none ∨ o.allOf = none)
    (hrequired : ∀ names, o.required = some names → names.Nodup)
    (hproperties : List.Forall₂ (fun n entry => n.1 = entry.1 ∧ classify n.2 = .ok entry.2)
      properties o.properties)
    (hallOf : Option.Rel (List.Forall₂ fun n m => (classify n >>= memberOf) = .ok m)
      allOf o.allOf) :
    classify (ofObject o properties allOf) = .ok (.object o) := by
  have hobject := denoteObject_ofObject hrequired hproperties hallOf
  rw [classify_eq]
  cases hbase : o.base with
  | some target =>
    have href : (ofObject o properties allOf).ref = some target := hbase
    have hplain : allOf = none := by
      rw [hexclusive.resolve_left (by simp [hbase])] at hallOf
      cases hallOf
      rfl
    subst hplain
    simp only [denote, href, denoteRef, hobject]
    simp [ofObject]
  | none =>
    have href : (ofObject o properties allOf).ref = none := hbase
    cases allOf with
    | none =>
      simp only [denote, href, denoteByType, types?, denoteTyped, foreignKeyword?, hobject]
      simp [ofObject, OneOrMany.toList]
    | some nodes =>
      simp only [denote, href, denoteAllOf, hobject]
      simp [ofObject, hasForeignType, typeIs]

lemma literal?_toJson {kind : Kind} {l : Literal} (hkind : l.kind = kind) (h : l.Valid) :
    literal? kind l.toJson = some l := by
  subst hkind
  cases l with
  | integer n => exact if_pos h
  | _ => rfl

lemma enumValues_map_toJson {id : Option String} {kind : Kind} {enum : Option (List Literal)}
    (h : PrimitiveSchema.WellFormed ⟨id, kind, enum⟩) :
    enumValues kind (enum.map fun values => values.map Literal.toJson) = .ok enum := by
  match enum with
  | none => rfl
  | some [] => exact ((h [] rfl).1 rfl).elim
  | some (l :: ls) =>
    show (literals kind 0 ((l :: ls).map Literal.toJson)).map some = .ok (some (l :: ls))
    rw [map_eq_ok]
    refine ⟨l :: ls, ?_, rfl⟩
    rw [literals_eq_ok, List.forall₂_map_left_iff, List.forall₂_same]
    intro l' hl'
    obtain ⟨hkind, hvalid⟩ := (h (l :: ls) rfl).2 l' hl'
    exact literal?_toJson hkind hvalid

lemma kindOf_keyword (kind : Kind) : kindOf kind.keyword = .ok kind := by
  rw [kindOf, Kind.ofKeyword?_keyword]

lemma kindsOf_map_keyword (kinds : List Kind) : kindsOf (kinds.map Kind.keyword) = .ok kinds := by
  induction kinds with
  | nil => rfl
  | cons kind kinds ih =>
    have hscalar : ¬(kind.keyword = "object" ∨ kind.keyword = "array") := by
      cases kind <;> decide
    rw [List.map_cons, kindsOf, if_neg hscalar, kindOf_keyword, ih]
    rfl

lemma denoteTyped_keyword {node : Node} {children : Children} {kind : Kind}
    {enum : Option (List Literal)} (hproperties : node.properties = none)
    (hrequired : node.required = none) (hitems : node.items = none)
    (henum : enumValues kind node.enum = .ok enum) :
    node.denoteTyped children kind.keyword = .ok (.primitive ⟨node.id, kind, enum⟩) := by
  have hforeign : node.foreignKeyword? kind.keyword = none := by
    cases kind <;> simp [foreignKeyword?, hproperties, hrequired, hitems, Kind.keyword]
  have hobject : kind.keyword ≠ "object" := by cases kind <;> decide
  have harray : kind.keyword ≠ "array" := by cases kind <;> decide
  simp only [denoteTyped, hforeign, if_neg hobject, if_neg harray, bind_eq_ok, kindOf_keyword,
    pure_eq_ok]
  exact ⟨kind, rfl, enum, henum, rfl⟩

/-- Whether a JSON value holds a schema: it is read as a node that denotes the schema. -/
def Holds (v : Json) (s : Schema) : Prop := ∃ node, read v = .ok node ∧ classify node = .ok s

lemma holds_primitive {p : PrimitiveSchema} (h : p.WellFormed) : Holds p.toJson (.primitive p) := by
  obtain ⟨id, kind, enum⟩ := p
  let values := enum.map fun values => values.map Literal.toJson
  refine ⟨{ id, type := some (.one kind.keyword), enum := values }, ?_, ?_⟩
  · cases id <;> cases enum <;>
      simp [PrimitiveSchema.toJson, optionalMember, read, readEntries, readEntry, Keyword.ofKey?,
        readOptionalString, readString, readType, readEnum] <;> rfl
  · rw [classify_eq]
    exact denoteTyped_keyword rfl rfl rfl (enumValues_map_toJson h)

/-- What each item of a list can be passed through, the list can be passed through. -/
lemma exists_forall₂ {α β : Type} {q : α → β → Prop} {r : β → α → Prop} {as : List α}
    (h : ∀ a ∈ as, ∃ b, q a b ∧ r b a) :
    ∃ bs, List.Forall₂ q as bs ∧ List.Forall₂ r bs as := by
  induction as with
  | nil => exact ⟨[], .nil, .nil⟩
  | cons a as ih =>
    obtain ⟨⟨b, hq, hr⟩, hrest⟩ := List.forall_mem_cons.1 h
    obtain ⟨bs, hqs, hrs⟩ := ih hrest
    exact ⟨b :: bs, .cons hq hqs, .cons hr hrs⟩

lemma holds_array {items : List Schema} (h : ∀ s ∈ items, Holds s.toJson s) :
    Holds (Schema.array items).toJson (.array items) := by
  obtain ⟨nodes, hread, hclassify⟩ := exists_forall₂ h
  refine ⟨{ type := some (.one "array"), items := some (.many nodes) }, ?_, ?_⟩
  · have hlist : readList 0 (items.map Schema.toJson) = .ok nodes := readList_map_eq_ok.2 hread
    rw [Schema.toJson, Schema.listToJson_eq]
    simp [read, readEntries, readEntry, Keyword.ofKey?, readType, hlist]
    rfl
  · have hitems : (Node.children { type := some (.one "array"), items := some (.many nodes) }).items
        = .ok items := children_items_eq_ok.2 hclassify
    rw [classify_eq]
    simp [denote, denoteByType, types?, OneOrMany.toList, denoteTyped, foreignKeyword?, hitems]

lemma holds_anyOf {alternatives : List Schema} (h : ∀ s ∈ alternatives, Holds s.toJson s) :
    Holds (Schema.anyOf alternatives).toJson (.anyOf alternatives) := by
  obtain ⟨nodes, hread, hclassify⟩ := exists_forall₂ h
  refine ⟨{ anyOf := some nodes }, ?_, ?_⟩
  · have hlist : readList 0 (alternatives.map Schema.toJson) = .ok nodes :=
      readList_map_eq_ok.2 hread
    rw [Schema.toJson, Schema.listToJson_eq]
    simp [read, readEntries, readEntry, Keyword.ofKey?, hlist]
    rfl
  · have halternatives : (Node.children { anyOf := some nodes }).anyOf = .ok alternatives :=
      children_anyOf_eq_ok.2 hclassify
    rw [classify_eq]
    simp [denote, denoteAnyOf, hasForeignType, halternatives]

lemma holds_multiType {kinds : List Kind} (h : 2 ≤ kinds.length) :
    Holds (Schema.multiType kinds).toJson (.multiType kinds) := by
  refine ⟨{ type := some (.many (kinds.map Kind.keyword)) }, ?_, ?_⟩
  · have hlist : readStrings 0 (kinds.map fun kind => Json.string kind.keyword) =
        .ok (kinds.map Kind.keyword) := by
      rw [readStrings_eq_ok, List.map_map]
      rfl
    rw [Schema.toJson]
    simp [read, readEntries, readEntry, Keyword.ofKey?, readType, hlist]
    rfl
  · have hkinds := kindsOf_map_keyword kinds
    rw [classify_eq]
    obtain _ | ⟨first, _ | ⟨second, rest⟩⟩ := kinds
    · cases h
    · exact absurd h (Nat.not_succ_le_self 1)
    · simp [denote, denoteByType, types?, OneOrMany.toList, denoteMultiType] at hkinds ⊢
      exact hkinds

lemma holds_ref (target : String) : Holds (Schema.ref target).toJson (.ref target) := by
  refine ⟨{ ref := some target }, ?_, ?_⟩
  · rw [Schema.toJson]
    rfl
  · rw [classify_eq]
    rfl

/-- A member of a composition is held as the schema that stands for it. -/
lemma exists_node_of_member {m : Member}
    (h : ∀ inner, m = .inline inner → inner.base = none ∧ Holds inner.toJson (.object inner)) :
    ∃ node, read m.toJson = .ok node ∧ (classify node >>= memberOf) = .ok m := by
  cases m with
  | ref target =>
    obtain ⟨node, hread, hclassify⟩ := holds_ref target
    refine ⟨node, hread, ?_⟩
    rw [hclassify]
    rfl
  | inline inner =>
    obtain ⟨hbase, node, hread, hclassify⟩ := h inner rfl
    refine ⟨node, hread, ?_⟩
    rw [hclassify]
    obtain ⟨id, base, properties, required, allOf⟩ := inner
    subst hbase
    rfl

lemma holds_object {o : ObjectSchema} (h : o.WellFormed)
    (hproperties : ∀ entry ∈ o.properties, Holds entry.2.toJson entry.2)
    (hmembers : ∀ members, o.allOf = some members → ∀ inner, .inline inner ∈ members →
      Holds inner.toJson (.object inner)) :
    Holds o.toJson (.object o) := by
  cases h with
  | intro exclusive _ _ required unbased _ =>
    have hentry : ∀ entry ∈ o.properties, ∃ n : String × Node,
        (entry.1 = n.1 ∧ read entry.2.toJson = .ok n.2) ∧
          (n.1 = entry.1 ∧ classify n.2 = .ok entry.2) := by
      intro entry hentry
      obtain ⟨node, hread, hclassify⟩ := hproperties entry hentry
      exact ⟨(entry.1, node), ⟨rfl, hread⟩, rfl, hclassify⟩
    have hallOf : ∃ allOf : Option (List Node),
        Option.Rel (List.Forall₂ fun m n => read (Member.toJson m) = .ok n) o.allOf allOf ∧
          Option.Rel (List.Forall₂ fun n m => (classify n >>= memberOf) = .ok m) allOf o.allOf := by
      cases hms : o.allOf with
      | none => exact ⟨none, .none, .none⟩
      | some members =>
        have hmember : ∀ m ∈ members, ∃ node, read m.toJson = .ok node ∧
            (classify node >>= memberOf) = .ok m := by
          refine fun m hm => exists_node_of_member ?_
          rintro inner rfl
          exact ⟨unbased members hms inner hm, hmembers members hms inner hm⟩
        obtain ⟨nodes, hread, hclassify⟩ := exists_forall₂ hmember
        exact ⟨some nodes, .some hread, .some hclassify⟩
    obtain ⟨properties, hread, hclassify⟩ := exists_forall₂ hentry
    obtain ⟨allOf, hreadAll, hclassifyAll⟩ := hallOf
    exact ⟨ofObject o properties allOf, read_objectSchema hread hreadAll,
      classify_ofObject exclusive required hclassify hclassifyAll⟩

end Node

/-- A well-formed schema is held by what it is written to. -/
theorem Schema.holds_toJson : ∀ s : Schema, s.WellFormed → Node.Holds s.toJson s := by
  refine (Schema.induction (Q := fun o => o.WellFormed → Node.Holds o.toJson (.object o)) ?object
    ?array ?primitive ?multiType ?anyOf ?ref ?fields).1
  case object =>
    rintro o ih (⟨h⟩)
    rw [Schema.toJson]
    exact ih h
  case array =>
    intro items ih h
    cases h with
    | array h => exact Node.holds_array fun s hs => ih s hs (h s hs)
  case primitive =>
    intro p h
    cases h with
    | primitive h => exact Node.holds_primitive h
  case multiType =>
    intro kinds h
    cases h with
    | multiType h => exact Node.holds_multiType h
  case anyOf =>
    intro alternatives ih h
    cases h with
    | anyOf h => exact Node.holds_anyOf fun s hs => ih s hs (h s hs)
  case ref => exact fun target _ => Node.holds_ref target
  case fields =>
    intro o hproperties hmembers h
    refine Node.holds_object h (fun entry hentry => hproperties entry hentry ?_)
      fun members hms inner hinner => hmembers members hms inner hinner ?_
    · cases h with
      | intro _ _ properties => exact properties entry hentry
    · cases h with
      | intro _ _ _ _ _ inline => exact inline members hms inner hinner

/-! ## Documents -/

lemma Document.schemaOf_eq_ok {v : Json} {path : String} {s : Schema} :
    Document.schemaOf v path = .ok s ↔ Node.Holds v s := by
  simp [Document.schemaOf, Node.Holds]

/-- What a document holds is well formed, and every well-formed schema is read back from the JSON
value that it is written to. -/
theorem Document.schemaOf_image (path : String) :
    (∀ v : Json, v.Valid → ∀ s, Document.schemaOf v path = .ok s → s.WellFormed) ∧
      ∀ s : Schema, s.WellFormed →
        s.toJson.Valid ∧ Document.schemaOf s.toJson path = .ok s := by
  refine ⟨fun v hv s h => ?_, fun s hs => ⟨s.toJson_valid hs, ?_⟩⟩
  · obtain ⟨node, hread, hclassify⟩ := Document.schemaOf_eq_ok.1 h
    exact Node.classify_wellFormed (Node.read_valid hv hread) s hclassify
  · exact Document.schemaOf_eq_ok.2 (s.holds_toJson hs)

/-- A composition of a reference and of an object with a property that lists values, behind a
property with a choice among its items. -/
def Document.composed : Schema :=
  .object
    { id := some "Cat"
      properties := [("tags", .array [.anyOf [.multiType [.integer, .null], .ref "#Tag"]])]
      required := some ["tags"]
      allOf := some [.ref "#Pet",
        .inline { properties := [("sound", .primitive ⟨none, .string, some [.string "meow"]⟩)] }] }

lemma Document.composed_wellFormed : Document.composed.WellFormed := by
  have htags : (Schema.array [.anyOf [.multiType [.integer, .null], .ref "#Tag"]]).WellFormed := by
    refine .array (List.forall_mem_singleton.2 (.anyOf ?_))
    exact List.forall_mem_cons.2 ⟨.multiType (Nat.le_refl 2), List.forall_mem_singleton.2 (.ref _)⟩
  have hsound : (Schema.primitive ⟨none, .string, some [.string "meow"]⟩).WellFormed := by
    refine .primitive fun values h => ?_
    cases h
    exact ⟨List.cons_ne_nil _ _, List.forall_mem_singleton.2 ⟨rfl, trivial⟩⟩
  refine .object (.intro (.inl rfl) (List.nodup_singleton _) (List.forall_mem_singleton.2 htags)
    ?_ ?_ ?_)
  · rintro _ ⟨⟩
    exact List.nodup_singleton _
  · rintro _ ⟨⟩ inner hinner
    simp only [List.mem_cons, reduceCtorEq, Member.inline.injEq, List.not_mem_nil, or_false,
      false_or] at hinner
    rw [hinner]
  · rintro _ ⟨⟩ inner hinner
    simp only [List.mem_cons, reduceCtorEq, Member.inline.injEq, List.not_mem_nil, or_false,
      false_or] at hinner
    rw [hinner]
    exact .intro (.inl rfl) (List.nodup_singleton _) (List.forall_mem_singleton.2 hsound) nofun
      nofun nofun

theorem Document.schemaOf_image_composed :
    Document.composed.WellFormed ∧ Document.composed.toJson.Valid ∧
      Document.schemaOf Document.composed.toJson "" = .ok Document.composed := by
  obtain ⟨hread, hwrite⟩ := Document.schemaOf_image ""
  obtain ⟨hvalid, hschema⟩ := hwrite Document.composed Document.composed_wellFormed
  exact ⟨hread Document.composed.toJson hvalid Document.composed hschema, hvalid, hschema⟩

end TypedSchema
