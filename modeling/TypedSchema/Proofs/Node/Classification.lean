import TypedSchema.Node.Classification
import TypedSchema.Proofs.Binary64.Rounding
import TypedSchema.Proofs.Members
import TypedSchema.Proofs.Node.Keywords
import TypedSchema.Proofs.Schema.WellFormed

/-!
# What classification gives

`Node.ClassifiedAs` is the table of classification: which keyword decides a schema, which companions
the node then cannot have, and what the schema is made of; `Node.classifiedAs_of_classify` says that
a node is classified by one of its rows.  Two results are read off the table.

* Classifying a node classifies the nodes inside it, apart from items beside a composition, which
  the table lets stand without a use for them (`Node.exists_of_mem_parts`).
* The schema of a valid node is well formed (`Node.classify_wellFormed`), through `Node.Denotes`,
  the ways to denote a schema without their conditions.
-/

namespace TypedSchema
namespace Node

/-! ## Children -/

/-- The classified children of a node. -/
def children (node : Node) : Children where
  properties :=
    match node.properties with
    | none => .ok []
    | some nodes => classifyProperties nodes
  allOf :=
    match node.allOf with
    | none => .ok none
    | some nodes => (classifyMembers 0 nodes).map some
  anyOf :=
    match node.anyOf with
    | none => .ok []
    | some nodes => classifyList .anyOf 0 nodes
  items :=
    match node.items with
    | none => .ok []
    | some (.one n) => (classify n).mapError (.under (.items 0)) |>.map fun s => [s]
    | some (.many nodes) => classifyList .items 0 nodes

lemma classify_eq (node : Node) : classify node = node.denote node.children := by
  cases node
  rw [classify.eq_def]
  rfl

lemma classifyList_eq_ok {step : Nat → NodeStep} {i : Nat} {nodes : List Node}
    {ss : List Schema} :
    classifyList step i nodes = .ok ss ↔ List.Forall₂ (fun n s => classify n = .ok s) nodes ss :=
  items_eq_ok (classifyList step) classify (fun i => .under (step i)) (fun _ => rfl)
    fun _ _ _ => rfl

lemma classifyMembers_eq_ok {i : Nat} {nodes : List Node} {members : List Member} :
    classifyMembers i nodes = .ok members ↔
      List.Forall₂ (fun n m => (classify n >>= memberOf) = .ok m) nodes members :=
  items_eq_ok classifyMembers (fun n => classify n >>= memberOf) (fun i => .under (.allOf i))
    (fun _ => rfl) fun _ _ _ => rfl

lemma classifyProperties_eq_ok {nodes : List (String × Node)}
    {entries : List (String × Schema)} :
    classifyProperties nodes = .ok entries ↔
      List.Forall₂ (fun n e => n.1 = e.1 ∧ classify n.2 = .ok e.2) nodes entries :=
  entries_eq_ok classifyProperties classify (fun name => .under (.property name)) rfl
    fun _ _ _ => rfl

lemma children_properties_eq_ok {node : Node} {entries : List (String × Schema)} :
    node.children.properties = .ok entries ↔
      List.Forall₂ (fun n e => n.1 = e.1 ∧ classify n.2 = .ok e.2) (node.properties.getD [])
        entries := by
  unfold children
  cases node.properties with
  | none => cases entries <;> simp
  | some nodes => exact classifyProperties_eq_ok

lemma children_allOf_eq_ok {node : Node} {members : Option (List Member)} :
    node.children.allOf = .ok members ↔
      Option.Rel (List.Forall₂ fun n m => (classify n >>= memberOf) = .ok m) node.allOf
        members := by
  unfold children
  cases node.allOf with
  | none => cases members <;> simp
  | some nodes => cases members <;> simp [classifyMembers_eq_ok]

lemma children_anyOf_eq_ok {node : Node} {ss : List Schema} :
    node.children.anyOf = .ok ss ↔
      List.Forall₂ (fun n s => classify n = .ok s) (node.anyOf.getD []) ss := by
  unfold children
  cases node.anyOf with
  | none => cases ss <;> simp
  | some nodes => exact classifyList_eq_ok

lemma children_items_eq_ok {node : Node} {ss : List Schema} :
    node.children.items = .ok ss ↔
      List.Forall₂ (fun n s => classify n = .ok s)
        ((node.items.map OneOrMany.toList).getD []) ss := by
  unfold children
  cases node.items with
  | none => cases ss <;> simp
  | some items =>
    cases items with
    | one n =>
      simp only [map_eq_ok, mapError_eq_ok, Option.map_some, Option.getD_some, OneOrMany.toList]
      constructor
      · rintro ⟨s, hs, rfl⟩
        exact .cons hs .nil
      · rintro (_ | ⟨hs, ⟨⟩⟩)
        exact ⟨_, hs, rfl⟩
    | many nodes => exact classifyList_eq_ok

/-! ## What a schema excludes -/

/-- The node has no value under any of these keywords. -/
def Lacks (node : Node) (ks : List Keyword) : Prop := ∀ k ∈ ks, node.gives k = false

lemma parts_of_not_gives {node : Node} {k : Keyword} (h : node.gives k = false) :
    node.parts k = [] := by
  cases k <;> simp_all [gives, parts, entry, Entry.isGiven, Entry.parts]

/-- How a node is classified: by one deciding keyword, with the checks that it makes and without the
companions that it turns down. -/
inductive ClassifiedAs (node : Node) : Schema → Prop
  | reference {target : String} (ref : node.ref = some target)
    (alone : node.Lacks [.type, .properties, .allOf, .anyOf, .items, .enum]) :
    ClassifiedAs node (.ref target)
  | extension {o : ObjectSchema} (ref : node.gives .ref = true)
    (shaped : node.gives .properties = true ∨ node.typeIs "object" = true)
    (alone : node.Lacks [.allOf, .anyOf, .items, .enum])
    (object : node.denoteObject node.children = .ok o) : ClassifiedAs node (.object o)
  | alternatives {ss : List Schema} (anyOf : node.gives .anyOf = true)
    (alone : node.Lacks [.ref, .properties, .allOf, .items, .enum])
    (anyOf_ok : node.children.anyOf = .ok ss) : ClassifiedAs node (.anyOf ss)
  | composition {o : ObjectSchema} (allOf : node.gives .allOf = true)
    (alone : node.Lacks [.ref, .anyOf])
    (object : node.denoteObject node.children = .ok o) : ClassifiedAs node (.object o)
  | object {o : ObjectSchema} (alone : node.Lacks [.ref, .allOf, .anyOf, .items, .enum])
    (object : node.denoteObject node.children = .ok o) : ClassifiedAs node (.object o)
  | array {items : List Schema}
    (alone : node.Lacks [.ref, .properties, .required, .allOf, .anyOf, .enum])
    (items_ok : node.children.items = .ok items) : ClassifiedAs node (.array items)
  | primitive {kind : Kind} {enum : Option (List Literal)}
    (alone : node.Lacks [.ref, .properties, .required, .allOf, .anyOf, .items])
    (enum_ok : enumValues kind node.enum = .ok enum) :
    ClassifiedAs node (.primitive ⟨node.id, kind, enum⟩)
  | multiType {types : List String} {kinds : List Kind}
    (alone : node.Lacks [.ref, .properties, .required, .allOf, .anyOf, .items, .enum])
    (several : 2 ≤ types.length) (kinds_ok : kindsOf types = .ok kinds) :
    ClassifiedAs node (.multiType kinds)

section
variable {node : Node} {s : Schema}

lemma gives_ref {target : String} (h : node.ref = some target) : node.gives .ref = true :=
  congrArg Option.isSome h

lemma classifiedAs_of_denoteRef {target : String} (href : node.ref = some target)
    (h : node.denoteRef node.children target = .ok s) : node.ClassifiedAs s := by
  unfold denoteRef at h
  split at h
  · cases h
  rename_i hcombined
  split at h
  · rename_i hshaped
    rw [map_eq_ok] at h
    obtain ⟨o, ho, rfl⟩ := h
    refine .extension (gives_ref href) (by simpa [gives, entry, Entry.isGiven] using hshaped) ?_ ho
    simp_all [Lacks, gives, entry, Entry.isGiven]
  rename_i hshaped
  split at h
  · cases h
  · cases h
    refine .reference href ?_
    simp_all [Lacks, gives, entry, Entry.isGiven]

lemma classifiedAs_of_denoteAnyOf (href : node.ref = none) (hanyOf : node.anyOf.isSome = true)
    (h : node.denoteAnyOf node.children = .ok s) : node.ClassifiedAs s := by
  unfold denoteAnyOf at h
  split at h
  · cases h
  rename_i hcombined
  split at h
  · cases h
  · rw [map_eq_ok] at h
    obtain ⟨alternatives, halternatives, rfl⟩ := h
    refine .alternatives hanyOf ?_ halternatives
    simp_all [Lacks, gives, entry, Entry.isGiven]

lemma classifiedAs_of_denoteAllOf (href : node.ref = none) (hanyOf : node.anyOf = none)
    (hallOf : node.allOf.isSome = true) (h : node.denoteAllOf node.children = .ok s) :
    node.ClassifiedAs s := by
  unfold denoteAllOf at h
  split at h
  · cases h
  · rw [map_eq_ok] at h
    obtain ⟨o, ho, rfl⟩ := h
    refine .composition hallOf ?_ ho
    simp [Lacks, gives, entry, Entry.isGiven, href, hanyOf]

/-- Which types have no foreign keyword. -/
lemma foreignKeyword?_eq_none {type : String} (h : node.foreignKeyword? type = none) :
    (node.gives .properties = true → type = "object") ∧
      (node.gives .required = true → type = "object") ∧
      (node.gives .items = true → type = "array") ∧
      (node.gives .enum = true → type ≠ "object" ∧ type ≠ "array") := by
  unfold foreignKeyword? at h
  simp only [gives, entry, Entry.isGiven]
  grind

lemma classifiedAs_of_denoteTyped {type : String}
    (hundecided : node.Lacks [.ref, .anyOf, .allOf])
    (h : node.denoteTyped node.children type = .ok s) : node.ClassifiedAs s := by
  unfold denoteTyped at h
  split at h
  · cases h
  rename_i hforeign
  obtain ⟨hproperties, hrequired, hitems, henum⟩ := foreignKeyword?_eq_none hforeign
  split at h
  · rename_i htype
    rw [map_eq_ok] at h
    obtain ⟨o, ho, rfl⟩ := h
    refine .object ?_ ho
    simp_all [Lacks]
  split at h
  · rename_i hobject htype
    rw [map_eq_ok] at h
    obtain ⟨items, hitems, rfl⟩ := h
    refine .array ?_ hitems
    simp_all [Lacks]
  · rename_i hobject harray
    simp only [bind_eq_ok, pure_eq_ok] at h
    obtain ⟨kind, _, enum, henum, rfl⟩ := h
    refine .primitive ?_ henum
    simp_all [Lacks]

lemma classifiedAs_of_denoteByType (hundecided : node.Lacks [.ref, .anyOf, .allOf])
    (h : node.denoteByType node.children = .ok s) : node.ClassifiedAs s := by
  unfold denoteByType at h
  split at h
  case h_1 => cases h
  case h_2 => cases h
  case h_3 type _ => exact classifiedAs_of_denoteTyped hundecided h
  case h_4 types hempty hsingle htypes =>
    unfold denoteMultiType at h
    split at h
    · cases h
    · rename_i hcombined
      rw [map_eq_ok] at h
      obtain ⟨kinds, hkinds, rfl⟩ := h
      refine .multiType ?_ (two_le_length hempty hsingle) hkinds
      simp_all [Lacks, gives, entry, Entry.isGiven]

/-- A node is classified in one of these ways, if at all. -/
theorem classifiedAs_of_classify (h : classify node = .ok s) : node.ClassifiedAs s := by
  rw [classify_eq] at h
  unfold denote at h
  split at h
  · cases h
  split at h
  case h_1 target htarget => exact classifiedAs_of_denoteRef htarget h
  case h_2 href =>
    split at h
    · rename_i hanyOf
      exact classifiedAs_of_denoteAnyOf href hanyOf h
    rename_i hanyOf
    rw [Option.not_isSome_iff_eq_none] at hanyOf
    split at h
    · rename_i hallOf
      exact classifiedAs_of_denoteAllOf href hanyOf hallOf h
    · rename_i hallOf
      refine classifiedAs_of_denoteByType ?_ h
      simp_all [Lacks, gives, entry, Entry.isGiven]

/-! ## Object schemas -/

/-- However it is decided that a node is an object, its schema is made of the same parts. -/
lemma denoteObject_of_classify {o : ObjectSchema} (h : classify node = .ok (.object o)) :
    node.denoteObject node.children = .ok o := by
  cases classifiedAs_of_classify h with
  | extension _ _ _ object | composition _ _ object | object _ object => exact object

section
variable {o : ObjectSchema} (h : node.denoteObject node.children = .ok o)
include h

lemma base_of_denoteObject : o.base = node.ref := by
  simp only [denoteObject, bind_eq_ok, pure_eq_ok] at h
  obtain ⟨_, _, _, _, rfl⟩ := h
  rfl

lemma required_of_denoteObject : o.required = node.required.map firstOccurrences := by
  simp only [denoteObject, bind_eq_ok, pure_eq_ok] at h
  obtain ⟨_, _, _, _, rfl⟩ := h
  rfl

/-- The members of a composition are those that its nodes denote, in order. -/
lemma allOf_of_denoteObject :
    Option.Rel (List.Forall₂ fun n m => (classify n >>= memberOf) = .ok m) node.allOf
      o.allOf := by
  simp only [denoteObject, bind_eq_ok, pure_eq_ok] at h
  obtain ⟨_, _, _, hmembers, rfl⟩ := h
  exact children_allOf_eq_ok.1 hmembers

end

/-- An inline member is an object schema without a base. -/
lemma memberOf_eq_inline {s : Schema} {inner : ObjectSchema} :
    memberOf s = .ok (.inline inner) ↔ s = .object inner ∧ inner.base = none := by
  constructor
  · intro h
    unfold memberOf at h
    split at h <;> cases h
    exact ⟨rfl, rfl⟩
  · rintro ⟨rfl, hbase⟩
    obtain ⟨id, base, properties, required, allOf⟩ := inner
    subst hbase
    rfl

/-- A member that is a reference comes from a reference, or from an object that says nothing but
which base it has and what is required. -/
lemma memberOf_eq_ref {s : Schema} {target : String} :
    memberOf s = .ok (.ref target) ↔ s = .ref target ∨
      ∃ required, s = .object { base := some target, required } := by
  constructor
  · intro h
    unfold memberOf at h
    split at h <;> cases h
    · exact .inl rfl
    · exact .inr ⟨_, rfl⟩
  · rintro (rfl | ⟨required, rfl⟩) <;> rfl

/-- No key of a classified node is an unsupported keyword. -/
lemma notMem_unsupported_of_classify (h : classify node = .ok s) {key : String}
    (hkey : key ∈ node.others) : key ∉ unsupportedKeywords := by
  rw [classify_eq] at h
  unfold denote at h
  split at h
  · cases h
  · rename_i hfind
    simpa using List.find?_eq_none.1 hfind key hkey

/-! ## Classified children -/

lemma exists_of_mem_getD {α : Type} {o : Option (List α)} {a : α} (h : a ∈ o.getD []) :
    ∃ as, o = some as ∧ a ∈ as := by
  cases o with
  | none => exact absurd h List.not_mem_nil
  | some as => exact ⟨as, rfl, h⟩

lemma exists_of_children_properties {entries : List (String × Schema)}
    (h : node.children.properties = .ok entries) {n : Node} (hn : n ∈ node.parts .properties) :
    ∃ s', classify n = .ok s' := by
  obtain ⟨named, hnamed, rfl⟩ := List.mem_map.1 hn
  obtain ⟨entry, _, _, hclassify⟩ := exists_of_forall₂ (children_properties_eq_ok.1 h).flip hnamed
  exact ⟨entry.2, hclassify⟩

lemma exists_of_children_allOf {members : Option (List Member)}
    (h : node.children.allOf = .ok members) {n : Node} (hn : n ∈ node.parts .allOf) :
    ∃ s', classify n = .ok s' := by
  obtain ⟨nodes, hnodes, hmem⟩ := exists_of_mem_getD hn
  have hrel := children_allOf_eq_ok.1 h
  rw [hnodes] at hrel
  cases hrel with
  | some hall =>
    obtain ⟨m, _, hm⟩ := exists_of_forall₂ hall.flip hmem
    obtain ⟨s', hclassify, _⟩ := bind_eq_ok.1 hm
    exact ⟨s', hclassify⟩

lemma exists_of_classified_list {ns : List Node} {ss : List Schema}
    (h : List.Forall₂ (fun n s => classify n = .ok s) ns ss) {n : Node} (hn : n ∈ ns) :
    ∃ s', classify n = .ok s' := by
  obtain ⟨s', _, hclassify⟩ := exists_of_forall₂ h.flip hn
  exact ⟨s', hclassify⟩

/-- The parts that an object schema has are classified. -/
lemma exists_of_denoteObject {o : ObjectSchema} (h : node.denoteObject node.children = .ok o)
    {k : Keyword} (hk : k = .properties ∨ k = .allOf) {n : Node} (hn : n ∈ node.parts k) :
    ∃ s', classify n = .ok s' := by
  simp only [denoteObject, bind_eq_ok] at h
  obtain ⟨entries, hentries, members, hmembers, _⟩ := h
  rcases hk with rfl | rfl
  · exact exists_of_children_properties hentries hn
  · exact exists_of_children_allOf hmembers hn

/-- The children of a classified node are classified, apart from items beside a composition. -/
theorem exists_of_mem_parts (h : classify node = .ok s) {k : Keyword}
    (hk : ¬(k = .items ∧ node.gives .allOf = true)) {n : Node} (hn : n ∈ node.parts k) :
    ∃ s', classify n = .ok s' := by
  have hgives : node.gives k = true := by
    by_contra hnot
    rw [parts_of_not_gives (Bool.eq_false_of_not_eq_true hnot)] at hn
    exact absurd hn List.not_mem_nil
  have hlacks {ks : List Keyword} (alone : node.Lacks ks) : k ∉ ks := fun hmem =>
    absurd hgives (by simp [alone k hmem])
  cases k with
  | id | ref | type | required | enum => exact absurd hn List.not_mem_nil
  | properties =>
    cases classifiedAs_of_classify h with
    | extension _ _ _ object | composition _ _ object | object _ object =>
      exact exists_of_denoteObject object (.inl rfl) hn
    | reference _ alone | alternatives _ alone | array alone | primitive alone | multiType alone =>
      exact (hlacks alone (by simp)).elim
  | allOf =>
    cases classifiedAs_of_classify h with
    | composition _ _ object => exact exists_of_denoteObject object (.inr rfl) hn
    | reference _ alone | alternatives _ alone | array alone | primitive alone | multiType alone
    | extension _ _ alone | object alone =>
      exact (hlacks alone (by simp)).elim
  | anyOf =>
    cases classifiedAs_of_classify h with
    | alternatives _ _ anyOf_ok =>
      exact exists_of_classified_list (children_anyOf_eq_ok.1 anyOf_ok) hn
    | reference _ alone | array alone | primitive alone | multiType alone | extension _ _ alone
    | object alone | composition _ alone =>
      exact (hlacks alone (by simp)).elim
  | items =>
    cases classifiedAs_of_classify h with
    | array _ items_ok => exact exists_of_classified_list (children_items_eq_ok.1 items_ok) hn
    | composition allOf => exact (hk ⟨rfl, allOf⟩).elim
    | reference _ alone | alternatives _ alone | primitive alone | multiType alone
    | extension _ _ alone | object alone =>
      exact (hlacks alone (by simp)).elim

end

/-! ## The ways to denote a schema -/

/-- How a node denotes a schema. -/
inductive Denotes (node : Node) : Schema → Prop
  | object {o : ObjectSchema} (exclusive : node.ref = none ∨ node.allOf = none)
    (object : node.denoteObject node.children = .ok o) : Denotes node (.object o)
  | array {items : List Schema} (items_ok : node.children.items = .ok items) :
    Denotes node (.array items)
  | primitive {kind : Kind} {enum : Option (List Literal)}
    (enum_ok : enumValues kind node.enum = .ok enum) :
    Denotes node (.primitive ⟨node.id, kind, enum⟩)
  | multiType {types : List String} {kinds : List Kind} (several : 2 ≤ types.length)
    (kinds_ok : kindsOf types = .ok kinds) : Denotes node (.multiType kinds)
  | anyOf {alternatives : List Schema} (anyOf_ok : node.children.anyOf = .ok alternatives) :
    Denotes node (.anyOf alternatives)
  | ref {target : String} (ref_eq : node.ref = some target) : Denotes node (.ref target)

/-- A node that is classified denotes its schema in one of the ways. -/
theorem denotes_of_classify {node : Node} {s : Schema} (h : classify node = .ok s) :
    node.Denotes s := by
  cases classifiedAs_of_classify h with
  | reference ref => exact .ref ref
  | extension _ _ alone object =>
    have hallOf : node.gives .allOf = false := alone .allOf (by simp)
    exact .object (.inr (Option.isSome_eq_false_iff.1 hallOf |> Option.isNone_iff_eq_none.1)) object
  | alternatives _ _ anyOf_ok => exact .anyOf anyOf_ok
  | composition _ alone object | object alone object =>
    have href : node.gives .ref = false := alone .ref (by simp)
    exact .object (.inl (Option.isSome_eq_false_iff.1 href |> Option.isNone_iff_eq_none.1)) object
  | array _ items_ok => exact .array items_ok
  | primitive _ enum_ok => exact .primitive enum_ok
  | multiType _ several kinds_ok => exact .multiType several kinds_ok

/-! ## Well-formed schemas -/

lemma literal?_eq_some {kind : Kind} {v : Json} {l : Literal} (hv : v.Valid)
    (h : literal? kind v = some l) : l.kind = kind ∧ l.Valid := by
  unfold literal? at h
  split at h <;> try cases h
  case h_1 | h_2 | h_6 => exact ⟨rfl, trivial⟩
  case h_3 n =>
    split at h
    · rename_i hn
      cases h
      exact ⟨rfl, hn⟩
    · cases h
  case h_4 n =>
    cases hv with
    | integer low high => exact ⟨rfl, Binary64.isFinite_ofInt low high⟩
  case h_5 x =>
    cases hv with
    | float finite => exact ⟨rfl, finite⟩

lemma literals_eq_ok {kind : Kind} {i : Nat} {values : List Json} {ls : List Literal} :
    literals kind i values = .ok ls ↔
      List.Forall₂ (fun v l => literal? kind v = some l) values ls := by
  induction values generalizing i ls with
  | nil => cases ls <;> simp [literals]
  | cons v values ih =>
    unfold literals
    cases h : literal? kind v with
    | none => cases ls <;> simp [h]
    | some l => cases ls <;> simp [h, ih, and_comm]

lemma kindsOf_length {types : List String} {kinds : List Kind} (h : kindsOf types = .ok kinds) :
    kinds.length = types.length := by
  induction types generalizing kinds with
  | nil =>
    cases h
    rfl
  | cons type types ih =>
    unfold kindsOf at h
    split at h
    · cases h
    · simp only [bind_eq_ok, pure_eq_ok] at h
      obtain ⟨kind, _, kinds, hkinds, rfl⟩ := h
      rw [List.length_cons, List.length_cons, ih hkinds]

lemma wellFormed_of_enumValues {id : Option String} {kind : Kind} {enum : Option (List Json)}
    {listed : Option (List Literal)} (henum : ∀ values, enum = some values → ∀ v ∈ values, v.Valid)
    (h : enumValues kind enum = .ok listed) : PrimitiveSchema.WellFormed ⟨id, kind, listed⟩ := by
  unfold enumValues at h
  split at h
  case h_1 =>
    cases h
    exact nofun
  case h_2 => cases h
  case h_3 values hvalues =>
    rw [map_eq_ok] at h
    obtain ⟨ls, hls, rfl⟩ := h
    rintro _ ⟨⟩
    have hall := literals_eq_ok.1 hls
    refine ⟨?_, fun l hl => ?_⟩
    · rintro rfl
      cases hall
      exact hvalues rfl
    · obtain ⟨v, hv, hvl⟩ := exists_of_forall₂ hall hl
      exact literal?_eq_some (henum values rfl v hv) hvl

lemma wellFormed_of_memberOf {s : Schema} {inner : ObjectSchema} (hs : s.WellFormed)
    (h : memberOf s = .ok (.inline inner)) : inner.base = none ∧ inner.WellFormed := by
  obtain ⟨rfl, hbase⟩ := memberOf_eq_inline.1 h
  cases hs with
  | object h => exact ⟨hbase, h⟩

/-- The object schema of a node is well formed if the node has distinct property names, does not
have both a reference and a composition, and has children that denote well-formed schemas. -/
lemma wellFormed_of_denoteObject {node : Node} {o : ObjectSchema}
    (exclusive : node.ref = none ∨ node.allOf = none)
    (distinct : ∀ nodes, node.properties = some nodes → (nodes.map Prod.fst).Nodup)
    (properties : ∀ nodes, node.properties = some nodes → ∀ entry ∈ nodes,
      ∀ s, classify entry.2 = .ok s → s.WellFormed)
    (allOf : ∀ nodes, node.allOf = some nodes → ∀ n ∈ nodes,
      ∀ s, classify n = .ok s → s.WellFormed)
    (h : node.denoteObject node.children = .ok o) : o.WellFormed := by
  simp only [denoteObject, bind_eq_ok, pure_eq_ok, children_properties_eq_ok,
    children_allOf_eq_ok] at h
  obtain ⟨entries, hentries, members, hmembers, rfl⟩ := h
  have hmember : ∀ ms, members = some ms → ∀ inner, .inline inner ∈ ms →
      inner.base = none ∧ inner.WellFormed := by
    rintro ms rfl inner hinner
    generalize hnodes : node.allOf = nodes at hmembers
    cases hmembers with
    | some hall =>
      obtain ⟨n, hn, s, hs, hsm⟩ := exists_of_forall₂ hall hinner
      exact wellFormed_of_memberOf (allOf _ hnodes n hn s hs) hsm
  refine .intro ?exclusive ?distinct ?properties ?required ?unbased ?members
  case exclusive =>
    refine exclusive.imp_right fun hallOf => ?_
    rw [hallOf] at hmembers
    cases hmembers
    rfl
  case distinct =>
    show (entries.map Prod.fst).Nodup
    rw [← map_fst_eq_of_forall₂ hentries]
    cases hnodes : node.properties with
    | none => exact List.nodup_nil
    | some nodes => exact distinct nodes hnodes
  case properties =>
    intro entry hentry
    obtain ⟨n, hn, _, hs⟩ := exists_of_forall₂ hentries hentry
    obtain ⟨nodes, hnodes, hmem⟩ := exists_of_mem_getD hn
    exact properties nodes hnodes n hmem _ hs
  case required =>
    intro names hnames
    obtain ⟨listed, _, rfl⟩ := Option.map_eq_some_iff.1 hnames
    exact nodup_firstOccurrences listed
  case unbased => exact fun ms hms inner hinner => (hmember ms hms inner hinner).1
  case members => exact fun ms hms inner hinner => (hmember ms hms inner hinner).2

/-- Whatever a valid node denotes is well formed. -/
theorem classify_wellFormed {node : Node} (hnode : node.Valid) :
    ∀ s, classify node = .ok s → s.WellFormed := by
  -- the last four names are the induction hypotheses, on the children
  induction hnode with
  | @intro node distinct _ _ _ _ enum properties allOf anyOf items =>
    intro s h
    cases denotes_of_classify h with
    | object exclusive hobject =>
      exact .object (wellFormed_of_denoteObject exclusive distinct properties allOf hobject)
    | array hitems =>
      refine .array fun s hs => ?_
      obtain ⟨n, hn, hns⟩ := exists_of_forall₂ (children_items_eq_ok.1 hitems) hs
      obtain ⟨_, hlisted, hmem⟩ := exists_of_mem_getD hn
      obtain ⟨nodes, hnodes, rfl⟩ := Option.map_eq_some_iff.1 hlisted
      exact items nodes hnodes n hmem s hns
    | primitive henum => exact .primitive (wellFormed_of_enumValues enum henum)
    | multiType several hkinds => exact .multiType (kindsOf_length hkinds ▸ several)
    | anyOf hanyOf =>
      refine .anyOf fun s hs => ?_
      obtain ⟨n, hn, hns⟩ := exists_of_forall₂ (children_anyOf_eq_ok.1 hanyOf) hs
      obtain ⟨nodes, hnodes, hmem⟩ := exists_of_mem_getD hn
      exact anyOf nodes hnodes n hmem s hns
    | ref => exact .ref _

end Node
end TypedSchema
