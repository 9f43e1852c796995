import TypedSchema.Proofs.Declaration.Module
import TypedSchema.Proofs.Schema.Coverage

/-!
# Which fields of a composed record are required

A required name of a composition passes four stages before it marks a field: the node of a member,
the member itself, the merge of the inline members, and the field.
`Document.required_iff_of_composition` says which names arrive: those on the `required` list of a
member without a `$ref`.  A list beside a `$ref` gets lost on the way, because a member that refers
to a declared type has no place for it.
-/

namespace TypedSchema

/-- A schema node has a list of required names with this one on it. -/
def Json.Requires (v : Json) (name : String) : Prop :=
  ∃ names, v.under .required = .array names ∧ .string name ∈ names

/-! ## From nodes to members -/

namespace Node

lemma mem_required_iff {v : Json} {node : Node} (hv : v.Valid) (h : read v = .ok node)
    (name : String) : name ∈ node.required.getD [] ↔ v.Requires name := by
  have hreads := reads_entry hv h (k := .required) nofun
  unfold Json.Requires
  rw [entry] at hreads
  generalize v.under .required = value at hreads
  generalize node.required = required at hreads
  cases hreads with
  | null => simp
  | required names => simp

/-- The required names of an inline member are those of its node; a member that is a reference comes
from a node with a reference, and has none. -/
lemma requires_of_member {node : Node} {m : Member} (h : (classify node >>= memberOf) = .ok m)
    (name : String) :
    (∃ inner, m.inline? = some inner ∧ name ∈ inner.required.getD []) ↔
      node.gives .ref = false ∧ name ∈ node.required.getD [] := by
  obtain ⟨s, hs, hm⟩ := bind_eq_ok.1 h
  cases m with
  | ref target =>
    have href : node.gives .ref = true := by
      rcases memberOf_eq_ref.1 hm with rfl | ⟨required, rfl⟩
      · cases classifiedAs_of_classify hs with
        | reference ref => exact gives_ref ref
      · exact gives_ref (base_of_denoteObject (denoteObject_of_classify hs)).symm
    simp [Member.inline?, href]
  | inline inner =>
    obtain ⟨rfl, hbase⟩ := memberOf_eq_inline.1 hm
    have hobject := denoteObject_of_classify hs
    have href : node.gives .ref = false := by
      rw [gives, entry, (base_of_denoteObject hobject).symm.trans hbase]
      rfl
    simp only [Member.inline?, Option.some.injEq, exists_eq_left', href, true_and,
      required_of_denoteObject hobject]
    cases node.required <;> simp [mem_firstOccurrences]

end Node

/-! ## From members to fields -/

namespace ObjectSchema

/-- A field of an object is required if its name is on the object's list. -/
lemma required_iff_of_fields {record : String} {o : ObjectSchema} {fields : List Field}
    (h : (o.fields record).outcome = .ok fields) {f : Field} (hf : f ∈ fields) :
    f.required = true ↔ f.name ∈ o.required.getD [] := by
  obtain ⟨entry, -, hname, -, hrequired⟩ := exists_of_forall₂ (fields_eq_ok.1 h) hf
  rw [hrequired, hname, isRequired, List.contains_iff_mem]

/-- The lists of a composition are those of its inline members; its own properties bring none. -/
lemma exists_inlineObject_iff {o : ObjectSchema} {members : List Member} {name : String} :
    (∃ inner ∈ o.inlineObjects members, name ∈ inner.required.getD []) ↔
      ∃ m ∈ members, ∃ inner, m.inline? = some inner ∧ name ∈ inner.required.getD [] := by
  constructor
  · rintro ⟨inner, hinner, hname⟩
    rcases mem_inlineObjects.1 hinner with ⟨-, rfl⟩ | hmember
    · exact absurd hname List.not_mem_nil
    · exact ⟨.inline inner, hmember, inner, rfl, hname⟩
  · rintro ⟨m, hm, inner, hinline, hname⟩
    exact ⟨inner, List.mem_append_right _ (List.mem_filterMap.2 ⟨m, hm, hinline⟩), hname⟩

/-- A field of a composed record is required if an inline member lists its name. -/
lemma required_iff_of_buildRecord {o : ObjectSchema} {members : List Member}
    (hallOf : o.allOf = some members) {r : Record} (h : o.buildRecord.outcome = .ok r) {f : Field}
    (hf : f ∈ r.fields) :
    f.required = true ↔
      ∃ m ∈ members, ∃ inner, m.inline? = some inner ∧ f.name ∈ inner.required.getD [] := by
  obtain ⟨name, fields, -, hfields, rfl⟩ := buildRecord_eq_ok.1 h
  rcases recordFields_eq_ok.1 hfields with ⟨hplain, -⟩ | ⟨ms, hms, -, hmerged⟩
  · cases hallOf.symm.trans hplain
  cases hallOf.symm.trans hms
  rcases hmerged with ⟨-, rfl⟩ | ⟨merged, hmerge, hfields⟩
  · exact absurd hf List.not_mem_nil
  · obtain ⟨-, -, properties, -, rfl⟩ := merge_eq_ok.1 hmerge
    rw [required_iff_of_fields hfields hf, mem_allRequired, ← exists_inlineObject_iff (o := o)]
    simp

end ObjectSchema

/-! ## From documents to fields -/

/-- The members of a composition correspond to the schema nodes of its `allOf`. -/
lemma Node.exists_members_of_holds {v : Json} {node : Node} {o : ObjectSchema} (hv : v.Valid)
    (hread : read v = .ok node) (hclassify : classify node = .ok (.object o))
    (hallOf : v.Gives .allOf) :
    ∃ nodes members, o.allOf = some members ∧
      List.Forall₂ (fun w n => read w = .ok n) (v.parts .allOf) nodes ∧
      List.Forall₂ (fun n m => (classify n >>= memberOf) = .ok m) nodes members := by
  have hgives : node.allOf.isSome = true := (gives_iff hv hread (k := .allOf) nofun).2 hallOf
  obtain ⟨nodes, hnodes⟩ := Option.isSome_iff_exists.1 hgives
  have hparts := forall₂_parts hv hread (k := .allOf) nofun
  rw [parts, entry, hnodes] at hparts
  have hmembers := allOf_of_denoteObject (denoteObject_of_classify hclassify)
  rw [hnodes] at hmembers
  generalize hall : o.allOf = allOf at hmembers
  cases hmembers with
  | some hmember => exact ⟨nodes, _, rfl, hparts, hmember⟩

/-- A field of a composed record is required if and only if its name is on the `required` list of a
member without a reference. -/
theorem Document.required_iff_of_composition {v : Json} {path : String} {o : ObjectSchema}
    {r : Record} (hv : v.Valid) (hallOf : v.Gives .allOf)
    (h : Document.schemaOf v path = .ok (.object o)) (hr : o.buildRecord.outcome = .ok r)
    {f : Field} (hf : f ∈ r.fields) :
    f.required = true ↔ ∃ w ∈ v.parts .allOf, ¬w.Gives .ref ∧ w.Requires f.name := by
  obtain ⟨node, hread, hclassify⟩ := Document.schemaOf_eq_ok.1 h
  obtain ⟨nodes, members, hmembers, hparts, hclassified⟩ :=
    Node.exists_members_of_holds hv hread hclassify hallOf
  have hpart : ∀ w ∈ v.parts .allOf, ∀ n, Node.read w = .ok n →
      ((¬w.Gives .ref ∧ w.Requires f.name) ↔
        n.gives .ref = false ∧ f.name ∈ n.required.getD []) := by
    intro w hw n hn
    rw [← Node.gives_iff (hv.parts hw) hn (k := .ref) nofun, Bool.not_eq_true,
      Node.mem_required_iff (hv.parts hw) hn]
  have hmember : ∀ n ∈ nodes, ∀ m, (n.classify >>= Node.memberOf) = .ok m →
      ((n.gives .ref = false ∧ f.name ∈ n.required.getD []) ↔
        ∃ inner, m.inline? = some inner ∧ f.name ∈ inner.required.getD []) :=
    fun n _ m hm => (Node.requires_of_member hm f.name).symm
  rw [ObjectSchema.required_iff_of_buildRecord hmembers hr hf]
  exact ((exists_mem_iff_of_forall₂ hparts hpart).trans
    (exists_mem_iff_of_forall₂ hclassified hmember)).symm

/-- A composition whose properties are required beside them: one by an inline member, the other
beside a reference. -/
def Document.sides : Json :=
  .object [("id", .string "#Foo"), ("allOf", .array [
    .object [("properties", .object [
      ("a", .object [("type", .string "integer")]), ("b", .object [("type", .string "string")])])],
    .object [("type", .string "object"), ("required", .array [.string "a"])],
    .object [("$ref", .string "#Bar"), ("required", .array [.string "b"])]])]

/-- The schema that it denotes. -/
def Document.sidesSchema : ObjectSchema :=
  { id := some "#Foo"
    allOf := some [
      .inline { properties := [("a", .ofKind .integer), ("b", .ofKind .string)] },
      .inline { required := some ["a"] },
      .ref "#Bar"] }

/-- The record that it declares. -/
def Document.sidesRecord : Record :=
  ⟨"Foo", ["Bar"], [⟨"a", .primitive .integer, true⟩, ⟨"b", .primitive .string, false⟩]⟩

lemma Document.sides_valid : Document.sides.Valid := by
  have htext (key value : String) : (Json.object [(key, .string value)]).Valid :=
    valid_singleton (.string value)
  have hnames (name : String) : (Json.array [.string name]).Valid :=
    .array (List.forall_mem_singleton.2 (.string name))
  have hproperties : (Json.object [("a", .object [("type", .string "integer")]),
      ("b", .object [("type", .string "string")])]).Valid :=
    .object (by decide) (List.forall_mem_cons.2
      ⟨htext _ _, List.forall_mem_singleton.2 (htext _ _)⟩)
  have hrequiring (key value name : String) (hkey : key ≠ "required") :
      (Json.object [(key, .string value), ("required", .array [.string name])]).Valid :=
    .object (by simpa using hkey) (List.forall_mem_cons.2
      ⟨.string value, List.forall_mem_singleton.2 (hnames name)⟩)
  have hdeclaring : (Json.object [("properties", _)]).Valid := valid_singleton hproperties
  have hmembers := List.forall_mem_cons.2 ⟨hdeclaring,
    List.forall_mem_cons.2 ⟨hrequiring "type" "object" "a" (by decide),
      List.forall_mem_singleton.2 (hrequiring "$ref" "#Bar" "b" (by decide))⟩⟩
  exact .object (by decide) (List.forall_mem_cons.2
    ⟨.string "#Foo", List.forall_mem_singleton.2 (.array hmembers)⟩)

lemma Document.schemaOf_sides (path : String) :
    Document.schemaOf Document.sides path = .ok (.object Document.sidesSchema) := rfl

lemma Document.buildRecord_sides :
    Document.sidesSchema.buildRecord.outcome = .ok Document.sidesRecord := rfl

theorem Document.required_iff_of_composition_sides :
    Document.sides.Valid ∧ Document.sides.Gives .allOf ∧
      Document.schemaOf Document.sides "" = .ok (.object Document.sidesSchema) ∧
      Document.sidesSchema.buildRecord.outcome = .ok Document.sidesRecord ∧
      (∃ w ∈ Document.sides.parts .allOf, ¬w.Gives .ref ∧ w.Requires "a") ∧
      ¬∃ w ∈ Document.sides.parts .allOf, ¬w.Gives .ref ∧ w.Requires "b" := by
  have hallOf : Document.sides.Gives .allOf := nofun
  refine ⟨Document.sides_valid, hallOf, rfl, rfl, ?_, ?_⟩
  · exact (Document.required_iff_of_composition Document.sides_valid hallOf
      (Document.schemaOf_sides "") Document.buildRecord_sides
      (f := ⟨"a", .primitive .integer, true⟩) List.mem_cons_self).1 rfl
  · refine mt (Document.required_iff_of_composition Document.sides_valid hallOf
      (Document.schemaOf_sides "") Document.buildRecord_sides
      (f := ⟨"b", .primitive .string, false⟩)
      (List.mem_cons_of_mem _ List.mem_cons_self)).2 Bool.false_ne_true

/-- A list can get lost: what is required beside a reference marks no field. -/
theorem Document.required_beside_ref_lost :
    ¬∀ (v : Json) (path : String) (o : ObjectSchema) (r : Record), v.Valid → v.Gives .allOf →
      Document.schemaOf v path = .ok (.object o) → o.buildRecord.outcome = .ok r →
      ∀ f ∈ r.fields, f.required = true ↔ ∃ w ∈ v.parts .allOf, w.Requires f.name := by
  intro h
  have hfield : ⟨"b", .primitive .string, false⟩ ∈ Document.sidesRecord.fields :=
    List.mem_cons_of_mem _ List.mem_cons_self
  have hmember : ∃ w ∈ Document.sides.parts .allOf, w.Requires "b" :=
    ⟨_, List.mem_cons_of_mem _ (List.mem_cons_of_mem _ List.mem_cons_self),
      [.string "b"], rfl, List.mem_cons_self⟩
  exact Bool.false_ne_true ((h Document.sides "" Document.sidesSchema Document.sidesRecord
    Document.sides_valid nofun rfl rfl _ hfield).2 hmember)

end TypedSchema
