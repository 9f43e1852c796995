import TypedSchema.Proofs.Declaration.Record
import TypedSchema.Proofs.Schema.Name

/-!
# A declaration is referred to by its name

A declaration is named when it is built, and a reference when it is resolved or becomes a base.
None of these asks the others: each takes the local name of its own text, an identifier or a target.
`declared_as_referred` says that they meet, that is that a reference is to the name of a declaration
exactly if identifier and target have the same local part, and that a declaration is built under an
identifier only if the local part is not empty.
-/

namespace TypedSchema

/-- Two texts have a local part in common. -/
def SameLocalPart (id target : String) : Prop :=
  ∃ name, IsLocalPart id name ∧ IsLocalPart target name

/-- A record or an enumeration with this identifier is built under this name. -/
inductive DeclaredAs (id : String) : String → Prop
  | record {o : ObjectSchema} {r : Record} (id_eq : o.id = some id)
    (built : o.buildRecord.outcome = .ok r) : DeclaredAs id r.name
  | enum {p : PrimitiveSchema} {e : Enumeration} (id_eq : p.id = some id)
    (built : p.buildEnum.outcome = .ok e) : DeclaredAs id e.name

/-- The targets of the references that become bases: beside the properties, and among the members
of a composition. -/
def ObjectSchema.targets (o : ObjectSchema) : List String :=
  o.base.toList ++ (o.allOf.getD []).filterMap Member.target?

lemma ObjectSchema.baseNames_eq (o : ObjectSchema) : o.baseNames = o.targets.map localName := rfl

lemma localName_of_declaredName {what : Declared} {text : Option String} {id name : String}
    (hid : text = some id) (h : declaredName what text = .ok name) :
    name = localName id ∧ localName id ≠ "" := by
  obtain ⟨_, hsome, hne, hname⟩ := ObjectSchema.declaredName_eq_ok.1 h
  cases hid.symm.trans hsome
  exact ⟨hname, hne⟩

/-- Whatever is declared under an identifier gets its local name. -/
lemma DeclaredAs.eq_localName {id name : String} (h : DeclaredAs id name) :
    name = localName id ∧ localName id ≠ "" := by
  cases h with
  | record id_eq built =>
    obtain ⟨_, _, hname, -, rfl⟩ := ObjectSchema.buildRecord_eq_ok.1 built
    exact localName_of_declaredName id_eq hname
  | enum id_eq built =>
    obtain ⟨_, _, hname, -, -, rfl⟩ := PrimitiveSchema.buildEnum_eq_ok.1 built
    exact localName_of_declaredName id_eq hname

/-- A name that is not empty declares; it takes an object without properties. -/
lemma declaredAs_localName {id : String} (h : localName id ≠ "") :
    DeclaredAs id (localName id) := by
  have hname : declaredName .object (some id) = .ok (localName id) :=
    ObjectSchema.declaredName_eq_ok.2 ⟨id, rfl, h, rfl⟩
  have hbuilt : (ObjectSchema.named id).buildRecord.outcome = .ok ⟨localName id, [], []⟩ :=
    ObjectSchema.buildRecord_eq_ok.2 ⟨_, _, hname, rfl, rfl⟩
  exact .record rfl hbuilt

/-- The names of a declaration and of a reference agree if their texts have a common local part. -/
lemma DeclaredAs.eq_localName_iff {id name target : String} (h : DeclaredAs id name) :
    name = localName target ↔ SameLocalPart id target := by
  rw [h.eq_localName.1, localName_eq_localName_iff, SameLocalPart]

/-- **A reference is to a declaration exactly if target and identifier have the same local part.**
The local part is the longest ending without `#` and `/`, as two cuts leave it; references that are
types and references that are bases follow it alike. -/
theorem declared_as_referred :
    (∀ id name, localName id = name ↔ IsLocalPart id name) ∧
    (∀ id, (localName id).toList = Text.behindLast '/' (Text.behindLast '#' id.toList)) ∧
    (∀ id, localName (localName id) = localName id) ∧
    (∀ id, localName id ≠ "" ↔ ∃ name, DeclaredAs id name) ∧
    (∀ id name target, DeclaredAs id name →
      ∃ referred, (Schema.ref target).resolve.outcome = .ok (.named referred) ∧
        (name = referred ↔ SameLocalPart id target)) ∧
    (∀ id name (o : ObjectSchema) (r : Record), DeclaredAs id name →
      o.buildRecord.outcome = .ok r →
        List.Forall₂ (fun target base => name = base ↔ SameLocalPart id target)
          o.targets r.bases) := by
  refine ⟨fun _ _ => localName_eq_iff, toList_localName, localName_localName, fun id => ?_,
    fun id name target h => ?_, fun id name o r h hbuilt => ?_⟩
  · constructor
    · exact fun hne => ⟨_, declaredAs_localName hne⟩
    · rintro ⟨_, h⟩
      exact h.eq_localName.2
  · exact ⟨localName target, rfl, h.eq_localName_iff⟩
  · obtain ⟨_, _, -, -, rfl⟩ := ObjectSchema.buildRecord_eq_ok.1 hbuilt
    show List.Forall₂ _ o.targets o.baseNames
    rw [o.baseNames_eq, List.forall₂_map_right_iff, List.forall₂_same]
    exact fun target _ => h.eq_localName_iff

/-- A record whose bases are named in two ways. -/
def dog : ObjectSchema :=
  { id := some "#Dog"
    base := some "#Pet"
    allOf := some [.ref "animals.json#/definitions/Animal"] }

/-- Values with a name. -/
def color : PrimitiveSchema :=
  { id := some "#Color", kind := .string, enum := some [.string "red", .string "blue"] }

theorem declared_as_referred_dog :
    DeclaredAs "pets.json#/definitions/Pet" "Pet" ∧
      dog.buildRecord.outcome = .ok ⟨"Dog", ["Pet", "Animal"], []⟩ ∧
      SameLocalPart "pets.json#/definitions/Pet" "#Pet" ∧
      ¬SameLocalPart "pets.json#/definitions/Pet" "animals.json#/definitions/Animal" ∧
      DeclaredAs "#Color" "Color" ∧
      (Schema.ref "kinds.json#/Color").resolve.outcome = .ok (.named "Color") ∧
      SameLocalPart "#Color" "kinds.json#/Color" := by
  have hpet : DeclaredAs "pets.json#/definitions/Pet" "Pet" :=
    .record (o := .named "pets.json#/definitions/Pet") (r := ⟨"Pet", [], []⟩) rfl rfl
  have hdog : dog.buildRecord.outcome = .ok ⟨"Dog", ["Pet", "Animal"], []⟩ := rfl
  have hcolor : DeclaredAs "#Color" "Color" :=
    .enum (p := color) (e := ⟨"Color", [.string "red", .string "blue"]⟩) rfl rfl
  have hresolved : (Schema.ref "kinds.json#/Color").resolve.outcome = .ok (.named "Color") := rfl
  obtain ⟨-, -, -, -, htypes, hbases⟩ := declared_as_referred
  have hshared : SameLocalPart "#Color" "kinds.json#/Color" := by
    obtain ⟨referred, hreferred, hiff⟩ := htypes "#Color" "Color" "kinds.json#/Color" hcolor
    cases hresolved.symm.trans hreferred
    exact hiff.1 rfl
  cases hbases _ _ _ _ hpet hdog with
  | cons hsame hrest =>
    cases hrest with
    | cons hother =>
      exact ⟨hpet, hdog, hsame.1 rfl, fun h => absurd (hother.2 h) (by decide), hcolor, hresolved,
        hshared⟩

end TypedSchema
