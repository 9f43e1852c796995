import Mathlib.Data.Set.Defs
import TypedSchema.Declaration.Json
import TypedSchema.Proofs.Induction
import TypedSchema.Proofs.Outcome
import TypedSchema.Proofs.Schema.Equality
import TypedSchema.Schema.Name

/-!
# What schemas and types accept

A schema and a type are both read as sets of JSON values (`Schema.Accepts`, `Ty.Accepts`), over an
arbitrary `Interpretation` of what references refer to and of the values of each kind.  Neither
reading knows of the other, and neither mentions how types are resolved or schemas merged.

A literal is read up to `==`: the two zeros are one number, but an integer is not a number with a
point.  Types that are equal, and schemas that are equal up to order, accept the same values
(`Ty.accepts_of_beq`, `Schema.accepts_of_beq`).
-/

namespace TypedSchema

/-- What references refer to, and the values of each kind. -/
structure Interpretation where
  ref : String → Set Json
  kind : Kind → Set Json

/-- The same interpretation for references that are read by their local names. -/
def Interpretation.byLocalName (I : Interpretation) : Interpretation where
  ref target := I.ref (localName target)
  kind := I.kind

/-- Every kind with its usual values, and every reference to a declaration of any value. -/
def Interpretation.usual : Interpretation where
  ref _ := Set.univ
  kind
    | .boolean => {v | ∃ b, v = .bool b}
    | .integer => {v | ∃ n, v = .integer n}
    | .number => {v | (∃ n, v = .integer n) ∨ ∃ x, v = .float x}
    | .string => {v | ∃ s, v = .string s}
    | .null => {.null}

/-- The values that a literal lists: its own value, however a number is written. -/
def Literal.Lists (l : Literal) (v : Json) : Prop := ∃ m : Literal, (l == m) = true ∧ v = m.toJson

/-- The values that some listed literals list. -/
def Literal.ListedIn (values : List Literal) (v : Json) : Prop := ∃ l ∈ values, l.Lists v

section
variable (I : Interpretation)

/-! ## Types -/

mutual

/-- Whether a value is one of a type. -/
def Ty.Accepts : Ty → Json → Prop
  | .primitive kind, v => v ∈ I.kind kind
  | .named name, v => v ∈ I.ref name
  | .anyObject, v => ∃ members, v = .object members
  | .listOf element, v => ∃ items, v = .array items ∧ ∀ w ∈ items, element.Accepts w
  | .unionOf members, v => Ty.SomeAccepts members v
  | .literalEnum values, v => Literal.ListedIn values v

/-- Whether a value is one of some type of a list. -/
def Ty.SomeAccepts : List Ty → Json → Prop
  | [], _ => False
  | t :: rest, v => t.Accepts v ∨ Ty.SomeAccepts rest v

end

/-! ## Schemas -/

mutual

/-- Whether a value satisfies a schema. -/
def Schema.Accepts : Schema → Json → Prop
  | .object o, v => o.Accepts v
  | .array items, v => ∃ values, v = .array values ∧ ∀ w ∈ values, Schema.SomeAccepts items w
  | .primitive p, v =>
    if p.isEnumerable then Literal.ListedIn (p.enum.getD []) v else v ∈ I.kind p.kind
  | .multiType kinds, v => ∃ kind ∈ kinds, v ∈ I.kind kind
  | .anyOf alternatives, v => Schema.SomeAccepts alternatives v
  | .ref target, v => v ∈ I.ref target

/-- Whether a value is an object that satisfies what an object schema says: the base, the schemas of
the properties that it has, the required names, and every member of a composition. -/
def ObjectSchema.Accepts : ObjectSchema → Json → Prop
  | ⟨_, base, properties, required, allOf⟩, v =>
    ∃ members, v = .object members ∧
      (∀ target, base = some target → v ∈ I.ref target) ∧
      Schema.PropertiesAccept properties members ∧
      (∀ name ∈ required.getD [], name ∈ members.map Prod.fst) ∧
      (match allOf with
        | none => True
        | some parts => Member.AllAccept parts v)

/-- Whether a value satisfies a member of a composition. -/
def Member.Accepts : Member → Json → Prop
  | .ref target, v => v ∈ I.ref target
  | .inline o, v => o.Accepts v

/-- Whether a value satisfies all members of a composition. -/
def Member.AllAccept : List Member → Json → Prop
  | [], _ => True
  | m :: rest, v => m.Accepts v ∧ Member.AllAccept rest v

/-- Whether a value satisfies some schema of a list. -/
def Schema.SomeAccepts : List Schema → Json → Prop
  | [], _ => False
  | s :: rest, v => s.Accepts v ∨ Schema.SomeAccepts rest v

/-- Whether the members of an object that have a declared name satisfy its schema. -/
def Schema.PropertiesAccept : List (String × Schema) → List (String × Json) → Prop
  | [], _ => True
  | (name, s) :: rest, members =>
    (∀ w, members.lookup name = some w → s.Accepts w) ∧ Schema.PropertiesAccept rest members

end

end

/-! ## Lists of types and schemas -/

lemma Ty.someAccepts_iff {I : Interpretation} {ts : List Ty} {v : Json} :
    Ty.SomeAccepts I ts v ↔ ∃ t ∈ ts, t.Accepts I v := by
  induction ts with
  | nil => simp [Ty.SomeAccepts]
  | cons t rest ih => rw [Ty.SomeAccepts, ih, List.exists_mem_cons_iff]

lemma Schema.someAccepts_iff {I : Interpretation} {ss : List Schema} {v : Json} :
    Schema.SomeAccepts I ss v ↔ ∃ s ∈ ss, s.Accepts I v := by
  induction ss with
  | nil => simp [Schema.SomeAccepts]
  | cons s rest ih => rw [Schema.SomeAccepts, ih, List.exists_mem_cons_iff]

/-! ## Objects and compositions -/

lemma Schema.propertiesAccept_iff {I : Interpretation} {properties : List (String × Schema)}
    {members : List (String × Json)} :
    Schema.PropertiesAccept I properties members ↔
      ∀ entry ∈ properties, ∀ w, members.lookup entry.1 = some w → entry.2.Accepts I w := by
  induction properties with
  | nil => simp [Schema.PropertiesAccept]
  | cons entry rest ih => rw [Schema.PropertiesAccept, ih, List.forall_mem_cons]

lemma Member.allAccept_iff {I : Interpretation} {parts : List Member} {v : Json} :
    Member.AllAccept I parts v ↔ ∀ m ∈ parts, m.Accepts I v := by
  induction parts with
  | nil => simp [Member.AllAccept]
  | cons m rest ih => rw [Member.AllAccept, ih, List.forall_mem_cons]

/-- What an object schema says of a value, part by part. -/
lemma ObjectSchema.accepts_iff {I : Interpretation} {o : ObjectSchema} {v : Json} :
    o.Accepts I v ↔ ∃ members, v = .object members ∧
      (∀ target, o.base = some target → v ∈ I.ref target) ∧
      (∀ entry ∈ o.properties, ∀ w, members.lookup entry.1 = some w → entry.2.Accepts I w) ∧
      (∀ name ∈ o.required.getD [], name ∈ members.map Prod.fst) ∧
      ∀ parts, o.allOf = some parts → ∀ m ∈ parts, m.Accepts I v := by
  obtain ⟨id, base, properties, required, allOf⟩ := o
  rw [ObjectSchema.Accepts.eq_def]
  simp only [Schema.propertiesAccept_iff]
  cases allOf with
  | none => simp
  | some parts => simp only [Member.allAccept_iff, Option.some.injEq, forall_eq']

/-! ## Equal types -/

lemma Literal.Lists.of_beq {l m : Literal} {v : Json} (h : l.Lists v) (hlm : (l == m) = true) :
    m.Lists v := by
  obtain ⟨n, hn, rfl⟩ := h
  exact ⟨n, BEq.trans (BEq.symm hlm) hn, rfl⟩

lemma Literal.ListedIn.of_beq {as bs : List Literal} {v : Json} (h : Literal.ListedIn as v)
    (hab : (as == bs) = true) : Literal.ListedIn bs v := by
  obtain ⟨l, hl, hv⟩ := h
  have hall := isEqv_iff_forall₂.1 ((list_beq_eq_isEqv as bs).symm.trans hab)
  obtain ⟨m, hm, hlm⟩ := exists_of_forall₂ hall.flip hl
  exact ⟨m, hm, hv.of_beq hlm⟩

/-- A value of a type is one of every equal type. -/
theorem Ty.accepts_of_beq (I : Interpretation) :
    ∀ (t u : Ty), (t == u) = true → ∀ v, t.Accepts I v → u.Accepts I v := by
  refine Ty.induction ?primitive ?named ?anyObject ?listOf ?unionOf ?literalEnum
  case primitive =>
    intro kind u h v hv
    cases u <;> try exact absurd h Bool.false_ne_true
    rename_i kind'
    have hkind : (kind == kind') = true := h
    exact eq_of_beq hkind ▸ hv
  case named =>
    intro name u h v hv
    cases u <;> try exact absurd h Bool.false_ne_true
    rename_i name'
    have hname : (name == name') = true := h
    exact eq_of_beq hname ▸ hv
  case anyObject =>
    intro u h v hv
    cases u <;> try exact absurd h Bool.false_ne_true
    exact hv
  case listOf =>
    intro t ih u h v hv
    cases u <;> try exact absurd h Bool.false_ne_true
    rename_i u
    obtain ⟨items, rfl, hitems⟩ := hv
    exact ⟨items, rfl, fun w hw => ih u h w (hitems w hw)⟩
  case unionOf =>
    intro ts ih u h v hv
    cases u <;> try exact absurd h Bool.false_ne_true
    rename_i us
    obtain ⟨t, ht, htv⟩ := Ty.someAccepts_iff.1 hv
    have hmembers := isEqv_iff_forall₂.1 ((Ty.sameList_eq ts us).symm.trans h)
    obtain ⟨u, hu, htu⟩ := exists_of_forall₂ hmembers.flip ht
    exact Ty.someAccepts_iff.2 ⟨u, hu, ih t ht u htu v htv⟩
  case literalEnum =>
    intro as u h v hv
    cases u <;> try exact absurd h Bool.false_ne_true
    exact Literal.ListedIn.of_beq hv h

/-! ## Equal schemas -/

lemma PrimitiveSchema.accepts_of_same {I : Interpretation} {p q : PrimitiveSchema}
    (h : p.same q = true) {v : Json} (hv : (Schema.primitive p).Accepts I v) :
    (Schema.primitive q).Accepts I v := by
  obtain ⟨hkind, henumerable, hlisted⟩ := PrimitiveSchema.values_beq_of_same h
  rw [Schema.Accepts] at hv ⊢
  rw [← henumerable, ← hkind]
  by_cases hp : p.isEnumerable = true
  · rw [if_pos hp] at hv ⊢
    exact hv.of_beq hlisted
  · rw [if_neg hp] at hv ⊢
    exact hv

/-- A value of a schema is one of every schema that is equal up to order. -/
theorem Schema.accepts_of_beq (I : Interpretation) :
    (∀ s t : Schema, (s == t) = true → ∀ v, s.Accepts I v → t.Accepts I v) ∧
      ∀ o p : ObjectSchema, (o == p) = true → ∀ v, o.Accepts I v → p.Accepts I v := by
  refine Schema.induction ?object ?array ?primitive ?multiType ?anyOf ?ref ?fields
  case object =>
    intro o ih t h v hv
    cases t <;> try exact absurd h Bool.false_ne_true
    exact ih _ h v hv
  case array =>
    intro items ih t h v hv
    cases t <;> try exact absurd h Bool.false_ne_true
    rename_i others
    have hitems := isEqv_iff_forall₂.1 ((Schema.sameItems_eq items others).symm.trans h)
    obtain ⟨values, rfl, hvalues⟩ := hv
    refine ⟨values, rfl, fun w hw => ?_⟩
    obtain ⟨s, hs, hsw⟩ := Schema.someAccepts_iff.1 (hvalues w hw)
    obtain ⟨t, ht, hst⟩ := exists_of_forall₂ hitems.flip hs
    exact Schema.someAccepts_iff.2 ⟨t, ht, ih s hs t hst w hsw⟩
  case primitive =>
    intro p t h v hv
    cases t <;> try exact absurd h Bool.false_ne_true
    exact PrimitiveSchema.accepts_of_same h hv
  case multiType =>
    intro kinds t h v hv
    cases t <;> try exact absurd h Bool.false_ne_true
    rename_i others
    have hkinds : (kinds == others) = true := h
    exact eq_of_beq hkinds ▸ hv
  case anyOf =>
    intro alternatives ih t h v hv
    cases t <;> try exact absurd h Bool.false_ne_true
    obtain ⟨s, hs, hsv⟩ := Schema.someAccepts_iff.1 hv
    obtain ⟨t, ht, hst⟩ := Multiset.exists_mem_of_rel_of_mem (Schema.anyOf_beq_iff.1 h) hs
    exact Schema.someAccepts_iff.2 ⟨t, ht, ih s hs t hst v hsv⟩
  case ref =>
    intro target t h v hv
    cases t <;> try exact absurd h Bool.false_ne_true
    rename_i other
    have htarget : (target == other) = true := h
    exact eq_of_beq htarget ▸ hv
  case fields =>
    intro o hproperties hmembers p h v hv
    have halike := ObjectSchema.beq_iff.1 h
    obtain ⟨members, rfl, hv⟩ := ObjectSchema.accepts_iff.1 hv
    obtain ⟨hvbase, hvproperties, hvrequired, hvallOf⟩ := hv
    refine ObjectSchema.accepts_iff.2 ⟨members, rfl, halike.base ▸ hvbase, ?_, ?_, ?_⟩
    · intro entry hentry w hw
      obtain ⟨other, hother, hname, hsame⟩ :=
        Multiset.exists_mem_of_rel_of_mem (Multiset.rel_flip.2 halike.properties) hentry
      exact hproperties other hother entry.2 hsame w (hvproperties other hother w (hname ▸ hw))
    · exact fun name hname => hvrequired name ((halike.mem_required name).2 hname)
    · intro parts hparts m hm
      have hallOf := halike.allOf
      rw [hparts] at hallOf
      generalize hothers : o.allOf = others at hallOf
      obtain @⟨others, _, hall⟩ := hallOf
      obtain ⟨n, hn, hnm⟩ := exists_of_forall₂ hall hm
      have hvn := hvallOf others hothers n hn
      cases n <;> cases m <;> try exact absurd hnm Bool.false_ne_true
      case ref.ref target other =>
        have htarget : (target == other) = true := hnm
        exact eq_of_beq htarget ▸ hvn
      case inline.inline inner other =>
        exact hmembers others hothers inner hn other hnm _ hvn

end TypedSchema
