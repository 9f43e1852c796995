import Mathlib.Tactic.Lemma
import TypedSchema.Declaration.Basic
import TypedSchema.Json.Value
import TypedSchema.Schema.Basic

/-!
# Induction over schemas, types and JSON values

`Schema`, `ObjectSchema`, `Ty` and `Json` hold lists of themselves, so their generated recursors
speak of those lists as well.  The principles here hand over one hypothesis per node that is
reached: a property, an item, an alternative, an inline member of a composition, a member of a
union or of an object.

`Schema.induction` proves a property of all schemas together with one of all object schemas,
because each kind occurs inside the other.
-/

namespace TypedSchema

/-- Induction over schemas and object schemas at once. -/
theorem Schema.induction {P : Schema → Prop} {Q : ObjectSchema → Prop}
    (object : ∀ o, Q o → P (.object o))
    (array : ∀ items, (∀ s ∈ items, P s) → P (.array items))
    (primitive : ∀ p, P (.primitive p))
    (multiType : ∀ kinds, P (.multiType kinds))
    (anyOf : ∀ alternatives, (∀ s ∈ alternatives, P s) → P (.anyOf alternatives))
    (ref : ∀ target, P (.ref target))
    (fields : ∀ o : ObjectSchema, (∀ entry ∈ o.properties, P entry.2) →
      (∀ members, o.allOf = some members → ∀ inner, .inline inner ∈ members → Q inner) → Q o) :
    (∀ s, P s) ∧ ∀ o, Q o := by
  -- the motive on schemas also carries `Q` of the object schema inside, to read it off at the end
  have key : ∀ s, P s ∧ ∀ o, s = .object o → Q o := by
    intro s
    refine @Schema.rec (fun s => P s ∧ ∀ o, s = .object o → Q o) Q
      (fun m => ∀ inner, m = .inline inner → Q inner)
      (fun ss => ∀ s ∈ ss, P s)
      (fun entries => ∀ entry ∈ entries, P entry.2)
      (fun o => ∀ members, o = some members → ∀ inner, .inline inner ∈ members → Q inner)
      (fun entry => P entry.2)
      (fun members => ∀ inner, .inline inner ∈ members → Q inner)
      ?_ ?_ ?_ ?_ ?_ ?_ (fun _ _ _ _ _ hprops hall => fields _ hprops hall)
      ?_ ?_ ?_ ?_ ?_ ?_ ?_ ?_ ?_ ?_ ?_ s
    all_goals grind
  exact ⟨fun s => (key s).1, fun o => (key (.object o)).2 o rfl⟩

/-- Induction over types. -/
theorem Ty.induction {P : Ty → Prop}
    (primitive : ∀ kind, P (.primitive kind))
    (named : ∀ name, P (.named name))
    (anyObject : P .anyObject)
    (listOf : ∀ element, P element → P (.listOf element))
    (unionOf : ∀ members, (∀ t ∈ members, P t) → P (.unionOf members))
    (literalEnum : ∀ values, P (.literalEnum values)) :
    ∀ t, P t := by
  intro t
  refine @Ty.rec P (fun ts => ∀ t ∈ ts, P t) primitive named anyObject listOf unionOf literalEnum
    ?_ ?_ t
  · intro t ht
    exact absurd ht List.not_mem_nil
  · intro head tail hhead htail t ht
    rcases List.mem_cons.1 ht with rfl | ht
    · exact hhead
    · exact htail t ht

/-- Induction over JSON values. -/
theorem Json.induction {P : Json → Prop}
    (null : P .null)
    (bool : ∀ b, P (.bool b))
    (integer : ∀ n, P (.integer n))
    (float : ∀ x, P (.float x))
    (string : ∀ s, P (.string s))
    (array : ∀ items, (∀ v ∈ items, P v) → P (.array items))
    (object : ∀ members, (∀ m ∈ members, P m.2) → P (.object members)) :
    ∀ v, P v := by
  intro v
  refine @Json.rec P (fun items => ∀ v ∈ items, P v) (fun members => ∀ m ∈ members, P m.2)
    (fun m => P m.2) null bool integer float string array object ?_ ?_ ?_ ?_ ?_ v
  · exact List.forall_mem_nil _
  · exact fun _ _ hhead htail => List.forall_mem_cons.2 ⟨hhead, htail⟩
  · exact List.forall_mem_nil _
  · exact fun _ _ hhead htail => List.forall_mem_cons.2 ⟨hhead, htail⟩
  · exact fun _ _ hvalue => hvalue

end TypedSchema
