import TypedSchema.Proofs.Schema.Unions

/-!
# The schemas that denote a type

Whether a schema denotes a type can be read off its nodes at type positions (`Schema.nodes`).  Some
are at fault whatever stands around them: a composed object, and an array, a choice or a list of
types with nothing in it.  A choice is also at fault as one of several alternatives, and that is the
only way in which the place of a node matters.

`Schema.resolve_iff_resolvable` says that a schema denotes a type if no node is at fault, and that
the first one in depth-first order decides the kind of the fault otherwise.  A node is visited
before what is below it, so a choice among alternatives is reported as such even when it is empty.
Nothing else can fail: the types of some alternatives have members, so their union has some too
(`Schema.faultKind?_choice`).
-/

namespace TypedSchema

/-- The kind of the fault that a computation ends with, if it does. -/
def faultKind? {α : Type} : Except Fault α → Option Fault.Kind
  | .ok _ => none
  | .error fault => some fault.kind

section
variable {α β : Type}

lemma faultKind?_eq_none {x : Except Fault α} : faultKind? x = none ↔ ∃ a, x = .ok a := by
  cases x <;> simp [faultKind?]

lemma faultKind?_eq_some {x : Except Fault α} {kind : Fault.Kind} :
    faultKind? x = some kind ↔ ∃ fault, x = .error fault ∧ fault.kind = kind := by
  cases x <;> simp [faultKind?]

@[simp] lemma faultKind?_map (f : α → β) (x : Except Fault α) :
    faultKind? (x.map f) = faultKind? x := by
  cases x <;> rfl

/-- A computation that never fails does not change how the one before it ends. -/
lemma faultKind?_bind {x : Except Fault α} {f : α → Except Fault β}
    (h : ∀ a, x = .ok a → ∃ b, f a = .ok b) : faultKind? (x >>= f) = faultKind? x := by
  cases x with
  | error fault => rfl
  | ok a =>
    obtain ⟨b, hb⟩ := h a rfl
    exact congrArg faultKind? hb

end

namespace Schema

/-- Whether a schema is a choice among alternatives. -/
def isAnyOf : Schema → Bool
  | .anyOf _ => true
  | _ => false

/-- A schema that denotes a type. -/
inductive Resolvable : Schema → Prop
  | ref (target : String) : Resolvable (.ref target)
  | primitive (p : PrimitiveSchema) : Resolvable (.primitive p)
  | multiType {kinds : List Kind} (nonempty : kinds ≠ []) : Resolvable (.multiType kinds)
  | object {o : ObjectSchema} (plain : o.allOf = none) : Resolvable (.object o)
  | anyOf {alternatives : List Schema} (nonempty : alternatives ≠ [])
    (flat : ∀ s ∈ alternatives, s.isAnyOf = false)
    (h : ∀ s ∈ alternatives, s.Resolvable) : Resolvable (.anyOf alternatives)
  | item {item : Schema} (h : item.Resolvable) : Resolvable (.array [item])
  | items {items : List Schema} (several : 2 ≤ items.length)
    (flat : ∀ s ∈ items, s.isAnyOf = false) (h : ∀ s ∈ items, s.Resolvable) :
    Resolvable (.array items)

namespace Resolvable

lemma object_iff {o : ObjectSchema} : (Schema.object o).Resolvable ↔ o.isComposed = false := by
  rw [ObjectSchema.isComposed, Option.isSome_eq_false_iff, Option.isNone_iff_eq_none]
  constructor
  · rintro (_ | _ | _ | plain)
    exact plain
  · exact .object

lemma multiType_iff {kinds : List Kind} : (Schema.multiType kinds).Resolvable ↔ kinds ≠ [] := by
  constructor
  · rintro (_ | _ | nonempty)
    exact nonempty
  · exact .multiType

lemma anyOf_iff {alternatives : List Schema} :
    (Schema.anyOf alternatives).Resolvable ↔
      alternatives ≠ [] ∧ ∀ s ∈ alternatives, s.Resolvable ∧ s.isAnyOf = false := by
  constructor
  · intro h
    cases h with
    | anyOf nonempty flat h => exact ⟨nonempty, fun s hs => ⟨h s hs, flat s hs⟩⟩
  · rintro ⟨nonempty, h⟩
    exact .anyOf nonempty (fun s hs => (h s hs).2) fun s hs => (h s hs).1

lemma not_array_nil : ¬(Schema.array []).Resolvable := by
  intro h
  cases h with
  | items several => cases several

lemma item_iff {item : Schema} : (Schema.array [item]).Resolvable ↔ item.Resolvable := by
  constructor
  · intro h
    cases h with
    | item h => exact h
    | items several => exact absurd several (Nat.not_succ_le_self 1)
  · exact .item

lemma items_iff {items : List Schema} (several : 2 ≤ items.length) :
    (Schema.array items).Resolvable ↔ ∀ s ∈ items, s.Resolvable ∧ s.isAnyOf = false := by
  constructor
  · intro h
    cases h with
    | item _ => exact absurd several (Nat.not_succ_le_self 1)
    | items _ flat h => exact fun s hs => ⟨h s hs, flat s hs⟩
  · exact fun h => .items several (fun s hs => (h s hs).2) fun s hs => (h s hs).1

end Resolvable

/-! ## Nodes at type positions -/

/-- A node at a type position, and whether it is one of several alternatives there. -/
structure Position where
  schema : Schema
  alternative : Bool

/-- The kind of fault for which a node is itself to blame. -/
def Position.offence? (p : Position) : Option Fault.Kind :=
  match p.schema with
  | .anyOf alternatives =>
    if p.alternative then some .unsupported
    else if alternatives.isEmpty then some .empty else none
  | .object o => if o.isComposed then some .unsupported else none
  | .array items => if items.isEmpty then some .empty else none
  | .multiType kinds => if kinds.isEmpty then some .empty else none
  | .primitive _ | .ref _ => none

mutual

/-- The nodes at the type positions of a schema, itself first, in left-to-right depth-first order.
What is below an object is at no type position. -/
def nodes (alternative : Bool) : Schema → List Position
  | .array items => ⟨.array items, alternative⟩ :: nodesOf (2 ≤ items.length) items
  | .anyOf alternatives => ⟨.anyOf alternatives, alternative⟩ :: nodesOf true alternatives
  | s => [⟨s, alternative⟩]

/-- The nodes at the type positions of some schemas, one schema after the other. -/
def nodesOf (alternative : Bool) : List Schema → List Position
  | [] => []
  | s :: rest => nodes alternative s ++ nodesOf alternative rest

end

/-- The kind of fault for which the first node is to blame that is to blame for any. -/
def firstOffence? (alternative : Bool) (s : Schema) : Option Fault.Kind :=
  (s.nodes alternative).findSome? Position.offence?

section
variable {alternative : Bool}

lemma firstOffence?_object (o : ObjectSchema) :
    firstOffence? alternative (.object o) = if o.isComposed then some .unsupported else none := by
  simp [firstOffence?, nodes, Position.offence?]

lemma firstOffence?_multiType (kinds : List Kind) :
    firstOffence? alternative (.multiType kinds) =
      if kinds.isEmpty then some .empty else none := by
  simp [firstOffence?, nodes, Position.offence?]

/-- An array is not to blame for its only item. -/
lemma firstOffence?_item (item : Schema) :
    firstOffence? alternative (.array [item]) = firstOffence? false item := by
  simp [firstOffence?, nodes, nodesOf, Position.offence?]

lemma firstOffence?_items {items : List Schema} (h : 2 ≤ items.length) :
    firstOffence? alternative (.array items) =
      (nodesOf true items).findSome? Position.offence? := by
  have hne : items ≠ [] := List.ne_nil_of_length_pos (by omega)
  simp [firstOffence?, nodes, Position.offence?, h, hne]

lemma firstOffence?_anyOf {alternatives : List Schema} (h : alternatives ≠ []) :
    firstOffence? false (.anyOf alternatives) =
      (nodesOf true alternatives).findSome? Position.offence? := by
  simp [firstOffence?, nodes, Position.offence?, h]

end

/-! ## Resolvable schemas have no offence -/

lemma findSome?_nodesOf_eq_none {ss : List Schema} :
    (nodesOf true ss).findSome? Position.offence? = none ↔
      ∀ s ∈ ss, firstOffence? true s = none := by
  induction ss with
  | nil => exact iff_of_true rfl (List.forall_mem_nil _)
  | cons s rest ih =>
    rw [nodesOf, List.findSome?_append, Option.or_eq_none_iff, ih, List.forall_mem_cons]
    rfl

/-- No node is to blame in a resolvable schema, unless it is a choice among alternatives, and some
node is in any other. -/
theorem firstOffence?_eq_none : ∀ (s : Schema) (alternative : Bool),
    firstOffence? alternative s = none ↔
      s.Resolvable ∧ (alternative = true → s.isAnyOf = false) := by
  have halternatives : ∀ {ss : List Schema},
      (∀ s ∈ ss, ∀ alternative, firstOffence? alternative s = none ↔
        s.Resolvable ∧ (alternative = true → s.isAnyOf = false)) →
      ((nodesOf true ss).findSome? Position.offence? = none ↔
        ∀ s ∈ ss, s.Resolvable ∧ s.isAnyOf = false) := by
    intro ss ih
    rw [findSome?_nodesOf_eq_none]
    exact forall₂_congr fun s hs => by rw [ih s hs true, forall_prop_of_true rfl]
  refine (Schema.induction (Q := fun _ => True) ?object ?array ?primitive ?multiType ?anyOf ?ref
    fun _ _ _ => trivial).1
  case object =>
    intro o _ alternative
    rw [firstOffence?_object, Resolvable.object_iff]
    cases o.isComposed <;> simp [isAnyOf]
  case array =>
    intro items ih alternative
    have hplace : alternative = true → (Schema.array items).isAnyOf = false := fun _ => rfl
    rw [and_iff_left hplace]
    obtain _ | ⟨item, _ | ⟨next, rest⟩⟩ := items
    · exact iff_of_false (Option.some_ne_none _) Resolvable.not_array_nil
    · have hitem := ih item List.mem_cons_self false
      rw [and_iff_left fun h => absurd h Bool.false_ne_true] at hitem
      rw [firstOffence?_item, Resolvable.item_iff, hitem]
    · have htwo : 2 ≤ (item :: next :: rest).length := Nat.le_add_left 2 rest.length
      rw [firstOffence?_items htwo, Resolvable.items_iff htwo, halternatives ih]
  case primitive => exact fun p _ => iff_of_true rfl ⟨.primitive p, fun _ => rfl⟩
  case multiType =>
    intro kinds alternative
    rw [firstOffence?_multiType, Resolvable.multiType_iff]
    cases kinds <;> simp [isAnyOf]
  case anyOf =>
    intro alternatives ih alternative
    cases alternative with
    | true =>
      refine iff_of_false (Option.some_ne_none _) ?_
      rintro ⟨-, hflat⟩
      cases hflat rfl
    | false =>
      rw [and_iff_left fun h => absurd h Bool.false_ne_true, Resolvable.anyOf_iff]
      by_cases hne : alternatives = []
      · subst hne
        exact iff_of_false (Option.some_ne_none _) fun h => h.1 rfl
      · rw [firstOffence?_anyOf hne, halternatives ih, and_iff_right hne]
  case ref => exact fun target _ => iff_of_true rfl ⟨.ref target, fun _ => rfl⟩

/-! ## Why a type is missing -/

/-- The type at a type position. -/
def typeAt (alternative : Bool) (s : Schema) : Except Fault Ty :=
  if alternative then armType s else (resolve s).outcome

/-- The place of a schema only matters for a choice. -/
lemma faultKind?_typeAt {s : Schema} (h : s.isAnyOf = false) (alternative : Bool) :
    faultKind? (s.typeAt alternative) = faultKind? (resolve s).outcome := by
  cases alternative with
  | false => rfl
  | true =>
    show faultKind? (armType s) = _
    unfold armType
    cases s with
    | anyOf alternatives => cases h
    | object o =>
      cases hcomposed : o.isComposed with
      | true => simp [armFault?, resolve, hcomposed, faultKind?, Fault.kind]
      | false => simp [armFault?, hcomposed]
    | _ => rfl

/-- A type always has members. -/
lemma members_ne_nil {s : Schema} {t : Ty} (h : (resolve s).outcome = .ok t) :
    t.members ≠ [] := by
  cases t with
  | unionOf members =>
    obtain ⟨htwo, -⟩ := normalIn_of_resolve s _ h _ .here
    have hpos : 0 < members.length := by omega
    exact List.ne_nil_of_length_pos hpos
  | _ => exact List.cons_ne_nil _ _

/-- A choice among some alternatives fails only if one of them does. -/
lemma faultKind?_choice {alternatives : List Schema} (hne : alternatives ≠ []) :
    faultKind? ((resolveArms alternatives).outcome >>= Ty.union .noAlternatives) =
      faultKind? (resolveArms alternatives).outcome := by
  refine faultKind?_bind fun arms harms => Ty.exists_union_iff.2 ?_
  have htypes := resolveArms_eq_ok harms
  obtain ⟨first, rest, rfl⟩ := List.exists_cons_of_ne_nil hne
  cases htypes with
  | cons hfirst _ =>
    rw [List.flatMap_cons]
    exact List.append_ne_nil_of_left_ne_nil (members_ne_nil hfirst) _

/-- Of some alternatives, the first that fails decides. -/
lemma faultKind?_resolveArms {ss : List Schema}
    (h : ∀ s ∈ ss, faultKind? (armType s) = firstOffence? true s) :
    faultKind? (resolveArms ss).outcome = (nodesOf true ss).findSome? Position.offence? := by
  induction ss with
  | nil => rfl
  | cons s rest ih =>
    obtain ⟨hs, hrest⟩ := List.forall_mem_cons.1 h
    rw [outcome_resolveArms_cons, nodesOf, List.findSome?_append, ← ih hrest]
    rw [firstOffence?] at hs
    rw [← hs]
    cases armType s with
    | error fault => rfl
    | ok t => cases (resolveArms rest).outcome <;> rfl

/-- **A schema fails as the first node that is at fault.** -/
theorem faultKind?_eq_firstOffence? : ∀ (s : Schema) (alternative : Bool),
    faultKind? (s.typeAt alternative) = firstOffence? alternative s := by
  refine (Schema.induction (Q := fun _ => True) ?object ?array ?primitive ?multiType ?anyOf ?ref
    fun _ _ _ => trivial).1
  case object =>
    intro o _ alternative
    rw [faultKind?_typeAt rfl, firstOffence?_object, resolve]
    cases o.isComposed <;> rfl
  case array =>
    intro items ih alternative
    rw [faultKind?_typeAt rfl]
    obtain _ | ⟨item, _ | ⟨next, rest⟩⟩ := items
    · rfl
    · have hitem : faultKind? (resolve item).outcome = firstOffence? false item :=
        ih item List.mem_cons_self false
      rw [outcome_resolve_item, faultKind?_map, hitem, firstOffence?_item]
    · have htwo : 2 ≤ (item :: next :: rest).length := Nat.le_add_left 2 rest.length
      rw [outcome_resolve_items htwo, faultKind?_map, faultKind?_choice (List.cons_ne_nil _ _),
        faultKind?_resolveArms fun s hs => ih s hs true, firstOffence?_items htwo]
  case primitive =>
    intro p alternative
    rw [faultKind?_typeAt rfl]
    rfl
  case multiType =>
    intro kinds alternative
    rw [faultKind?_typeAt rfl, firstOffence?_multiType, outcome_resolve_multiType]
    cases kinds with
    | nil => rfl
    | cons kind rest =>
      exact faultKind?_eq_none.2 (Ty.exists_union_iff.2 (List.cons_ne_nil _ _))
  case anyOf =>
    intro alternatives ih alternative
    cases alternative with
    | true => rfl
    | false =>
      show faultKind? (resolve _).outcome = _
      rw [outcome_resolve_anyOf]
      cases alternatives with
      | nil => rfl
      | cons first rest =>
        rw [faultKind?_choice (List.cons_ne_nil _ _),
          faultKind?_resolveArms fun s hs => ih s hs true,
          firstOffence?_anyOf (List.cons_ne_nil _ _)]
  case ref =>
    intro target alternative
    rw [faultKind?_typeAt rfl]
    rfl

/-- **A schema denotes a type exactly if it is resolvable**, and otherwise fails as the first node
in depth-first order that is at fault. -/
theorem resolve_iff_resolvable (s : Schema) :
    ((∃ t, s.resolve.outcome = .ok t) ↔ s.Resolvable) ∧
      ∀ kind, (∃ fault, s.resolve.outcome = .error fault ∧ fault.kind = kind) ↔
        (s.nodes false).findSome? Position.offence? = some kind := by
  have hkind : faultKind? s.resolve.outcome = firstOffence? false s :=
    faultKind?_eq_firstOffence? s false
  constructor
  · rw [← faultKind?_eq_none, hkind, firstOffence?_eq_none]
    exact and_iff_left fun h => absurd h Bool.false_ne_true
  · intro kind
    rw [← faultKind?_eq_some, hkind]
    rfl

/-- A list of no types inside of a choice that is the only item of an array, where it may be, comes
before a choice among alternatives. -/
example : ((Schema.anyOf [.array [.anyOf [.multiType []]], .anyOf []]).nodes false).findSome?
    Position.offence? = some .empty := rfl

end Schema
end TypedSchema
