import TypedSchema.Proofs.Schema.Equivalence

/-!
# The unions inside the type of a schema

A union can stand anywhere inside the type that a schema denotes: it can be the type itself or the
element of a list, but never a member of another union.  Two things make one, lists of types and
choices among alternatives, and what they put together is known in advance (`Schema.Gathers`).
Alternatives contribute their types in order, and a list of types among them contributes its kinds
in its place.  The union holds the first occurrences of what was gathered.

`Schema.resolve_unions` says this of all unions inside a type, whatever their depth.  The induction
is over the schemas that denote a type.  Its step is `Ty.occursIn_of_union`: what occurs in a union
of arms is that union, or occurs in an arm already.
-/

namespace TypedSchema

namespace Ty

/-! ## Types inside types -/

/-- Whether a type is another one, or stands somewhere inside of it. -/
inductive OccursIn (u : Ty) : Ty → Prop
  | here : OccursIn u u
  | listOf {element : Ty} (h : OccursIn u element) : OccursIn u (.listOf element)
  | unionOf {members : List Ty} {member : Ty} (hmember : member ∈ members)
    (h : OccursIn u member) : OccursIn u (.unionOf members)

lemma OccursIn.of_mem_members {t u member : Ty} (hmember : member ∈ t.members)
    (h : u.OccursIn member) : u.OccursIn t := by
  cases t with
  | unionOf members => exact .unionOf hmember h
  | _ => exact List.mem_singleton.1 hmember ▸ h

/-- Whether a type has no types inside of it. -/
def isAtomic : Ty → Bool
  | .listOf _ | .unionOf _ => false
  | _ => true

lemma OccursIn.eq_of_isAtomic {t u : Ty} (h : u.OccursIn t) (ht : t.isAtomic = true) : u = t := by
  cases h with
  | here => rfl
  | listOf _ | unionOf _ _ => cases ht

section
variable {cause : EmptyCause} {arms : List Ty} {t : Ty}

/-- What occurs in a union of arms is the union, or occurs in an arm. -/
lemma occursIn_of_union (h : union cause arms = .ok t) {u : Ty} (hu : u.OccursIn t) :
    (u = t ∧ t = .unionOf (firstOccurrences (arms.flatMap members)) ∧
      2 ≤ (firstOccurrences (arms.flatMap members)).length) ∨ ∃ arm ∈ arms, u.OccursIn arm := by
  have hmember : ∀ member ∈ firstOccurrences (arms.flatMap members), u.OccursIn member →
      ∃ arm ∈ arms, u.OccursIn arm := by
    intro member hmem hu
    obtain ⟨arm, harm, hmem⟩ := List.mem_flatMap.1 (mem_of_mem_firstOccurrences hmem)
    exact ⟨arm, harm, hu.of_mem_members hmem⟩
  unfold union at h
  split at h
  case h_1 => cases h
  case h_2 t' hone =>
    cases h
    exact .inr (hmember t (hone ▸ List.mem_singleton_self t) hu)
  case h_3 hempty hsingle =>
    cases h
    cases hu with
    | here => exact .inl ⟨rfl, rfl, two_le_length hempty hsingle⟩
    | unionOf hmem hu => exact .inr (hmember _ hmem hu)

end

end Ty

namespace Schema

/-! ## What a union is made of -/

/-- The schemas at type positions directly below a schema. -/
def parts : Schema → List Schema
  | .array items => items
  | .anyOf alternatives => alternatives
  | _ => []

/-- Whether a schema is another one, or stands at a type position somewhere inside of it. -/
inductive StandsIn (node : Schema) : Schema → Prop
  | here : StandsIn node node
  | part {s part : Schema} (hpart : part ∈ s.parts) (h : StandsIn node part) : StandsIn node s

/-- The types that an alternative contributes to a choice: a list of types contributes its kinds one
by one, and any other schema the type that it denotes. -/
inductive Contributes : Schema → List Ty → Prop
  | kinds (kinds : List Kind) : Contributes (.multiType kinds) (kinds.map .primitive)
  | type {s : Schema} {t : Ty} (hkinds : ∀ kinds, s ≠ .multiType kinds)
    (h : (resolve s).outcome = .ok t) : Contributes s [t]

/-- The types that come together in the union of a schema: the kinds of a list of types, or what the
alternatives of a choice contribute, in order.  Several items of an array are such alternatives. -/
inductive Gathers : Schema → List Ty → Prop
  | kinds (kinds : List Kind) : Gathers (.multiType kinds) (kinds.map .primitive)
  | alternatives {alternatives : List Schema} {pieces : List (List Ty)}
    (h : List.Forall₂ Contributes alternatives pieces) :
    Gathers (.anyOf alternatives) pieces.flatten
  | items {items : List Schema} {pieces : List (List Ty)} (several : 2 ≤ items.length)
    (h : List.Forall₂ Contributes items pieces) : Gathers (.array items) pieces.flatten

/-- An alternative that is no list of types does not denote a union. -/
lemma not_isUnion_of_armType {s : Schema} {t : Ty} (h : armType s = .ok t)
    (hkinds : ∀ kinds, s ≠ .multiType kinds) : t.isUnion = false := by
  have hchoice : ∀ alternatives, s ≠ .anyOf alternatives := by
    rintro alternatives rfl
    cases h
  refine resolve_induction (P := fun s t => (∀ kinds, s ≠ .multiType kinds) →
    (∀ alternatives, s ≠ .anyOf alternatives) → t.isUnion = false) ?object ?primitive ?ref
    ?multiType ?anyOf ?single ?several s t (resolve_of_armType h) hkinds hchoice
  case object =>
    intro o _ _ _
    rcases objectType_eq o with ⟨name, ho⟩ | ho <;> rw [ho] <;> rfl
  case primitive =>
    intro p _ _
    unfold primitiveType
    split <;> rfl
  case multiType => exact fun kinds _ _ hkinds => absurd rfl (hkinds kinds)
  case anyOf => exact fun alternatives _ _ _ _ _ hchoice => absurd rfl (hchoice alternatives)
  all_goals
    intros
    rfl

/-! ## Choices -/

lemma members_of_kinds {cause : EmptyCause} {kinds : List Kind} {t : Ty}
    (h : Ty.union cause (kinds.map .primitive) = .ok t) :
    t.members = firstOccurrences (kinds.map .primitive) := by
  rw [Ty.members_of_union flat_of_mem_kinds h, List.flatMap_map, List.map_eq_flatMap]
  rfl

/-- The members of the type of an alternative are what it contributes. -/
lemma exists_contributes {s : Schema} {t : Ty} (h : armType s = .ok t) :
    ∃ piece, Contributes s piece ∧ t.members = firstOccurrences piece := by
  by_cases hkinds : ∃ kinds, s = .multiType kinds
  · obtain ⟨kinds, rfl⟩ := hkinds
    have hunion := resolve_of_armType h
    rw [outcome_resolve_multiType] at hunion
    exact ⟨_, .kinds kinds, members_of_kinds hunion⟩
  · have hother : ∀ kinds, s ≠ .multiType kinds := fun kinds hs => hkinds ⟨kinds, hs⟩
    refine ⟨[t], .type hother (resolve_of_armType h), ?_⟩
    rw [Ty.members_of_not_isUnion (not_isUnion_of_armType h hother)]
    rfl

/-- The union of the types of some alternatives holds what they contribute, each type once. -/
lemma exists_pieces_of_union {cause : EmptyCause} {alternatives : List Schema} {arms : List Ty}
    {t : Ty} (harms : List.Forall₂ (fun s u => armType s = .ok u) alternatives arms)
    (h : Ty.union cause arms = .ok t) :
    ∃ pieces, List.Forall₂ Contributes alternatives pieces ∧
      t.members = firstOccurrences pieces.flatten := by
  have hpieces : ∃ pieces, List.Forall₂ Contributes alternatives pieces ∧
      arms.flatMap Ty.members = pieces.flatMap firstOccurrences := by
    clear h
    induction harms with
    | nil => exact ⟨[], .nil, rfl⟩
    | cons hst _ ih =>
      obtain ⟨piece, hpiece, hmembers⟩ := exists_contributes hst
      obtain ⟨pieces, hpieces, hrest⟩ := ih
      refine ⟨piece :: pieces, .cons hpiece hpieces, ?_⟩
      rw [List.flatMap_cons, List.flatMap_cons, hmembers, hrest]
  obtain ⟨pieces, hcontributes, hmembers⟩ := hpieces
  refine ⟨pieces, hcontributes, ?_⟩
  rw [Ty.members_of_union (flat_of_resolveArms (resolveArms_iff.2 harms)) h, hmembers,
    firstOccurrences_flatMap]

/-! ## All types inside of a type -/

/-- What the types are like that occur in the type of a schema: a union has several members, no two
of them equal and none a union, and they were gathered by a node of the schema; a set of literals is
not empty. -/
def NormalIn (s : Schema) : Ty → Prop
  | .unionOf members =>
    2 ≤ members.length ∧ (members.Pairwise fun a b => (a == b) = false) ∧
      (∀ member ∈ members, member.isUnion = false) ∧
      ∃ (node : Schema) (types : List Ty),
        node.StandsIn s ∧ node.Gathers types ∧ members = firstOccurrences types
  | .literalEnum values => values ≠ []
  | _ => True

lemma NormalIn.of_part {s part : Schema} {u : Ty} (hpart : part ∈ s.parts)
    (h : part.NormalIn u) : s.NormalIn u := by
  cases u with
  | unionOf members =>
    obtain ⟨htwo, hdistinct, hflat, node, types, hnode, hgathers, hmembers⟩ := h
    exact ⟨htwo, hdistinct, hflat, node, types, .part hpart hnode, hgathers, hmembers⟩
  | literalEnum values => exact h
  | _ => exact trivial

/-- Gathering in a union leaves what is inside of the arms as it is. -/
lemma normalIn_of_union {s : Schema} {cause : EmptyCause} {arms : List Ty} {t : Ty}
    {types : List Ty} (hunion : Ty.union cause arms = .ok t) (hflat : ∀ arm ∈ arms, arm.Flat)
    (hgathers : s.Gathers types) (hmembers : t.members = firstOccurrences types)
    (harms : ∀ arm ∈ arms, ∀ u, u.OccursIn arm → s.NormalIn u) :
    ∀ u, u.OccursIn t → s.NormalIn u := by
  intro u hu
  rcases Ty.occursIn_of_union hunion hu with ⟨rfl, rfl, htwo⟩ | ⟨arm, harm, hu⟩
  · have hflat : Ty.Flat (.unionOf _) := Ty.flat_of_union hflat hunion
    exact ⟨htwo, pairwise_firstOccurrences _, hflat, s, types, .here, hgathers, hmembers⟩
  · exact harms arm harm u hu

/-- Everything inside of the type of a schema is as it should be. -/
lemma normalIn_of_resolve : ∀ s t, (resolve s).outcome = .ok t →
    ∀ u, u.OccursIn t → s.NormalIn u := by
  have hparts : ∀ {s : Schema} {arms : List Ty},
      List.Forall₂ (fun s t => armType s = .ok t ∧ ∀ u, u.OccursIn t → s.NormalIn u) s.parts arms →
      ∀ arm ∈ arms, ∀ u, u.OccursIn arm → s.NormalIn u := by
    intro s arms h arm harm u hu
    obtain ⟨part, hpart, -, hnormal⟩ := exists_of_forall₂ h harm
    exact (hnormal u hu).of_part hpart
  refine resolve_induction ?object ?primitive ?ref ?multiType ?anyOf ?single ?several
  case object =>
    intro o _ u hu
    have hobject : (objectType o).isAtomic = true ∧ (Schema.object o).NormalIn (objectType o) := by
      rcases objectType_eq o with ⟨name, ho⟩ | ho <;> rw [ho] <;> exact ⟨rfl, trivial⟩
    rw [hu.eq_of_isAtomic hobject.1]
    exact hobject.2
  case primitive =>
    intro p u hu
    unfold primitiveType at hu
    split at hu
    case isTrue hlisted =>
      have hvalues : p.enum.getD [] ≠ [] := by
        simpa [PrimitiveSchema.isEnumerable] using hlisted
      rw [hu.eq_of_isAtomic rfl]
      exact hvalues
    case isFalse =>
      rw [hu.eq_of_isAtomic rfl]
      exact trivial
  case ref =>
    intro target u hu
    rw [hu.eq_of_isAtomic rfl]
    exact trivial
  case multiType =>
    intro kinds t hunion
    refine normalIn_of_union hunion flat_of_mem_kinds (.kinds kinds) (members_of_kinds hunion) ?_
    refine List.forall_mem_map.2 fun kind _ u hu => ?_
    rw [hu.eq_of_isAtomic rfl]
    exact trivial
  case anyOf =>
    intro alternatives arms t harms hunion
    have htypes := harms.imp fun _ _ h => h.1
    obtain ⟨pieces, hpieces, hmembers⟩ := exists_pieces_of_union htypes hunion
    exact normalIn_of_union hunion (flat_of_resolveArms (resolveArms_iff.2 htypes))
      (.alternatives hpieces) hmembers (hparts harms)
  case single =>
    intro item element ih u hu
    cases hu with
    | here => exact trivial
    | listOf hu => exact (ih u hu).of_part List.mem_cons_self
  case several =>
    intro items arms element htwo harms hunion u hu
    have htypes := harms.imp fun _ _ h => h.1
    obtain ⟨pieces, hpieces, hmembers⟩ := exists_pieces_of_union htypes hunion
    cases hu with
    | here => exact trivial
    | listOf hu =>
      exact normalIn_of_union hunion (flat_of_resolveArms (resolveArms_iff.2 htypes))
        (.items htwo hpieces) hmembers (hparts harms) u hu

/-! ## All unions -/

lemma exists_resolve_of_mem_parts {s part : Schema} {t : Ty} (h : (resolve s).outcome = .ok t)
    (hpart : part ∈ s.parts) : ∃ u, (resolve part).outcome = .ok u := by
  cases s with
  | array items =>
    obtain ⟨arms, -, harms, -⟩ := resolve_array_eq_ok h
    obtain ⟨u, -, hu⟩ := exists_of_forall₂ harms.flip hpart
    exact ⟨u, hu⟩
  | anyOf alternatives =>
    obtain ⟨arms, harms, -⟩ := resolve_anyOf_eq_ok h
    obtain ⟨u, -, hu⟩ := exists_of_forall₂ harms.flip hpart
    exact ⟨u, hu⟩
  | _ => exact absurd hpart List.not_mem_nil

/-- Whatever stands at a type position of a schema that denotes a type denotes one too. -/
lemma exists_resolve_of_standsIn {s node : Schema} (hnode : node.StandsIn s) :
    (∃ t, (resolve s).outcome = .ok t) → ∃ u, (resolve node).outcome = .ok u := by
  induction hnode with
  | here => exact id
  | part hpart _ ih =>
    rintro ⟨t, h⟩
    exact ih (exists_resolve_of_mem_parts h hpart)

/-- **Types are in normal form at every depth**: each union inside of a type has several distinct
members that are no unions, each set of literals has some, and each choice puts together what its
alternatives contribute. -/
theorem resolve_unions {s : Schema} {t : Ty} (h : s.resolve.outcome = .ok t) :
    (∀ members, (Ty.unionOf members).OccursIn t →
      2 ≤ members.length ∧ (members.Pairwise fun a b => (a == b) = false) ∧
        (∀ member ∈ members, member.isUnion = false) ∧
        ∃ (node : Schema) (types : List Ty),
          node.StandsIn s ∧ node.Gathers types ∧ members = firstOccurrences types) ∧
    (∀ values, (Ty.literalEnum values).OccursIn t → values ≠ []) ∧
    (∀ alternatives, (Schema.anyOf alternatives).StandsIn s →
      ∃ u pieces, (Schema.anyOf alternatives).resolve.outcome = .ok u ∧
        List.Forall₂ Contributes alternatives pieces ∧
        u.members = firstOccurrences pieces.flatten) ∧
    ∀ items, (Schema.array items).StandsIn s → 2 ≤ items.length →
      ∃ element pieces, (Schema.array items).resolve.outcome = .ok (.listOf element) ∧
        List.Forall₂ Contributes items pieces ∧
        element.members = firstOccurrences pieces.flatten := by
  have hnormal := normalIn_of_resolve s t h
  refine ⟨fun members => hnormal _, fun values => hnormal _, fun alternatives hs => ?choice,
    fun items hs htwo => ?items⟩
  case choice =>
    obtain ⟨u, hu⟩ := exists_resolve_of_standsIn hs ⟨t, h⟩
    rw [outcome_resolve_anyOf] at hu ⊢
    obtain ⟨arms, harms, hunion⟩ := bind_eq_ok.1 hu
    obtain ⟨pieces, hpieces, hmembers⟩ := exists_pieces_of_union (resolveArms_iff.1 harms) hunion
    exact ⟨u, pieces, hu, hpieces, hmembers⟩
  case items =>
    obtain ⟨u, hu⟩ := exists_resolve_of_standsIn hs ⟨t, h⟩
    rw [outcome_resolve_items htwo] at hu ⊢
    obtain ⟨element, helement, rfl⟩ := map_eq_ok.1 hu
    obtain ⟨arms, harms, hunion⟩ := bind_eq_ok.1 helement
    obtain ⟨pieces, hpieces, hmembers⟩ := exists_pieces_of_union (resolveArms_iff.1 harms) hunion
    exact ⟨element, pieces, hu, hpieces, hmembers⟩

/-- Items with a list of types among them that repeats itself, and a choice inside of a list. -/
def petKeys : Schema :=
  .array [.multiType [.integer, .null, .integer], .ofKind .string,
    .array [.anyOf [.ref "#Pet", .ofKind .null]]]

theorem resolve_unions_petKeys :
    ∃ t, petKeys.resolve.outcome = .ok t ∧ ∀ members, (Ty.unionOf members).OccursIn t →
      2 ≤ members.length ∧ ∀ member ∈ members, member.isUnion = false := by
  have h : petKeys.resolve.outcome =
      .ok (.listOf (.unionOf [.primitive .integer, .primitive .null, .primitive .string,
        .listOf (.unionOf [.named "Pet", .primitive .null])])) := rfl
  refine ⟨_, h, fun members hmembers => ?_⟩
  obtain ⟨htwo, -, hflat, -⟩ := (resolve_unions h).1 members hmembers
  exact ⟨htwo, hflat⟩

end Schema
end TypedSchema
