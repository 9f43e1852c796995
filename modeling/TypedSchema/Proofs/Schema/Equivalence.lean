import TypedSchema.Proofs.Agreement
import TypedSchema.Proofs.Schema.NormalForm

/-!
# Equal schemas denote equivalent types

Schemas are compared up to order and types are not, so two schemas that are equal can denote
different types: the members of a union come in the order of the alternatives, and which repetitions
are left out depends on that order as well, because members that differ only in order do not count
as repetitions.  What the types have in common is that each member of one is matched by a member of
the other (`Ty.Equivalent`).

`Schema.agree_resolve` says that equal schemas denote equivalent types or none.  The induction is
over the left schema.  A union does not care in which order its arms come, nor which of several
equal members it keeps (`Ty.agree_union`), as long as its arms are flat, which all types are that a
schema denotes (`Schema.flat_of_resolve`).
-/

namespace TypedSchema

/-! ## Equivalent types -/

mutual

/-- Two types are equivalent when each member of one is matched by a member of the other, and the
other way round.  The members of a type that is not a union are the type itself. -/
inductive Ty.Equivalent : Ty → Ty → Prop
  | intro {t u : Ty} (toRight toLeft : Ty → Ty)
    (mem_right : ∀ x ∈ t.members, toRight x ∈ u.members)
    (matched_right : ∀ x ∈ t.members, Ty.Matched x (toRight x))
    (mem_left : ∀ y ∈ u.members, toLeft y ∈ t.members)
    (matched_left : ∀ y ∈ u.members, Ty.Matched (toLeft y) y) : Ty.Equivalent t u

/-- Two lists match when their elements are equivalent, other types when they are equal. -/
inductive Ty.Matched : Ty → Ty → Prop
  | lists {d e : Ty} (elements : Ty.Equivalent d e) : Ty.Matched (.listOf d) (.listOf e)
  | other {t u : Ty} (notList : ∀ d, t ≠ .listOf d) (same : (t == u) = true) : Ty.Matched t u

end

namespace Ty

theorem equivalent_iff {t u : Ty} :
    t.Equivalent u ↔ (∀ x ∈ t.members, ∃ y ∈ u.members, x.Matched y) ∧
      ∀ y ∈ u.members, ∃ x ∈ t.members, x.Matched y := by
  constructor
  · rintro ⟨toRight, toLeft, mem_right, matched_right, mem_left, matched_left⟩
    exact ⟨fun x hx => ⟨toRight x, mem_right x hx, matched_right x hx⟩,
      fun y hy => ⟨toLeft y, mem_left y hy, matched_left y hy⟩⟩
  · rintro ⟨hright, hleft⟩
    choose! toRight hright using hright
    choose! toLeft hleft using hleft
    exact .intro toRight toLeft (fun x hx => (hright x hx).1) (fun x hx => (hright x hx).2)
      (fun y hy => (hleft y hy).1) fun y hy => (hleft y hy).2

/-- Induction that takes the element of a list apart into its members. -/
lemma induction_members {P : Ty → Prop} (listOf : ∀ d, (∀ m ∈ d.members, P m) → P (.listOf d))
    (other : ∀ t, (∀ d, t ≠ .listOf d) → P t) : ∀ t, P t := by
  have key : ∀ t, P t ∧ ∀ m ∈ t.members, P m := by
    refine Ty.induction ?primitive ?named ?anyObject ?list ?unionOf ?literalEnum
    case list =>
      intro d ih
      have hlist := listOf d ih.2
      exact ⟨hlist, List.forall_mem_singleton.2 hlist⟩
    case unionOf =>
      intro members ih
      exact ⟨other _ nofun, fun m hm => (ih m hm).1⟩
    all_goals
      intros
      exact ⟨other _ nofun, List.forall_mem_singleton.2 (other _ nofun)⟩
  exact fun t => (key t).1

/-- Equal types have equal members. -/
lemma forall₂_members {t u : Ty} (h : (t == u) = true) :
    List.Forall₂ (fun x y : Ty => (x == y) = true) t.members u.members := by
  cases t with
  | unionOf ts =>
    cases u with
    | unionOf us =>
      rw [members, members]
      exact isEqv_iff_forall₂.1 ((sameList_eq ts us).symm.trans h)
    | _ => exact absurd h Bool.false_ne_true
  | _ =>
    cases u with
    | unionOf us => exact absurd h Bool.false_ne_true
    | _ => exact .cons h .nil

/-- What is equal to a list is a list with an equal element. -/
lemma exists_of_listOf_beq {d u : Ty} (h : (Ty.listOf d == u) = true) :
    ∃ e, u = .listOf e ∧ (d == e) = true := by
  cases u with
  | listOf e => exact ⟨e, rfl, h⟩
  | _ => exact absurd h Bool.false_ne_true

lemma Matched.of_beq : ∀ {t u : Ty}, (t == u) = true → t.Matched u := by
  refine fun {t u} => induction_members (P := fun t => ∀ u, (t == u) = true → t.Matched u)
    ?listOf ?other t u
  case listOf =>
    intro d ih u h
    obtain ⟨e, rfl, hde⟩ := exists_of_listOf_beq h
    have hmembers := forall₂_members hde
    refine .lists (equivalent_iff.2 ⟨fun x hx => ?_, fun y hy => ?_⟩)
    · obtain ⟨y, hy, hxy⟩ := exists_of_forall₂ hmembers.flip hx
      exact ⟨y, hy, ih x hx y hxy⟩
    · obtain ⟨x, hx, hxy⟩ := exists_of_forall₂ hmembers hy
      exact ⟨x, hx, ih x hx y hxy⟩
  case other => exact fun t ht u h => .other ht h

/-- Matching does not distinguish equal types. -/
lemma Matched.trans_beq : ∀ {t u v : Ty}, t.Matched u → (u == v) = true → t.Matched v := by
  refine fun {t u v} => induction_members
    (P := fun u => ∀ t v, Matched t u → (u == v) = true → Matched t v) ?listOf ?other u t v
  case listOf =>
    intro e ih t v h hv
    cases h with
    | other notList same => exact .other notList (BEq.trans same hv)
    | lists elements =>
      obtain ⟨e', rfl, he⟩ := exists_of_listOf_beq hv
      obtain ⟨hright, hleft⟩ := equivalent_iff.1 elements
      have hmembers := forall₂_members he
      refine .lists (equivalent_iff.2 ⟨fun x hx => ?_, fun z hz => ?_⟩)
      · obtain ⟨y, hy, hxy⟩ := hright x hx
        obtain ⟨z, hz, hyz⟩ := exists_of_forall₂ hmembers.flip hy
        exact ⟨z, hz, ih y hy x z hxy hyz⟩
      · obtain ⟨y, hy, hyz⟩ := exists_of_forall₂ hmembers hz
        obtain ⟨x, hx, hxy⟩ := hleft y hy
        exact ⟨x, hx, ih y hy x z hxy hyz⟩
  case other =>
    intro u hu t v h hv
    cases h with
    | lists elements => exact absurd rfl (hu _)
    | other notList same => exact .other notList (BEq.trans same hv)

lemma Matched.symm : ∀ {t u : Ty}, t.Matched u → u.Matched t := by
  refine fun {t u} => induction_members (P := fun t => ∀ u, Matched t u → Matched u t)
    ?listOf ?other t u
  case listOf =>
    intro d ih u h
    cases h with
    | other notList same => exact absurd rfl (notList d)
    | lists elements =>
      obtain ⟨hright, hleft⟩ := equivalent_iff.1 elements
      refine .lists (equivalent_iff.2 ⟨fun y hy => ?_, fun x hx => ?_⟩)
      · obtain ⟨x, hx, hxy⟩ := hleft y hy
        exact ⟨x, hx, ih x hx y hxy⟩
      · obtain ⟨y, hy, hxy⟩ := hright x hx
        exact ⟨y, hy, ih x hx y hxy⟩
  case other =>
    intro t ht u h
    cases h with
    | lists elements => exact absurd rfl (ht _)
    | other _ same => exact .of_beq (BEq.symm same)

lemma Equivalent.of_beq {t u : Ty} (h : (t == u) = true) : t.Equivalent u := by
  have hmembers := forall₂_members h
  refine equivalent_iff.2 ⟨fun x hx => ?_, fun y hy => ?_⟩
  · obtain ⟨y, hy, hxy⟩ := exists_of_forall₂ hmembers.flip hx
    exact ⟨y, hy, .of_beq hxy⟩
  · obtain ⟨x, hx, hxy⟩ := exists_of_forall₂ hmembers hy
    exact ⟨x, hx, .of_beq hxy⟩

lemma Equivalent.listOf {d e : Ty} (h : d.Equivalent e) : (Ty.listOf d).Equivalent (.listOf e) :=
  equivalent_iff.2 ⟨List.forall_mem_singleton.2 ⟨_, List.mem_cons_self, .lists h⟩,
    List.forall_mem_singleton.2 ⟨_, List.mem_cons_self, .lists h⟩⟩

/-! ## Unions -/

/-- Each type of the second list is matched by one of the first. -/
def Covers (us ts : List Ty) : Prop := ∀ t ∈ ts, ∃ u ∈ us, t.Matched u

/-- Types are equivalent when the members of each cover those of the other. -/
lemma equivalent_iff_covers {t u : Ty} :
    t.Equivalent u ↔ Covers u.members t.members ∧ Covers t.members u.members := by
  rw [equivalent_iff]
  refine and_congr_right fun _ => ⟨fun h y hy => ?_, fun h y hy => ?_⟩
  · obtain ⟨x, hx, hxy⟩ := h y hy
    exact ⟨x, hx, hxy.symm⟩
  · obtain ⟨x, hx, hyx⟩ := h y hy
    exact ⟨x, hx, hyx.symm⟩

lemma Equivalent.symm {t u : Ty} (h : t.Equivalent u) : u.Equivalent t :=
  equivalent_iff_covers.2 (equivalent_iff_covers.1 h).symm

lemma Covers.of_equivalent {as bs : List Ty} (h : ∀ a ∈ as, ∃ b ∈ bs, a.Equivalent b) :
    Covers (bs.flatMap members) (as.flatMap members) := by
  intro x hx
  obtain ⟨a, ha, hxa⟩ := List.mem_flatMap.1 hx
  obtain ⟨b, hb, hab⟩ := h a ha
  obtain ⟨y, hy, hxy⟩ := (equivalent_iff.1 hab).1 x hxa
  exact ⟨y, List.mem_flatMap.2 ⟨b, hb, hy⟩, hxy⟩

lemma Covers.firstOccurrences {us ts : List Ty} (h : Covers us ts) :
    Covers (firstOccurrences us) (firstOccurrences ts) := by
  intro x hx
  obtain ⟨y, hy, hxy⟩ := h x (mem_of_mem_firstOccurrences hx)
  obtain ⟨y', hy', hyy'⟩ := exists_mem_firstOccurrences hy
  exact ⟨y', hy', hxy.trans_beq hyy'⟩

lemma Covers.ne_nil {us ts : List Ty} (h : Covers us ts) (hts : ts ≠ []) : us ≠ [] := by
  obtain ⟨t, ht⟩ := List.exists_mem_of_ne_nil ts hts
  obtain ⟨u, hu, -⟩ := h t ht
  exact List.ne_nil_of_mem hu

/-- A type without unions among its members. -/
def Flat (t : Ty) : Prop := ∀ u ∈ t.members, u.isUnion = false

lemma members_of_not_isUnion {t : Ty} (h : t.isUnion = false) : t.members = [t] := by
  cases t with
  | unionOf _ => exact absurd h.symm Bool.false_ne_true
  | _ => rfl

lemma Flat.of_not_isUnion {t : Ty} (h : t.isUnion = false) : t.Flat := by
  rw [Flat, members_of_not_isUnion h]
  exact List.forall_mem_singleton.2 h

section
variable {cause : EmptyCause} {arms : List Ty} {t : Ty}

lemma exists_union_iff : (∃ t, union cause arms = .ok t) ↔ arms.flatMap members ≠ [] := by
  rw [Ne, ← firstOccurrences_eq_nil, union]
  split
  case h_1 hnil => exact iff_of_false nofun (not_not_intro hnil)
  case h_2 t hone => exact iff_of_true ⟨t, rfl⟩ (hone ▸ List.cons_ne_nil t [])
  case h_3 hempty _ => exact iff_of_true ⟨_, rfl⟩ hempty

/-- The members of a union of flat arms are those of the arms, each once. -/
lemma members_of_union (hflat : ∀ arm ∈ arms, arm.Flat) (h : union cause arms = .ok t) :
    t.members = firstOccurrences (arms.flatMap members) := by
  unfold union at h
  split at h
  case h_1 => cases h
  case h_2 t' hone =>
    cases h
    have hmem : t ∈ firstOccurrences (arms.flatMap members) := hone ▸ List.mem_singleton_self t
    obtain ⟨arm, harm, ht⟩ := List.mem_flatMap.1 (mem_of_mem_firstOccurrences hmem)
    rw [hone, members_of_not_isUnion (hflat arm harm t ht)]
  case h_3 =>
    cases h
    rfl

lemma flat_of_union (hflat : ∀ arm ∈ arms, arm.Flat) (h : union cause arms = .ok t) :
    t.Flat := by
  intro u hu
  rw [members_of_union hflat h] at hu
  obtain ⟨arm, harm, hu⟩ := List.mem_flatMap.1 (mem_of_mem_firstOccurrences hu)
  exact hflat arm harm u hu

end

/-- Unions of flat arms are equivalent, if every arm of one is equivalent to one of the other. -/
theorem agree_union {cause cause' : EmptyCause} {as bs : List Ty} (has : ∀ a ∈ as, a.Flat)
    (hbs : ∀ b ∈ bs, b.Flat) (hright : ∀ a ∈ as, ∃ b ∈ bs, a.Equivalent b)
    (hleft : ∀ b ∈ bs, ∃ a ∈ as, a.Equivalent b) :
    Agree Equivalent (union cause as) (union cause' bs) := by
  have hcoversRight : Covers (bs.flatMap members) (as.flatMap members) := .of_equivalent hright
  have hcoversLeft : Covers (as.flatMap members) (bs.flatMap members) := by
    refine .of_equivalent fun b hb => ?_
    obtain ⟨a, ha, hab⟩ := hleft b hb
    exact ⟨a, ha, hab.symm⟩
  rw [agree_iff, exists_union_iff, exists_union_iff]
  refine ⟨⟨hcoversRight.ne_nil, hcoversLeft.ne_nil⟩, fun t u ht hu => ?_⟩
  rw [equivalent_iff_covers, members_of_union has ht, members_of_union hbs hu]
  exact ⟨hcoversRight.firstOccurrences, hcoversLeft.firstOccurrences⟩

end Ty

/-! ## Resolution -/

namespace Schema

lemma flat_of_mem_kinds {kinds : List Kind} : ∀ arm ∈ kinds.map Ty.primitive, arm.Flat :=
  List.forall_mem_map.2 fun _ _ => .of_not_isUnion rfl

/-- Whatever a schema denotes is flat. -/
theorem flat_of_resolve : ∀ (s : Schema) (t : Ty), (resolve s).outcome = .ok t → t.Flat := by
  refine resolve_induction ?object ?primitive ?ref ?multiType ?anyOf ?single ?several
  case object =>
    intro o _
    refine .of_not_isUnion ?_
    rcases objectType_eq o with ⟨name, ho⟩ | ho <;> rw [ho] <;> rfl
  case primitive =>
    intro p
    refine .of_not_isUnion ?_
    unfold primitiveType
    split <;> rfl
  case multiType => exact fun kinds t h => Ty.flat_of_union flat_of_mem_kinds h
  case anyOf =>
    intro alternatives arms t harms hunion
    refine Ty.flat_of_union (fun arm harm => ?_) hunion
    obtain ⟨_, -, -, hflat⟩ := exists_of_forall₂ harms harm
    exact hflat
  -- what is left are references and lists, which are no unions
  all_goals
    intros
    exact .of_not_isUnion rfl

lemma flat_of_resolveArms {arms : List Schema} {tys : List Ty}
    (h : (resolveArms arms).outcome = .ok tys) : ∀ t ∈ tys, t.Flat := by
  intro t ht
  obtain ⟨s, -, hresolve⟩ := exists_of_forall₂ (resolveArms_eq_ok h) ht
  exact flat_of_resolve s t hresolve

/-- Equal schemas can both be arms of a union, or neither can. -/
lemma isSome_armFault? {s t : Schema} (h : (s == t) = true) :
    (armFault? s).isSome = (armFault? t).isSome := by
  cases s <;> cases t <;> try exact absurd h Bool.false_ne_true
  case object.object o p =>
    have hcomposed := (ObjectSchema.beq_iff.1 h).isComposed
    simp only [armFault?, hcomposed]
  all_goals rfl

lemma agree_armType {s t : Schema} (h : (s == t) = true)
    (hresolve : Agree Ty.Equivalent (resolve s).outcome (resolve t).outcome) :
    Agree Ty.Equivalent (armType s) (armType t) := by
  have hfault := isSome_armFault? h
  unfold armType
  cases hs : armFault? s <;> cases ht : armFault? t <;> rw [hs, ht] at hfault
  case none.none => exact hresolve
  case some.some => exact .error _ _
  all_goals cases hfault

/-- Unions of arms that correspond one to one are equivalent. -/
lemma agree_union_resolveArms {ss ts : List Schema}
    (h : Multiset.Rel (fun s t => Agree Ty.Equivalent (armType s) (armType t))
      (ss : Multiset Schema) (ts : Multiset Schema)) :
    Agree Ty.Equivalent ((resolveArms ss).outcome >>= Ty.union .noAlternatives)
      ((resolveArms ts).outcome >>= Ty.union .noAlternatives) := by
  have harms := agree_of_rel (fun _ => resolveArms_iff) (fun _ => resolveArms_iff) h
  refine harms.results.bind fun as bs => ?_
  rintro ⟨hrel, has, hbs⟩
  refine Ty.agree_union (flat_of_resolveArms has) (flat_of_resolveArms hbs) ?_ ?_
  · exact fun a ha => Multiset.exists_mem_of_rel_of_mem hrel ha
  · exact fun b hb => Multiset.exists_mem_of_rel_of_mem (Multiset.rel_flip.2 hrel) hb

lemma objectType_congr {o p : ObjectSchema} (h : o.Alike p) : objectType o = objectType p := by
  unfold objectType
  rw [h.base, h.isEmpty_properties]

lemma primitiveType_beq {p q : PrimitiveSchema} (h : p.same q = true) :
    (primitiveType p == primitiveType q) = true := by
  obtain ⟨hkind, henumerable, hlisted⟩ := PrimitiveSchema.values_beq_of_same h
  unfold primitiveType
  rw [henumerable, hkind]
  split
  · exact hlisted
  · exact BEq.rfl

/-- Arrays of equal items denote equivalent lists if their items denote equivalent types. -/
lemma agree_resolve_array {ss ts : List Schema}
    (h : List.Forall₂ (fun s t : Schema => (s == t) = true ∧
      Agree Ty.Equivalent (resolve s).outcome (resolve t).outcome) ss ts) :
    Agree Ty.Equivalent (resolve (.array ss)).outcome (resolve (.array ts)).outcome := by
  have harms : List.Forall₂ (fun s t => Agree Ty.Equivalent (armType s) (armType t)) ss ts :=
    h.imp fun _ _ hst => agree_armType hst.1 hst.2
  have hunion := agree_union_resolveArms (rel_iff_exists_forall₂.2 ⟨ts, harms, .refl ts⟩)
  cases h with
  | nil => exact .error _ _
  | cons hst hrest =>
    cases hrest with
    | nil =>
      simp only [resolve, outcome_resolved, TracedBy.outcome_bind, TracedBy.outcome_pure]
      exact hst.2.bind fun _ _ helement => .ok helement.listOf
    | cons _ _ =>
      simp only [resolve, outcome_resolved, TracedBy.outcome_bind, TracedBy.outcome_quiet,
        TracedBy.outcome_pure, ← bind_assoc]
      exact hunion.bind fun _ _ helement => .ok helement.listOf

/-- **Equal schemas denote equivalent types**, or none. -/
theorem agree_resolve : ∀ s t : Schema, (s == t) = true →
    Agree Ty.Equivalent (resolve s).outcome (resolve t).outcome := by
  refine (Schema.induction (Q := fun _ => True) ?object ?array ?primitive ?multiType ?anyOf ?ref
    fun _ _ _ => trivial).1
  case object =>
    intro o _ t h
    cases t <;> try exact absurd h Bool.false_ne_true
    rename_i p
    have halike := ObjectSchema.beq_iff.1 h
    rw [resolve, resolve, ← halike.isComposed, objectType_congr halike]
    split
    · exact .error _ _
    · exact .ok (.of_beq BEq.rfl)
  case array =>
    intro items ih t h
    cases t <;> try exact absurd h Bool.false_ne_true
    rename_i others
    have hitems := isEqv_iff_forall₂.1 ((sameItems_eq items others).symm.trans h)
    refine agree_resolve_array (((List.forall₂_and_left _ _).2 ⟨fun _ h => h, hitems⟩).imp ?_)
    rintro u v ⟨hu, huv⟩
    exact ⟨huv, ih u hu v huv⟩
  case primitive =>
    intro p t h
    cases t <;> try exact absurd h Bool.false_ne_true
    exact .ok (.of_beq (primitiveType_beq h))
  case multiType =>
    intro kinds t h
    cases t <;> try exact absurd h Bool.false_ne_true
    rename_i others
    have hkinds : (kinds == others) = true := h
    rw [eq_of_beq hkinds]
    exact .refl (fun _ => .of_beq BEq.rfl) _
  case anyOf =>
    intro alternatives ih t h
    cases t <;> try exact absurd h Bool.false_ne_true
    rename_i others
    have hrel := anyOf_beq_iff.1 h
    simp only [resolve, outcome_resolved, TracedBy.outcome_bind, TracedBy.outcome_quiet]
    refine agree_union_resolveArms (hrel.mono fun s hs t _ hst => ?_)
    exact agree_armType hst (ih s hs t hst)
  case ref =>
    intro target t h
    cases t <;> try exact absurd h Bool.false_ne_true
    rename_i other
    have htarget : (target == other) = true := h
    rw [eq_of_beq htarget]
    exact .refl (fun _ => .of_beq BEq.rfl) _

end Schema
end TypedSchema
