import TypedSchema.Proofs.Agreement
import TypedSchema.Proofs.Schema.Merge

/-!
# Merging respects equality

Two merges agree if they agree on what each name comes to, and on the two other things that a merge
looks at (`ObjectSchema.agree_merge`).  Merging schemas that are equal one by one is such a case
(`ObjectSchema.agree_merge_of_beq`): equal schemas offer equal shapes, so that intersections of
equal schemas agree (`Schema.agree_intersection`), and they declare equal schemas under each name.

The property names of a schema have to be distinct for that.  Equality pairs the properties in any
order, and if one schema declared a name twice, the order of the two would count.
-/

namespace TypedSchema

namespace Schema

/-! ## Intersections -/

/-- Equal schemas offer equal shapes. -/
lemma agree_alternatives {s t : Schema} (h : (s == t) = true) :
    Agree SameValues s.alternatives t.alternatives := by
  have hself : SameValues [s] [t] :=
    Multiset.Rel.cons (r := fun x y : Schema => (x == y) = true) h Multiset.Rel.zero
  cases s <;> cases t <;> try exact absurd h Bool.false_ne_true
  case ref.ref => exact .error _ _
  case anyOf.anyOf => exact .ok (anyOf_beq_iff.1 h)
  case multiType.multiType kinds others =>
    have hkinds : (kinds == others) = true := h
    rw [eq_of_beq hkinds]
    exact .refl SameValues.refl _
  all_goals exact .ok hself

lemma contains_of_sameValues {xs ys : List Schema} (h : SameValues xs ys) (z : Schema) :
    xs.contains z = ys.contains z := by
  rw [Bool.eq_iff_iff, List.contains_iff_exists_mem_beq, List.contains_iff_exists_mem_beq]
  constructor
  · rintro ⟨x, hx, hzx⟩
    obtain ⟨y, hy, hxy⟩ := Multiset.exists_mem_of_rel_of_mem h hx
    exact ⟨y, hy, BEq.trans hzx hxy⟩
  · rintro ⟨y, hy, hzy⟩
    obtain ⟨x, hx, hxy⟩ := Multiset.exists_mem_of_rel_of_mem (Multiset.rel_flip.2 h) hy
    exact ⟨x, hx, BEq.trans hzy (BEq.symm hxy)⟩

lemma sameValues_common {as bs as' bs' : List Schema} (has : SameValues as as')
    (hbs : SameValues bs bs') : SameValues (common as bs) (common as' bs') := by
  refine rel_of_contains_iff (pairwise_firstOccurrences _) (pairwise_firstOccurrences _) ?_
  intro z
  show (common as bs).contains z = true ↔ (common as' bs').contains z = true
  rw [contains_common, contains_common, contains_of_sameValues has, contains_of_sameValues hbs]

/-- Equal schemas have intersections that are equal, or none. -/
theorem agree_intersection {a b a' b' : Schema} (ha : (a == a') = true) (hb : (b == b') = true) :
    Agree (fun r r' : Schema => (r == r') = true) (a.intersection b) (a'.intersection b') := by
  have hshapes : Agree SameValues (a.intersect b) (a'.intersect b') := by
    refine (agree_alternatives ha).bind fun as as' has => ?_
    exact (agree_alternatives hb).bind fun bs bs' hbs => .ok (sameValues_common has hbs)
  refine hshapes.bind fun xs ys h => ?_
  have hbeq := ofShapes_beq h
  have hlength : xs.length = ys.length := Multiset.card_eq_card_of_rel h
  match xs, ys, hlength with
  | [], [], _ => exact .error _ _
  | [x], [y], _ => exact .ok hbeq
  | _ :: _ :: _, _ :: _ :: _, _ => exact .ok hbeq

theorem agree_meet? {ds es : List Schema}
    (h : List.Forall₂ (fun d e : Schema => (d == e) = true) ds es) :
    Agree (Option.Rel fun r r' : Schema => (r == r') = true) (meet? ds) (meet? es) := by
  cases h with
  | nil => exact .ok .none
  | @cons d e ds es hhead htail =>
    have hfold : Agree (fun r r' : Schema => (r == r') = true) (ds.foldlM intersection d)
        (es.foldlM intersection e) := by
      induction htail generalizing d e with
      | nil => exact .ok hhead
      | cons hnext _ ih =>
        rw [List.foldlM_cons, List.foldlM_cons]
        exact (agree_intersection hhead hnext).bind fun _ _ hr => ih hr
    exact hfold.map fun _ _ hr => .some hr

/-- Properties are equal up to order when each name maps to equal schemas in both. -/
theorem sameProperties_of_lookup {xs ys : List (String × Schema)}
    (hxs : (xs.map Prod.fst).Nodup) (hys : (ys.map Prod.fst).Nodup)
    (h : ∀ name, Option.Rel (fun x y : Schema => (x == y) = true) (xs.lookup name)
      (ys.lookup name)) : sameProperties xs ys = true :=
  sameProperties_iff.2 ((rel_of_lookup hxs hys h).mono fun _ _ _ _ hxy => ⟨hxy.1.symm, hxy.2⟩)

end Schema

namespace ObjectSchema

/-! ## Merges -/

lemma agree_mergeProperties {xs ys : List (String × Schema)}
    (h : ∀ name, Agree (Option.Rel fun r r' : Schema => (r == r') = true)
      (Schema.meet? (declarations name xs)) (Schema.meet? (declarations name ys))) :
    Agree (fun out out' => Schema.sameProperties out out' = true) (mergeProperties [] xs)
      (mergeProperties [] ys) := by
  rw [agree_iff, exists_mergeProperties_iff, exists_mergeProperties_iff]
  refine ⟨forall_congr' fun name => (agree_iff.1 (h name)).1, fun out out' hout hout' => ?_⟩
  refine Schema.sameProperties_of_lookup (nodup_of_mergeProperties hout List.nodup_nil)
    (nodup_of_mergeProperties hout' List.nodup_nil) fun name => ?_
  exact (agree_iff.1 (h name)).2 _ _ (lookup_of_mergeProperties hout name)
    (lookup_of_mergeProperties hout' name)

/-- Merges agree if they have as much to merge and agree on each name. -/
theorem agree_merge {schemas others : List ObjectSchema} (hnil : schemas = [] ↔ others = [])
    (hcomposed : (∀ o ∈ schemas, o.isComposed = false) ↔ ∀ o ∈ others, o.isComposed = false)
    (hmeet : ∀ name, Agree (Option.Rel fun r r' : Schema => (r == r') = true)
      (Schema.meet? (declarations name (allEntries schemas)))
      (Schema.meet? (declarations name (allEntries others))))
    (hrequired : sameRequired (allRequired none schemas) (allRequired none others) = true) :
    Agree (fun m m' : ObjectSchema => (m == m') = true) (merge schemas) (merge others) := by
  obtain ⟨hproperties, hsame⟩ := agree_iff.1 (agree_mergeProperties hmeet)
  rw [agree_iff]
  constructor
  · simp only [merge_eq_ok, exists_and_left, ne_eq, hnil, hcomposed]
    refine and_congr_right fun _ => and_congr_right fun _ => ?_
    constructor
    · rintro ⟨-, out, hout, -⟩
      obtain ⟨out', hout'⟩ := hproperties.1 ⟨out, hout⟩
      exact ⟨_, out', hout', rfl⟩
    · rintro ⟨-, out', hout', -⟩
      obtain ⟨out, hout⟩ := hproperties.2 ⟨out', hout'⟩
      exact ⟨_, out, hout, rfl⟩
  · intro m m' hm hm'
    obtain ⟨-, -, out, hout, rfl⟩ := merge_eq_ok.1 hm
    obtain ⟨-, -, out', hout', rfl⟩ := merge_eq_ok.1 hm'
    show ObjectSchema.same _ _ = true
    simp only [ObjectSchema.same, hsame out out' hout hout', hrequired, Member.sameOption,
      beq_self_eq_true, Bool.and_self]

/-! ## Schemas that are equal one by one -/

/-- A schema with distinct property names declares each name at most once. -/
lemma length_declarations_le {entries : List (String × Schema)}
    (h : (entries.map Prod.fst).Nodup) (name : String) :
    (declarations name entries).length ≤ 1 := by
  have hnames : (declarations name entries).length = (entries.map Prod.fst).count name := by
    rw [declarations, List.length_map, ← List.countP_eq_length_filter, List.count,
      List.countP_map]
    rfl
  rw [hnames]
  exact List.nodup_iff_count_le_one.1 h name

lemma forall₂_declarations {xs ys : List (String × Schema)}
    (h : List.Forall₂ (fun x y => x.1 = y.1 ∧ (x.2 == y.2) = true) xs ys) (name : String) :
    List.Forall₂ (fun d e : Schema => (d == e) = true) (declarations name xs)
      (declarations name ys) := by
  induction h with
  | nil => exact .nil
  | cons hxy _ ih =>
    rw [declarations_cons, declarations_cons, hxy.1]
    split
    · exact .cons hxy.2 ih
    · exact ih

/-- Equal schemas declare equal schemas under each name. -/
lemma forall₂_declarations_of_beq {o p : ObjectSchema} (h : (o == p) = true)
    (hdistinct : (o.properties.map Prod.fst).Nodup) (name : String) :
    List.Forall₂ (fun d e : Schema => (d == e) = true) (declarations name o.properties)
      (declarations name p.properties) := by
  obtain ⟨properties, hall, hperm⟩ := rel_iff_exists_forall₂.1 (beq_iff.1 h).properties
  have hdeclared := forall₂_declarations hall name
  -- at most one declaration has only one order
  have hone : (declarations name properties).length ≤ 1 :=
    hdeclared.length_eq ▸ length_declarations_le hdistinct name
  have hother := declarations_perm hperm name
  match hds : declarations name properties, hone with
  | [], _ =>
    rw [hds] at hdeclared hother
    rwa [List.nil_perm.1 hother]
  | [d], _ =>
    rw [hds] at hdeclared hother
    rwa [← List.singleton_perm.1 hother]

/-- Schemas that are equal one by one have merges that are equal, or none. -/
theorem agree_merge_of_beq {schemas others : List ObjectSchema}
    (h : List.Forall₂ (fun o p : ObjectSchema => (o == p) = true) schemas others)
    (hdistinct : ∀ o ∈ schemas, (o.properties.map Prod.fst).Nodup) :
    Agree (fun m m' : ObjectSchema => (m == m') = true) (merge schemas) (merge others) := by
  have hentries : ∀ name, List.Forall₂ (fun d e : Schema => (d == e) = true)
      (declarations name (allEntries schemas)) (declarations name (allEntries others)) := by
    intro name
    induction h with
    | nil => exact .nil
    | @cons o p os ps hop _ ih =>
      obtain ⟨hfirst, hrest⟩ := List.forall_mem_cons.1 hdistinct
      rw [allEntries, allEntries, List.flatMap_cons, List.flatMap_cons, declarations_append,
        declarations_append]
      exact List.rel_append (forall₂_declarations_of_beq hop hfirst name) (ih hrest)
  refine agree_merge ?empty ?composed (fun name => Schema.agree_meet? (hentries name)) ?required
  case empty => rw [← List.length_eq_zero_iff, ← List.length_eq_zero_iff, h.length_eq]
  case composed =>
    clear hdistinct hentries
    induction h with
    | nil => exact Iff.rfl
    | cons hop _ ih =>
      rw [List.forall_mem_cons, List.forall_mem_cons, ih, (beq_iff.1 hop).isComposed]
  case required =>
    rw [sameRequired_iff_mem, Bool.eq_iff_iff, isSome_allRequired, isSome_allRequired]
    simp only [mem_allRequired]
    constructor
    · refine or_congr_right (exists_mem_iff_of_forall₂ h fun o _ p hop => ?_)
      rw [(beq_iff.1 hop).isSome_required]
    · intro name
      refine or_congr_right (exists_mem_iff_of_forall₂ h fun o _ p hop => ?_)
      exact (beq_iff.1 hop).mem_required name

end ObjectSchema
end TypedSchema
