import TypedSchema.Proofs.Schema.Meaning
import TypedSchema.Proofs.Schema.Merge

/-!
# What a merged schema accepts

Merging never widens: a value that the merged schema accepts is accepted by every member
(`ObjectSchema.merge_accepts`).  Where a property has one declaration only, nothing is lost either,
so members without a common property accept together exactly what their merge accepts.

For a repeated property the inclusion is all there is.  The intersection of two schemas compares
shapes and does not look inside them, so an integer and a number have no shape in common although
they may have values in common.

An intersection accepts less than each operand because its shapes are shapes of the left one, and
equal up to order to shapes of the right one (`Schema.accepts_of_intersection`).  A fold of
intersections inherits this, and the merge is one such fold for each property name
(`ObjectSchema.lookup_of_mergeProperties`).
-/

namespace TypedSchema

variable {I : Interpretation}

namespace Schema

/-! ## Intersections -/

/-- A schema accepts what the shapes that it offers accept. -/
lemma accepts_iff_of_alternatives {s : Schema} {shapes : List Schema}
    (h : s.alternatives = .ok shapes) (v : Json) :
    s.Accepts I v ↔ ∃ x ∈ shapes, x.Accepts I v := by
  cases s with
  | ref target => cases h
  | anyOf alternatives =>
    cases h
    exact someAccepts_iff
  | multiType kinds =>
    cases h
    simp only [List.mem_map, exists_exists_and_eq_and]
    rfl
  | _ =>
    cases h
    simp only [List.mem_singleton, exists_eq_left]

lemma accepts_ofShapes {shapes : List Schema} {v : Json} :
    (ofShapes shapes).Accepts I v ↔ ∃ x ∈ shapes, x.Accepts I v := by
  match shapes with
  | [] => exact someAccepts_iff
  | [s] => simp only [ofShapes, List.mem_singleton, exists_eq_left]
  | _ :: _ :: _ => exact someAccepts_iff

/-- An intersection accepts only what both schemas accept. -/
theorem accepts_of_intersection {a b r : Schema} (h : a.intersection b = .ok r) {v : Json}
    (hv : r.Accepts I v) : a.Accepts I v ∧ b.Accepts I v := by
  obtain ⟨as, bs, has, hbs, -, rfl⟩ := intersection_eq_ok.1 h
  obtain ⟨x, hx, hxv⟩ := accepts_ofShapes.1 hv
  obtain ⟨hxa, hxb⟩ := List.mem_filter.1 (mem_of_mem_firstOccurrences hx)
  obtain ⟨y, hyb, hxy⟩ := List.contains_iff_exists_mem_beq.1 hxb
  constructor
  · exact (accepts_iff_of_alternatives has v).2 ⟨x, hxa, hxv⟩
  · have hyv := (accepts_of_beq I).1 x y hxy v hxv
    exact (accepts_iff_of_alternatives hbs v).2 ⟨y, hyb, hyv⟩

/-- A fold of intersections accepts only what all schemas accept. -/
lemma accepts_of_meet? {ds : List Schema} {r : Option Schema} (h : meet? ds = .ok r) {v : Json}
    (hv : ∀ s, r = some s → s.Accepts I v) : ∀ d ∈ ds, d.Accepts I v := by
  cases ds with
  | nil => exact fun _ hd => absurd hd List.not_mem_nil
  | cons first rest =>
    rw [meet?, map_eq_ok] at h
    obtain ⟨s, hs, rfl⟩ := h
    have hsv := hv s rfl
    induction rest generalizing first with
    | nil =>
      cases hs
      exact List.forall_mem_singleton.2 hsv
    | cons second rest ih =>
      rw [List.foldlM_cons, bind_eq_ok] at hs
      obtain ⟨both, hboth, hs⟩ := hs
      obtain ⟨hbothv, hrest⟩ := List.forall_mem_cons.1 (ih both hs)
      obtain ⟨hfirst, hsecond⟩ := accepts_of_intersection hboth hbothv
      exact List.forall_mem_cons.2 ⟨hfirst, List.forall_mem_cons.2 ⟨hsecond, hrest⟩⟩

end Schema

namespace ObjectSchema

/-! ## Properties -/

/-- A value that satisfies the merged properties satisfies every declaration. -/
lemma accepts_of_mergeProperties {entries out : List (String × Schema)}
    (h : mergeProperties [] entries = .ok out) {members : List (String × Json)}
    (hout : ∀ entry ∈ out, ∀ w, members.lookup entry.1 = some w → entry.2.Accepts I w) :
    ∀ entry ∈ entries, ∀ w, members.lookup entry.1 = some w → entry.2.Accepts I w := by
  rintro ⟨name, s⟩ hentry w hw
  -- the merge of this one name is the fold over its declarations
  have hmeet : Schema.meet? (declarations name entries) = .ok (out.lookup name) :=
    lookup_of_mergeProperties h name
  refine Schema.accepts_of_meet? hmeet (fun r hr => ?_) s (mem_declarations.2 hentry)
  obtain ⟨before, after, rfl⟩ := exists_split_of_lookup hr
  exact hout (name, r) (List.mem_append_right before List.mem_cons_self) w hw

/-! ## Whole schemas -/

lemma mem_allEntries {schemas : List ObjectSchema} {entry : String × Schema} :
    entry ∈ allEntries schemas ↔ ∃ o ∈ schemas, entry ∈ o.properties := List.mem_flatMap

/-- An object schema without base and composition says what its properties and its required names
say. -/
lemma accepts_iff_of_plain {o : ObjectSchema} (hbase : o.base = none) (hallOf : o.allOf = none)
    {v : Json} : o.Accepts I v ↔ ∃ members, v = .object members ∧
      (∀ entry ∈ o.properties, ∀ w, members.lookup entry.1 = some w → entry.2.Accepts I w) ∧
      ∀ name ∈ o.required.getD [], name ∈ members.map Prod.fst := by
  rw [accepts_iff, hbase, hallOf]
  simp

/-- Where no name is declared twice, a merge keeps all properties as they are. -/
lemma properties_of_merge {schemas : List ObjectSchema} {merged : ObjectSchema}
    (h : merge schemas = .ok merged)
    (hdistinct : ∀ o ∈ schemas, (o.properties.map Prod.fst).Nodup)
    (hdisjoint : schemas.Pairwise fun a b =>
      (a.properties.map Prod.fst).Disjoint (b.properties.map Prod.fst)) :
    merged.properties = allEntries schemas := by
  obtain ⟨-, -, properties, hproperties, rfl⟩ := merge_eq_ok.1 h
  have hnodup : (([] ++ allEntries schemas).map Prod.fst).Nodup := by
    rw [List.nil_append, allEntries, List.map_flatMap]
    exact List.nodup_flatMap.2 ⟨hdistinct, hdisjoint⟩
  rw [mergeProperties_of_nodup hnodup] at hproperties
  exact (Except.ok.inj hproperties).symm

/-- **Merging never widens**, and it narrows nothing but properties that are declared more than
once. -/
theorem merge_accepts (I : Interpretation) {schemas : List ObjectSchema} {merged : ObjectSchema}
    (hbase : ∀ o ∈ schemas, o.base = none) (h : merge schemas = .ok merged) :
    (∀ v, merged.Accepts I v → ∀ o ∈ schemas, o.Accepts I v) ∧
      ((∀ o ∈ schemas, (o.properties.map Prod.fst).Nodup) →
        schemas.Pairwise (fun a b =>
          (a.properties.map Prod.fst).Disjoint (b.properties.map Prod.fst)) →
        ∀ v, merged.Accepts I v ↔ ∀ o ∈ schemas, o.Accepts I v) := by
  obtain ⟨hne, hplain, properties, hproperties, hmerged⟩ := merge_eq_ok.1 h
  have hallOf : ∀ o ∈ schemas, o.allOf = none := fun o ho => by simpa [isComposed] using hplain o ho
  have hnarrows : ∀ v, merged.Accepts I v → ∀ o ∈ schemas, o.Accepts I v := by
    intro v hv o ho
    subst hmerged
    obtain ⟨members, rfl, hvproperties, hvrequired⟩ := (accepts_iff_of_plain rfl rfl).1 hv
    refine (accepts_iff_of_plain (hbase o ho) (hallOf o ho)).2 ⟨members, rfl, ?_, ?_⟩
    · intro entry hentry
      exact accepts_of_mergeProperties hproperties hvproperties entry
        (mem_allEntries.2 ⟨o, ho, hentry⟩)
    · exact fun name hname => hvrequired name ((mem_allRequired none schemas name).2
        (.inr ⟨o, ho, hname⟩))
  refine ⟨hnarrows, fun hdistinct hdisjoint v => ⟨hnarrows v, fun hv => ?_⟩⟩
  have hall := properties_of_merge h hdistinct hdisjoint
  subst hmerged
  obtain ⟨first, rest, rfl⟩ := List.exists_cons_of_ne_nil hne
  obtain ⟨members, rfl, -⟩ := accepts_iff.1 (hv first List.mem_cons_self)
  -- every member speaks of the same value, so its parts can be put together
  have hparts : ∀ o ∈ first :: rest,
      (∀ entry ∈ o.properties, ∀ w, members.lookup entry.1 = some w → entry.2.Accepts I w) ∧
        ∀ name ∈ o.required.getD [], name ∈ members.map Prod.fst := by
    intro o ho
    obtain ⟨others, hothers, hparts⟩ :=
      (accepts_iff_of_plain (hbase o ho) (hallOf o ho)).1 (hv o ho)
    cases hothers
    exact hparts
  refine (accepts_iff_of_plain rfl rfl).2 ⟨members, rfl, ?_, ?_⟩
  · intro entry hentry
    obtain ⟨o, ho, hmem⟩ := mem_allEntries.1 (hall ▸ hentry)
    exact (hparts o ho).1 entry hmem
  · intro name hname
    rcases (mem_allRequired none (first :: rest) name).1 hname with hnone | ⟨o, ho, hmem⟩
    · exact absurd hnone List.not_mem_nil
    · exact (hparts o ho).2 name hmem

/-- Two declarations of one property: an integer or nothing, and an integer that has to be there. -/
def aged : List ObjectSchema :=
  [{ properties := [("age", .multiType [.integer, .null])] },
    { properties := [("age", .ofKind .integer)], required := some ["age"] }]

/-- Two schemas without a common property, one of them with a choice. -/
def namedAndAged : List ObjectSchema :=
  [{ properties := [("name", .anyOf [.ofKind .string, .ref "#Name"])], required := some ["name"] },
    { properties := [("age", .ofKind .integer)] }]

theorem merge_accepts_aged :
    (∃ merged, merge aged = .ok merged ∧
      ∀ v, merged.Accepts .usual v → ∀ o ∈ aged, o.Accepts .usual v) ∧
    ∃ merged, merge namedAndAged = .ok merged ∧
      ∀ v, merged.Accepts .usual v ↔ ∀ o ∈ namedAndAged, o.Accepts .usual v := by
  have haged : ∀ o ∈ aged, o.base = none := by simp [aged]
  have hapart : ∀ o ∈ namedAndAged, o.base = none := by simp [namedAndAged]
  refine ⟨⟨_, rfl, (merge_accepts .usual haged rfl).1⟩,
    ⟨_, rfl, (merge_accepts .usual hapart rfl).2 ?_ ?_⟩⟩
  · simp [namedAndAged]
  · simp [namedAndAged]

end ObjectSchema
end TypedSchema
