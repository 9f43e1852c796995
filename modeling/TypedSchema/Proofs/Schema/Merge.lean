import TypedSchema.Proofs.Schema.Intersection

/-!
# Merging is a fold for each property

`ObjectSchema.merge` walks through the properties of one schema after the other and changes the list
of merged properties in place.  What it does to one name is independent of all others:
`lookup_of_mergeProperties` says that the result maps a name to the left fold of `intersection` over
the declarations of that name in order, and `exists_mergeProperties_iff` that the walk succeeds
exactly when each of these folds does.  `merge_eq_ok` puts this together with the two other things a
merge looks at, compositions and required names.
-/

namespace TypedSchema

namespace Schema

/-- The intersection of some schemas, from the left; nothing for none. -/
def meet? : List Schema → Except Fault (Option Schema)
  | [] => .ok none
  | d :: ds => (ds.foldlM intersection d).map some

/-- Some of the schemas can be met first, and the result in their place. -/
lemma meet?_append (xs ys : List Schema) :
    meet? (xs ++ ys) = meet? xs >>= fun r => meet? (r.toList ++ ys) := by
  cases xs with
  | nil => rfl
  | cons d ds =>
    simp only [List.cons_append, meet?, List.foldlM_append]
    cases ds.foldlM intersection d with
    | error _ => rfl
    | ok r => rfl

lemma exists_of_meet?_concat {xs : List Schema} {s : Schema} {r : Option Schema}
    (h : meet? (xs ++ [s]) = .ok r) : ∃ v, r = some v := by
  cases xs with
  | nil => exact ⟨s, (Except.ok.inj h).symm⟩
  | cons d ds =>
    rw [List.cons_append, meet?, map_eq_ok] at h
    obtain ⟨v, -, rfl⟩ := h
    exact ⟨v, rfl⟩

end Schema

namespace ObjectSchema

/-- What some entries declare under a name, in order. -/
def declarations (name : String) (entries : List (String × Schema)) : List Schema :=
  (entries.filter fun entry => entry.1 == name).map Prod.snd

lemma declarations_cons (name : String) (entry : String × Schema)
    (entries : List (String × Schema)) :
    declarations name (entry :: entries) =
      if entry.1 = name then entry.2 :: declarations name entries
      else declarations name entries := by
  by_cases h : entry.1 = name <;> simp [declarations, h]

lemma declarations_append (name : String) (xs ys : List (String × Schema)) :
    declarations name (xs ++ ys) = declarations name xs ++ declarations name ys := by
  rw [declarations, List.filter_append, List.map_append]
  rfl

lemma mem_declarations {name : String} {s : Schema} {entries : List (String × Schema)} :
    s ∈ declarations name entries ↔ (name, s) ∈ entries := by
  simp [declarations]

lemma declarations_perm {xs ys : List (String × Schema)} (h : xs.Perm ys) (name : String) :
    (declarations name xs).Perm (declarations name ys) :=
  (h.filter _).map _

/-! ## The walk through the properties -/

/-- One more declaration of a name sets the name to the intersection of its declarations. -/
lemma mergeProperty_eq_ok {properties merged : List (String × Schema)} {name : String}
    {s : Schema} :
    mergeProperty properties name s = .ok merged ↔
      ∃ v, Schema.meet? ((properties.lookup name).toList ++ [s]) = .ok (some v) ∧
        merged = insertMember name v properties := by
  rw [mergeProperty]
  cases properties.lookup name with
  | none =>
    constructor
    · exact fun h => ⟨s, rfl, (Except.ok.inj h).symm⟩
    · rintro ⟨v, hv, rfl⟩
      cases hv
      rfl
  | some existing =>
    simp only [bind_eq_ok, mapError_eq_ok, pure_eq_ok, Option.toList_some, List.singleton_append,
      Schema.meet?, map_eq_ok, List.foldlM_cons, List.foldlM_nil, Option.some.injEq]
    constructor
    · rintro ⟨v, hv, rfl⟩
      exact ⟨v, ⟨v, ⟨v, hv, rfl⟩, rfl⟩, rfl⟩
    · rintro ⟨v, ⟨w, ⟨u, hu, rfl⟩, rfl⟩, rfl⟩
      exact ⟨u, hu, rfl⟩

/-- **The walk computes one fold for each name.** -/
theorem lookup_of_mergeProperties {properties entries out : List (String × Schema)}
    (h : mergeProperties properties entries = .ok out) (name : String) :
    Schema.meet? ((properties.lookup name).toList ++ declarations name entries) =
      .ok (out.lookup name) := by
  induction entries generalizing properties with
  | nil =>
    obtain rfl := Except.ok.inj h
    cases properties.lookup name <;> rfl
  | cons entry rest ih =>
    obtain ⟨n, s⟩ := entry
    rw [mergeProperties, bind_eq_ok] at h
    obtain ⟨merged, hmerged, hrest⟩ := h
    obtain ⟨v, hv, rfl⟩ := mergeProperty_eq_ok.1 hmerged
    have hname := ih hrest
    rw [lookup_insertMember] at hname
    rw [declarations_cons]
    by_cases heq : n = name
    · subst heq
      rw [if_pos rfl] at hname ⊢
      rw [List.append_cons, Schema.meet?_append, hv]
      exact hname
    · rw [if_neg (Ne.symm heq)] at hname
      rwa [if_neg heq]

/-- **The walk succeeds exactly when every fold does.** -/
theorem exists_mergeProperties_iff {properties entries : List (String × Schema)} :
    (∃ out, mergeProperties properties entries = .ok out) ↔ ∀ name, ∃ r,
      Schema.meet? ((properties.lookup name).toList ++ declarations name entries) = .ok r := by
  refine ⟨fun ⟨out, hout⟩ name => ⟨_, lookup_of_mergeProperties hout name⟩, fun h => ?_⟩
  induction entries generalizing properties with
  | nil => exact ⟨properties, rfl⟩
  | cons entry rest ih =>
    obtain ⟨n, s⟩ := entry
    -- the fold of the first name begins with the step that the walk takes first
    have hfirst := h n
    rw [declarations_cons, if_pos rfl, List.append_cons, Schema.meet?_append] at hfirst
    simp only [bind_eq_ok] at hfirst
    obtain ⟨r, o, ho, hr⟩ := hfirst
    obtain ⟨v, rfl⟩ := Schema.exists_of_meet?_concat ho
    have hmerged := mergeProperty_eq_ok.2 ⟨v, ho, rfl⟩
    obtain ⟨out, hout⟩ := ih fun name => by
      rw [lookup_insertMember]
      by_cases heq : name = n
      · subst heq
        rw [if_pos rfl]
        exact ⟨r, hr⟩
      · have hother := h name
        rw [declarations_cons, if_neg (Ne.symm heq)] at hother
        rwa [if_neg heq]
    exact ⟨out, by rw [mergeProperties, bind_eq_ok]; exact ⟨_, hmerged, hout⟩⟩

lemma nodup_of_mergeProperties {properties entries out : List (String × Schema)}
    (h : mergeProperties properties entries = .ok out)
    (hnodup : (properties.map Prod.fst).Nodup) : (out.map Prod.fst).Nodup := by
  induction entries generalizing properties with
  | nil => exact Except.ok.inj h ▸ hnodup
  | cons entry rest ih =>
    rw [mergeProperties, bind_eq_ok] at h
    obtain ⟨merged, hmerged, hrest⟩ := h
    obtain ⟨v, -, rfl⟩ := mergeProperty_eq_ok.1 hmerged
    exact ih hrest (nodup_insertMember hnodup)

lemma mergeProperties_append (properties xs ys : List (String × Schema)) :
    mergeProperties properties (xs ++ ys) =
      mergeProperties properties xs >>= fun merged => mergeProperties merged ys := by
  induction xs generalizing properties with
  | nil => rfl
  | cons x xs ih =>
    obtain ⟨name, s⟩ := x
    rw [List.cons_append, mergeProperties, mergeProperties, bind_assoc]
    exact bind_congr fun merged => ih merged

/-- Properties without a repeated name are merged as they are. -/
lemma mergeProperties_of_nodup {properties entries : List (String × Schema)}
    (h : ((properties ++ entries).map Prod.fst).Nodup) :
    mergeProperties properties entries = .ok (properties ++ entries) := by
  induction entries generalizing properties with
  | nil => rw [mergeProperties, List.append_nil]
  | cons entry rest ih =>
    obtain ⟨name, s⟩ := entry
    have hname : name ∉ properties.map Prod.fst := by
      rw [List.map_append, List.nodup_append] at h
      exact fun hmem => h.2.2 name hmem name List.mem_cons_self rfl
    rw [List.append_cons] at h ⊢
    rw [mergeProperties, mergeProperty, lookup_eq_none.2 hname, insertMember_of_notMem hname]
    exact ih h

/-! ## Whole schemas -/

/-- The properties of some schemas, one after the other. -/
def allEntries (schemas : List ObjectSchema) : List (String × Schema) :=
  schemas.flatMap ObjectSchema.properties

/-- The required names of some schemas added to those so far. -/
def allRequired (required : Option (List String)) (schemas : List ObjectSchema) :
    Option (List String) :=
  schemas.foldl (fun names schema => mergeRequired names schema.required) required

lemma foldlM_mergeInto {schemas : List ObjectSchema} {start merged : ObjectSchema} :
    schemas.foldlM mergeInto start = .ok merged ↔
      (∀ o ∈ schemas, o.isComposed = false) ∧
      ∃ properties, mergeProperties start.properties (allEntries schemas) = .ok properties ∧
        merged = { start with properties, required := allRequired start.required schemas } := by
  induction schemas generalizing start with
  | nil =>
    obtain ⟨id, base, properties, required, allOf⟩ := start
    simp only [List.foldlM_nil, pure_eq_ok, List.not_mem_nil, false_imp_iff, implies_true,
      true_and]
    constructor
    · rintro rfl
      exact ⟨_, rfl, rfl⟩
    · rintro ⟨properties, hproperties, rfl⟩
      obtain rfl := Except.ok.inj hproperties
      rfl
  | cons o rest ih =>
    have hentries : allEntries (o :: rest) = o.properties ++ allEntries rest := rfl
    rw [List.foldlM_cons, bind_eq_ok, hentries, mergeProperties_append]
    simp only [ih, bind_eq_ok, List.forall_mem_cons]
    cases hcomposed : o.isComposed with
    | true => simp [mergeInto, hcomposed]
    | false =>
      simp only [mergeInto, hcomposed, Bool.false_eq_true, if_false, bind_eq_ok, pure_eq_ok]
      constructor
      · rintro ⟨_, ⟨middle, hmiddle, rfl⟩, hplain, properties, hproperties, rfl⟩
        exact ⟨⟨trivial, hplain⟩, properties, ⟨middle, hmiddle, hproperties⟩, rfl⟩
      · rintro ⟨⟨-, hplain⟩, properties, ⟨middle, hmiddle, hproperties⟩, rfl⟩
        exact ⟨_, ⟨middle, hmiddle, rfl⟩, hplain, properties, hproperties, rfl⟩

/-- **What a merge is.**  There is something to merge, nothing composed, and the properties and
required names of the result are those of the members together. -/
theorem merge_eq_ok {schemas : List ObjectSchema} {merged : ObjectSchema} :
    merge schemas = .ok merged ↔
      schemas ≠ [] ∧ (∀ o ∈ schemas, o.isComposed = false) ∧
      ∃ properties, mergeProperties [] (allEntries schemas) = .ok properties ∧
        merged = { properties, required := allRequired none schemas } := by
  rw [merge]
  cases schemas with
  | nil => simp
  | cons o rest =>
    rw [List.isEmpty_cons, if_neg Bool.false_ne_true, foldlM_mergeInto]
    simp

/-- Schemas that declare no name twice are merged without an intersection. -/
lemma merge_of_nodup {schemas : List ObjectSchema} (hne : schemas ≠ [])
    (hplain : ∀ o ∈ schemas, o.isComposed = false)
    (hnodup : ((allEntries schemas).map Prod.fst).Nodup) :
    merge schemas =
      .ok { properties := allEntries schemas, required := allRequired none schemas } :=
  merge_eq_ok.2 ⟨hne, hplain, _, mergeProperties_of_nodup hnodup, rfl⟩

/-! ## Required names -/

lemma isSome_mergeRequired (a b : Option (List String)) :
    (mergeRequired a b).isSome = (a.isSome || b.isSome) := by
  cases a <;> cases b <;> rfl

lemma mem_mergeRequired (a b : Option (List String)) (name : String) :
    name ∈ (mergeRequired a b).getD [] ↔ name ∈ a.getD [] ∨ name ∈ b.getD [] := by
  cases b with
  | none => simp [mergeRequired]
  | some names =>
    constructor
    · exact foldl_appendNew_subset
    · rintro (h | h)
      · exact subset_foldl_appendNew h
      · rcases exists_mem_foldl_appendNew (a.getD []) h with hmem | ⟨other, hmem, heq⟩
        · exact hmem
        · rwa [eq_of_beq heq]

lemma isSome_allRequired (required : Option (List String)) (schemas : List ObjectSchema) :
    (allRequired required schemas).isSome = true ↔
      required.isSome = true ∨ ∃ o ∈ schemas, o.required.isSome = true := by
  induction schemas generalizing required with
  | nil => simp [allRequired]
  | cons o rest ih =>
    rw [allRequired, List.foldl_cons]
    refine (ih _).trans ?_
    rw [isSome_mergeRequired, Bool.or_eq_true, List.exists_mem_cons_iff, or_assoc]

/-- The merged list has the names of all lists that are given, each where it appears first. -/
lemma getD_allRequired (required : Option (List String)) (schemas : List ObjectSchema) :
    (allRequired required schemas).getD [] =
      (schemas.flatMap fun o => o.required.getD []).foldl appendNew (required.getD []) := by
  induction schemas generalizing required with
  | nil => rfl
  | cons o rest ih =>
    rw [allRequired, List.foldl_cons, List.flatMap_cons, List.foldl_append]
    refine (ih _).trans ?_
    cases o.required <;> rfl

/-- The merged list has exactly the names of all lists that are given. -/
lemma mem_allRequired (required : Option (List String)) (schemas : List ObjectSchema)
    (name : String) : name ∈ (allRequired required schemas).getD [] ↔
      name ∈ required.getD [] ∨ ∃ o ∈ schemas, name ∈ o.required.getD [] := by
  induction schemas generalizing required with
  | nil => simp [allRequired]
  | cons o rest ih =>
    rw [allRequired, List.foldl_cons]
    refine (ih _).trans ?_
    rw [mem_mergeRequired, List.exists_mem_cons_iff, or_assoc]

end ObjectSchema
end TypedSchema
