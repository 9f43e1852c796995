import TypedSchema.Proofs.Schema.Merge

/-!
# A merge, name by name

A merge succeeds if there is something to merge, nothing composed, and every property name has an
intersection of what is declared under it.  Its result is then known in every part: which names it
has and in which order, what stands under each of them, and which names it requires
(`ObjectSchema.merge_by_name`).

The result of a merge has distinct names and lists no required name twice, so merging it alone gives
it back (`ObjectSchema.merge_singleton_of_merge`).  That is why some members can be merged first and
their result put in their place: both ways the fold goes on from the same object.
-/

namespace TypedSchema
namespace ObjectSchema

variable {schemas : List ObjectSchema} {merged : ObjectSchema}

/-! ## Properties -/

/-- The walk adds the names of its entries to those that are there, each at its first place. -/
lemma map_fst_of_mergeProperties {properties entries out : List (String × Schema)}
    (h : mergeProperties properties entries = .ok out) :
    out.map Prod.fst = (entries.map Prod.fst).foldl appendNew (properties.map Prod.fst) := by
  induction entries generalizing properties with
  | nil =>
    cases h
    rfl
  | cons entry rest ih =>
    rw [mergeProperties, bind_eq_ok] at h
    obtain ⟨middle, hmiddle, hrest⟩ := h
    obtain ⟨v, -, rfl⟩ := mergeProperty_eq_ok.1 hmiddle
    have hstep : (insertMember entry.1 v properties).map Prod.fst =
        appendNew (properties.map Prod.fst) entry.1 := by
      rw [map_fst_insertMember, appendNew]
      simp only [List.contains_iff_mem]
    rw [ih hrest, hstep, List.map_cons, List.foldl_cons]

/-- What stands under a name is the fold of the declarations of that name. -/
lemma foldlM_of_mem_properties {entries out : List (String × Schema)}
    (h : mergeProperties [] entries = .ok out) {entry : String × Schema} (hentry : entry ∈ out) :
    ∃ d ds, declarations entry.1 entries = d :: ds ∧
      ds.foldlM Schema.intersection d = .ok entry.2 := by
  have hmeet : Schema.meet? (declarations entry.1 entries) = .ok (out.lookup entry.1) :=
    lookup_of_mergeProperties h entry.1
  rw [lookup_of_mem (nodup_of_mergeProperties h List.nodup_nil) hentry] at hmeet
  cases hds : declarations entry.1 entries with
  | nil =>
    rw [hds] at hmeet
    cases hmeet
  | cons d ds =>
    rw [hds, Schema.meet?, map_eq_ok] at hmeet
    obtain ⟨r, hr, heq⟩ := hmeet
    cases heq
    exact ⟨d, ds, rfl, hr⟩

lemma exists_meet?_iff {ds : List Schema} :
    (∃ r, Schema.meet? ds = .ok r) ↔
      ∀ d rest, ds = d :: rest → ∃ r, rest.foldlM Schema.intersection d = .ok r := by
  cases ds with
  | nil => exact iff_of_true ⟨none, rfl⟩ nofun
  | cons d ds =>
    simp only [Schema.meet?, map_eq_ok, List.cons.injEq]
    constructor
    · rintro ⟨_, r, hr, -⟩ _ _ ⟨rfl, rfl⟩
      exact ⟨r, hr⟩
    · intro h
      obtain ⟨r, hr⟩ := h d ds ⟨rfl, rfl⟩
      exact ⟨_, r, hr, rfl⟩

/-- Members with distinct property names declare a name at most once each. -/
lemma declarations_eq_filterMap (h : ∀ o ∈ schemas, (o.properties.map Prod.fst).Nodup)
    (name : String) : declarations name (allEntries schemas) =
      schemas.filterMap fun o => o.properties.lookup name := by
  have hone : ∀ {entries : List (String × Schema)}, (entries.map Prod.fst).Nodup →
      declarations name entries = (entries.lookup name).toList := by
    intro entries hnodup
    induction entries with
    | nil => rfl
    | cons entry rest ih =>
      obtain ⟨hfresh, hrest⟩ := List.nodup_cons.1 hnodup
      rw [declarations_cons, lookup_member, ih hrest]
      by_cases hname : entry.1 = name
      · have hnone : rest.lookup name = none := lookup_eq_none.2 (hname ▸ hfresh)
        rw [if_pos hname, if_pos hname.symm, hnone]
        rfl
      · rw [if_neg hname, if_neg (Ne.symm hname)]
  induction schemas with
  | nil => rfl
  | cons o rest ih =>
    obtain ⟨ho, hrest⟩ := List.forall_mem_cons.1 h
    have hentries : allEntries (o :: rest) = o.properties ++ allEntries rest := rfl
    rw [hentries, declarations_append, hone ho, ih hrest, List.filterMap_cons]
    cases o.properties.lookup name <;> rfl

/-! ## The result in place of its members -/

lemma eq_firstOccurrences_of_allRequired {names : List String}
    (h : allRequired none schemas = some names) :
    names = firstOccurrences (schemas.flatMap fun o => o.required.getD []) := by
  have hnames := getD_allRequired none schemas
  rwa [h] at hnames

/-- Merging a merged object alone gives it back. -/
lemma merge_singleton_of_merge (h : merge schemas = .ok merged) : merge [merged] = .ok merged := by
  obtain ⟨-, -, properties, hproperties, rfl⟩ := merge_eq_ok.1 h
  have hrequired : mergeRequired none (allRequired none schemas) = allRequired none schemas := by
    cases hnames : allRequired none schemas with
    | none => rfl
    | some names =>
      have hdistinct : names.Nodup :=
        eq_firstOccurrences_of_allRequired hnames ▸ nodup_firstOccurrences _
      exact congrArg some (firstOccurrences_of_nodup hdistinct)
  set merged : ObjectSchema := { properties, required := allRequired none schemas } with hmerged
  have hentries : allEntries [merged] = properties := List.append_nil properties
  have hnodup : ((allEntries [merged]).map Prod.fst).Nodup :=
    hentries ▸ nodup_of_mergeProperties hproperties List.nodup_nil
  have hplain : ∀ o ∈ [merged], o.isComposed = false := List.forall_mem_singleton.2 rfl
  rw [merge_of_nodup (List.cons_ne_nil merged []) hplain hnodup, hentries]
  show Except.ok { properties, required := mergeRequired none merged.required : ObjectSchema } = _
  rw [hrequired]

/-- A merge goes on with further members from the result so far. -/
lemma merge_append (hne : schemas ≠ []) (others : List ObjectSchema) :
    merge (schemas ++ others) = merge schemas >>= fun merged => others.foldlM mergeInto merged := by
  have hall : schemas ++ others ≠ [] := List.append_ne_nil_of_left_ne_nil hne others
  rw [merge, merge, if_neg (mt List.isEmpty_iff.1 hne), if_neg (mt List.isEmpty_iff.1 hall),
    List.foldlM_append]

/-- Some members can be merged first, and their result in their place. -/
theorem merge_merge (h : merge schemas = .ok merged) (others : List ObjectSchema) :
    merge (merged :: others) = merge (schemas ++ others) := by
  have hne : schemas ≠ [] := (merge_eq_ok.1 h).1
  calc merge (merged :: others)
    _ = merge [merged] >>= fun m => others.foldlM mergeInto m :=
      merge_append (List.cons_ne_nil merged []) others
    _ = merge schemas >>= fun m => others.foldlM mergeInto m := by
      rw [merge_singleton_of_merge h, h]
    _ = merge (schemas ++ others) := (merge_append hne others).symm

/-! ## All parts -/

/-- **A merge is one fold for each name.** -/
theorem merge_by_name (schemas : List ObjectSchema) :
    ((∀ o ∈ schemas, (o.properties.map Prod.fst).Nodup) → ∀ name,
      declarations name (allEntries schemas) =
        schemas.filterMap fun o => o.properties.lookup name) ∧
    ((∃ merged, merge schemas = .ok merged) ↔
      schemas ≠ [] ∧ (∀ o ∈ schemas, o.allOf = none) ∧
        ∀ name d ds, declarations name (allEntries schemas) = d :: ds →
          ∃ r, ds.foldlM Schema.intersection d = .ok r) ∧
    ∀ merged, merge schemas = .ok merged →
      merged.properties.map Prod.fst =
        firstOccurrences (schemas.flatMap fun o => o.properties.map Prod.fst) ∧
      (∀ entry ∈ merged.properties, ∃ d ds,
        declarations entry.1 (allEntries schemas) = d :: ds ∧
          ds.foldlM Schema.intersection d = .ok entry.2) ∧
      (merged.required = none ↔ ∀ o ∈ schemas, o.required = none) ∧
      (∀ names, merged.required = some names →
        names = firstOccurrences (schemas.flatMap fun o => o.required.getD [])) ∧
      merged.id = none ∧ merged.base = none ∧ merged.allOf = none ∧
      ∀ others, merge (merged :: others) = merge (schemas ++ others) := by
  refine ⟨declarations_eq_filterMap, ?success, fun merged h => ?result⟩
  case success =>
    have hfolds : (∃ out, mergeProperties [] (allEntries schemas) = .ok out) ↔
        ∀ name d ds, declarations name (allEntries schemas) = d :: ds →
          ∃ r, ds.foldlM Schema.intersection d = .ok r :=
      exists_mergeProperties_iff.trans (forall_congr' fun _ => exists_meet?_iff)
    have hplain : (∀ o ∈ schemas, o.isComposed = false) ↔ ∀ o ∈ schemas, o.allOf = none := by
      simp [isComposed]
    rw [← hfolds, ← hplain]
    simp only [merge_eq_ok]
    constructor
    · rintro ⟨_, hne, hcomposed, out, hout, -⟩
      exact ⟨hne, hcomposed, out, hout⟩
    · rintro ⟨hne, hcomposed, out, hout⟩
      exact ⟨_, hne, hcomposed, out, hout, rfl⟩
  case result =>
    have hmerge := merge_merge h
    obtain ⟨-, -, properties, hproperties, rfl⟩ := merge_eq_ok.1 h
    refine ⟨?names, fun entry => foldlM_of_mem_properties hproperties, ?omitted,
      fun _ => eq_firstOccurrences_of_allRequired, rfl, rfl, rfl, hmerge⟩
    case names =>
      rw [map_fst_of_mergeProperties hproperties, allEntries, List.map_flatMap]
      rfl
    case omitted =>
      rw [← Option.not_isSome_iff_eq_none, isSome_allRequired]
      simp

/-- Two members that declare an `id` each, with two kinds in common. -/
def keyed : List ObjectSchema :=
  [{ properties := [("id", .multiType [.integer, .null, .string])], required := some ["id"] },
    { properties := [("name", .ofKind .string), ("id", .anyOf [.ofKind .string, .ofKind .integer])],
      required := some ["name", "id"] }]

theorem merge_by_name_keyed :
    ∃ merged, merge keyed = .ok merged ∧ merged.properties.map Prod.fst = ["id", "name"] ∧
      merged.required = some ["id", "name"] ∧
      ∀ others, merge (merged :: others) = merge (keyed ++ others) := by
  obtain ⟨merged, hmerged⟩ : ∃ merged, merge keyed = .ok merged := ⟨_, rfl⟩
  obtain ⟨hnames, -, homitted, hrequired, -, -, -, hmerge⟩ :=
    (merge_by_name keyed).2.2 merged hmerged
  have hsome : merged.required ≠ none := fun hnone => by simpa [keyed] using homitted.1 hnone
  obtain ⟨names, hlisted⟩ := Option.ne_none_iff_exists'.1 hsome
  have hboth : names = ["id", "name"] := hrequired names hlisted
  exact ⟨merged, hmerged, hnames, hboth ▸ hlisted, hmerge⟩

end ObjectSchema
end TypedSchema
