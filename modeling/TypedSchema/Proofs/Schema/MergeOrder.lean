import TypedSchema.Proofs.Schema.MergeCongruence

/-!
# When the order of a merge does not matter

An intersection with a single common shape is that shape, and the next intersection looks at what
*it* offers.  If the shape is plain it offers itself and nothing is lost.  If it is an `anyOf`, a
list of types or a reference, the next step takes it apart (or fails), although the same shape would
have been kept, had the members come in another order.

`merge_perm_iff` states both sides.  Suppose that wherever two or more, but not all, of the
declarations of a property have a single common shape, that shape is one of a class `p`
(`ObjectSchema.LeavesOnly`).  All orders of such members succeed or fail together, with results that
are equal up to order (`ObjectSchema.MergesLike`), if and only if all shapes of `p` are plain: each
shape that is not makes three schemas whose merge succeeds in one order and fails in another.
-/

namespace TypedSchema

namespace Schema

/-! ## One property -/

/-- Where only plain shapes are left, meeting schemas in another order succeeds as well and gives
the same. -/
theorem meet?_perm {ds es : List Schema} (h : ds.Perm es) (hplain : LeavesOnly IsPlain ds) :
    ((∃ r, meet? ds = .ok r) ↔ ∃ r, meet? es = .ok r) ∧
      ∀ r r', meet? ds = .ok r → meet? es = .ok r' →
        Option.Rel (fun x y : Schema => (x == y) = true) r r' := by
  match ds, es with
  | [], es =>
    obtain rfl := List.nil_perm.1 h
    refine ⟨Iff.rfl, fun r r' hr hr' => ?_⟩
    cases hr
    cases hr'
    exact .none
  | [d], es =>
    obtain rfl := List.singleton_perm.1 h
    refine ⟨Iff.rfl, fun r r' hr hr' => ?_⟩
    cases hr
    cases hr'
    exact .some BEq.rfl
  | d :: d' :: ds, [] => exact absurd h.symm (by simp)
  | d :: d' :: ds, [e] => exact absurd h.length_eq (by simp)
  | d :: d' :: ds, e :: e' :: es =>
    obtain ⟨hok, hmeets⟩ := foldlM_intersection (List.cons_ne_nil d' ds) hplain
    obtain ⟨hok', hmeets'⟩ := foldlM_intersection (List.cons_ne_nil e' es) (hplain.perm h)
    simp only [meet?, map_eq_ok]
    constructor
    · have hcommon : HaveCommonShape (d :: d' :: ds) ↔ HaveCommonShape (e :: e' :: es) := by
        simp only [HaveCommonShape, h.mem_iff]
      constructor
      · rintro ⟨-, r, hr, -⟩
        obtain ⟨r', hr'⟩ := hok'.2 (hcommon.1 (hok.1 ⟨r, hr⟩))
        exact ⟨_, r', hr', rfl⟩
      · rintro ⟨-, r', hr', -⟩
        obtain ⟨r, hr⟩ := hok.2 (hcommon.2 (hok'.1 ⟨r', hr'⟩))
        exact ⟨_, r, hr, rfl⟩
    · rintro - - ⟨r, hr, rfl⟩ ⟨r', hr', rfl⟩
      exact .some ((hmeets r hr).beq (fun d => h.mem_iff) (hmeets' r' hr'))

end Schema

namespace ObjectSchema

/-! ## Whole merges -/

/-- The declarations of every property leave only shapes of `p`. -/
def LeavesOnly (p : Schema → Prop) (schemas : List ObjectSchema) : Prop :=
  ∀ name, Schema.LeavesOnly p (declarations name (allEntries schemas))

/-- Two lists of schemas can be merged or not together, and with equal results. -/
def MergesLike (schemas others : List ObjectSchema) : Prop :=
  ((∃ m, merge schemas = .ok m) ↔ ∃ m, merge others = .ok m) ∧
    ∀ m m', merge schemas = .ok m → merge others = .ok m' → (m == m') = true

lemma allEntries_perm {schemas others : List ObjectSchema} (h : schemas.Perm others) :
    (allEntries schemas).Perm (allEntries others) := h.flatMap_right _

lemma sameRequired_allRequired {schemas others : List ObjectSchema} (h : schemas.Perm others) :
    sameRequired (allRequired none schemas) (allRequired none others) = true := by
  rw [sameRequired_iff_mem, Bool.eq_iff_iff, isSome_allRequired, isSome_allRequired]
  simp only [mem_allRequired, h.mem_iff, implies_true, and_self]

/-- **Where only plain shapes are left, the order of the members does not matter.** -/
theorem merge_perm {schemas others : List ObjectSchema} (h : schemas.Perm others)
    (hplain : LeavesOnly Schema.IsPlain schemas) : MergesLike schemas others := by
  have hnil : schemas = [] ↔ others = [] :=
    ⟨fun hnil => List.nil_perm.1 (hnil ▸ h), fun hnil => List.perm_nil.1 (hnil ▸ h)⟩
  have hmeet : ∀ name, Agree (Option.Rel fun r r' : Schema => (r == r') = true)
      (Schema.meet? (declarations name (allEntries schemas)))
      (Schema.meet? (declarations name (allEntries others))) := fun name =>
    agree_iff.2 (Schema.meet?_perm (declarations_perm (allEntries_perm h) name) (hplain name))
  refine agree_iff.1 (agree_merge hnil ?_ hmeet (sameRequired_allRequired h))
  simp only [h.mem_iff]

end ObjectSchema

/-! ## No other shape can be spared -/

namespace Schema

mutual

/-- How many levels of alternatives and items a schema has. -/
def height : Schema → Nat
  | .array items => heights items + 1
  | .anyOf alternatives => heights alternatives + 1
  | _ => 0

/-- The greatest height in a list. -/
def heights : List Schema → Nat
  | [] => 0
  | s :: rest => max s.height (heights rest)

end

lemma heights_le_iff {ss : List Schema} {n : Nat} : heights ss ≤ n ↔ ∀ s ∈ ss, s.height ≤ n := by
  induction ss with
  | nil => simp [heights]
  | cons s rest ih => rw [heights, Nat.max_le, ih, List.forall_mem_cons]

lemma height_le_heights {s : Schema} {ss : List Schema} (h : s ∈ ss) : s.height ≤ heights ss :=
  heights_le_iff.1 le_rfl s h

lemma heights_eq_of_rel {xs ys : List Schema}
    (hheight : ∀ x ∈ xs, ∀ y, (x == y) = true → x.height = y.height)
    (h : Multiset.Rel (fun x y : Schema => (x == y) = true) (xs : Multiset Schema)
      (ys : Multiset Schema)) : heights xs = heights ys := by
  apply le_antisymm
  · refine heights_le_iff.2 fun x hx => ?_
    obtain ⟨y, hy, hxy⟩ := Multiset.exists_mem_of_rel_of_mem h hx
    exact (hheight x hx y hxy).trans_le (height_le_heights hy)
  · refine heights_le_iff.2 fun y hy => ?_
    obtain ⟨x, hx, hxy⟩ := Multiset.exists_mem_of_rel_of_mem (Multiset.rel_flip.2 h) hy
    exact (hheight x hx y hxy).symm.trans_le (height_le_heights hx)

lemma rel_of_isEqv {xs ys : List Schema} (h : xs.isEqv ys Schema.same = true) :
    Multiset.Rel (fun x y : Schema => (x == y) = true) (xs : Multiset Schema)
      (ys : Multiset Schema) := by
  induction xs generalizing ys with
  | nil =>
    cases ys with
    | nil => exact Multiset.Rel.zero
    | cons _ _ => cases h
  | cons x xs ih =>
    cases ys with
    | nil => cases h
    | cons y ys =>
      rw [List.isEqv_cons_cons, Bool.and_eq_true] at h
      rw [← Multiset.cons_coe, ← Multiset.cons_coe]
      exact Multiset.Rel.cons h.1 (ih h.2)

/-- Equal schemas have the same height. -/
theorem height_eq_of_beq {x y : Schema} (h : (x == y) = true) : x.height = y.height := by
  have key : (∀ x : Schema, ∀ y : Schema, (x == y) = true → x.height = y.height) ∧
      ∀ _ : ObjectSchema, True := by
    refine Schema.induction ?object ?array ?primitive ?multiType ?anyOf ?ref fun _ _ _ => trivial
    case array =>
      intro items hitems y hy
      cases y with
      | array others =>
        have heqv := (Schema.sameItems_eq items others).symm.trans hy
        rw [height, height, heights_eq_of_rel hitems (rel_of_isEqv heqv)]
      | _ => exact absurd hy Bool.false_ne_true
    case anyOf =>
      intro alternatives halternatives y hy
      cases y with
      | anyOf others =>
        rw [height, height, heights_eq_of_rel halternatives (anyOf_beq_iff.1 hy)]
      | _ => exact absurd hy Bool.false_ne_true
    case object =>
      intro o _ y hy
      cases y with
      | object _ => rfl
      | _ => exact absurd hy Bool.false_ne_true
    case primitive =>
      intro p y hy
      cases y with
      | primitive _ => rfl
      | _ => exact absurd hy Bool.false_ne_true
    case multiType =>
      intro kinds y hy
      cases y with
      | multiType _ => rfl
      | _ => exact absurd hy Bool.false_ne_true
    case ref =>
      intro target y hy
      cases y with
      | ref _ => rfl
      | _ => exact absurd hy Bool.false_ne_true
  exact key.1 x y h

lemma beq_eq_false_of_height_ne {x y : Schema} (h : x.height ≠ y.height) : (x == y) = false :=
  Bool.eq_false_iff.2 fun hxy => h (height_eq_of_beq hxy)

lemma height_array_singleton (x : Schema) : (Schema.array [x]).height = x.height + 1 := by
  simp [height, heights]

/-- A shape that is not plain offers neither itself nor a list of itself. -/
lemma not_contains_alternatives {x : Schema} (hx : ¬x.IsPlain) {shapes : List Schema}
    (hshapes : x.alternatives = .ok shapes) :
    shapes.contains x = false ∧ shapes.contains (.array [x]) = false := by
  have hfalse : ∀ z, (∀ y ∈ shapes, (z == y) = false) → shapes.contains z = false := by
    intro z hz
    rw [Bool.eq_false_iff]
    intro hmem
    obtain ⟨y, hy, hzy⟩ := List.contains_iff_exists_mem_beq.1 hmem
    rw [hz y hy] at hzy
    exact absurd hzy Bool.false_ne_true
  cases x with
  | object _ => exact absurd trivial hx
  | array _ => exact absurd trivial hx
  | primitive _ => exact absurd trivial hx
  | ref _ => cases hshapes
  | multiType kinds =>
    obtain rfl := Except.ok.inj hshapes
    refine ⟨hfalse _ fun y hy => ?_, hfalse _ fun y hy => ?_⟩ <;>
    · obtain ⟨kind, -, rfl⟩ := List.mem_map.1 hy
      rfl
  | anyOf alternatives =>
    obtain rfl := Except.ok.inj hshapes
    have hheight : ∀ y ∈ alternatives, y.height < (Schema.anyOf alternatives).height := fun y hy =>
      Nat.lt_succ_of_le (height_le_heights hy)
    refine ⟨hfalse _ fun y hy => beq_eq_false_of_height_ne ?_,
      hfalse _ fun y hy => beq_eq_false_of_height_ne ?_⟩
    · exact (hheight y hy).ne'
    · rw [height_array_singleton]
      exact ((hheight y hy).trans (Nat.lt_succ_self _)).ne'

/-- A choice between a shape and a list of it. -/
def orItsList (x : Schema) : Schema := .anyOf [x, .array [x]]

/-- A choice between a shape and `null`. -/
def orNull (x : Schema) : Schema := .anyOf [x, ofKind .null]

lemma common_orItsList (x : Schema) : common [x, .array [x]] [x, .array [x]] = [x, .array [x]] := by
  have hne : (Schema.array [x] == x) = false :=
    beq_eq_false_of_height_ne (by rw [height_array_singleton]; omega)
  simp [common, firstOccurrences, appendNew, List.contains_cons, hne]

lemma common_orNull (x : Schema) : common [x, .array [x]] [x, ofKind .null] = [x] := by
  have hne : (Schema.array [x] == x) = false :=
    beq_eq_false_of_height_ne (by rw [height_array_singleton]; omega)
  have hnull : (Schema.array [x] == ofKind .null) = false := rfl
  simp [common, firstOccurrences, appendNew, List.contains_cons, hne, hnull]

/-- Met twice with itself first, a choice between a shape and its list keeps the shape in a choice
until the end. -/
lemma exists_meet?_late (x : Schema) :
    ∃ r, meet? [orItsList x, orItsList x, orNull x] = .ok r := by
  have hfirst : (orItsList x).intersection (orItsList x) = .ok (orItsList x) := by
    refine intersection_eq_ok.2 ⟨_, _, rfl, rfl, ?_, ?_⟩ <;> rw [common_orItsList]
    · exact List.cons_ne_nil _ _
    · rfl
  have hsecond : (orItsList x).intersection (orNull x) = .ok x := by
    refine intersection_eq_ok.2 ⟨_, _, rfl, rfl, ?_, ?_⟩ <;> rw [common_orNull]
    · exact List.cons_ne_nil _ _
    · rfl
  refine ⟨some x, ?_⟩
  simp only [meet?, map_eq_ok, List.foldlM_cons, List.foldlM_nil, bind_eq_ok, pure_eq_ok]
  exact ⟨x, ⟨_, hfirst, x, hsecond, rfl⟩, rfl⟩

/-- Met early, the shape is alone, and the last step does not find it again. -/
lemma not_exists_meet?_early {x : Schema} (hx : ¬x.IsPlain) :
    ¬∃ r, meet? [orItsList x, orNull x, orItsList x] = .ok r := by
  rintro ⟨r, hr⟩
  simp only [meet?, map_eq_ok, List.foldlM_cons, List.foldlM_nil, bind_eq_ok, pure_eq_ok] at hr
  obtain ⟨-, ⟨first, hfirst, last, hlast, -⟩, -⟩ := hr
  obtain ⟨as, bs, has, hbs, -, rfl⟩ := intersection_eq_ok.1 hfirst
  obtain rfl := Except.ok.inj has
  obtain rfl := Except.ok.inj hbs
  rw [common_orNull] at hlast
  obtain ⟨as, bs, has, hbs, hne, -⟩ := intersection_eq_ok.1 hlast
  obtain rfl := Except.ok.inj hbs
  obtain ⟨hnot, hnotList⟩ := not_contains_alternatives hx has
  obtain ⟨z, rest, hz⟩ := List.exists_cons_of_ne_nil hne
  have hmem : (common as [x, .array [x]]).contains z = true := by simp [hz]
  rw [contains_common, Bool.and_eq_true] at hmem
  obtain ⟨y, hy, hzy⟩ := List.contains_iff_exists_mem_beq.1 hmem.2
  have hcontains : as.contains y = true := (List.contains_congr hzy).symm.trans hmem.1
  rcases List.mem_cons.1 hy with rfl | hy
  · rw [hnot] at hcontains
    exact absurd hcontains Bool.false_ne_true
  · rw [List.mem_singleton.1 hy, hnotList] at hcontains
    exact absurd hcontains Bool.false_ne_true

end Schema

namespace ObjectSchema

/-- The object schema that declares one property. -/
def declaring (name : String) (s : Schema) : ObjectSchema := { properties := [(name, s)] }

lemma exists_merge_declaring_iff (name : String) (a b c : Schema) :
    (∃ m, merge [declaring name a, declaring name b, declaring name c] = .ok m) ↔
      ∃ r, Schema.meet? [a, b, c] = .ok r := by
  have hentries : allEntries [declaring name a, declaring name b, declaring name c] =
      [(name, a), (name, b), (name, c)] := rfl
  have hmerge : (∃ m, merge [declaring name a, declaring name b, declaring name c] = .ok m) ↔
      ∃ out, mergeProperties [] [(name, a), (name, b), (name, c)] = .ok out := by
    simp only [merge_eq_ok, hentries]
    constructor
    · rintro ⟨m, -, -, out, hout, -⟩
      exact ⟨out, hout⟩
    · rintro ⟨out, hout⟩
      exact ⟨_, List.cons_ne_nil _ _, by simp [declaring, isComposed], out, hout, rfl⟩
  rw [hmerge, exists_mergeProperties_iff]
  constructor
  · intro h
    simpa [declarations] using h name
  · intro h other
    by_cases hname : name = other
    · subst hname
      simpa [declarations] using h
    · exact ⟨none, by simp [declarations, hname, Schema.meet?]⟩

lemma leavesOnly_declaring {p : Schema → Prop} {x : Schema} (hx : p x) (name : String) :
    LeavesOnly p [declaring name x.orItsList, declaring name x.orItsList,
      declaring name x.orNull] := by
  have hentries : allEntries [declaring name x.orItsList, declaring name x.orItsList,
      declaring name x.orNull] =
    [(name, x.orItsList), (name, x.orItsList), (name, x.orNull)] := rfl
  have hoffers : ∀ d ∈ [x.orItsList, x.orItsList, x.orNull], d.Offers x := by
    have hcontains : ∀ rest, (x :: rest).contains x = true := by simp
    simp only [List.forall_mem_cons]
    exact ⟨⟨_, rfl, hcontains _⟩, ⟨_, rfl, hcontains _⟩, ⟨_, rfl, hcontains _⟩, nofun⟩
  intro other es hes htwo _ y hy
  have hmem : ∀ d ∈ es, d ∈ [x.orItsList, x.orItsList, x.orNull] := by
    intro d hd
    have hd' := hes.subset hd
    simp only [hentries, declarations, List.mem_map, List.mem_filter] at hd'
    obtain ⟨entry, ⟨hentry, -⟩, rfl⟩ := hd'
    simp only [List.mem_cons, List.not_mem_nil, or_false] at hentry ⊢
    rcases hentry with rfl | rfl | rfl <;> simp
  have hxy : (x == y) = true := hy.2 x fun d hd => hoffers d (hmem d hd)
  exact ⟨x, hx, BEq.symm hxy⟩

/-- **The order of a merge does not matter where only plain shapes are left, and only there.**  All
orders of members that leave only shapes of a class merge alike if and only if the shapes of the
class are plain. -/
theorem merge_perm_iff (p : Schema → Prop) :
    (∀ schemas others : List ObjectSchema, schemas.Perm others → LeavesOnly p schemas →
      MergesLike schemas others) ↔ ∀ x, p x → x.IsPlain := by
  constructor
  · intro h x hx
    by_contra hplain
    have hperm : [declaring "p" x.orItsList, declaring "p" x.orItsList, declaring "p" x.orNull].Perm
        [declaring "p" x.orItsList, declaring "p" x.orNull, declaring "p" x.orItsList] :=
      (List.Perm.swap _ _ _).cons _
    have hlike := h _ _ hperm (leavesOnly_declaring hx "p")
    rw [MergesLike, exists_merge_declaring_iff, exists_merge_declaring_iff] at hlike
    exact Schema.not_exists_meet?_early hplain (hlike.1.1 (Schema.exists_meet?_late x))
  · exact fun hp schemas others h hleaves => merge_perm h fun name => (hleaves name).imp hp

/-- A choice between types, a choice between kinds and a kind, in two orders: whatever any two of
them have in common is plain. -/
theorem merge_perm_iff_scalars :
    let wide := declaring "p" (.anyOf [.ofKind .integer, .ofKind .string, .ofKind .null])
    let types := declaring "p" (.multiType [.string, .integer])
    let narrow := declaring "p" (.ofKind .integer)
    LeavesOnly Schema.IsPlain [wide, types, narrow] ∧
      MergesLike [wide, types, narrow] [narrow, types, wide] := by
  intro wide types narrow
  have hperm : [wide, types, narrow].Perm [narrow, types, wide] :=
    (List.reverse_perm [wide, types, narrow]).symm
  have hleaves : LeavesOnly Schema.IsPlain [wide, types, narrow] := by
    intro name
    refine Schema.leavesOnly_of_alternatives fun d hd shapes hshapes y hy => ?_
    have hd' : d = .anyOf [.ofKind .integer, .ofKind .string, .ofKind .null] ∨
        d = .multiType [.string, .integer] ∨ d = .ofKind .integer := by
      have hmem := List.mem_map.1 hd
      simp only [List.mem_filter, allEntries, wide, types, narrow, declaring] at hmem
      grind
    rcases hd' with rfl | rfl | rfl <;> obtain rfl := Except.ok.inj hshapes <;>
      simp only [List.mem_cons, List.map_cons, List.map_nil, List.not_mem_nil, or_false] at hy
    · rcases hy with rfl | rfl | rfl <;> trivial
    · rcases hy with rfl | rfl <;> trivial
    · exact hy ▸ trivial
  exact ⟨hleaves, (merge_perm_iff Schema.IsPlain).2 (fun _ h => h) _ _ hperm hleaves⟩

/-- The order matters already for alternatives that are choices between types: the common choice
`integer` or `string` of the first two is narrowed to `integer` by the third, but the third has
nothing in common with either of them alone. -/
theorem merge_order_matters :
    let first := declaring "p" (.anyOf [.multiType [.integer, .string], .ofKind .null])
    let second := declaring "p" (.anyOf [.multiType [.integer, .string], .ofKind .boolean])
    let third := declaring "p" (.ofKind .integer)
    [first, second, third].Perm [third, second, first] ∧
      (∃ m, merge [first, second, third] = .ok m) ∧ ¬∃ m, merge [third, second, first] = .ok m := by
  intro first second third
  refine ⟨(List.reverse_perm [first, second, third]).symm, ⟨_, rfl⟩, ?_⟩
  rintro ⟨m, hm⟩
  cases hm

end ObjectSchema
end TypedSchema
